import TokenParsing.Proofs.Settings.Values

/-!
# Reading a line

A line ends at the first newline ahead or with the text (`AtLine`). The parsers of a line read it up to there, newline
included, or fail: what they read is the whole piece, and it is written as the line grammar says
(`parse_line_eq_ok_iff`).
-/

namespace TokenParsing.Settings

open TokenParsing.Parser TokenParsing.TokenStream

variable {s : TokenStream Char} {piece : List Char} {more : Option (List Char)}

/-! ## Characters of a line -/

/-- The characters that may stand after a word are not part of it. -/
theorem isIdentRest_eq_false {c : Char} (h : c ∈ [' ', '\t', '\r', '\n', '#', '=']) : Text.isIdentRest c = false := by
  have hall : [' ', '\t', '\r', '\n', '#', '='].all (fun d => !Text.isIdentRest d) = true := by decide +kernel
  simpa using List.all_eq_true.1 hall c h

theorem isIdentRest_eq_false_of_blank {c : Char} (h : c ∈ Text.inlineBlanks) : Text.isIdentRest c = false :=
  isIdentRest_eq_false ((by decide : Text.inlineBlanks ⊆ [' ', '\t', '\r', '\n', '#', '=']) h)

theorem isIdentRest_eq_false_of_close {c : Char} (h : c ∈ ['\r', '\n', '#']) : Text.isIdentRest c = false :=
  isIdentRest_eq_false ((by decide : ['\r', '\n', '#'] ⊆ [' ', '\t', '\r', '\n', '#', '=']) h)

/-- What may close a line is not a blank. -/
theorem mem_inlineBlanks_eq_false_of_close {c : Char} (h : c ∈ ['\r', '\n', '#']) :
    decide (c ∈ Text.inlineBlanks) = false := by
  have hall : ['\r', '\n', '#'].all (fun d => !decide (d ∈ Text.inlineBlanks)) = true := by decide
  simpa using List.all_eq_true.1 hall c h

theorem IsIdent.isIdentRest {key : List Char} (h : IsIdent key) : ∀ c ∈ key, Text.isIdentRest c = true := by
  cases key with
  | nil => exact h.elim
  | cons c cs =>
    obtain ⟨hc, hcs⟩ := h
    intro d hd
    rcases List.mem_cons.1 hd with rfl | hd
    · exact Text.isIdentRest_of_isIdentStart hc
    · exact hcs d hd

/-- A word does not start with a blank. -/
theorem IsIdent.stopsAt_blank {key : List Char} (h : IsIdent key) (rest : List Char) :
    StopsAt (· ∈ Text.inlineBlanks) (key ++ rest) := by
  cases key with
  | nil => exact h.elim
  | cons c cs =>
    refine stopsAt_cons ?_ _
    rw [decide_eq_false_iff_not]
    intro hb
    have := isIdentRest_eq_false_of_blank hb
    rw [h.isIdentRest c (by simp)] at this
    nomatch this

/-- A word does not go on with blanks. -/
theorem stopsAt_isIdentRest_of_blank {b rest : List Char} (h : Blank b) (hstop : StopsAt Text.isIdentRest rest) :
    StopsAt Text.isIdentRest (b ++ rest) := by
  cases b with
  | nil => exact hstop
  | cons c cs => exact stopsAt_cons (isIdentRest_eq_false_of_blank (h c (by simp))) _

theorem newline_not_mem_of_blank {cs : List Char} (h : Blank cs) : '\n' ∉ cs :=
  fun hn => absurd (h _ hn) (by decide)

theorem newline_not_mem_of_isIdent {key : List Char} (h : IsIdent key) : '\n' ∉ key := by
  intro hn
  have := isIdentRest_eq_false (c := '\n') (by simp)
  rw [h.isIdentRest _ hn] at this
  nomatch this

/-- A value stands on one line. -/
theorem newline_not_mem_of_valueText {cs : List Char} {v : Value} (h : ValueText cs v) : '\n' ∉ cs := by
  cases h with
  | string hall =>
    intro hn
    simp only [List.mem_cons, List.mem_append, List.not_mem_nil, or_false] at hn
    rcases hn with hn | hn | hn
    · exact absurd hn (by decide)
    · exact (hall _ hn).2 rfl
    · exact absurd hn (by decide)
  | integer negative hne hd =>
    intro hn
    rcases List.mem_append.1 hn with hn | hn
    · cases negative <;> simp [signText] at hn
    · exact absurd (hd _ hn) (by decide)
  | yes => decide
  | no => decide

/-- A value does not start with a blank. -/
theorem stopsAt_blank_of_valueText {cs rest : List Char} {v : Value} (h : ValueText cs v) :
    StopsAt (· ∈ Text.inlineBlanks) (cs ++ rest) := by
  cases h with
  | string hall => exact stopsAt_cons (by decide) _
  | integer negative hne hd =>
    obtain ⟨c, cs', he, hfirst⟩ := head?_integer negative hne hd
    rw [he]
    apply stopsAt_cons
    rw [decide_eq_false_iff_not]
    intro hb
    simp only [Text.inlineBlanks, List.mem_cons, List.not_mem_nil, or_false] at hb
    rcases hb with rfl | rfl <;> rcases hfirst with h | h <;> exact absurd h (by decide)
  | yes => exact stopsAt_cons (by decide) _
  | no => exact stopsAt_cons (by decide) _

/-! ## Where a line ends -/

/-- What comes after a line: nothing after the last one, else a newline and the lines after it. -/
def afterLine : Option (List Char) → List Char
  | none => []
  | some cs => '\n' :: cs

/-- The newline that ends a line, if one does. -/
def lineFeed : Option (List Char) → List Char
  | none => []
  | some _ => ['\n']

/-- The characters ahead are a line, or the rest of one, and what comes after it. -/
structure AtLine (s : TokenStream Char) (piece : List Char) (more : Option (List Char)) : Prop where
  rest_eq : s.rest = piece ++ afterLine more
  newline : '\n' ∉ piece

/-- Characters other than newlines at the start of a line are part of it. -/
theorem append_eq_append_afterLine {w r : List Char} (h : w ++ r = piece ++ afterLine more) (hw : '\n' ∉ w) :
    ∃ piece', piece = w ++ piece' ∧ r = piece' ++ afterLine more := by
  rcases List.append_eq_append_iff.1 h with ⟨piece', hp, hr⟩ | ⟨beyond, hbeyond, hr⟩
  · exact ⟨piece', hp, hr⟩
  · cases beyond with
    | nil => exact ⟨[], by simpa using hbeyond.symm, by simpa using hr.symm⟩
    | cons c cs =>
      cases more with
      | none => nomatch hr
      | some cs' =>
        cases hr
        exact absurd (by simp [hbeyond]) hw

/-- Reading part of a line leaves the rest of it. -/
theorem AtLine.consume {s' : TokenStream Char} {w : List Char} (h : AtLine s piece more) (hc : s.Consumes w s')
    (hw : '\n' ∉ w) : ∃ piece', piece = w ++ piece' ∧ AtLine s' piece' more := by
  obtain ⟨piece', hp, hr⟩ := append_eq_append_afterLine (hc.2.symm.trans h.rest_eq) hw
  refine ⟨piece', hp, hr, fun hn => h.newline ?_⟩
  rw [hp]
  exact List.mem_append_right _ hn

/-- The rest of a line after a part that has been read. -/
theorem AtLine.of_consumes {s' : TokenStream Char} {w : List Char} (h : AtLine s (w ++ piece) more)
    (hc : s.Consumes w s') : AtLine s' piece more := by
  refine ⟨?_, fun hn => h.newline (List.mem_append_right _ hn)⟩
  have := hc.2.symm.trans h.rest_eq
  rw [List.append_assoc] at this
  exact List.append_cancel_left this

/-- A line, with the newline that ends it, can be consumed. -/
theorem AtLine.consumes (h : AtLine s piece more) : ∃ s', s.Consumes (piece ++ lineFeed more) s' := by
  cases more with
  | none =>
    have hr : s.rest = piece ++ lineFeed none ++ [] := by
      rw [h.rest_eq, List.append_nil]
      rfl
    exact ⟨_, consumes_of_rest hr⟩
  | some cs =>
    have hr : s.rest = piece ++ lineFeed (some cs) ++ cs := by
      rw [h.rest_eq, List.append_assoc]
      rfl
    exact ⟨_, consumes_of_rest hr⟩

/-- After a line and the newline that ends it, the lines after it are ahead, or nothing. -/
theorem AtLine.rest_after {s' : TokenStream Char} (h : AtLine s piece more)
    (hc : s.Consumes (piece ++ lineFeed more) s') : s'.rest = more.getD [] := by
  have hr := hc.2.symm.trans h.rest_eq
  cases more with
  | none => simpa [afterLine, lineFeed] using hr
  | some cs => simpa [afterLine, lineFeed] using hr

/-- A newline is one more character than the line it ends. -/
theorem position_after_newline {s' : TokenStream Char} {cs : List Char}
    (hc : s.Consumes (piece ++ lineFeed (some cs)) s') : s'.position = s.position + piece.length + 1 := by
  rw [hc.position_eq, List.length_append]
  rfl

/-- What comes after a line is not part of it. -/
theorem stopsAt_afterLine {accepts : Char → Bool} (h : accepts '\n' = false) (more : Option (List Char)) :
    StopsAt accepts (afterLine more) := by
  cases more with
  | none => exact stopsAt_nil accepts
  | some cs => exact stopsAt_cons h cs

/-- Where only a newline is not accepted, a parser stops at the end of the line. -/
theorem AtLine.eq_nil_of_stopsAt {accepts : Char → Bool} (h : AtLine s piece more) (hstop : StopsAt accepts s.rest)
    (hacc : ∀ c, c ≠ '\n' → accepts c = true) : piece = [] := by
  cases piece with
  | nil => rfl
  | cons c cs =>
    have hc : c ≠ '\n' := fun he => h.newline (by simp [he])
    have := hstop c (by simp [h.rest_eq])
    rw [hacc c hc] at this
    nomatch this

/-- A newline is next only at the end of a line that is not the last. -/
theorem AtLine.of_consumes_newline {s' : TokenStream Char} (h : AtLine s piece more) (hc : s.Consumes ['\n'] s') :
    piece = [] ∧ more.isSome = true ∧ lineFeed more = ['\n'] := by
  have hr : piece ++ afterLine more = '\n' :: s'.rest := h.rest_eq.symm.trans hc.2
  cases piece with
  | nil =>
    cases more with
    | none => nomatch hr
    | some cs => exact ⟨rfl, rfl, rfl⟩
  | cons c cs =>
    obtain ⟨rfl, -⟩ := List.cons.inj hr
    exact absurd (by simp) h.newline

/-- The blanks at the start of a line are read as far as they go. -/
theorem AtLine.parse_inlineWhitespace {b : List Char} (h : AtLine s (b ++ piece) more) (hb : Blank b)
    (hstop : StopsAt (· ∈ Text.inlineBlanks) (piece ++ afterLine more)) :
    ∃ s₁, inlineWhitespace.parse s = .ok ⟨String.ofList b, s₁⟩ ∧ s.Consumes b s₁ ∧ AtLine s₁ piece more := by
  have hr : s.rest = b ++ (piece ++ afterLine more) := by
    rw [h.rest_eq, List.append_assoc]
  have hc := consumes_of_rest hr
  refine ⟨s.advance b.length, parse_inlineWhitespace_eq_ok_iff.2 ⟨b, hc, hb, ?_, rfl⟩, hc, h.of_consumes hc⟩
  show StopsAt _ (s.advance b.length).rest
  rw [rest_advance_of_rest hr]
  exact hstop

/-! ## Comments and line breaks -/

/-- A comment is read up to the end of the line. -/
theorem AtLine.parse_comment_eq_ok_iff (h : AtLine s piece more) {r : Success Char (List Char)} :
    comment.parse s = .ok r ↔ piece = '#' :: r.value ∧ s.Consumes piece r.remaining := by
  rw [comment, seqRight_eq, parse_keepRight_eq_ok_iff]
  refine ⟨fun hleft => ?_, fun hright => ?_⟩
  · obtain ⟨r₁, h₁, h₂⟩ := hleft
    obtain ⟨hmark, -⟩ := parse_token_eq_ok_iff.1 h₁
    obtain ⟨hbody, hall, hstop, -⟩ := parse_repeated_accept_eq_ok_iff.1 h₂
    have hc : s.Consumes ('#' :: r.value) r.remaining := hmark.trans hbody
    obtain ⟨piece', hp, hat⟩ := h.consume hc (by simpa using fun hn => absurd (hall _ hn) (by decide))
    have hnil : piece' = [] := hat.eq_nil_of_stopsAt hstop fun c hne => by simpa using hne
    rw [hnil, List.append_nil] at hp
    exact ⟨hp, hp ▸ hc⟩
  · obtain ⟨rfl, hc⟩ := hright
    obtain ⟨s₁, hmark, hbody⟩ := consumes_append_iff.1 (show s.Consumes (['#'] ++ r.value) r.remaining from hc)
    have hat : AtLine r.remaining [] more := AtLine.of_consumes (by simpa using h) hc
    refine ⟨⟨'#', s₁⟩, parse_token_eq_ok_iff.2 ⟨hmark, rfl⟩,
      parse_repeated_accept_eq_ok_iff.2 ⟨hbody, fun c hmem => ?_, ?_, Nat.zero_le _⟩⟩
    · have : c ≠ '\n' := fun he => h.newline (he ▸ List.mem_cons_of_mem _ hmem)
      simpa using this
    · rw [hat.rest_eq]
      exact stopsAt_afterLine (by decide) more

/-- Without the mark of a comment there is none. -/
theorem parse_comment_eq_error_of_stopsAt (h : StopsAt (· = '#') s.rest) : ∃ e, comment.parse s = .error e := by
  obtain ⟨e, he⟩ := parse_token_eq_error_iff.2 h
  refine ⟨e, ?_⟩
  rw [comment, seqRight_eq, parse_keepRight, he]

/-- A newline, after a carriage return or not. -/
theorem AtLine.parse_newline_eq_ok_iff (h : AtLine s piece more) {r : Success Char Char} :
    (skipChar '\r' *> token '\n').parse s = .ok r ↔
      more.isSome = true ∧ (piece = [] ∨ piece = ['\r']) ∧ s.Consumes (piece ++ lineFeed more) r.remaining ∧
        r.value = '\n' := by
  rw [seqRight_eq, parse_keepRight_eq_ok_iff]
  refine ⟨fun hleft => ?_, fun hright => ?_⟩
  · obtain ⟨r₁, h₁, h₂⟩ := hleft
    obtain ⟨hfeed, hv⟩ := parse_token_eq_ok_iff.1 h₂
    rcases parse_skipChar_eq_ok_iff.1 h₁ with hreturn | ⟨-, hr⟩
    · obtain ⟨piece', rfl, hat⟩ := h.consume hreturn (by decide)
      obtain ⟨rfl, hmore, hlf⟩ := hat.of_consumes_newline hfeed
      refine ⟨hmore, Or.inr rfl, ?_, hv⟩
      rw [hlf]
      exact hreturn.trans hfeed
    · rw [hr] at hfeed
      obtain ⟨rfl, hmore, hlf⟩ := h.of_consumes_newline hfeed
      refine ⟨hmore, Or.inl rfl, ?_, hv⟩
      rw [hlf]
      exact hfeed
  · obtain ⟨hmore, hpiece, hc, hv⟩ := hright
    have hlf : lineFeed more = ['\n'] := by
      cases more with
      | none => nomatch hmore
      | some cs => rfl
    rw [hlf] at hc
    obtain ⟨s₁, hreturn, hfeed⟩ := consumes_append_iff.1 hc
    refine ⟨⟨(), s₁⟩, parse_skipChar_eq_ok_iff.2 ?_, parse_token_eq_ok_iff.2 ⟨hfeed, hv⟩⟩
    rcases hpiece with rfl | rfl
    · obtain rfl := consumes_nil_iff.1 hreturn
      refine Or.inr ⟨?_, rfl⟩
      rw [h.rest_eq]
      exact stopsAt_afterLine (by decide) more
    · exact Or.inl hreturn

/-- A line break ends a line that has no more characters, but for a carriage return before a newline. -/
theorem AtLine.parse_lineBreak_eq_ok_iff (h : AtLine s piece more) {r : Success Char Unit} :
    lineBreak.parse s = .ok r ↔
      (piece = [] ∨ more.isSome = true ∧ piece = ['\r']) ∧ s.Consumes (piece ++ lineFeed more) r.remaining := by
  rw [lineBreak, parse_mapFailure_eq_ok_iff, orElse_eq, parse_orElse_eq_ok_iff, parse_map_eq_ok_iff]
  refine ⟨fun hleft => ?_, fun hright => ?_⟩
  · rcases hleft with ⟨r₁, h₁, rfl⟩ | ⟨-, hend⟩
    · obtain ⟨hmore, hpiece, hc, -⟩ := h.parse_newline_eq_ok_iff.1 h₁
      rcases hpiece with hpiece | hpiece
      · exact ⟨Or.inl hpiece, hc⟩
      · exact ⟨Or.inr ⟨hmore, hpiece⟩, hc⟩
    · obtain ⟨hrest, hr⟩ := parse_endOfInput_eq_ok_iff.1 hend
      obtain ⟨rfl, hafter⟩ := List.append_eq_nil_iff.1 (h.rest_eq.symm.trans hrest)
      cases more with
      | none => exact ⟨Or.inl rfl, hr ▸ Consumes.refl s⟩
      | some cs => nomatch hafter
  · obtain ⟨hpiece, hc⟩ := hright
    cases more with
    | some cs =>
      refine Or.inl ⟨⟨'\n', r.remaining⟩, h.parse_newline_eq_ok_iff.2 ⟨rfl, ?_, hc, rfl⟩, rfl⟩
      rcases hpiece with hpiece | ⟨-, hpiece⟩
      · exact Or.inl hpiece
      · exact Or.inr hpiece
    | none =>
      rcases hpiece with rfl | ⟨hmore, -⟩
      · -- At the end of the text there is no newline to read, so the second alternative is reached.
        refine Or.inr ⟨?_, parse_endOfInput_eq_ok_iff.2 ⟨h.rest_eq, consumes_nil_iff.1 hc⟩⟩
        rw [parse_map]
        cases hnewline : (skipChar '\r' *> token '\n').parse s with
        | error e => exact ⟨e, rfl⟩
        | ok r₁ => nomatch (h.parse_newline_eq_ok_iff.1 hnewline).1
      · nomatch hmore

/-! ## The end of a line -/

theorem LineClose.stopsAt {terminated : Bool} {close : List Char} (h : LineClose terminated close)
    {accepts : Char → Bool} (hacc : ∀ c ∈ ['\r', '\n', '#'], accepts c = false) (more : Option (List Char)) :
    StopsAt accepts (close ++ afterLine more) := by
  cases h with
  | nothing => exact stopsAt_afterLine (hacc '\n' (by simp)) more
  | comment body => exact stopsAt_cons (hacc '#' (by simp)) _
  | carriageReturn ht => exact stopsAt_cons (hacc '\r' (by simp)) _

/-- What may follow a value does not go on with a word. -/
theorem LineTail.stopsAt {terminated : Bool} {tail : List Char} (h : LineTail terminated tail)
    (more : Option (List Char)) : StopsAt Text.isIdentRest (tail ++ afterLine more) := by
  obtain ⟨hb, hclose⟩ := h
  rw [List.append_assoc]
  exact stopsAt_isIdentRest_of_blank hb (hclose.stopsAt (fun c hc => isIdentRest_eq_false_of_close hc) more)

/-- The close of a line, after its blanks. -/
theorem AtLine.parse_close_eq_ok_iff (h : AtLine s piece more) {r : Success Char Unit} :
    (comment.optional.keepRight lineBreak).parse s = .ok r ↔
      LineClose more.isSome piece ∧ s.Consumes (piece ++ lineFeed more) r.remaining := by
  rw [parse_keepRight_eq_ok_iff]
  refine ⟨fun hleft => ?_, fun hright => ?_⟩
  · obtain ⟨r₁, hoptional, hbreak⟩ := hleft
    rcases parse_optional_eq_ok_iff.1 hoptional with ⟨r₂, hcomment, rfl⟩ | ⟨-, rfl⟩
    · obtain ⟨hpiece, hc⟩ := h.parse_comment_eq_ok_iff.1 hcomment
      have hat : AtLine r₂.remaining [] more := AtLine.of_consumes (by simpa using h) hc
      refine ⟨hpiece ▸ .comment r₂.value, hc.trans ?_⟩
      simpa using (hat.parse_lineBreak_eq_ok_iff.1 hbreak).2
    · obtain ⟨rfl | ⟨hmore, rfl⟩, hc⟩ := h.parse_lineBreak_eq_ok_iff.1 hbreak
      · exact ⟨.nothing, hc⟩
      · exact ⟨.carriageReturn hmore, hc⟩
  · obtain ⟨hclose, hc⟩ := hright
    have hskip : (∃ e, comment.parse s = .error e) → comment.optional.parse s = .ok ⟨none, s⟩ :=
      fun he => parse_optional_eq_ok_iff.2 (Or.inr ⟨he, rfl⟩)
    cases hclose with
    | nothing =>
      refine ⟨_, hskip (parse_comment_eq_error_of_stopsAt ?_), h.parse_lineBreak_eq_ok_iff.2 ⟨Or.inl rfl, hc⟩⟩
      rw [h.rest_eq]
      exact stopsAt_afterLine (by decide) more
    | comment body =>
      obtain ⟨s₁, hbody, hfeed⟩ := consumes_append_iff.1 hc
      have hat : AtLine s₁ [] more := AtLine.of_consumes (by simpa using h) hbody
      refine ⟨⟨some body, s₁⟩, parse_optional_eq_ok_iff.2 (Or.inl ⟨⟨body, s₁⟩, ?_, rfl⟩), ?_⟩
      · exact h.parse_comment_eq_ok_iff.2 ⟨rfl, hbody⟩
      · exact hat.parse_lineBreak_eq_ok_iff.2 ⟨Or.inl rfl, by simpa using hfeed⟩
    | carriageReturn ht =>
      refine ⟨_, hskip (parse_comment_eq_error_of_stopsAt ?_),
        h.parse_lineBreak_eq_ok_iff.2 ⟨Or.inr ⟨ht, rfl⟩, hc⟩⟩
      rw [h.rest_eq]
      exact stopsAt_cons (by decide) _

/-- A line without more to say is read to its end, and no other. -/
theorem AtLine.parse_lineEnd_eq_ok_iff (h : AtLine s piece more) {r : Success Char Unit} :
    lineEnd.parse s = .ok r ↔
      LineTail more.isSome piece ∧ s.Consumes (piece ++ lineFeed more) r.remaining := by
  rw [lineEnd, seqRight_eq, seqRight_eq, parse_keepRight_assoc, parse_keepRight_eq_ok_iff]
  refine ⟨fun hleft => ?_, fun hright => ?_⟩
  · obtain ⟨r₁, h₁, h₂⟩ := hleft
    obtain ⟨b, hc, hb, -, -⟩ := parse_inlineWhitespace_eq_ok_iff.1 h₁
    obtain ⟨close, rfl, hat⟩ := h.consume hc (newline_not_mem_of_blank hb)
    obtain ⟨hclose, hc'⟩ := hat.parse_close_eq_ok_iff.1 h₂
    refine ⟨.mk hb hclose, ?_⟩
    rw [List.append_assoc]
    exact hc.trans hc'
  · obtain ⟨⟨hb, hclose⟩, hc⟩ := hright
    obtain ⟨s₁, hread, hc₁, hat⟩ := h.parse_inlineWhitespace hb
      (hclose.stopsAt (fun c hc => mem_inlineBlanks_eq_false_of_close hc) more)
    rw [List.append_assoc] at hc
    obtain ⟨s₁', ⟨rfl, -⟩, hc₂⟩ := consumes_append_iff.1 hc
    obtain ⟨rfl, -⟩ := hc₁
    exact ⟨_, hread, hat.parse_close_eq_ok_iff.2 ⟨hclose, hc₂⟩⟩

/-! ## Entries -/

/-- A word is read as far as it goes. -/
theorem parse_ident_eq_ok_iff_isIdent {r : Success Char String} :
    ident.parse s = .ok r ↔
      ∃ key, s.Consumes key r.remaining ∧ IsIdent key ∧ StopsAt Text.isIdentRest r.remaining.rest ∧
        r.value = String.ofList key := by
  rw [parse_ident_eq_ok_iff]
  refine ⟨fun h => ?_, fun h => ?_⟩
  · obtain ⟨c, cs, hc, hstart, hcs, hstop, hv⟩ := h
    exact ⟨c :: cs, hc, ⟨hstart, hcs⟩, hstop, hv⟩
  · obtain ⟨key, hc, hkey, hstop, hv⟩ := h
    cases key with
    | nil => exact hkey.elim
    | cons c cs => exact ⟨c, cs, hc, hkey.1, hkey.2, hstop, hv⟩

/-- The key of an entry, with the blanks before it and the equals sign after it. -/
theorem parse_key_eq_ok_iff {r : Success Char (String × Span)} :
    ((inlineWhitespace *> ident.spanned) <* (token '=').padded inlineWhitespace).parse s = .ok r ↔
      ∃ b₁ key b₂ b₃, s.Consumes (b₁ ++ (key ++ (b₂ ++ '=' :: b₃))) r.remaining ∧ Blank b₁ ∧ IsIdent key ∧
        Blank b₂ ∧ Blank b₃ ∧ StopsAt (· ∈ Text.inlineBlanks) r.remaining.rest ∧
        r.value = (String.ofList key, ⟨s.position + b₁.length, s.position + b₁.length + key.length⟩) := by
  rw [seqLeft_eq, seqRight_eq, parse_keepLeft_eq_ok_iff]
  refine ⟨fun h => ?_, fun h => ?_⟩
  · obtain ⟨r₁, r₂, hread, hequals, rfl⟩ := h
    obtain ⟨r₃, h₁, hspanned⟩ := parse_keepRight_eq_ok_iff.1 hread
    obtain ⟨r₄, h₂, rfl⟩ := parse_spanned_eq_ok_iff.1 hspanned
    obtain ⟨b₁, hc₁, hb₁, -, -⟩ := parse_inlineWhitespace_eq_ok_iff.1 h₁
    obtain ⟨key, hc₂, hkey, -, hv⟩ := parse_ident_eq_ok_iff_isIdent.1 h₂
    obtain ⟨b₂, b₃, hc₃, hb₂, hb₃, hstop, -⟩ := (parse_token_padded_eq_ok_iff (by decide)).1 hequals
    refine ⟨b₁, key, b₂, b₃, hc₁.trans (hc₂.trans hc₃), hb₁, hkey, hb₂, hb₃, hstop, ?_⟩
    rw [hv, hc₂.position_eq, hc₁.position_eq]
  · obtain ⟨b₁, key, b₂, b₃, hc, hb₁, hkey, hb₂, hb₃, hstop, hv⟩ := h
    obtain ⟨s₁, hc₁, hc⟩ := consumes_append_iff.1 hc
    obtain ⟨s₂, hc₂, hc₃⟩ := consumes_append_iff.1 hc
    have hstop₁ : StopsAt (· ∈ Text.inlineBlanks) s₁.rest := by
      rw [hc₂.2]
      exact hkey.stopsAt_blank _
    have hstop₂ : StopsAt Text.isIdentRest s₂.rest := by
      rw [hc₃.2, List.append_assoc]
      exact stopsAt_isIdentRest_of_blank hb₂ (stopsAt_cons (isIdentRest_eq_false (by simp)) _)
    have h₁ : inlineWhitespace.parse s = .ok ⟨String.ofList b₁, s₁⟩ :=
      parse_inlineWhitespace_eq_ok_iff.2 ⟨b₁, hc₁, hb₁, hstop₁, rfl⟩
    have h₂ : ident.parse s₁ = .ok ⟨String.ofList key, s₂⟩ :=
      parse_ident_eq_ok_iff_isIdent.2 ⟨key, hc₂, hkey, hstop₂, rfl⟩
    have h₃ : ((token '=').padded inlineWhitespace).parse s₂ = .ok ⟨'=', r.remaining⟩ :=
      (parse_token_padded_eq_ok_iff (by decide)).2 ⟨b₂, b₃, hc₃, hb₂, hb₃, hstop, rfl⟩
    refine ⟨⟨(String.ofList key, ⟨s₁.position, s₂.position⟩), s₂⟩, ⟨'=', r.remaining⟩,
      parse_keepRight_eq_ok_iff.2 ⟨_, h₁, parse_spanned_eq_ok_iff.2 ⟨_, h₂, rfl⟩⟩, h₃, ?_⟩
    rw [hc₂.position_eq, hc₁.position_eq, ← hv]

/-- The parts of an entry, with the end of its line. -/
theorem parse_entry_eq_ok_iff {r : Success Char Entry} :
    entry.parse s = .ok r ↔
      ∃ r₁ r₂ r₃, ((inlineWhitespace *> ident.spanned) <* (token '=').padded inlineWhitespace).parse s = .ok r₁ ∧
        value.parse r₁.remaining = .ok r₂ ∧ lineEnd.parse r₂.remaining = .ok r₃ ∧
        r = ⟨⟨r₁.value.1, r₂.value, r₁.value.2⟩, r₃.remaining⟩ := by
  rw [entry, parse_map_eq_ok_iff]
  simp only [seqLeft_eq, parse_keepLeft_eq_ok_iff, parse_both_eq_ok_iff]
  refine ⟨fun h => ?_, fun h => ?_⟩
  · obtain ⟨_, ⟨_, r₃, ⟨r₁, r₂, h₁, h₂, rfl⟩, h₃, rfl⟩, rfl⟩ := h
    exact ⟨r₁, r₂, r₃, h₁, h₂, h₃, rfl⟩
  · obtain ⟨r₁, r₂, r₃, h₁, h₂, h₃, rfl⟩ := h
    exact ⟨_, ⟨_, r₃, ⟨r₁, r₂, h₁, h₂, rfl⟩, h₃, rfl⟩, rfl⟩

/-- A line that is read as an entry is written as one. -/
theorem AtLine.lineText_of_parse_entry (h : AtLine s piece more) {r : Success Char Entry}
    (hp : entry.parse s = .ok r) :
    LineText more.isSome s.position piece (some r.value) ∧ s.Consumes (piece ++ lineFeed more) r.remaining := by
  obtain ⟨r₁, r₂, r₃, h₁, h₂, h₃, rfl⟩ := parse_entry_eq_ok_iff.1 hp
  obtain ⟨b₁, key, b₂, b₃, hc₁, hb₁, hkey, hb₂, hb₃, -, hv⟩ := parse_key_eq_ok_iff.1 h₁
  obtain ⟨v, hc₂, hval⟩ := valueText_of_parse_value h₂
  have hc := hc₁.trans hc₂
  have hw : '\n' ∉ b₁ ++ (key ++ (b₂ ++ '=' :: b₃)) ++ v := by
    simp only [List.mem_append, List.mem_cons, not_or]
    exact ⟨⟨newline_not_mem_of_blank hb₁, newline_not_mem_of_isIdent hkey, newline_not_mem_of_blank hb₂, by decide,
      newline_not_mem_of_blank hb₃⟩, newline_not_mem_of_valueText hval⟩
  obtain ⟨tail, rfl, hat⟩ := h.consume hc hw
  obtain ⟨htail, hc₃⟩ := hat.parse_lineEnd_eq_ok_iff.1 h₃
  refine ⟨?_, ?_⟩
  · have hline : LineText more.isSome s.position _ _ := .entry hb₁ hkey hb₂ hb₃ hval htail
    simpa [hv] using hline
  · rw [List.append_assoc]
    exact hc.trans hc₃

/-- A line that is written as an entry is read as that entry. -/
theorem AtLine.parse_entry_of_lineText (h : AtLine s piece more) {e : Entry} {s' : TokenStream Char}
    (hl : LineText more.isSome s.position piece (some e)) (hc : s.Consumes (piece ++ lineFeed more) s') :
    entry.parse s = .ok ⟨e, s'⟩ := by
  cases hl with
  | entry hb₁ hkey hb₂ hb₃ hval htail =>
    rename_i b₁ key b₂ b₃ v tail val
    have hassoc : b₁ ++ key ++ b₂ ++ '=' :: (b₃ ++ v ++ tail) =
        (b₁ ++ (key ++ (b₂ ++ '=' :: b₃))) ++ (v ++ tail) := by simp
    rw [hassoc] at h hc
    rw [List.append_assoc (b₁ ++ (key ++ (b₂ ++ '=' :: b₃))), List.append_assoc v] at hc
    obtain ⟨s₁, hc₁, hc⟩ := consumes_append_iff.1 hc
    obtain ⟨s₂, hc₂, hc₃⟩ := consumes_append_iff.1 hc
    have hat₁ : AtLine s₁ (v ++ tail) more := h.of_consumes hc₁
    have hat₂ : AtLine s₂ tail more := hat₁.of_consumes hc₂
    have hstop₁ : StopsAt (· ∈ Text.inlineBlanks) s₁.rest := by
      rw [hat₁.rest_eq, List.append_assoc]
      exact stopsAt_blank_of_valueText hval
    have hstop₂ : StopsAt Text.isIdentRest s₂.rest := by
      rw [hat₂.rest_eq]
      exact htail.stopsAt more
    have h₁ := (parse_key_eq_ok_iff (s := s) (r := ⟨(String.ofList key, _), s₁⟩)).2
      ⟨b₁, key, b₂, b₃, hc₁, hb₁, hkey, hb₂, hb₃, hstop₁, rfl⟩
    have h₂ : value.parse s₁ = .ok ⟨val, s₂⟩ := parse_value_of_valueText hval hc₂ hstop₂
    have h₃ : lineEnd.parse s₂ = .ok ⟨(), s'⟩ := hat₂.parse_lineEnd_eq_ok_iff.2 ⟨htail, hc₃⟩
    exact parse_entry_eq_ok_iff.2 ⟨_, _, _, h₁, h₂, h₃, rfl⟩

/-! ## Lines -/

/-- A line without an entry has no word after its blanks. -/
theorem LineTail.stopsAt_dropWhile {terminated : Bool} {cs : List Char} (h : LineTail terminated cs) :
    StopsAt Text.isIdentRest (cs.dropWhile (· ∈ Text.inlineBlanks)) := by
  obtain ⟨hb, hclose⟩ := h
  have hstop : ∀ {accepts : Char → Bool}, (∀ c ∈ ['\r', '\n', '#'], accepts c = false) → StopsAt accepts _ :=
    fun hacc => by simpa [afterLine] using hclose.stopsAt hacc none
  rw [dropWhile_append_of_stopsAt (fun c hc => by simpa using hb c hc)
    (hstop fun c hc => mem_inlineBlanks_eq_false_of_close hc)]
  exact hstop fun c hc => isIdentRest_eq_false_of_close hc

/-- No line both makes an entry and makes none. -/
theorem LineTail.not_lineText_some {terminated terminated' : Bool} {start : Nat} {cs : List Char} {e : Entry}
    (h : LineTail terminated cs) : ¬LineText terminated' start cs (some e) := by
  intro hl
  have hstop := h.stopsAt_dropWhile
  cases hl with
  | entry hb₁ hkey hb₂ hb₃ hval htail =>
    rename_i b₁ key b₂ b₃ v tail val
    rw [List.append_assoc, List.append_assoc, dropWhile_append_of_stopsAt (fun c hc => by simpa using hb₁ c hc)
      (hkey.stopsAt_blank _)] at hstop
    cases key with
    | nil => exact hkey.elim
    | cons c cs =>
      have := hstop c rfl
      rw [Text.isIdentRest_of_isIdentStart hkey.1] at this
      nomatch this

/-- A line is read to its end, with the entry that it makes, and only if it is written as the grammar says. -/
theorem AtLine.parse_line_eq_ok_iff (h : AtLine s piece more) {r : Success Char (Option Entry)} :
    line.parse s = .ok r ↔
      LineText more.isSome s.position piece r.value ∧ s.Consumes (piece ++ lineFeed more) r.remaining := by
  rw [line, orElse_eq, parse_orElse_eq_ok_iff, parse_map_eq_ok_iff, parse_map_eq_ok_iff]
  refine ⟨fun hleft => ?_, fun hright => ?_⟩
  · rcases hleft with ⟨r₁, hentry, rfl⟩ | ⟨-, r₁, hend, rfl⟩
    · exact h.lineText_of_parse_entry hentry
    · obtain ⟨htail, hc⟩ := h.parse_lineEnd_eq_ok_iff.1 hend
      exact ⟨.blank htail, hc⟩
  · obtain ⟨hl, hc⟩ := hright
    obtain ⟨e?, s'⟩ := r
    cases e? with
    | some e => exact Or.inl ⟨⟨e, s'⟩, h.parse_entry_of_lineText hl hc, rfl⟩
    | none =>
      cases hl with
      | blank htail =>
        -- The entry is tried first: a line without one has to make it fail.
        refine Or.inr ⟨?_, ⟨(), s'⟩, h.parse_lineEnd_eq_ok_iff.2 ⟨htail, hc⟩, rfl⟩
        rw [parse_map]
        cases hentry : entry.parse s with
        | error e => exact ⟨e, rfl⟩
        | ok r₁ => exact absurd (h.lineText_of_parse_entry hentry).1 htail.not_lineText_some

end TokenParsing.Settings
