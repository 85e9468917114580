import TokenParsing.Proofs.Parser.MovedValues
import TokenParsing.Proofs.Settings.Lines

/-!
# How reading an entry fails

Two facts about the failures of `entry`. They move with the input, although an entry holds the place of its key and the
parsers of values answer places that they have read (`entry_movesTo`). And they have one cause, at a place on the line
where the entry was to be read (`AtLine.onLine_of_parse_entry`): whatever is read before an entry fails stands on one
line, and every part of an entry fails where it starts.
-/

namespace TokenParsing.Settings

open TokenParsing.Parser TokenParsing.TokenStream

variable {s : TokenStream Char} {piece : List Char} {more : Option (List Char)} {α β : Type}

/-- The parts of an entry, one after another. -/
theorem parse_entry (s : TokenStream Char) :
    entry.parse s =
      (inlineWhitespace.bind fun _ => ident.spanned.bind fun key =>
        ((token '=').padded inlineWhitespace).bind fun _ => value.bind fun v =>
          lineEnd.map fun _ => (⟨key.1, v, key.2⟩ : Entry)).parse s := by
  simp only [entry, seqLeft_eq, seqRight_eq, parse_map, parse_keepLeft, parse_both, parse_keepRight, parse_bind]
  cases inlineWhitespace.parse s with
  | error e => rfl
  | ok r₁ =>
    dsimp only
    cases ident.spanned.parse r₁.remaining with
    | error e => rfl
    | ok r₂ =>
      dsimp only
      cases ((token '=').padded inlineWhitespace).parse r₂.remaining with
      | error e => rfl
      | ok r₃ =>
        dsimp only
        cases value.parse r₃.remaining with
        | error e => rfl
        | ok r₄ =>
          dsimp only
          cases lineEnd.parse r₄.remaining <;> rfl

/-! ## Further along -/

section Moving

variable {distance : Nat}

/-- The entry as it is read `distance` characters further along. -/
def Entry.shift (distance : Nat) (e : Entry) : Entry :=
  ⟨e.key, e.value, e.span.shift distance⟩

/-- A parser that neither sees nor chooses positions is run further along for the same answer. -/
theorem equivariant_of_built {p : Parser Char α} (h : Built [] p) : p.Equivariant distance :=
  h.equivariant fun hne => absurd rfl hne

/-- A string is delimited by quotes, and its failure points at the opening one. -/
theorem equivariant_stringValue : stringValue.Equivariant distance := by
  have hquote : (token '\x22').Equivariant distance := equivariant_of_built (built_token _)
  exact (hquote.delimitedBy _ hquote (equivariant_of_built (built_noneOf _).many.asString)).map _

/-- A number that does not fit is refused at the place where it was read. -/
theorem equivariant_integerValue : integerValue.Equivariant distance := by
  have hread : ((token '-').optional.both (charRun Char.isDigit)).Equivariant distance :=
    equivariant_of_built ((built_token _).optional.both (built_charRun _))
  rw [integerValue, bind_eq]
  refine (hread.spanned_bind fun v sp => ?_).equivariant
  obtain ⟨sign, digits⟩ := v
  dsimp only
  generalize (if sign.isSome then -(Decimal.ofDigits digits.toList : Int) else Decimal.ofDigits digits.toList) = n
  split
  · exact movesTo_reject _
  · split
    · exact movesTo_reject _
    · exact movesTo_succeed rfl

/-- A word that names no truth value is refused at the place where it was read. -/
theorem equivariant_booleanValue : booleanValue.Equivariant distance := by
  rw [booleanValue, bind_eq]
  refine ((equivariant_of_built built_ident).spanned_bind fun v sp => ?_).equivariant
  dsimp only
  split
  · exact movesTo_succeed rfl
  · split
    · exact movesTo_succeed rfl
    · exact movesTo_reject _

/-- Every kind of value is read further along as it is here. -/
theorem equivariant_valueFrom (first : Option Char) : (valueFrom first).Equivariant distance := by
  unfold valueFrom
  split
  · exact equivariant_booleanValue
  · split
    · exact equivariant_stringValue
    · split
      · exact equivariant_integerValue
      · exact equivariant_booleanValue

/-- The kind of a value is told by the next character, which is the same further along. -/
theorem equivariant_value : value.Equivariant distance := by
  intro s s' h
  rw [parse_value, parse_value, h.head?_eq, ← parse_mapFailure, ← parse_mapFailure]
  exact (equivariant_valueFrom s.head?).mapFailure (fun e => (e.shift_withLabel distance _).symm) s s' h

/-- The end of a line is, too: the failure of a line break points at what was tried for it. -/
theorem equivariant_lineEnd : lineEnd.Equivariant distance := by
  have hcomment : Built [] comment := (built_token _).keepRight (built_noneOf _).many
  have hnewline : Built [] ((skipChar '\r' *> token '\n').map fun _ => ()) :=
    ((built_skipChar _).keepRight (built_token _)).map _
  have hbreak : lineBreak.Equivariant distance := by
    refine (equivariant_of_built (hnewline.orElse .endOfInput)).mapFailure fun e => ?_
    rw [Failure.span_shift]
    rfl
  exact ((equivariant_of_built built_inlineWhitespace).keepRight (equivariant_of_built hcomment.optional)).keepRight
    hbreak

/-- An entry is read further along as it is read here, but for the place of its key. -/
theorem entry_movesTo : MovesTo distance (fun e e' => e' = e.shift distance) entry entry := by
  intro s s' h
  rw [parse_entry s, parse_entry s']
  have hblanks : inlineWhitespace.Equivariant distance := equivariant_of_built built_inlineWhitespace
  have hequals : ((token '=').padded inlineWhitespace).Equivariant distance :=
    equivariant_of_built ((built_token _).padded built_inlineWhitespace)
  refine hblanks.movesTo.bind ?_ s s' h
  rintro _ _ rfl
  refine (equivariant_of_built built_ident).spanned_bind fun key sp => ?_
  refine hequals.movesTo.bind ?_
  rintro _ _ rfl
  refine equivariant_value.movesTo.bind ?_
  rintro v _ rfl
  exact equivariant_lineEnd.movesTo.map fun _ _ _ => rfl

end Moving

/-! ## On the line -/

/-- A failure with one cause, which is not that of text left over, at a place on a line of the given length. -/
inductive OnLine (start length : Nat) : Failure → Prop where
  | single {c : Cause} {sp : Span} {l : Option String} (hc : c ≠ .custom "Unparsed input.") (hlo : start ≤ sp.start)
      (hhi : sp.start ≤ start + length) : OnLine start length (.single c sp l)

/-- A label does not move a failure off the line. -/
theorem OnLine.withLabel {start length : Nat} {f : Failure} (l : String) (h : OnLine start length f) :
    OnLine start length (f.withLabel l) := by
  obtain ⟨hc, hlo, hhi⟩ := h
  exact .single hc hlo hhi

/-- What is on the rest of a line is on the line. -/
theorem OnLine.of_append {start : Nat} {w rest : List Char} {f : Failure}
    (h : OnLine (start + w.length) rest.length f) : OnLine start (w ++ rest).length f := by
  obtain ⟨hc, hlo, hhi⟩ := h
  refine .single hc (by omega) ?_
  rw [List.length_append]
  omega

/-- A parser whose failures are on the line where it is run. -/
def FailsOnLine (p : Parser Char α) : Prop :=
  ∀ s piece more, AtLine s piece more → ∀ e, p.parse s = .error e → OnLine s.position piece.length e

/-- A parser that reads no newline. -/
def StaysOnLine (p : Parser Char α) : Prop :=
  ∀ s r, p.parse s = .ok r → ∃ w, s.Consumes w r.remaining ∧ '\n' ∉ w

/-- A parser whose failures are where it is run. -/
def FailsHere (p : Parser Char α) : Prop :=
  ∀ s e, p.parse s = .error e → ∃ c sp l, e = .single c sp l ∧ c ≠ .custom "Unparsed input." ∧ sp.start = s.position

/-- The place where a parser is run on a line is on the line. -/
theorem FailsHere.failsOnLine {p : Parser Char α} (h : FailsHere p) : FailsOnLine p := by
  intro s piece more _ e he
  obtain ⟨c, sp, l, rfl, hc, hstart⟩ := h s e he
  exact .single hc (by omega) (by omega)

/-- An optional part never fails. -/
theorem failsHere_optional (p : Parser Char α) : FailsHere p.optional :=
  fun _ _ he => absurd he parse_optional_ne_error

/-- A sequence fails on the line if its first part stays there. -/
theorem FailsOnLine.bind {p : Parser Char α} {f : α → Parser Char β} (hp : FailsOnLine p) (hs : StaysOnLine p)
    (hf : ∀ a, FailsOnLine (f a)) : FailsOnLine (p.bind f) := by
  intro s piece more h e he
  rcases parse_bind_eq_error_iff.1 he with he | ⟨r, hr, he⟩
  · exact hp s piece more h e he
  · obtain ⟨w, hc, hw⟩ := hs s r hr
    obtain ⟨rest, rfl, hat⟩ := h.consume hc hw
    have hrest := hf r.value r.remaining rest more hat e he
    rw [hc.position_eq] at hrest
    exact hrest.of_append

/-- A sequence stays on the line if its parts do. -/
theorem StaysOnLine.bind {p : Parser Char α} {f : α → Parser Char β} (hp : StaysOnLine p)
    (hf : ∀ a, StaysOnLine (f a)) : StaysOnLine (p.bind f) := by
  intro s r hr
  obtain ⟨r₁, h₁, h₂⟩ := parse_bind_eq_ok_iff.1 hr
  obtain ⟨w, hc, hw⟩ := hp s r₁ h₁
  obtain ⟨w', hc', hw'⟩ := hf r₁.value r₁.remaining r h₂
  refine ⟨w ++ w', hc.trans hc', ?_⟩
  rw [List.mem_append, not_or]
  exact ⟨hw, hw'⟩

/-- An optional part that is absent stays where it is. -/
theorem StaysOnLine.optional {p : Parser Char α} (hp : StaysOnLine p) : StaysOnLine p.optional := by
  intro s r hr
  rcases parse_optional_eq_ok_iff.1 hr with ⟨r₁, h₁, rfl⟩ | ⟨-, rfl⟩
  · exact hp s r₁ h₁
  · exact ⟨[], Consumes.refl s, List.not_mem_nil⟩

/-- The span is not read. -/
theorem StaysOnLine.spanned {p : Parser Char α} (hp : StaysOnLine p) : StaysOnLine p.spanned := by
  intro s r hr
  obtain ⟨r₁, h₁, rfl⟩ := parse_spanned_eq_ok_iff.1 hr
  exact hp s r₁ h₁

/-- What is made of a value fails, if it does, at the place where the value was read. -/
theorem FailsOnLine.spanned_bind {p : Parser Char α} {f : α × Span → Parser Char β} (hp : FailsOnLine p)
    (hf : ∀ v sp s e, (f (v, sp)).parse s = .error e → ∃ c l, e = .single c sp l ∧ c ≠ .custom "Unparsed input.") :
    FailsOnLine (p.spanned.bind f) := by
  intro s piece more h e he
  rcases parse_bind_eq_error_iff.1 he with he | ⟨r, hr, he⟩
  · exact hp s piece more h e (parse_spanned_eq_error_iff.1 he)
  · obtain ⟨r₁, -, rfl⟩ := parse_spanned_eq_ok_iff.1 hr
    obtain ⟨c, l, rfl, hc⟩ := hf _ _ _ _ he
    exact .single hc (Nat.le_refl _) (Nat.le_add_right _ _)

/-! ### Blanks, words and single characters -/

/-- A character that is not accepted, or missing, is reported here. -/
theorem failsHere_accept (label : String) (accepts : Char → Bool) : FailsHere (accept label accepts) := by
  intro s e he
  rw [parse_accept] at he
  cases hs : s.head? with
  | none =>
    simp only [hs, Except.error.injEq] at he
    exact ⟨_, _, _, he.symm, by simp, rfl⟩
  | some t =>
    by_cases ht : accepts t = true
    · simp [hs, ht] at he
    · simp only [hs, ht, Bool.false_eq_true, if_false, Except.error.injEq] at he
      exact ⟨_, _, _, he.symm, by simp, rfl⟩

/-- The blanks of one line have no newline among them. -/
theorem staysOnLine_inlineWhitespace : StaysOnLine inlineWhitespace := by
  intro s r hr
  obtain ⟨b, hc, hb, -, -⟩ := parse_inlineWhitespace_eq_ok_iff.1 hr
  exact ⟨b, hc, newline_not_mem_of_blank hb⟩

/-- Blanks are always read. -/
theorem failsOnLine_inlineWhitespace : FailsOnLine inlineWhitespace := by
  intro s piece more h e he
  obtain ⟨r, hr⟩ := exists_parse_inlineWhitespace s
  nomatch hr.symm.trans he

/-- A name fails for its first character only. -/
theorem failsHere_ident : FailsHere ident := by
  intro s e he
  obtain ⟨e₁, he₁, rfl⟩ := parse_withLabel_eq_error_iff.1 he
  rcases parse_both_eq_error_iff.1 (parse_map_eq_error_iff.1 he₁) with hstart | ⟨r, -, hrest⟩
  · obtain ⟨c, sp, l, rfl, hc, hsp⟩ := failsHere_accept _ _ s e₁ hstart
    exact ⟨c, sp, _, rfl, hc, hsp⟩
  · obtain ⟨r', hr'⟩ : ∃ r', (satisfy Text.isIdentRest).many.parse r.remaining = .ok r' := exists_parse_many_accept _
    nomatch hr'.symm.trans hrest

/-- A name has no newline in it. -/
theorem staysOnLine_ident : StaysOnLine ident := by
  intro s r hr
  obtain ⟨key, hc, hkey, -, -⟩ := parse_ident_eq_ok_iff_isIdent.1 hr
  exact ⟨key, hc, newline_not_mem_of_isIdent hkey⟩

/-- An equals sign is missed behind the blanks before it. -/
theorem failsOnLine_equals : FailsOnLine ((token '=').padded inlineWhitespace) := by
  have hread : FailsOnLine (inlineWhitespace.optional.keepRight (token '=')) :=
    (failsHere_optional _).failsOnLine.bind staysOnLine_inlineWhitespace.optional fun _ =>
      (failsHere_accept _ _).failsOnLine
  intro s piece more h e he
  rw [padded, between, seqLeft_eq, seqRight_eq] at he
  rcases parse_keepLeft_eq_error_iff.1 he with he | ⟨r, -, he⟩
  · exact hread s piece more h e he
  · exact absurd he parse_optional_ne_error

/-- An equals sign and the blanks around it have no newline among them. -/
theorem staysOnLine_equals : StaysOnLine ((token '=').padded inlineWhitespace) := by
  intro s r hr
  obtain ⟨b₁, b₂, hc, hb₁, hb₂, -, -⟩ := (parse_token_padded_eq_ok_iff (by decide)).1 hr
  refine ⟨b₁ ++ '=' :: b₂, hc, ?_⟩
  simp only [List.mem_append, List.mem_cons, not_or]
  exact ⟨newline_not_mem_of_blank hb₁, by decide, newline_not_mem_of_blank hb₂⟩

/-! ### Values -/

/-- A string that does not end on its line is reported where it starts. -/
theorem failsHere_stringValue : FailsHere stringValue := by
  intro s e he
  rcases parse_delimitedBy_eq_error_iff.1 (parse_map_eq_error_iff.1 he) with
    hopen | ⟨r, -, hbody | ⟨r', e', -, -, rfl⟩⟩
  · exact failsHere_accept _ _ s e hopen
  · obtain ⟨r', hr'⟩ : ∃ r', (noneOf ['\x22', '\n']).many.parse r.remaining = .ok r' := exists_parse_many_accept _
    nomatch hr'.symm.trans (parse_map_eq_error_iff.1 hbody)
  · exact ⟨_, _, _, rfl, by simp, rfl⟩

/-- Digits that are missing are missing here. -/
theorem failsHere_charRun (property : Char → Bool) : FailsHere (charRun property) := by
  intro s e he
  obtain ⟨-, rfl⟩ := parse_charRun_eq_error_iff.1 he
  exact ⟨_, _, _, rfl, by simp, rfl⟩

/-- An integer fails for want of digits behind its sign, or for its size at the place of the sign. -/
theorem failsOnLine_integerValue : FailsOnLine integerValue := by
  have hread : FailsOnLine ((token '-').optional.both (charRun Char.isDigit)) := by
    intro s piece more h e he
    rcases parse_both_eq_error_iff.1 he with he | ⟨r, hr, he⟩
    · exact absurd he parse_optional_ne_error
    · obtain ⟨negative, hc, -, -⟩ := parse_sign_eq_ok_iff.1 hr
      obtain ⟨rest, rfl, hat⟩ := h.consume hc (by cases negative <;> decide)
      have hrest := (failsHere_charRun _).failsOnLine r.remaining rest more hat e he
      rw [hc.position_eq] at hrest
      exact hrest.of_append
  rw [integerValue, bind_eq]
  refine hread.spanned_bind fun v sp s e he => ?_
  obtain ⟨sign, digits⟩ := v
  dsimp only at he
  generalize (if sign.isSome then -(Decimal.ofDigits digits.toList : Int) else Decimal.ofDigits digits.toList) = n at he
  split at he
  · exact ⟨_, _, (Except.error.inj he).symm, by simp⟩
  · split at he
    · exact ⟨_, _, (Except.error.inj he).symm, by simp⟩
    · cases he

/-- A truth value fails where its word starts, for want of a word or for the wrong one. -/
theorem failsOnLine_booleanValue : FailsOnLine booleanValue := by
  rw [booleanValue, bind_eq]
  refine failsHere_ident.failsOnLine.spanned_bind fun v sp s e he => ?_
  dsimp only at he
  split at he
  · cases he
  · split at he
    · cases he
    · exact ⟨_, _, (Except.error.inj he).symm, by simp⟩

/-- Every kind of value fails on the line. -/
theorem failsOnLine_valueFrom (first : Option Char) : FailsOnLine (valueFrom first) := by
  unfold valueFrom
  split
  · exact failsOnLine_booleanValue
  · split
    · exact failsHere_stringValue.failsOnLine
    · split
      · exact failsOnLine_integerValue
      · exact failsOnLine_booleanValue

/-- So does a value, whichever kind the next character announces. -/
theorem failsOnLine_value : FailsOnLine value := by
  intro s piece more h e he
  rw [parse_value, ← parse_mapFailure] at he
  obtain ⟨e₁, he₁, rfl⟩ := parse_mapFailure_eq_error_iff.1 he
  exact (failsOnLine_valueFrom s.head? s piece more h e₁ he₁).withLabel _

/-- A value has no newline in it. -/
theorem staysOnLine_value : StaysOnLine value := by
  intro s r hr
  obtain ⟨v, hc, hv⟩ := valueText_of_parse_value hr
  exact ⟨v, hc, newline_not_mem_of_valueText hv⟩

/-! ### The end of a line -/

/-- A comment ends before the newline. -/
theorem staysOnLine_comment : StaysOnLine comment := by
  intro s r hr
  obtain ⟨r₁, h₁, h₂⟩ := parse_keepRight_eq_ok_iff.1 hr
  obtain ⟨hmark, -⟩ := parse_token_eq_ok_iff.1 h₁
  obtain ⟨hbody, hall, -, -⟩ := parse_repeated_accept_eq_ok_iff.1 h₂
  refine ⟨_, hmark.trans hbody, ?_⟩
  simpa using fun hn => absurd (hall _ hn) (by decide)

/-- A line break that is missing is missing here, also where a carriage return has been read in search of it. -/
theorem failsHere_lineBreak : FailsHere lineBreak := by
  intro s e he
  rw [lineBreak, orElse_eq] at he
  obtain ⟨e₁, hchoice, rfl⟩ := parse_mapFailure_eq_error_iff.1 he
  obtain ⟨e₂, e₃, hnewline, hend, rfl⟩ := parse_orElse_eq_error_iff.1 hchoice
  refine ⟨_, _, _, rfl, by simp, ?_⟩
  obtain ⟨t, -, rfl⟩ := parse_endOfInput_eq_error_iff.1 hend
  have hle : s.position ≤ e₂.span.start := by
    rcases parse_bind_eq_error_iff.1 (parse_map_eq_error_iff.1 hnewline) with hskip | ⟨r, hskip, hnewline⟩
    · exact absurd (parse_map_eq_error_iff.1 hskip) parse_optional_ne_error
    · obtain ⟨c, sp, l, rfl, -, hstart⟩ := failsHere_accept _ _ _ _ hnewline
      have hposition : s.position ≤ r.remaining.position := by
        rcases parse_skipChar_eq_ok_iff.1 hskip with hc | ⟨-, hr⟩
        · rw [hc.position_eq]
          exact Nat.le_add_right _ _
        · exact Nat.le_of_eq (congrArg TokenStream.position hr.symm)
      show s.position ≤ sp.start
      omega
  exact Nat.min_eq_right hle

/-- The end of a line fails where the line break is missing, behind blanks and a comment. -/
theorem failsOnLine_lineEnd : FailsOnLine lineEnd := by
  have hstays : StaysOnLine (inlineWhitespace.keepRight comment.optional) :=
    staysOnLine_inlineWhitespace.bind fun _ => staysOnLine_comment.optional
  have hblanks : FailsOnLine (inlineWhitespace.keepRight comment.optional) :=
    failsOnLine_inlineWhitespace.bind staysOnLine_inlineWhitespace fun _ => (failsHere_optional _).failsOnLine
  exact hblanks.bind hstays fun _ => failsHere_lineBreak.failsOnLine

/-- Reading an entry fails with one cause, at a place on the line. -/
theorem AtLine.onLine_of_parse_entry (h : AtLine s piece more) {e : Failure} (he : entry.parse s = .error e) :
    OnLine s.position piece.length e := by
  rw [parse_entry] at he
  refine (failsOnLine_inlineWhitespace.bind staysOnLine_inlineWhitespace fun _ => ?_) s piece more h e he
  have hkey : FailsOnLine ident.spanned := fun s piece more h e he =>
    failsHere_ident.failsOnLine s piece more h e (parse_spanned_eq_error_iff.1 he)
  refine hkey.bind staysOnLine_ident.spanned fun key => ?_
  refine failsOnLine_equals.bind staysOnLine_equals fun _ => ?_
  refine failsOnLine_value.bind staysOnLine_value fun v => ?_
  exact fun s piece more h e he => failsOnLine_lineEnd s piece more h e (parse_map_eq_error_iff.1 he)

end TokenParsing.Settings
