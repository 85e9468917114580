import TokenParsing.Proofs.LineIndex.Lines
import TokenParsing.Proofs.Settings.EntryFailures
import TokenParsing.Proofs.Settings.Recognition

/-!
# Settings in blocks of lines

A line never looks past its newline, so a block of lines that can be read is read in the same way whatever follows it.
A text that cannot be read has a longest block of lines before the first line that cannot, and its failure is that of
reading an entry there (`parse_eq_error_iff`). Hence parsing respects putting texts one after another
(`parse_append`).
-/

namespace TokenParsing.Settings

open TokenParsing.Parser TokenParsing.TokenStream

variable {s : TokenStream Char} {block cs : List Char} {es : List Entry} {start : Nat}

/-! ## Documents made of blocks -/

/-- A document that starts with a block of lines is a document of the block and one of what follows. -/
theorem document_append_iff (h : LineBlock block) :
    Document start (linePieces (block ++ cs)) es ↔
      ∃ es₁ es₂, Document start (linePieces block) es₁ ∧ Document (start + block.length) (linePieces cs) es₂ ∧
        es = es₁ ++ es₂ := by
  induction h generalizing start es with
  | nil =>
    show _ ↔ ∃ es₁ es₂, Document start [[]] es₁ ∧ _
    simp [document_nil_iff]
  | @line piece block hp _ ih =>
    have hlength : start + (piece ++ '\n' :: block).length = start + piece.length + 1 + block.length := by
      rw [List.length_append, List.length_cons]
      omega
    rw [List.append_assoc, List.cons_append, linePieces_append_newline hp, linePieces_append_newline hp, hlength,
      document_cons_iff (linePieces_ne_nil _)]
    refine ⟨fun hdoc => ?_, fun hdocs => ?_⟩
    · obtain ⟨e, es', hl, hd, rfl⟩ := hdoc
      obtain ⟨es₁, es₂, h₁, h₂, rfl⟩ := ih.1 hd
      refine ⟨e.toList ++ es₁, es₂, ?_, h₂, (List.append_assoc _ _ _).symm⟩
      exact (document_cons_iff (linePieces_ne_nil _)).2 ⟨e, es₁, hl, h₁, rfl⟩
    · obtain ⟨_, es₂, hfirst, h₂, rfl⟩ := hdocs
      obtain ⟨e, es₁, hl, h₁, rfl⟩ := (document_cons_iff (linePieces_ne_nil _)).1 hfirst
      exact ⟨e, es₁ ++ es₂, hl, ih.2 ⟨es₁, es₂, h₁, h₂, rfl⟩, List.append_assoc _ _ _⟩

/-- A line makes the same entry further along, but for the place of its key. -/
theorem LineText.shift {terminated : Bool} {e : Option Entry} (h : LineText terminated start cs e) (distance : Nat) :
    LineText terminated (start + distance) cs (e.map (Entry.shift distance)) := by
  cases h with
  | blank htail => exact .blank htail
  | entry h₁ hk h₂ h₃ hv ht =>
    have hmoved : LineText terminated (start + distance) _ _ := .entry h₁ hk h₂ h₃ hv ht
    simpa only [Option.map_some, Entry.shift, Span.shift, Nat.add_right_comm] using hmoved

theorem Document.shift {pieces : List (List Char)} (h : Document start pieces es) (distance : Nat) :
    Document (start + distance) pieces (es.map (Entry.shift distance)) := by
  have htoList : ∀ e : Option Entry, e.toList.map (Entry.shift distance) = (e.map (Entry.shift distance)).toList := by
    rintro (_ | e) <;> rfl
  induction h with
  | last hl =>
    rw [htoList]
    exact .last (hl.shift distance)
  | @more start piece _ _ _ _ hl _ ih =>
    rw [List.map_append, htoList]
    refine .more (hl.shift distance) ?_
    rwa [Nat.add_right_comm start distance, Nat.add_right_comm _ distance]

/-! ## Where reading stops -/

/-- No line can be read, and reading an entry fails as given. -/
def Blocked (s : TokenStream Char) (f : Failure) : Prop :=
  entry.parse s = .error f ∧ ∃ e, lineEnd.parse s = .error e

theorem exists_parse_line_eq_error_iff : (∃ e, line.parse s = .error e) ↔ ∃ f, Blocked s f := by
  simp only [line, orElse_eq, parse_orElse_eq_error_iff, parse_map_eq_error_iff, Blocked]
  refine ⟨fun h => ?_, fun h => ?_⟩
  · obtain ⟨_, f, e, hf, he, -⟩ := h
    exact ⟨f, hf, e, he⟩
  · obtain ⟨f, hf, e, he⟩ := h
    exact ⟨_, f, e, hf, he, rfl⟩

theorem Blocked.parse_line {f : Failure} (h : Blocked s f) : ∃ e, line.parse s = .error e :=
  exists_parse_line_eq_error_iff.2 ⟨f, h⟩

/-- A line can be read at the end of the text. -/
theorem Blocked.rest_ne_nil {f : Failure} (h : Blocked s f) : s.rest ≠ [] := by
  intro hrest
  obtain ⟨r, hr⟩ := exists_parse_line_of_rest_eq_nil hrest
  obtain ⟨e, he⟩ := h.parse_line
  nomatch hr.symm.trans he

/-- What stops the reading here stops it further along. -/
theorem Blocked.shift {distance : Nat} {s' : TokenStream Char} {f : Failure} (h : Blocked s f)
    (hs : s.ShiftedBy distance s') : Blocked s' (f.shift distance) := by
  obtain ⟨hentry, e, hend⟩ := h
  refine ⟨?_, ?_⟩
  · rcases entry_movesTo.answers hs with ⟨v, v', s₁, s₁', hr, -⟩ | ⟨e, he, he'⟩
    · nomatch hr.symm.trans hentry
    · cases he.symm.trans hentry
      exact he'
  · rcases equivariant_lineEnd.answers hs with ⟨v, s₁, s₁', hr, -⟩ | ⟨e, -, he'⟩
    · nomatch hr.symm.trans hend
    · exact ⟨_, he'⟩

/-- Before text that is left over, reading has consumed a block of lines, and no line can be read after it. By induction
on the budget, as for `document_iff_collect`. -/
theorem exists_block_of_collect {budget : Nat} (hb : s.length < budget)
    (hrest : (line.collect true budget 0 s).2.rest ≠ []) :
    ∃ block es f, LineBlock block ∧ s.Consumes block (line.collect true budget 0 s).2 ∧
      Document s.position (linePieces block) es ∧ Blocked (line.collect true budget 0 s).2 f := by
  induction budget generalizing s with
  | zero => omega
  | succ budget ih =>
    obtain ⟨piece, more, h⟩ := exists_atLine s
    cases hp : line.parse s with
    | error e =>
      obtain ⟨f, hf⟩ := exists_parse_line_eq_error_iff.1 ⟨e, hp⟩
      rw [collect_of_error hp]
      exact ⟨[], [], f, .nil, Consumes.refl s, document_nil_iff.2 rfl, hf⟩
    | ok r =>
      obtain ⟨hl, hc⟩ := h.parse_line_eq_ok_iff.1 hp
      by_cases hidle : r.remaining.position ≤ s.position
      · rw [collect_of_idle hp hidle (Nat.zero_le 1)] at hrest
        exact absurd (h.rest_eq_nil_of_idle hc hidle) hrest
      · have hlater : s.position < r.remaining.position := Nat.lt_of_not_le hidle
        have hlength : r.remaining.length < budget := Nat.lt_of_lt_of_le (hc.length_lt hlater) (Nat.le_of_lt_succ hb)
        rw [collect_of_progress hp hlater] at hrest ⊢
        obtain ⟨block, es, f, hblock, hcblock, hd, hf⟩ := ih hlength hrest
        cases more with
        | none =>
          -- nothing is ahead after the last line, so nothing is left over
          have hend : r.remaining.rest = [] := h.rest_after hc
          rw [hcblock.2] at hend
          exact absurd (List.append_eq_nil_iff.1 hend).2 hrest
        | some cs =>
          refine ⟨piece ++ '\n' :: block, r.value.toList ++ es, f, .line h.newline hblock, ?_, ?_, hf⟩
          · simpa [lineFeed] using hc.trans hcblock
          · rw [linePieces_append_newline h.newline, document_cons_iff (linePieces_ne_nil _)]
            rw [position_after_newline hc] at hd
            exact ⟨_, es, hl, hd, rfl⟩

/-- A block of lines before a place where no line can be read is consumed, and nothing else. -/
theorem collect_of_block {budget : Nat} (hb : s.length < budget) (h : LineBlock block) (hs : s.rest = block ++ cs)
    (hd : Document s.position (linePieces block) es) {f : Failure} (hf : Blocked (s.advance block.length) f) :
    (line.collect true budget 0 s).2 = s.advance block.length := by
  induction h generalizing s es budget with
  | nil =>
    obtain ⟨e, he⟩ := hf.parse_line
    rw [List.length_nil, advance_zero] at he
    cases budget with
    | zero => omega
    | succ budget => rw [collect_of_error he, List.length_nil, advance_zero]
  | @line piece block hp _ ih =>
    rw [List.append_assoc, List.cons_append] at hs
    rw [linePieces_append_newline hp, document_cons_iff (linePieces_ne_nil _)] at hd
    obtain ⟨e, es', hl, hd, rfl⟩ := hd
    have hat : AtLine s piece (some (block ++ cs)) := ⟨hs, hp⟩
    obtain ⟨s₁, hc⟩ := hat.consumes
    have hread : line.parse s = .ok ⟨e, s₁⟩ := hat.parse_line_eq_ok_iff.2 ⟨hl, hc⟩
    have hpos : s₁.position = s.position + piece.length + 1 := position_after_newline hc
    have hlater : s.position < s₁.position := by omega
    have hlength : s₁.length < s.length := hc.length_lt hlater
    have hadvance : s₁.advance block.length = s.advance (piece ++ '\n' :: block).length := by
      rw [hc.1, advance_advance]
      congr 1
      simp [lineFeed, Nat.add_assoc, Nat.add_comm 1]
    cases budget with
    | zero => omega
    | succ budget =>
      rw [← hadvance] at hf ⊢
      rw [collect_of_progress hread hlater]
      rw [← hpos] at hd
      exact ih (Nat.lt_of_lt_of_le hlength (Nat.le_of_lt_succ hb)) (hat.rest_after hc) hd hf

/-- Reading lines ends at the first that cannot be read. -/
theorem exists_parse_lines_of_blocked (h : LineBlock block) (hs : s.rest = block ++ cs)
    (hd : Document s.position (linePieces block) es) {f : Failure} (hf : Blocked (s.advance block.length) f) :
    ∃ settings, lines.parse s = .ok ⟨settings, s.advance block.length⟩ := by
  rw [parse_lines, collect_of_block (length_lt_unboundedBudget 0 s) h hs hd hf]
  exact ⟨_, rfl⟩

/-! ## Texts that are read, and texts that are not -/

theorem parse_eq_ok_iff_file {text : String} {settings : Settings} :
    parse text = .ok settings ↔ ∃ s', file.parse (ofText text) = .ok ⟨settings, s'⟩ := by
  rw [parse]
  cases file.parse (ofText text) with
  | error e => simp [Except.map]
  | ok r =>
    obtain ⟨v, s'⟩ := r
    simp [Except.map]

theorem parse_eq_error_iff_file {text : String} {f : Failure} :
    parse text = .error f ↔ file.parse (ofText text) = .error f := by
  rw [parse]
  cases file.parse (ofText text) <;> simp [Except.map]

/-- What is ahead is read as a file exactly when it is a document. -/
theorem exists_parse_file_iff :
    (∃ s', file.parse s = .ok ⟨⟨es⟩, s'⟩) ↔ Document s.position (linePieces s.rest) es := by
  rw [document_iff_collect (length_lt_unboundedBudget 0 s)]
  simp only [parse_file_eq_ok_iff, Success.mk.injEq, Settings.mk.injEq]
  refine ⟨fun h => ?_, fun h => ?_⟩
  · obtain ⟨s', hrest, he, -⟩ := h
    exact ⟨hrest, he⟩
  · obtain ⟨hrest, he⟩ := h
    exact ⟨_, hrest, he, rfl⟩

theorem parse_eq_ok_iff {text : String} {settings : Settings} :
    parse text = .ok settings ↔ Document 0 (linePieces text.toList) settings.entries :=
  parse_eq_ok_iff_file.trans exists_parse_file_iff

/-- Where no line can be read, the failure of the file is that of reading an entry. -/
theorem parse_finish_of_blocked {f : Failure} (h : Blocked s f) (settings : Settings) :
    (finish settings).parse s = .error f := by
  have hempty : s.isEmpty = false := by
    rw [← Bool.not_eq_true, isEmpty_eq_true_iff]
    exact h.rest_ne_nil
  rw [parse_of_label_eq_none rfl, finish]
  simp only [hempty, h.1]
  rfl

/-- A text is not read as settings exactly when no line can be read after some block of its lines, and then the failure
is that of reading an entry there. -/
theorem parse_eq_error_iff {text : String} {f : Failure} :
    parse text = .error f ↔
      ∃ block rest es, text.toList = block ++ rest ∧ LineBlock block ∧ Document 0 (linePieces block) es ∧
        Blocked ((ofText text).advance block.length) f := by
  rw [parse_eq_error_iff_file, file, parse_bind]
  refine ⟨fun h => ?_, fun h => ?_⟩
  · rw [parse_lines] at h
    have hrest : (line.collect true (unboundedBudget 0 (ofText text)) 0 (ofText text)).2.rest ≠ [] := by
      intro hnil
      cases (parse_finish_eq_ok_iff.2 ⟨hnil, rfl⟩).symm.trans h
    obtain ⟨block, es, f', hblock, hc, hd, hf⟩ := exists_block_of_collect (length_lt_unboundedBudget 0 _) hrest
    cases (parse_finish_of_blocked hf _).symm.trans h
    rw [hc.1] at hf
    exact ⟨block, _, es, hc.2, hblock, hd, hf⟩
  · obtain ⟨block, rest, es, htext, hblock, hd, hf⟩ := h
    obtain ⟨settings, hlines⟩ := exists_parse_lines_of_blocked (s := ofText text) hblock htext hd hf
    rw [hlines]
    exact parse_finish_of_blocked hf settings

/-! ## Texts one after another -/

/-- Of two lists of entries, the second counts where it has an entry for the key. -/
theorem get?_append (es es' : List Entry) (key : String) :
    (⟨es ++ es'⟩ : Settings).get? key = ((⟨es'⟩ : Settings).get? key).or ((⟨es⟩ : Settings).get? key) := by
  simp only [get?, List.reverse_append, List.find?_append, Option.map_or]

/-- The value of a key does not depend on where the key stands. -/
theorem get?_shift (distance : Nat) (es : List Entry) (key : String) :
    (⟨es.map (Entry.shift distance)⟩ : Settings).get? key = (⟨es⟩ : Settings).get? key := by
  simp only [get?, ← List.map_reverse, List.find?_map, Option.map_map]
  rfl

/-- A place in the second of two texts is as much further along in both together as the first is long. -/
theorem shiftedBy_ofText_append (a b : String) (n : Nat) :
    ((ofText b).advance n).ShiftedBy a.length ((ofText (a ++ b)).advance (a.length + n)) := by
  have h := (shiftedBy_append a.toList b.toList).advance n
  rwa [advance_advance, ← String.toList_append, String.length_toList] at h

/-- The failure where no line can be read has one cause. -/
theorem Blocked.exists_single {f : Failure} (h : Blocked s f) : ∃ cause span label, f = .single cause span label := by
  obtain ⟨piece, more, hat⟩ := exists_atLine s
  obtain ⟨-, -, -⟩ := hat.onLine_of_parse_entry h.1
  exact ⟨_, _, _, rfl⟩

/-- A text that is empty or ends in a newline, and is read as settings, can be put before any text. If that is read as
settings too, then so are both together: the entries are those of the first and those of the second, further along, and
the value of a key is the one in the second, or else the one in the first. If the second fails, then both together fail
for the same cause under the same label, at the same place further along. -/
theorem parse_append {a b : String} (ha : a = "" ∨ a.toList.getLast? = some '\n') {sa : Settings}
    (hsa : parse a = .ok sa) :
    (∀ sb, parse b = .ok sb →
      ∃ settings, parse (a ++ b) = .ok settings ∧
        settings.entries = sa.entries ++ sb.entries.map (Entry.shift a.length) ∧
        ∀ key, settings.get? key = (sb.get? key).or (sa.get? key)) ∧
    ∀ f, parse b = .error f →
      ∃ cause span label, f = .single cause span label ∧
        parse (a ++ b) = .error (.single cause (span.shift a.length) label) := by
  have hblock : LineBlock a.toList := by
    rcases ha with rfl | ha
    · exact .nil
    · exact lineBlock_of_getLast? ha
  have hdoc : ∀ {cs es}, Document 0 (linePieces cs) es →
      Document 0 (linePieces (a.toList ++ cs)) (sa.entries ++ es.map (Entry.shift a.length)) := by
    intro cs es hd
    refine (document_append_iff hblock).2 ⟨_, _, parse_eq_ok_iff.1 hsa, ?_, rfl⟩
    rw [String.length_toList]
    exact hd.shift a.length
  refine ⟨fun sb hsb => ?_, fun f hf => ?_⟩
  · refine ⟨⟨sa.entries ++ sb.entries.map (Entry.shift a.length)⟩, parse_eq_ok_iff.2 ?_, rfl, fun key => ?_⟩
    · rw [String.toList_append]
      exact hdoc (parse_eq_ok_iff.1 hsb)
    · rw [get?_append, get?_shift]
  · obtain ⟨block, rest, es, htext, hblockb, hd, hblocked⟩ := parse_eq_error_iff.1 hf
    obtain ⟨cause, span, label, rfl⟩ := hblocked.exists_single
    refine ⟨cause, span, label, rfl, parse_eq_error_iff.2
      ⟨a.toList ++ block, rest, _, ?_, hblock.append hblockb, hdoc hd, ?_⟩⟩
    · rw [String.toList_append, htext, List.append_assoc]
    · rw [List.length_append, String.length_toList]
      exact hblocked.shift (shiftedBy_ofText_append a b block.length)

set_option maxRecDepth 20000 in
/-- A second line gives the key another value; if it cannot be read, that is reported on it. -/
theorem parse_append_of_second_line :
    (∃ settings, parse ("port=80\n" ++ "port=81") = .ok settings ∧ settings.get? "port" = some (.integer 81)) ∧
      parse ("port=80\n" ++ "port:81") = .error (.single (.unexpected "':'") ⟨12, 13⟩ (some "just")) := by
  have ha : "port=80\n" = "" ∨ "port=80\n".toList.getLast? = some '\n' := Or.inr (by decide)
  have hsa : parse "port=80\n" = .ok ⟨[⟨"port", .integer 80, ⟨0, 4⟩⟩]⟩ := by rfl
  have hsb : parse "port=81" = .ok ⟨[⟨"port", .integer 81, ⟨0, 4⟩⟩]⟩ := by rfl
  have hf : parse "port:81" = .error (.single (.unexpected "':'") ⟨4, 5⟩ (some "just")) := by rfl
  refine ⟨?_, ?_⟩
  · obtain ⟨settings, hok, -, hget⟩ := (parse_append ha hsa).1 _ hsb
    refine ⟨settings, hok, ?_⟩
    rw [hget]
    rfl
  · obtain ⟨cause, span, label, h, herror⟩ := (parse_append ha hsa).2 _ hf
    cases h
    exact herror

end TokenParsing.Settings
