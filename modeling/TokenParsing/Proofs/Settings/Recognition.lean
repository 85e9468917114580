import TokenParsing.LineIndex
import TokenParsing.Proofs.Settings.Lines

/-!
# The files that are read as settings

`Settings.parse` reads a text exactly when all its pieces between newlines are lines of the grammar, and gives their
entries (`parse_eq_ok_iff_document`). Lines are read one after another until one is not a line or nothing is left, and
at the end of the text one more empty line is read; the invariant over the lines still to be read is
`document_iff_collect`.
-/

namespace TokenParsing.Settings

open TokenParsing.Parser TokenParsing.TokenStream

variable {s : TokenStream Char} {piece : List Char} {more : Option (List Char)}

/-! ## The first line of a document -/

/-- Wherever a parser is, it is at a line or at the rest of one. -/
theorem exists_atLine (s : TokenStream Char) : ∃ piece more, AtLine s piece more := by
  have hsplit : s.rest.takeWhile (· ≠ '\n') ++ s.rest.dropWhile (· ≠ '\n') = s.rest := List.takeWhile_append_dropWhile
  have hnewline : '\n' ∉ s.rest.takeWhile (· ≠ '\n') := by
    intro hn
    have := List.all_eq_true.mp List.all_takeWhile _ hn
    simp at this
  have hstop := stopsAt_dropWhile (· ≠ '\n') s.rest
  cases hd : s.rest.dropWhile (· ≠ '\n') with
  | nil =>
    rw [hd] at hsplit
    exact ⟨_, none, hsplit.symm, hnewline⟩
  | cons c cs =>
    rw [hd] at hsplit hstop
    obtain rfl : c = '\n' := by simpa using hstop c rfl
    exact ⟨_, some cs, hsplit.symm, hnewline⟩

theorem AtLine.linePieces_rest (h : AtLine s piece more) :
    linePieces s.rest = piece :: more.elim [] linePieces := by
  rw [h.rest_eq]
  cases more with
  | none => simpa [afterLine] using linePieces_of_not_mem h.newline
  | some cs => exact linePieces_append_newline h.newline cs

/-- A line makes one entry or none, and always the same. -/
theorem AtLine.lineText_unique (h : AtLine s piece more) {e e' : Option Entry}
    (hl : LineText more.isSome s.position piece e) (hl' : LineText more.isSome s.position piece e') : e = e' := by
  obtain ⟨s', hc⟩ := h.consumes
  have hp : line.parse s = .ok ⟨e, s'⟩ := h.parse_line_eq_ok_iff.2 ⟨hl, hc⟩
  have hp' : line.parse s = .ok ⟨e', s'⟩ := h.parse_line_eq_ok_iff.2 ⟨hl', hc⟩
  cases hp.symm.trans hp'
  rfl

/-- The entries of a document are that of its first line and those of the lines after it. -/
theorem document_cons_iff {start : Nat} {pieces : List (List Char)} (hne : pieces ≠ []) {es : List Entry} :
    Document start (piece :: pieces) es ↔
      ∃ e es', LineText true start piece e ∧ Document (start + piece.length + 1) pieces es' ∧ es = e.toList ++ es' := by
  refine ⟨fun h => ?_, fun h => ?_⟩
  · cases h with
    | last _ => exact absurd rfl hne
    | more hl hd => exact ⟨_, _, hl, hd, rfl⟩
  · obtain ⟨e, es', hl, hd, rfl⟩ := h
    cases pieces with
    | nil => exact absurd rfl hne
    | cons next pieces => exact .more hl hd

theorem document_singleton_iff {start : Nat} {es : List Entry} :
    Document start [piece] es ↔ ∃ e, LineText false start piece e ∧ es = e.toList := by
  refine ⟨fun h => ?_, fun h => ?_⟩
  · cases h with
    | last hl => exact ⟨_, hl, rfl⟩
  · obtain ⟨e, hl, rfl⟩ := h
    exact .last hl

/-- Nothing is a document without entries. -/
theorem document_nil_iff {start : Nat} {es : List Entry} : Document start [[]] es ↔ es = [] := by
  have hblank : LineText false start [] none := .blank (.mk (b := []) (fun c hc => nomatch hc) .nothing)
  rw [document_singleton_iff]
  constructor
  · rintro ⟨e, hl, rfl⟩
    -- A stream at its end, at the position in question.
    let atEnd : TokenStream Char := ⟨Array.replicate start ' ', start, by simp⟩
    have hat : AtLine atEnd [] none := ⟨by simp [atEnd, TokenStream.rest, afterLine], by simp⟩
    rw [hat.lineText_unique (e := e) hl hblank]
    rfl
  · rintro rfl
    exact ⟨none, hblank, rfl⟩

/-! ## The run over the lines -/

/-- After a line that is read, the lines after it are ahead; after the last one, nothing. -/
theorem AtLine.document_iff (h : AtLine s piece more) {r : Success Char (Option Entry)}
    (hp : line.parse s = .ok r) {es : List Entry} :
    Document s.position (linePieces s.rest) es ↔
      ∃ es', Document r.remaining.position (linePieces r.remaining.rest) es' ∧ es = r.value.toList ++ es' := by
  obtain ⟨hl, hc⟩ := h.parse_line_eq_ok_iff.1 hp
  rw [h.linePieces_rest]
  cases more with
  | none =>
    have hrest : r.remaining.rest = [] := h.rest_after hc
    rw [hrest]
    show Document s.position [piece] es ↔ ∃ es', Document r.remaining.position [[]] es' ∧ _
    simp only [document_nil_iff, exists_eq_left, List.append_nil]
    rw [document_singleton_iff]
    refine ⟨fun hleft => ?_, fun he => ?_⟩
    · obtain ⟨e, hl', rfl⟩ := hleft
      rw [h.lineText_unique hl' hl]
    · exact ⟨_, hl, he⟩
  | some cs =>
    have hrest : r.remaining.rest = cs := h.rest_after hc
    rw [hrest, position_after_newline hc, Option.elim_some, document_cons_iff (linePieces_ne_nil cs)]
    refine ⟨fun hleft => ?_, fun hright => ?_⟩
    · obtain ⟨e, es', hl', hd, rfl⟩ := hleft
      rw [h.lineText_unique hl' hl]
      exact ⟨es', hd, rfl⟩
    · obtain ⟨es', hd, he⟩ := hright
      exact ⟨_, es', hl, hd, he⟩

/-- A document starts with a line of the grammar. -/
theorem exists_lineText_of_document (hp : '\n' ∉ piece) {start : Nat} {es : List Entry}
    (hd : Document start (linePieces (piece ++ afterLine more)) es) : ∃ e, LineText more.isSome start piece e := by
  cases more with
  | none =>
    rw [show piece ++ afterLine none = piece from List.append_nil piece, linePieces_of_not_mem hp] at hd
    obtain ⟨e, hl, -⟩ := document_singleton_iff.1 hd
    exact ⟨e, hl⟩
  | some cs =>
    rw [show piece ++ afterLine (some cs) = piece ++ '\n' :: cs from rfl, linePieces_append_newline hp] at hd
    obtain ⟨e, -, hl, -⟩ := (document_cons_iff (linePieces_ne_nil cs)).1 hd
    exact ⟨e, hl⟩

/-- A document starts with a line that is read. -/
theorem AtLine.exists_parse_line_of_document (h : AtLine s piece more) {es : List Entry}
    (hd : Document s.position (linePieces s.rest) es) : ∃ r, line.parse s = .ok r := by
  rw [h.rest_eq] at hd
  obtain ⟨e, hl⟩ := exists_lineText_of_document h.newline hd
  obtain ⟨s', hc⟩ := h.consumes
  exact ⟨⟨e, s'⟩, h.parse_line_eq_ok_iff.2 ⟨hl, hc⟩⟩

/-- At the end of the text there is a last line to read, an empty one. -/
theorem exists_parse_line_of_rest_eq_nil (hrest : s.rest = []) : ∃ r, line.parse s = .ok r := by
  obtain ⟨piece, more, h⟩ := exists_atLine s
  have hd : Document s.position (linePieces s.rest) [] := by
    rw [hrest]
    exact document_nil_iff.2 rfl
  exact h.exists_parse_line_of_document hd

/-- Nothing is consumed with a line only at the end of the text. -/
theorem AtLine.rest_eq_nil_of_idle (h : AtLine s piece more) {s' : TokenStream Char}
    (hc : s.Consumes (piece ++ lineFeed more) s') (hidle : s'.position ≤ s.position) : s'.rest = [] := by
  have hnil : piece ++ lineFeed more = [] := by
    rw [hc.position_eq] at hidle
    exact List.length_eq_zero_iff.1 (by omega)
  have hmore : more = none := by
    cases more with
    | none => rfl
    | some cs => nomatch (List.append_eq_nil_iff.1 hnil).2
  rw [h.rest_after hc, hmore]
  rfl

/-- The entries of lines, the first of them apart. -/
theorem filterMap_id_cons (v : Option Entry) (vs : List (Option Entry)) :
    (v :: vs).filterMap id = v.toList ++ vs.filterMap id := by
  cases v <;> rfl

/-- Reading lines as long as there are any reads everything exactly when the text ahead is a document, and gives its
entries. By induction on the budget, which every line but the last empty one uses with the characters it consumes. -/
theorem document_iff_collect {budget : Nat} (hb : s.length < budget) {es : List Entry} :
    Document s.position (linePieces s.rest) es ↔
      (line.collect true budget 0 s).2.rest = [] ∧ es = (line.collect true budget 0 s).1.filterMap id := by
  induction budget generalizing s es with
  | zero => omega
  | succ budget ih =>
    obtain ⟨piece, more, h⟩ := exists_atLine s
    cases hp : line.parse s with
    | error e =>
      have hfail : ¬∃ r, line.parse s = .ok r := by
        simp [hp]
      rw [collect_of_error hp]
      refine ⟨fun hd => ?_, fun hright => ?_⟩
      · exact absurd (h.exists_parse_line_of_document hd) hfail
      · obtain ⟨hrest, -⟩ := hright
        exact absurd (exists_parse_line_of_rest_eq_nil hrest) hfail
    | ok r =>
      obtain ⟨-, hc⟩ := h.parse_line_eq_ok_iff.1 hp
      rw [h.document_iff hp]
      by_cases hidle : r.remaining.position ≤ s.position
      · -- An idle match is the empty line at the end of the text: it ends the run and makes no entry.
        have hrest := h.rest_eq_nil_of_idle hc hidle
        rw [collect_of_idle hp hidle (Nat.zero_le 1), filterMap_id_cons]
        simp only [hrest, true_and]
        show (∃ es', Document r.remaining.position [[]] es' ∧ _) ↔ _
        simp only [document_nil_iff, exists_eq_left]
        rfl
      · have hlater : s.position < r.remaining.position := Nat.lt_of_not_le hidle
        have hlength : r.remaining.length < budget := Nat.lt_of_lt_of_le (hc.length_lt hlater) (Nat.le_of_lt_succ hb)
        rw [collect_of_progress hp hlater, filterMap_id_cons]
        simp only [ih hlength]
        refine ⟨fun hleft => ?_, fun hright => ?_⟩
        · obtain ⟨es', ⟨hrest, rfl⟩, rfl⟩ := hleft
          exact ⟨hrest, rfl⟩
        · obtain ⟨hrest, rfl⟩ := hright
          exact ⟨_, ⟨hrest, rfl⟩, rfl⟩

/-! ## Files -/

theorem parse_finish_eq_ok_iff {settings : Settings} {r : Success Char Settings} :
    (finish settings).parse s = .ok r ↔ s.rest = [] ∧ r = ⟨settings, s⟩ := by
  rw [parse_of_label_eq_none rfl, finish, ← isEmpty_eq_true_iff]
  by_cases h : s.isEmpty = true
  · simp [h, eq_comm]
  · simp only [h]
    cases entry.parse s <;> simp

/-- The lines of a text can always be read, as far as they go. -/
theorem parse_lines (s : TokenStream Char) :
    lines.parse s =
      .ok ⟨⟨(line.collect true (unboundedBudget 0 s) 0 s).1.filterMap id⟩,
        (line.collect true (unboundedBudget 0 s) 0 s).2⟩ := by
  rw [lines, parse_map, many, parse_repeated]
  rfl

theorem parse_file_eq_ok_iff {r : Success Char Settings} :
    file.parse s = .ok r ↔
      (line.collect true (unboundedBudget 0 s) 0 s).2.rest = [] ∧
        r = ⟨⟨(line.collect true (unboundedBudget 0 s) 0 s).1.filterMap id⟩,
          (line.collect true (unboundedBudget 0 s) 0 s).2⟩ := by
  rw [file, parse_bind, parse_lines]
  exact parse_finish_eq_ok_iff

/-- A text is read as settings exactly when it is a document of the line grammar, and its entries are those of its
lines in order. -/
theorem parse_eq_ok_iff_document (text : String) (entries : List Entry) :
    parse text = .ok ⟨entries⟩ ↔ Document 0 (linePieces text.toList) entries := by
  have hb : (ofText text).length < unboundedBudget 0 (ofText text) := by
    rw [unboundedBudget]
    omega
  have hdoc : Document 0 (linePieces text.toList) entries ↔ _ := document_iff_collect hb
  rw [hdoc, parse]
  refine ⟨fun h => ?_, fun h => ?_⟩
  · cases hf : file.parse (ofText text) with
    | error e => simp [hf, Except.map] at h
    | ok r =>
      obtain ⟨hrest, rfl⟩ := parse_file_eq_ok_iff.1 hf
      rw [hf] at h
      cases h
      exact ⟨hrest, rfl⟩
  · obtain ⟨hrest, rfl⟩ := h
    rw [parse_file_eq_ok_iff.2 ⟨hrest, rfl⟩]
    rfl

end TokenParsing.Settings
