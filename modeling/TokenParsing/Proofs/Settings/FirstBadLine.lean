import TokenParsing.Proofs.Settings.Blocks

/-!
# The first line that cannot be read

A text that is not read as settings has a first line that cannot be read, and the failure points at it
(`located_of_parse_eq_error`): the lines before it are read on their own, with it they are not, and the failure is that
of reading an entry where the line starts.
-/

namespace TokenParsing.Settings

open TokenParsing.Parser TokenParsing.TokenStream

variable {s : TokenStream Char} {block piece : List Char} {more : Option (List Char)}

/-- The line of a text at which a failure points. -/
def failureLine (text : String) (f : Failure) : Nat :=
  ((LineIndex.ofText text).position f.span.start).line

/-- An offset on the line after a block of lines is after as many newlines as the block has. -/
theorem count_newline_take (hp : '\n' ∉ piece) {offset : Nat} (hlo : block.length ≤ offset)
    (hhi : offset ≤ block.length + piece.length) (cs : List Char) :
    ((block ++ (piece ++ cs)).take offset).count '\n' = block.count '\n' := by
  obtain ⟨k, rfl⟩ := Nat.exists_eq_add_of_le hlo
  rw [List.take_length_add_append, List.take_append_of_le_length (by omega), List.count_append,
    List.count_eq_zero_of_not_mem fun hn => hp (List.mem_of_mem_take hn), Nat.add_zero]

/-- The first of the lines ahead, with the newline that ends it. -/
theorem AtLine.firstLines_one (h : AtLine s piece more) : firstLines 1 s.rest = piece ++ lineFeed more := by
  rw [h.rest_eq]
  cases more with
  | none => simpa [afterLine, lineFeed] using firstLines_succ_of_not_mem h.newline 0
  | some cs => simpa [afterLine, lineFeed] using firstLines_succ_append_newline h.newline 0 cs

/-- A line that cannot be read does not start a document, also where the text ends with the line. -/
theorem AtLine.not_document_of_blocked (h : AtLine s piece more) {f : Failure} (hf : Blocked s f) (es : List Entry) :
    ¬Document s.position (linePieces (piece ++ lineFeed more)) es := by
  intro hd
  have hfeed : lineFeed more = afterLine (more.map fun _ => []) := by
    cases more <;> rfl
  rw [hfeed] at hd
  obtain ⟨e, hl⟩ := exists_lineText_of_document h.newline hd
  rw [Option.isSome_map] at hl
  obtain ⟨s', hc⟩ := h.consumes
  have hread : line.parse s = .ok ⟨e, s'⟩ := h.parse_line_eq_ok_iff.2 ⟨hl, hc⟩
  obtain ⟨e', he'⟩ := hf.parse_line
  nomatch hread.symm.trans he'

/-- A failure that the line after a block of lines answers with points at that line. -/
theorem AtLine.failureLine_eq {text : String} (h : AtLine ((ofText text).advance block.length) piece more)
    (htext : text.toList = block ++ ((ofText text).advance block.length).rest) {f : Failure}
    (hf : OnLine block.length piece.length f) : failureLine text f = block.count '\n' + 1 := by
  obtain ⟨-, hlo, hhi⟩ := hf
  rw [failureLine, line_position, htext, h.rest_eq]
  exact congrArg (· + 1) (count_newline_take h.newline hlo hhi _)

/-- A failure to read a text as settings points at the first line that cannot be read. The lines before it are read on
their own, and with it they are not. There the reading of lines stops, and the failure is that of reading an entry where
the line starts; it has one cause, and never that of text left over. -/
theorem located_of_parse_eq_error {text : String} {f : Failure} (h : parse text = .error f) :
    (∃ l, (LineIndex.ofText text).lines[failureLine text f - 1]? = some l ∧
      l.start = (firstLines (failureLine text f - 1) text.toList).length) ∧
    (∃ settings, parse (String.ofList (firstLines (failureLine text f - 1) text.toList)) = .ok settings) ∧
    (∀ settings, parse (String.ofList (firstLines (failureLine text f) text.toList)) ≠ .ok settings) ∧
    (∃ settings, lines.parse (ofText text) =
      .ok ⟨settings, (ofText text).advance (firstLines (failureLine text f - 1) text.toList).length⟩) ∧
    entry.parse ((ofText text).advance (firstLines (failureLine text f - 1) text.toList).length) = .error f ∧
    ∃ cause span label, f = .single cause span label ∧ cause ≠ .custom "Unparsed input." := by
  obtain ⟨block, rest, es, htext, hblock, hd, hblocked⟩ := parse_eq_error_iff.1 h
  have hrest : ((ofText text).advance block.length).rest = rest := rest_advance_of_rest htext
  have hposition : ((ofText text).advance block.length).position = block.length :=
    (consumes_of_rest (s := ofText text) htext).position_eq.trans (Nat.zero_add _)
  obtain ⟨piece, more, hat⟩ := exists_atLine ((ofText text).advance block.length)
  have hon := hat.onLine_of_parse_entry hblocked.1
  rw [hposition] at hon
  have hline : failureLine text f = block.count '\n' + 1 := hat.failureLine_eq (hrest.symm ▸ htext) hon
  have hbefore : firstLines (failureLine text f - 1) text.toList = block := by
    rw [hline, htext]
    simpa using hblock.firstLines_append 0 rest
  have hupto : firstLines (failureLine text f) text.toList = block ++ (piece ++ lineFeed more) := by
    rw [hline, htext, hblock.firstLines_append, ← hrest, hat.firstLines_one]
  refine ⟨?_, ?_, ?_, ?_, ?_, ?_⟩
  · obtain ⟨l, hl⟩ := exists_line_position text f.span.start
    refine ⟨l, hl, ?_⟩
    rw [start_of_getElem?_placeLines hl, Nat.zero_add]
    rfl
  · rw [hbefore]
    refine ⟨⟨es⟩, parse_eq_ok_iff.2 ?_⟩
    rwa [String.toList_ofList]
  · intro settings hok
    rw [hupto, parse_eq_ok_iff, String.toList_ofList] at hok
    obtain ⟨-, es₂, -, hd₂, -⟩ := (document_append_iff hblock).1 hok
    rw [Nat.zero_add, ← hposition] at hd₂
    exact hat.not_document_of_blocked hblocked es₂ hd₂
  · rw [hbefore]
    exact exists_parse_lines_of_blocked hblock htext hd hblocked
  · rw [hbefore]
    exact hblocked.1
  · obtain ⟨hc, -, -⟩ := hon
    exact ⟨_, _, _, rfl, hc⟩

set_option maxRecDepth 20000 in
/-- The second of three lines has no equals sign. -/
theorem located_of_parse_eq_error_of_colon :
    ∃ f, parse "a=1\nb:2\nc=3" = .error f ∧ failureLine "a=1\nb:2\nc=3" f = 2 ∧
      (∃ settings, parse (String.ofList (firstLines 1 "a=1\nb:2\nc=3".toList)) = .ok settings) ∧
      (∀ settings, parse (String.ofList (firstLines 2 "a=1\nb:2\nc=3".toList)) ≠ .ok settings) ∧
      entry.parse ((ofText "a=1\nb:2\nc=3").advance 4) = .error f := by
  have h : parse "a=1\nb:2\nc=3" = .error (.single (.unexpected "':'") ⟨5, 6⟩ (some "just")) := by rfl
  have hline : failureLine "a=1\nb:2\nc=3" (.single (.unexpected "':'") ⟨5, 6⟩ (some "just")) = 2 := by decide
  obtain ⟨-, hbefore, hupto, -, hentry, -⟩ := located_of_parse_eq_error h
  rw [hline] at hbefore hupto hentry
  exact ⟨_, h, hline, hbefore, hupto, hentry⟩

end TokenParsing.Settings
