import TokenParsing.Proofs.LineIndex.Bytes

/-!
# The lines of an index tile its text

A text can be cut at each of its lines (`CutAtLine`): whole lines are before it, and behind what is shown of it are the
carriage return that is not shown, if there is one, and then the newline or the end of the text. The index has the line
of every such cut (`CutAtLine.getElem?_lines`), and every offset is in the line it is placed at or in the break behind it
(`exists_cutAtLine_of_offset`). So the lines are the pieces of the text between its newlines, their spans stand one
behind the other, and what is between two of them is a line break (`tiles_ofText`).
-/

namespace TokenParsing

/-! ## Pieces between newlines -/

/-- The pieces are those of the text split at its newlines. -/
theorem linePieces_eq_splitOn (cs : List Char) : linePieces cs = cs.splitOn '\n' := by
  induction cs using lines_induction with
  | last piece hp => rw [linePieces_of_not_mem hp, List.splitOn_eq_singleton hp]
  | more piece cs hp ih =>
    rw [linePieces_append_newline hp, ih, List.splitOn_append_cons_self_of_not_mem hp]

/-- Placing pieces keeps their characters. -/
theorem map_chars_placeLines (start byteStart : Nat) (pieces : List (List Char)) :
    (placeLines start byteStart pieces).map Line.chars = pieces := by
  induction pieces generalizing start byteStart with
  | nil => rfl
  | cons piece pieces ih => rw [placeLines, List.map_cons, ih]

/-- What is shown of a piece of a text: all of it but a carriage return at its end. -/
def ShownAs (piece line : List Char) : Prop :=
  piece = line ++ ['\r'] ∨ piece = line ∧ line.getLast? ≠ some '\r'

/-- Every piece can be shown; what is not shown of it is at its end. -/
theorem exists_shownAs (piece : List Char) : ∃ line ending, piece = line ++ ending ∧ ShownAs piece line := by
  by_cases h : piece.getLast? = some '\r'
  · obtain ⟨line, hline⟩ := List.getLast?_eq_some_iff.1 h
    exact ⟨line, ['\r'], hline, Or.inl hline⟩
  · exact ⟨piece, [], (List.append_nil piece).symm, Or.inr ⟨rfl, h⟩⟩

theorem Line.shown_eq_of_shownAs {l : Line} {line : List Char} (h : ShownAs l.chars line) : l.shown = line := by
  unfold Line.shown
  rcases h with h | ⟨h, hlast⟩
  · rw [h, if_pos (by simp), List.dropLast_concat]
  · rw [h, if_neg hlast]

/-! ## A text cut at a line -/

/-- A text is cut at a line: whole lines are `before` it, `shown` is what is shown of it, `ending` is the carriage return
that is not, and `behind` starts with the newline that ends the line, unless the text ends there. -/
structure CutAtLine (cs before shown ending behind : List Char) : Prop where
  eq_append : cs = before ++ (shown ++ ending ++ behind)
  block : LineBlock before
  not_mem : '\n' ∉ shown ++ ending
  shownAs : ShownAs (shown ++ ending) shown
  behind_eq : behind = [] ∨ ∃ rest, behind = '\n' :: rest

/-- Behind whole lines a text can be cut. -/
theorem LineBlock.exists_cutAtLine {block : List Char} (h : LineBlock block) (rest : List Char) :
    ∃ shown ending behind, CutAtLine (block ++ rest) block shown ending behind := by
  obtain ⟨piece, behind, hrest, hpiece, hbehind⟩ : ∃ piece behind, rest = piece ++ behind ∧ '\n' ∉ piece ∧
      (behind = [] ∨ ∃ rest', behind = '\n' :: rest') := by
    by_cases hn : '\n' ∈ rest
    · obtain ⟨piece, rest', hrest, hpiece⟩ := List.eq_append_cons_of_mem hn
      exact ⟨piece, _, hrest, hpiece, Or.inr ⟨rest', rfl⟩⟩
    · exact ⟨rest, [], (List.append_nil rest).symm, hn, Or.inl rfl⟩
  obtain ⟨shown, ending, rfl, hshown⟩ := exists_shownAs piece
  exact ⟨shown, ending, behind, ⟨by rw [hrest], h, hpiece, hshown, hbehind⟩⟩

/-- A text starts with as many whole lines as it has newlines. -/
theorem exists_block_of_le_count {k : Nat} {cs : List Char} (h : k ≤ cs.count '\n') :
    ∃ block rest, cs = block ++ rest ∧ LineBlock block ∧ block.count '\n' = k := by
  induction cs using lines_induction generalizing k with
  | last piece hp =>
    rw [List.count_eq_zero_of_not_mem hp] at h
    exact ⟨[], piece, rfl, .nil, (Nat.le_zero.1 h).symm⟩
  | more piece cs hp ih =>
    cases k with
    | zero => exact ⟨[], _, rfl, .nil, rfl⟩
    | succ k =>
      rw [count_newline_append hp] at h
      obtain ⟨block, rest, rfl, hblock, hcount⟩ := ih (Nat.le_of_succ_le_succ h)
      refine ⟨piece ++ '\n' :: block, rest, ?_, .line hp hblock, ?_⟩
      · rw [List.append_assoc, List.cons_append]
      · rw [count_newline_append hp, hcount]

/-- A text can be cut at each of its lines. -/
theorem exists_cutAtLine {k : Nat} {cs : List Char} (h : k ≤ cs.count '\n') :
    ∃ before shown ending behind, CutAtLine cs before shown ending behind ∧ before.count '\n' = k := by
  obtain ⟨block, rest, rfl, hblock, hcount⟩ := exists_block_of_le_count h
  obtain ⟨shown, ending, behind, hcut⟩ := hblock.exists_cutAtLine rest
  exact ⟨block, shown, ending, behind, hcut, hcount⟩

namespace CutAtLine

variable {text : String} {cs before shown ending behind : List Char}

/-- The carriage return that is not shown is one character. -/
theorem ending_eq (h : CutAtLine cs before shown ending behind) :
    ending = ['\r'] ∨ ending = [] ∧ shown.getLast? ≠ some '\r' := by
  rcases h.shownAs with hending | ⟨hending, hlast⟩
  · exact Or.inl (List.append_cancel_left hending)
  · exact Or.inr ⟨List.append_right_eq_self.1 hending, hlast⟩

theorem length_eq (h : CutAtLine cs before shown ending behind) :
    cs.length = before.length + shown.length + ending.length + behind.length := by
  rw [h.eq_append]
  simp only [List.length_append]
  omega

/-- The index has the line. -/
theorem getElem?_lines (h : CutAtLine text.toList before shown ending behind) :
    (LineIndex.ofText text).lines[before.count '\n']? =
      some ⟨before.length, utf8Length before, shown ++ ending⟩ := by
  have hpiece : (shown ++ ending ++ behind).takeWhile (· ≠ '\n') = shown ++ ending := by
    rw [List.takeWhile_append_of_pos (forall_ne_newline h.not_mem)]
    rcases h.behind_eq with rfl | ⟨rest, rfl⟩ <;> simp
  show (placeLines 0 0 (linePieces text.toList))[before.count '\n' + 0]? = _
  rw [h.eq_append, h.block.getElem?_placeLines, getElem?_zero_placeLines, hpiece, Nat.zero_add, Nat.zero_add]

theorem line?_eq (h : CutAtLine text.toList before shown ending behind) :
    (LineIndex.ofText text).line? (before.count '\n' + 1) = some (String.ofList shown) := by
  have hshown := Line.shown_eq_of_shownAs (l := ⟨before.length, utf8Length before, shown ++ ending⟩) h.shownAs
  rw [LineIndex.line?, h.getElem?_lines, Option.map_some, hshown]

theorem lineSpan?_eq (h : CutAtLine text.toList before shown ending behind) :
    (LineIndex.ofText text).lineSpan? (before.count '\n' + 1) =
      some ⟨before.length, before.length + shown.length⟩ := by
  have hshown := Line.shown_eq_of_shownAs (l := ⟨before.length, utf8Length before, shown ++ ending⟩) h.shownAs
  rw [LineIndex.lineSpan?, h.getElem?_lines, Option.map_some, hshown]

/-- Behind the newline that ends a line the text can be cut at the next one. -/
theorem next {rest : List Char} (h : CutAtLine cs before shown ending ('\n' :: rest)) :
    (before ++ (shown ++ ending ++ ['\n'])).count '\n' = before.count '\n' + 1 ∧
      ∃ shown' ending' behind', CutAtLine cs (before ++ (shown ++ ending ++ ['\n'])) shown' ending' behind' := by
  have hblock : LineBlock (before ++ (shown ++ ending ++ ['\n'])) := h.block.append (.line h.not_mem .nil)
  have hcs : cs = before ++ (shown ++ ending ++ ['\n']) ++ rest := by
    rw [h.eq_append]
    simp
  refine ⟨?_, ?_⟩
  · rw [List.count_append, count_newline_append h.not_mem, List.count_nil, Nat.zero_add]
  · rw [hcs]
    exact hblock.exists_cutAtLine rest

/-- The text ends behind its last line. -/
theorem behind_eq_nil_iff (h : CutAtLine cs before shown ending behind) :
    behind = [] ↔ before.count '\n' = cs.count '\n' := by
  rw [h.eq_append, List.count_append, List.count_append, List.count_eq_zero_of_not_mem h.not_mem]
  rcases h.behind_eq with rfl | ⟨rest, rfl⟩ <;> simp

end CutAtLine

namespace LineIndex

/-! ## The line of an offset -/

/-- An offset is placed at a line that the text can be cut at, behind some characters of the line or of its break. -/
theorem exists_cutAtLine_of_offset (text : String) (offset : Nat) :
    ∃ before shown ending behind spaces, CutAtLine text.toList before shown ending behind ∧
      (ofText text).position offset = ⟨before.count '\n' + 1, spaces + 1, before.length + spaces⟩ ∧
      spaces ≤ shown.length + ending.length := by
  have hline := line_position text offset
  have hle : (text.toList.take offset).count '\n' ≤ text.toList.count '\n' :=
    (List.take_sublist offset text.toList).count_le '\n'
  obtain ⟨before, shown, ending, behind, hcut, hcount⟩ := exists_cutAtLine hle
  rw [← hcount] at hline
  have hstart : before.length ≤ (ofText text).clamp offset :=
    (start_le_clamp_iff text offset hcut.getElem?_lines).2 (by omega)
  have hstop : (ofText text).clamp offset ≤ before.length + (shown.length + ending.length) := by
    rcases hcut.behind_eq with rfl | ⟨rest, rfl⟩
    · have hlength := hcut.length_eq
      rw [String.length_toList, List.length_nil, Nat.add_zero, Nat.add_assoc] at hlength
      exact (Nat.min_le_right _ _).trans (Nat.le_of_eq hlength)
    · -- The next line starts behind the offset.
      obtain ⟨hnext, shown', ending', behind', hcut'⟩ := hcut.next
      have hbehind := start_le_clamp_iff text offset hcut'.getElem?_lines
      simp only [List.length_append, List.length_singleton] at hbehind
      omega
  have hat := getElem?_line_position text offset
  rw [hline, Nat.add_sub_cancel, hcut.getElem?_lines, Option.some.injEq] at hat
  refine ⟨before, shown, ending, behind, (ofText text).clamp offset - before.length, hcut, ?_, by omega⟩
  rw [Nat.add_sub_cancel' hstart, ← hline]
  show Position.mk _ ((ofText text).clamp offset - ((ofText text).lineAt offset).start + 1) _ = _
  rw [← hat]
  rfl

/-! ## Lines by number -/

theorem isSome_line?_iff {index : LineIndex} {k : Nat} :
    (index.line? k).isSome ↔ 1 ≤ k ∧ k ≤ index.lineCount := by
  cases k with
  | zero => simp [line?]
  | succ k =>
    show (index.line? (k + 1)).isSome ↔ 1 ≤ k + 1 ∧ k < index.lineCount
    simp [line?, lineCount]

theorem isSome_lineSpan?_iff {index : LineIndex} {k : Nat} :
    (index.lineSpan? k).isSome ↔ 1 ≤ k ∧ k ≤ index.lineCount := by
  cases k with
  | zero => simp [lineSpan?]
  | succ k =>
    show (index.lineSpan? (k + 1)).isSome ↔ 1 ≤ k + 1 ∧ k < index.lineCount
    simp [lineSpan?, lineCount]

/-- A text can be cut at a line given by its number. -/
theorem exists_cutAtLine_of_le {text : String} {k : Nat} (hpos : 1 ≤ k) (hle : k ≤ (ofText text).lineCount) :
    ∃ before shown ending behind, CutAtLine text.toList before shown ending behind ∧ k = before.count '\n' + 1 := by
  rw [lineCount_ofText] at hle
  obtain ⟨k, rfl⟩ := Nat.exists_eq_add_of_le' hpos
  obtain ⟨before, shown, ending, behind, hcut, rfl⟩ := exists_cutAtLine (Nat.le_of_succ_le_succ hle)
  exact ⟨before, shown, ending, behind, hcut, rfl⟩

theorem exists_cutAtLine_of_lineSpan? {text : String} {k : Nat} {sp : Span} (h : (ofText text).lineSpan? k = some sp) :
    ∃ before shown ending behind, CutAtLine text.toList before shown ending behind ∧ k = before.count '\n' + 1 ∧
      sp = ⟨before.length, before.length + shown.length⟩ := by
  obtain ⟨hpos, hle⟩ := isSome_lineSpan?_iff.1 (Option.isSome_of_eq_some h)
  obtain ⟨before, shown, ending, behind, hcut, rfl⟩ := exists_cutAtLine_of_le hpos hle
  rw [hcut.lineSpan?_eq, Option.some.injEq] at h
  exact ⟨before, shown, ending, behind, hcut, rfl, h.symm⟩

/-! ## Line breaks -/

section

variable {text : String} {k : Nat} {sp next : Span}

/-- The characters in the span of a line are those of the line. -/
theorem line?_of_lineSpan? (h : (ofText text).lineSpan? k = some sp) :
    (ofText text).line? k = some (String.ofList ((text.toList.take sp.stop).drop sp.start)) := by
  obtain ⟨before, shown, ending, behind, hcut, rfl, rfl⟩ := exists_cutAtLine_of_lineSpan? h
  have hline : (text.toList.take (before.length + shown.length)).drop before.length = shown := by
    rw [hcut.eq_append, List.append_assoc, List.take_length_add_append, List.drop_left, List.take_left]
  rw [hcut.line?_eq, hline]

/-- Between the spans of consecutive lines is a newline, behind a carriage return or not. -/
theorem break_of_lineSpan? (h : (ofText text).lineSpan? k = some sp) (h' : (ofText text).lineSpan? (k + 1) = some next) :
    sp.stop < next.start ∧ (text.toList.take next.start).drop sp.stop ∈ [['\n'], ['\r', '\n']] := by
  obtain ⟨before, shown, ending, behind, hcut, rfl, rfl⟩ := exists_cutAtLine_of_lineSpan? h
  have hlt : before.count '\n' < text.toList.count '\n' := by
    have hle := (isSome_lineSpan?_iff.1 (Option.isSome_of_eq_some h')).2
    rw [lineCount_ofText] at hle
    omega
  obtain ⟨rest, rfl⟩ := hcut.behind_eq.resolve_left fun hnil => by
    rw [hcut.behind_eq_nil_iff] at hnil
    omega
  obtain ⟨hnext, shown', ending', behind', hcut'⟩ := hcut.next
  rw [← hnext, hcut'.lineSpan?_eq, Option.some.injEq] at h'
  subst h'
  have hbreak : (text.toList.take (before ++ (shown ++ ending ++ ['\n'])).length).drop (before.length + shown.length) =
      ending ++ ['\n'] := by
    rw [hcut'.eq_append, List.take_left, ← List.length_append, List.append_assoc, ← List.append_assoc, List.drop_left]
  refine ⟨?_, ?_⟩
  · simp only [List.length_append, List.length_singleton]
    omega
  · rw [hbreak]
    rcases hcut.ending_eq with rfl | ⟨rfl, -⟩ <;> simp

/-- Behind the span of the last line is a carriage return or nothing. -/
theorem drop_of_lineSpan?_lineCount (h : (ofText text).lineSpan? (ofText text).lineCount = some sp) :
    text.toList.drop sp.stop ∈ [[], ['\r']] := by
  obtain ⟨before, shown, ending, behind, hcut, hcount, rfl⟩ := exists_cutAtLine_of_lineSpan? h
  rw [lineCount_ofText, Nat.succ_inj] at hcount
  obtain rfl := hcut.behind_eq_nil_iff.2 hcount.symm
  rw [hcut.eq_append, List.append_nil, ← List.length_append, ← List.append_assoc, List.drop_left]
  rcases hcut.ending_eq with rfl | ⟨rfl, -⟩ <;> simp

/-- The span of a line is in the text. -/
theorem bounds_of_lineSpan? (h : (ofText text).lineSpan? k = some sp) : sp.start ≤ sp.stop ∧ sp.stop ≤ text.length := by
  obtain ⟨before, shown, ending, behind, hcut, rfl, rfl⟩ := exists_cutAtLine_of_lineSpan? h
  have hlength := hcut.length_eq
  rw [String.length_toList] at hlength
  refine ⟨Nat.le_add_right _ _, ?_⟩
  show before.length + shown.length ≤ text.length
  omega

/-- The spans of lines are in the order of the lines, with something between them. -/
theorem stop_lt_start_of_lineSpan? {j : Nat} (hjk : j < k) (h : (ofText text).lineSpan? j = some sp)
    (h' : (ofText text).lineSpan? k = some next) : sp.stop < next.start := by
  induction k, hjk using Nat.le_induction generalizing next with
  | base => exact (break_of_lineSpan? h h').1
  | succ k hjk ih =>
    have hle := (isSome_lineSpan?_iff.1 (Option.isSome_of_eq_some h')).2
    obtain ⟨between, hbetween⟩ := Option.isSome_iff_exists.1
      (isSome_lineSpan?_iff.2 ⟨Nat.one_le_of_lt hjk, Nat.le_of_succ_le hle⟩)
    exact (ih hbetween).trans ((bounds_of_lineSpan? hbetween).1.trans_lt (break_of_lineSpan? hbetween h').1)

/-- A line is a piece of the text between two newlines, but for a carriage return at its end. -/
theorem exists_shownAs_of_line? {line : String} (h : (ofText text).line? k = some line) :
    ∃ piece, (text.toList.splitOn '\n')[k - 1]? = some piece ∧ ShownAs piece line.toList := by
  obtain ⟨hpos, hle⟩ := isSome_line?_iff.1 (Option.isSome_of_eq_some h)
  obtain ⟨before, shown, ending, behind, hcut, rfl⟩ := exists_cutAtLine_of_le hpos hle
  rw [hcut.line?_eq, Option.some.injEq] at h
  refine ⟨shown ++ ending, ?_, ?_⟩
  · have hpieces : (ofText text).lines.map Line.chars = text.toList.splitOn '\n' := by
      rw [← linePieces_eq_splitOn]
      exact map_chars_placeLines 0 0 (linePieces text.toList)
    rw [← hpieces, Nat.add_sub_cancel, List.getElem?_map, hcut.getElem?_lines, Option.map_some]
  · rw [← h, String.toList_ofList]
    exact hcut.shownAs

end

/-! ## Lines as bytes -/

/-- The number of bytes before the end of a line, counted from 0: before the newline that the next line starts behind, or
before the end of the text. -/
def byteStop (index : LineIndex) (text : String) (k : Nat) : Nat :=
  match index.lines[k + 1]? with
  | some next => next.byteStart - 1
  | none => text.utf8ByteSize

/-- A line ends behind its own bytes and those before it, the bytes of a carriage return that is not shown included. -/
theorem byteStop_of_cutAtLine {text : String} {before shown ending behind : List Char}
    (h : CutAtLine text.toList before shown ending behind) :
    (ofText text).byteStop text (before.count '\n') = utf8Length (before ++ (shown ++ ending)) := by
  unfold byteStop
  rcases h.behind_eq with rfl | ⟨rest, rfl⟩
  · have hnone : (ofText text).lines[before.count '\n' + 1]? = none := by
      refine List.getElem?_eq_none ?_
      show (ofText text).lineCount ≤ _
      rw [lineCount_ofText, h.behind_eq_nil_iff.1 rfl]
    have htext := h.eq_append
    rw [List.append_nil] at htext
    rw [hnone, ← htext, ← utf8ByteSize_ofList, String.ofList_toList]
  · obtain ⟨hnext, shown', ending', behind', hcut'⟩ := h.next
    rw [← hnext, hcut'.getElem?_lines, ← List.append_assoc, utf8Length_append, utf8Length_cons]
    rfl

/-- The bytes of a text from the start of a line to its end are those of the line. Both are between two characters. -/
theorem extract_byteStop {text : String} {k : Nat} {l : Line} (h : (ofText text).lines[k]? = some l) :
    String.Pos.Raw.IsValid text ⟨l.byteStart⟩ ∧ String.Pos.Raw.IsValid text ⟨(ofText text).byteStop text k⟩ ∧
      text.toByteArray.extract l.byteStart ((ofText text).byteStop text k) = (String.ofList l.chars).toByteArray := by
  have hlt : k < (ofText text).lineCount := (List.getElem?_eq_some_iff.1 h).1
  obtain ⟨before, shown, ending, behind, hcut, hk⟩ := exists_cutAtLine_of_le (Nat.le_add_left 1 k) hlt
  obtain rfl := Nat.succ_inj.1 hk
  rw [hcut.getElem?_lines, Option.some.injEq] at h
  subst h
  have hbefore : text.toList.take before.length = before := by
    rw [hcut.eq_append, List.take_left]
  have hline : text.toList.take (before ++ (shown ++ ending)).length = before ++ (shown ++ ending) := by
    rw [hcut.eq_append, ← List.append_assoc before (shown ++ ending) behind, List.take_left]
  refine ⟨?_, ?_, ?_⟩
  · show String.Pos.Raw.IsValid text ⟨utf8Length before⟩
    rw [← hbefore]
    exact isValid_utf8Length_take text _
  · rw [byteStop_of_cutAtLine hcut, ← hline]
    exact isValid_utf8Length_take text _
  · have hextract := extract_ofList_append before (shown ++ ending) behind
    rw [List.append_assoc, ← hcut.eq_append, String.ofList_toList] at hextract
    rw [byteStop_of_cutAtLine hcut]
    exact hextract

/-! ## The tiling -/

/-- An offset is in the break behind a line: behind the span of the line, and before that of the next one. -/
def InBreak (index : LineIndex) (offset : Nat) : Prop :=
  ∃ k sp, index.lineSpan? k = some sp ∧ sp.stop ≤ offset ∧
    ∀ next, index.lineSpan? (k + 1) = some next → offset < next.start

/-- An offset in the text is in the span of the line it is placed at, unless it is in the break behind that line. -/
theorem exists_lineSpan?_of_not_inBreak {text : String} {offset : Nat} (h : offset < text.length)
    (hbreak : ¬(ofText text).InBreak offset) :
    ∃ sp, (ofText text).lineSpan? ((ofText text).position offset).line = some sp ∧ sp.start ≤ offset ∧
      offset < sp.stop := by
  obtain ⟨before, shown, ending, behind, spaces, hcut, hposition, hspaces⟩ := exists_cutAtLine_of_offset text offset
  have hclamp : (ofText text).clamp offset = offset := Nat.min_eq_left (Nat.le_of_lt h)
  have hoffset : offset = before.length + spaces := hclamp.symm.trans (congrArg Position.offset hposition)
  refine ⟨⟨before.length, before.length + shown.length⟩, ?_, ?_, ?_⟩
  · rw [hposition]
    exact hcut.lineSpan?_eq
  · rw [hoffset]
    exact Nat.le_add_right _ _
  · by_contra hge
    refine hbreak ⟨_, _, hcut.lineSpan?_eq, Nat.le_of_not_lt hge, fun next hnext => ?_⟩
    obtain ⟨l, hl, rfl⟩ := Option.map_eq_some_iff.1 hnext
    have hbehind := start_le_clamp_iff text offset hl
    rw [hclamp, hposition] at hbehind
    exact Nat.lt_of_not_le fun hle => Nat.lt_irrefl _ (hbehind.1 hle)

/-- The lines of an index are those of a text: the pieces between its newlines, cut out of its bytes. Their spans tile
it: they stand in order from its start to its end, and between them there are only line breaks. -/
structure Tiles (index : LineIndex) (text : String) : Prop where
  lineCount_eq : index.lineCount = 1 + text.toList.count '\n'
  isSome_line? : ∀ k, (index.line? k).isSome ↔ 1 ≤ k ∧ k ≤ index.lineCount
  isSome_lineSpan? : ∀ k, (index.lineSpan? k).isSome ↔ 1 ≤ k ∧ k ≤ index.lineCount
  piece : ∀ k line, index.line? k = some line →
    ∃ piece, (text.toList.splitOn '\n')[k - 1]? = some piece ∧ ShownAs piece line.toList
  bytes : ∀ k l, index.lines[k]? = some l →
    String.Pos.Raw.IsValid text ⟨l.byteStart⟩ ∧ String.Pos.Raw.IsValid text ⟨index.byteStop text k⟩ ∧
      text.toByteArray.extract l.byteStart (index.byteStop text k) = (String.ofList l.chars).toByteArray
  within : ∀ k sp, index.lineSpan? k = some sp → sp.start ≤ sp.stop ∧ sp.stop ≤ text.length
  covers : ∀ k sp, index.lineSpan? k = some sp →
    index.line? k = some (String.ofList ((text.toList.take sp.stop).drop sp.start))
  ordered : ∀ j k sp sp', j < k → index.lineSpan? j = some sp → index.lineSpan? k = some sp' → sp.stop < sp'.start
  first : ∀ sp, index.lineSpan? 1 = some sp → sp.start = 0
  between : ∀ k sp next, index.lineSpan? k = some sp → index.lineSpan? (k + 1) = some next →
    (text.toList.take next.start).drop sp.stop ∈ [['\n'], ['\r', '\n']]
  last : ∀ sp, index.lineSpan? index.lineCount = some sp → text.toList.drop sp.stop ∈ [[], ['\r']]
  contains : ∀ offset, offset < text.length → ¬index.InBreak offset →
    ∃ sp, index.lineSpan? (index.position offset).line = some sp ∧ sp.start ≤ offset ∧ offset < sp.stop

/-- The lines of the index of a text tile it. -/
theorem tiles_ofText (text : String) : (ofText text).Tiles text where
  lineCount_eq := by
    rw [lineCount_ofText]
    exact Nat.add_comm _ 1
  isSome_line? := fun _ => isSome_line?_iff
  isSome_lineSpan? := fun _ => isSome_lineSpan?_iff
  piece := fun _ _ => exists_shownAs_of_line?
  bytes := fun _ _ => extract_byteStop
  within := fun _ _ => bounds_of_lineSpan?
  covers := fun _ _ => line?_of_lineSpan?
  ordered := fun _ _ _ _ hjk h h' => stop_lt_start_of_lineSpan? hjk h h'
  first := by
    intro sp h
    obtain ⟨l, hl, rfl⟩ := Option.map_eq_some_iff.1 h
    rw [ofText, getElem?_zero_placeLines, Option.some.injEq] at hl
    rw [← hl]
  between := fun _ _ _ h h' => (break_of_lineSpan? h h').2
  last := fun _ => drop_of_lineSpan?_lineCount
  contains := fun _ => exists_lineSpan?_of_not_inBreak

/-- The carriage return of a line break is in no line, and a last line may be empty. -/
example : (ofText "λ\r\n\n").lineSpan? 1 = some ⟨0, 1⟩ ∧ (ofText "λ\r\n\n").lineSpan? 2 = some ⟨3, 3⟩ ∧
    (ofText "λ\r\n\n").lineSpan? 3 = some ⟨4, 4⟩ := by
  decide

end LineIndex

end TokenParsing
