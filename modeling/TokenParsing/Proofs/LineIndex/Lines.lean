import TokenParsing.LineIndex

/-!
# The lines of a text

A text is taken apart line by line (`lines_induction`). `LineBlock` says that a text is made of whole lines, each with
the newline that ends it, and `firstLines` gives the first lines of a text. The line at which a `LineIndex` places an
offset is one more than the newlines before it (`line_position`).
-/

namespace TokenParsing

/-- What holds of every text without a newline, and of a line before a text it holds of, holds of every text. -/
theorem lines_induction {motive : List Char → Prop} (last : ∀ piece, '\n' ∉ piece → motive piece)
    (more : ∀ piece cs, '\n' ∉ piece → motive cs → motive (piece ++ '\n' :: cs)) (cs : List Char) : motive cs := by
  by_cases h : '\n' ∈ cs
  · obtain ⟨piece, rest, hcs, hpiece⟩ := List.eq_append_cons_of_mem h
    have hshorter : rest.length < cs.length := by
      rw [hcs, List.length_append, List.length_cons]
      omega
    rw [hcs]
    exact more piece rest hpiece (lines_induction last more rest)
  · exact last cs h
termination_by cs.length

/-! ## Blocks of lines -/

/-- A text made of whole lines: it is empty or ends in a newline. -/
inductive LineBlock : List Char → Prop where
  | nil : LineBlock []
  | line {piece cs : List Char} (hp : '\n' ∉ piece) (h : LineBlock cs) : LineBlock (piece ++ '\n' :: cs)

/-- A text that ends in a newline is made of whole lines. -/
theorem lineBlock_of_getLast? {cs : List Char} (h : cs.getLast? = some '\n') : LineBlock cs := by
  induction cs using lines_induction with
  | last piece hp => exact absurd (List.mem_of_getLast? h) hp
  | more piece cs hp ih =>
    cases cs with
    | nil => exact .line hp .nil
    | cons c cs =>
      rw [List.getLast?_append, List.getLast?_cons_cons] at h
      refine .line hp (ih ?_)
      simpa [List.getLast?_cons] using h

/-- Blocks of whole lines follow one another to a block of whole lines. -/
theorem LineBlock.append {block cs : List Char} (h : LineBlock block) (h' : LineBlock cs) :
    LineBlock (block ++ cs) := by
  induction h with
  | nil => exact h'
  | line hp _ ih =>
    rw [List.append_assoc, List.cons_append]
    exact .line hp ih

/-! ## The first lines of a text -/

/-- The first `k` lines of a text, each with the newline that ends it, if one does. -/
def firstLines : Nat → List Char → List Char
  | 0, _ => []
  | _ + 1, [] => []
  | k + 1, c :: cs => c :: firstLines (if c = '\n' then k else k + 1) cs

@[simp] theorem firstLines_zero (cs : List Char) : firstLines 0 cs = [] := by
  cases cs <;> rfl

/-- A text without a newline is one line. -/
theorem firstLines_succ_of_not_mem {piece : List Char} (h : '\n' ∉ piece) (k : Nat) :
    firstLines (k + 1) piece = piece := by
  induction piece with
  | nil => rfl
  | cons c piece ih =>
    simp only [List.mem_cons, not_or] at h
    rw [firstLines, if_neg (Ne.symm h.1), ih h.2]

/-- The first line goes up to the first newline, and the others are those behind it. -/
theorem firstLines_succ_append_newline {piece : List Char} (h : '\n' ∉ piece) (k : Nat) (cs : List Char) :
    firstLines (k + 1) (piece ++ '\n' :: cs) = piece ++ '\n' :: firstLines k cs := by
  induction piece with
  | nil => rw [List.nil_append, firstLines, if_pos rfl, List.nil_append]
  | cons c piece ih =>
    simp only [List.mem_cons, not_or] at h
    rw [List.cons_append, firstLines, if_neg (Ne.symm h.1), ih h.2, List.cons_append]

/-- A line and its newline add one newline to a text. -/
theorem count_newline_append {piece : List Char} (h : '\n' ∉ piece) (cs : List Char) :
    (piece ++ '\n' :: cs).count '\n' = cs.count '\n' + 1 := by
  rw [List.count_append, List.count_eq_zero_of_not_mem h, List.count_cons_self, Nat.zero_add]

/-- A block of lines is as many first lines as it has newlines. -/
theorem LineBlock.firstLines_append {block : List Char} (h : LineBlock block) (k : Nat) (cs : List Char) :
    firstLines (block.count '\n' + k) (block ++ cs) = block ++ firstLines k cs := by
  induction h with
  | nil => simp
  | @line piece block hp _ ih =>
    rw [count_newline_append hp, Nat.add_right_comm, List.append_assoc, List.cons_append,
      firstLines_succ_append_newline hp, ih, List.append_assoc, List.cons_append]

/-! ## Where an index places lines and offsets -/

/-- A line starts after the lines before it. -/
theorem start_of_getElem?_placeLines {start byteStart k : Nat} {cs : List Char} {l : Line}
    (h : (placeLines start byteStart (linePieces cs))[k]? = some l) : l.start = start + (firstLines k cs).length := by
  induction cs using lines_induction generalizing start byteStart k with
  | last piece hp =>
    rw [linePieces_of_not_mem hp, placeLines, placeLines] at h
    cases k with
    | zero =>
      cases h
      simp
    | succ k => simp at h
  | more piece cs hp ih =>
    rw [linePieces_append_newline hp, placeLines] at h
    cases k with
    | zero =>
      cases h
      simp
    | succ k =>
      rw [List.getElem?_cons_succ] at h
      rw [ih h, firstLines_succ_append_newline hp, List.length_append, List.length_cons]
      omega

/-- The lines that start at or before an offset are one more than the newlines before it. -/
theorem length_takeWhile_placeLines (offset start byteStart : Nat) (cs : List Char) :
    ((placeLines start byteStart (linePieces cs)).takeWhile fun l => l.start ≤ offset).length =
      if start ≤ offset then (cs.take (offset - start)).count '\n' + 1 else 0 := by
  induction cs using lines_induction generalizing start byteStart with
  | last piece hp =>
    have hcount : (piece.take (offset - start)).count '\n' = 0 :=
      List.count_eq_zero_of_not_mem fun hn => hp (List.mem_of_mem_take hn)
    rw [linePieces_of_not_mem hp, placeLines, placeLines, hcount]
    by_cases hs : start ≤ offset <;> simp [hs]
  | more piece cs hp ih =>
    rw [linePieces_append_newline hp, placeLines]
    by_cases hs : start ≤ offset
    · rw [List.takeWhile_cons_of_pos (by simpa using hs), List.length_cons, ih, if_pos hs]
      by_cases hnext : start + piece.length + 1 ≤ offset
      · have htake : (piece ++ '\n' :: cs).take (offset - start) =
            piece ++ '\n' :: cs.take (offset - (start + piece.length + 1)) := by
          have hk : offset - start = piece.length + (offset - (start + piece.length + 1) + 1) := by omega
          rw [hk, List.take_length_add_append, List.take_succ_cons]
        rw [if_pos hnext, htake, count_newline_append hp]
      · have htake : (piece ++ '\n' :: cs).take (offset - start) = piece.take (offset - start) :=
          List.take_append_of_le_length (by omega)
        rw [if_neg hnext, htake, List.count_eq_zero_of_not_mem fun hn => hp (List.mem_of_mem_take hn)]
    · rw [List.takeWhile_cons_of_neg (by simpa using hs), if_neg hs]
      rfl

/-- The line of an offset is one more than the newlines before it. -/
theorem line_position (text : String) (offset : Nat) :
    ((LineIndex.ofText text).position offset).line = (text.toList.take offset).count '\n' + 1 := by
  have hclamp : text.toList.take (min offset text.length) = text.toList.take offset := by
    rw [← String.length_toList, ← List.take_take, List.take_length]
  show ((placeLines 0 0 (linePieces text.toList)).takeWhile fun l => l.start ≤ min offset text.length).length = _
  rw [length_takeWhile_placeLines, if_pos (Nat.zero_le _), Nat.sub_zero, hclamp]

/-- There is a line at which an offset is placed. -/
theorem exists_line_position (text : String) (offset : Nat) :
    ∃ l, (LineIndex.ofText text).lines[((LineIndex.ofText text).position offset).line - 1]? = some l := by
  have hle : ((LineIndex.ofText text).position offset).line ≤ (LineIndex.ofText text).lines.length :=
    (List.takeWhile_prefix _).length_le
  have hpos : 0 < ((LineIndex.ofText text).position offset).line := by
    rw [line_position]
    exact Nat.succ_pos _
  exact ⟨_, List.getElem?_eq_getElem (by omega)⟩

end TokenParsing
