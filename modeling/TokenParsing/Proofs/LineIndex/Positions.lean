import Mathlib.Data.List.DropRight
import TokenParsing.Proofs.LineIndex.Lines

/-!
# The place of an offset

An offset cuts a text in two. What is before it is whole lines and the beginning of a line. The offset is placed at the
line that starts behind the whole lines (`lineAt_ofText`), and the lines that start at or before it are the first ones
(`start_le_clamp_iff`). So the line and the column of an offset count the newlines before it and the characters since the
last of them, and say where it is (`position_ofText`).
-/

namespace TokenParsing

/-! ## Counting lines -/

/-- A text has one line more than newlines. -/
theorem length_linePieces (cs : List Char) : (linePieces cs).length = cs.count '\n' + 1 := by
  induction cs using lines_induction with
  | last piece hp => rw [linePieces_of_not_mem hp, List.count_eq_zero_of_not_mem hp, List.length_singleton]
  | more piece cs hp ih => rw [linePieces_append_newline hp, List.length_cons, ih, count_newline_append hp]

/-- Every piece is placed as one line. -/
theorem length_placeLines (start byteStart : Nat) (pieces : List (List Char)) :
    (placeLines start byteStart pieces).length = pieces.length := by
  induction pieces generalizing start byteStart with
  | nil => rfl
  | cons piece pieces ih => rw [placeLines, List.length_cons, ih, List.length_cons]

/-- The first lines of a text end at or before an offset when there are as many newlines before it. -/
theorem length_firstLines_le_iff {k : Nat} {cs : List Char} (h : k ≤ cs.count '\n') (offset : Nat) :
    (firstLines k cs).length ≤ offset ↔ k ≤ (cs.take offset).count '\n' := by
  induction cs generalizing k offset with
  | nil =>
    obtain rfl : k = 0 := Nat.le_zero.1 h
    simp
  | cons c cs ih =>
    cases k with
    | zero => simp
    | succ k =>
      cases offset with
      | zero => simp [firstLines]
      | succ offset =>
        rw [firstLines, List.length_cons, Nat.add_le_add_iff_right, List.take_succ_cons]
        by_cases hc : c = '\n'
        · rw [hc, List.count_cons_self, Nat.add_le_add_iff_right] at h
          rw [if_pos hc, hc, List.count_cons_self, Nat.add_le_add_iff_right, ih h]
        · rw [List.count_cons_of_ne hc] at h
          rw [if_neg hc, List.count_cons_of_ne hc, ih h]

/-! ## The line behind whole lines -/

/-- Up to its last newline a text is made of whole lines. -/
theorem lineBlock_rdropWhile (cs : List Char) : LineBlock (cs.rdropWhile (· ≠ '\n')) := by
  by_cases h : cs.rdropWhile (· ≠ '\n') = []
  · rw [h]
    exact .nil
  · have hlast := List.rdropWhile_last_not (· ≠ '\n') cs h
    refine lineBlock_of_getLast? ?_
    rw [List.getLast?_eq_some_getLast h]
    simpa using hlast

theorem forall_ne_newline {piece : List Char} (h : '\n' ∉ piece) : ∀ c ∈ piece, decide (c ≠ '\n') = true :=
  fun _ hc => decide_eq_true fun hn => h (hn ▸ hc)

/-- What stands behind the last newline has none. -/
theorem not_mem_rtakeWhile (cs : List Char) : '\n' ∉ cs.rtakeWhile (· ≠ '\n') := fun h => by
  simpa using List.mem_rtakeWhile_imp h

@[simp] theorem utf8Length_nil : utf8Length [] = 0 := rfl

@[simp] theorem utf8Length_cons (c : Char) (cs : List Char) : utf8Length (c :: cs) = c.utf8Size + utf8Length cs := rfl

/-- The bytes of two texts, one behind the other, are those of both. -/
@[simp] theorem utf8Length_append (cs cs' : List Char) : utf8Length (cs ++ cs') = utf8Length cs + utf8Length cs' := by
  induction cs with
  | nil => simp
  | cons c cs ih => simp [ih, Nat.add_assoc]

/-- The lines behind a block of lines are those of the text behind it. -/
theorem LineBlock.getElem?_placeLines {block : List Char} (h : LineBlock block) (cs : List Char)
    (start byteStart k : Nat) :
    (placeLines start byteStart (linePieces (block ++ cs)))[block.count '\n' + k]? =
      (placeLines (start + block.length) (byteStart + utf8Length block) (linePieces cs))[k]? := by
  induction h generalizing start byteStart with
  | nil => simp
  | @line piece block hp _ ih =>
    have hchars : start + (piece ++ '\n' :: block).length = start + piece.length + 1 + block.length := by
      rw [List.length_append, List.length_cons]
      omega
    have hbytes : byteStart + utf8Length (piece ++ '\n' :: block) =
        byteStart + utf8Length piece + 1 + utf8Length block := by
      rw [utf8Length_append, utf8Length_cons, show '\n'.utf8Size = 1 from rfl]
      omega
    rw [hchars, hbytes, ← ih, List.append_assoc, List.cons_append, linePieces_append_newline hp, placeLines,
      count_newline_append hp, Nat.add_right_comm _ 1 k, List.getElem?_cons_succ]

/-- The first line of a text ends at the first newline. -/
theorem getElem?_zero_placeLines (start byteStart : Nat) (cs : List Char) :
    (placeLines start byteStart (linePieces cs))[0]? = some ⟨start, byteStart, cs.takeWhile (· ≠ '\n')⟩ := by
  induction cs using lines_induction with
  | last piece hp =>
    rw [linePieces_of_not_mem hp, List.takeWhile_eq_self_iff.2 (forall_ne_newline hp)]
    rfl
  | more piece cs hp _ =>
    have hfirst : (piece ++ '\n' :: cs).takeWhile (· ≠ '\n') = piece := by
      rw [List.takeWhile_append_of_pos (forall_ne_newline hp), List.takeWhile_cons_of_neg (by simp), List.append_nil]
    rw [linePieces_append_newline hp, hfirst]
    rfl

/-! ## Places -/

/-- A place is before another one when its line is, or its column in the same line. -/
def Position.Before (p q : Position) : Prop :=
  p.line < q.line ∨ p.line = q.line ∧ p.column < q.column

/-- Of two places one at most is before the other. -/
theorem Position.Before.asymm {p q : Position} (h : p.Before q) : ¬q.Before p := by
  unfold Position.Before at h ⊢
  omega

/-- A place counts the newlines before an offset of a text and the characters since the last of them, both from 1. -/
structure Position.IsAt (p : Position) (o : Nat) (text : String) : Prop where
  offset : p.offset = o
  line : p.line = 1 + (text.toList.take o).count '\n'
  column : p.column = 1 + ((text.toList.take o).rtakeWhile (· ≠ '\n')).length

namespace LineIndex

variable (text : String) (offset : Nat)

/-- An offset past the end takes the whole text. -/
theorem take_min_length : text.toList.take (min offset text.length) = text.toList.take offset := by
  rw [← String.length_toList, ← List.take_eq_take_min]

/-- An offset is clamped to the number of characters before it. -/
theorem clamp_ofText : (ofText text).clamp offset = (text.toList.take offset).length := by
  rw [List.length_take, String.length_toList]
  rfl

/-- Before a clamped offset stand the lines that end before it and the beginning of its own. -/
theorem clamp_eq_add :
    (ofText text).clamp offset = ((text.toList.take offset).rdropWhile (· ≠ '\n')).length +
      ((text.toList.take offset).rtakeWhile (· ≠ '\n')).length := by
  rw [clamp_ofText, ← List.length_append, List.rdropWhile_append_rtakeWhile]

/-- There are one more lines than newlines. -/
theorem lineCount_ofText : (ofText text).lineCount = text.toList.count '\n' + 1 := by
  rw [lineCount, ofText, length_placeLines, length_linePieces]

/-- A line starts at or before an offset when it is not behind the line that the offset is placed at. A search that
halves the lines therefore ends at the same line as one that goes through them in order. -/
theorem start_le_clamp_iff {k : Nat} {l : Line} (h : (ofText text).lines[k]? = some l) :
    l.start ≤ (ofText text).clamp offset ↔ k < ((ofText text).position offset).line := by
  have hk : k ≤ text.toList.count '\n' := by
    have hlt : k < (ofText text).lineCount := (List.getElem?_eq_some_iff.1 h).1
    rw [lineCount_ofText] at hlt
    exact Nat.le_of_lt_succ hlt
  rw [start_of_getElem?_placeLines h, Nat.zero_add, clamp_ofText, length_firstLines_le_iff hk, line_position,
    Nat.lt_succ_iff, List.length_take, String.length_toList, take_min_length]

/-- An offset is placed at a line of the text. -/
theorem getElem?_line_position :
    (ofText text).lines[((ofText text).position offset).line - 1]? = some ((ofText text).lineAt offset) := by
  have hpos : 0 < ((ofText text).reached offset).length := by
    show 0 < ((ofText text).position offset).line
    rw [line_position]
    exact Nat.succ_pos _
  obtain ⟨behind, hlines⟩ : (ofText text).reached offset <+: (ofText text).lines := List.takeWhile_prefix _
  have hlast := List.getLast?_eq_some_getLast (List.ne_nil_of_length_pos hpos)
  show (ofText text).lines[((ofText text).reached offset).length - 1]? = _
  rw [← hlines, List.getElem?_append_left (Nat.sub_one_lt_of_lt hpos), ← List.getLast?_eq_getElem?, lineAt, hlast,
    Option.getD_some]

/-- An offset is placed at the line that starts behind the whole lines before it. -/
theorem lineAt_ofText :
    (ofText text).lineAt offset =
      ⟨((text.toList.take offset).rdropWhile (· ≠ '\n')).length,
        utf8Length ((text.toList.take offset).rdropWhile (· ≠ '\n')),
        (text.toList.take offset).rtakeWhile (· ≠ '\n') ++ (text.toList.drop offset).takeWhile (· ≠ '\n')⟩ := by
  have hblock := lineBlock_rdropWhile (text.toList.take offset)
  have hpiece := not_mem_rtakeWhile (text.toList.take offset)
  have hbefore : (text.toList.take offset).rdropWhile (· ≠ '\n') ++
      (text.toList.take offset).rtakeWhile (· ≠ '\n') = text.toList.take offset := List.rdropWhile_append_rtakeWhile
  -- From here on only that whole lines and a beginning without newlines make up what is before the offset.
  generalize (text.toList.take offset).rdropWhile (· ≠ '\n') = block at hblock hbefore ⊢
  generalize (text.toList.take offset).rtakeWhile (· ≠ '\n') = piece at hpiece hbefore ⊢
  have hline : ((ofText text).position offset).line - 1 = block.count '\n' + 0 := by
    rw [line_position, ← hbefore, List.count_append, List.count_eq_zero_of_not_mem hpiece]
    rfl
  have htext : text.toList = block ++ (piece ++ text.toList.drop offset) := by
    rw [← List.append_assoc, hbefore, List.take_append_drop]
  have hat : (placeLines 0 0 (linePieces text.toList))[((ofText text).position offset).line - 1]? = _ :=
    getElem?_line_position text offset
  rw [hline, htext, hblock.getElem?_placeLines, getElem?_zero_placeLines,
    List.takeWhile_append_of_pos (forall_ne_newline hpiece), Nat.zero_add, Nat.zero_add] at hat
  exact (Option.some.inj hat).symm

/-- The column counts the characters since the last newline. -/
theorem column_position :
    ((ofText text).position offset).column = ((text.toList.take offset).rtakeWhile (· ≠ '\n')).length + 1 := by
  show (ofText text).clamp offset - ((ofText text).lineAt offset).start + 1 = _
  rw [lineAt_ofText, clamp_eq_add]
  dsimp only
  rw [Nat.add_sub_cancel_left]

/-- An offset is as far behind the start of its line as its column says. -/
theorem start_add_column :
    ((ofText text).lineAt offset).start + ((ofText text).position offset).column =
      (ofText text).clamp offset + 1 := by
  have hstart : ((ofText text).lineAt offset).start ≤ (ofText text).clamp offset := by
    rw [lineAt_ofText, clamp_eq_add]
    exact Nat.le_add_right _ _
  show ((ofText text).lineAt offset).start +
    ((ofText text).clamp offset - ((ofText text).lineAt offset).start + 1) = _
  omega

variable {text}

/-- Past the end of the text the place stays the same. -/
theorem position_congr {a b : Nat} (h : min a text.length = min b text.length) :
    (ofText text).position a = (ofText text).position b := by
  have hclamp : (ofText text).clamp a = (ofText text).clamp b := h
  simp only [position, lineAt, reached, hclamp]

/-- A place is behind the places at smaller offsets. -/
theorem position_before {a b : Nat} (h : min a text.length < min b text.length) :
    ((ofText text).position a).Before ((ofText text).position b) := by
  have ha := start_add_column text a
  have hb := start_add_column text b
  have hlt : (ofText text).clamp a < (ofText text).clamp b := h
  have hcolumn : 0 < ((ofText text).position a).column := Nat.succ_pos _
  -- The line of the smaller offset starts before the larger one.
  have hle : ((ofText text).position a).line - 1 < ((ofText text).position b).line := by
    rw [← start_le_clamp_iff text b (getElem?_line_position text a)]
    omega
  rcases Nat.lt_or_ge ((ofText text).position a).line ((ofText text).position b).line with hline | hline
  · exact Or.inl hline
  · have hsame : ((ofText text).position a).line = ((ofText text).position b).line := by omega
    have hat := getElem?_line_position text a
    rw [hsame, getElem?_line_position] at hat
    refine Or.inr ⟨hsame, ?_⟩
    rw [Option.some.inj hat] at hb
    omega

/-- The line and the column of an offset count the newlines before it and the characters since the last of them. The
line is one of the text, the offset is as far behind its start as the column says, and places are ordered as the offsets
in the text are. -/
theorem position_ofText (text : String) :
    (∀ offset, ((ofText text).position offset).IsAt (min offset text.length) text) ∧
      (∀ offset, 1 ≤ ((ofText text).position offset).line ∧
        ((ofText text).position offset).line ≤ (ofText text).lineCount) ∧
      (∀ offset, ∃ l, (ofText text).lines[((ofText text).position offset).line - 1]? = some l ∧
        l.start = (firstLines (((ofText text).position offset).line - 1) text.toList).length ∧
        ((ofText text).position offset).offset = l.start + ((ofText text).position offset).column - 1) ∧
      ∀ a b, min a text.length < min b text.length ↔
        ((ofText text).position a).Before ((ofText text).position b) := by
  refine ⟨fun offset => ⟨rfl, ?_, ?_⟩, fun offset => ⟨?_, ?_⟩,
    fun offset => ⟨_, getElem?_line_position text offset, ?_, ?_⟩, fun a b => ⟨position_before, fun h => ?_⟩⟩
  · rw [line_position, take_min_length, Nat.add_comm]
  · rw [column_position, take_min_length, Nat.add_comm]
  · rw [line_position]
    exact Nat.succ_pos _
  · exact (List.takeWhile_prefix _).length_le
  · rw [start_of_getElem?_placeLines (getElem?_line_position text offset), Nat.zero_add]
  · rw [start_add_column]
    rfl
  · by_contra hge
    rcases Nat.lt_or_eq_of_le (Nat.le_of_not_lt hge) with hlt | heq
    · exact h.asymm (position_before hlt)
    · rw [position_congr heq] at h
      exact h.asymm h

end LineIndex

end TokenParsing
