import TokenParsing.Proofs.LineIndex.Positions

/-!
# The bytes before an offset

The byte offset of a character is the length of what is before it in UTF-8 (`byteOffset_eq`), whatever the widths of the
characters: the bytes of the whole lines before its line, and of the beginning of its line. So byte offsets are between
characters, and cut out of the bytes of a text what offsets cut out of its characters (`byteOffset_ofText`).
-/

namespace TokenParsing

/-! ## Lengths in bytes -/

/-- A text has as many bytes as its characters. -/
theorem utf8ByteSize_ofList (cs : List Char) : (String.ofList cs).utf8ByteSize = utf8Length cs := by
  induction cs with
  | nil => rfl
  | cons c cs ih =>
    rw [← List.singleton_append, String.ofList_append, String.utf8ByteSize_append, ih, ← String.singleton_eq_ofList,
      String.utf8ByteSize_singleton]
    rfl

/-- A text that is not empty has bytes. -/
theorem utf8Length_pos {cs : List Char} (h : cs ≠ []) : 0 < utf8Length cs := by
  obtain ⟨c, cs, rfl⟩ := List.exists_cons_of_ne_nil h
  rw [utf8Length_cons]
  exact Nat.add_pos_left c.utf8Size_pos _

/-- A beginning of a text, and what is between it and the end of a longer one. -/
theorem take_append_drop_take {cs : List Char} {a b : Nat} (h : a ≤ b) : cs.take a ++ (cs.take b).drop a = cs.take b := by
  conv_rhs => rw [← List.take_append_drop a (cs.take b), List.take_take, Nat.min_eq_left h]

/-- A longer beginning of a text has no fewer bytes. -/
theorem utf8Length_take_le {cs : List Char} {a b : Nat} (h : a ≤ b) :
    utf8Length (cs.take a) ≤ utf8Length (cs.take b) := by
  rw [← take_append_drop_take h, utf8Length_append]
  exact Nat.le_add_right _ _

/-- Each character of a text has a byte. -/
theorem utf8Length_take_lt {cs : List Char} {a b : Nat} (h : a < b) (hb : b ≤ cs.length) :
    utf8Length (cs.take a) < utf8Length (cs.take b) := by
  have hne : (cs.take b).drop a ≠ [] := by
    refine List.ne_nil_of_length_pos ?_
    rw [List.length_drop, List.length_take]
    omega
  rw [← take_append_drop_take (Nat.le_of_lt h), utf8Length_append]
  exact Nat.lt_add_of_pos_right (utf8Length_pos hne)

theorem size_toByteArray_ofList (cs : List Char) : (String.ofList cs).toByteArray.size = utf8Length cs := by
  rw [String.size_toByteArray, utf8ByteSize_ofList]

/-- The bytes behind the beginning of a text are those of what follows it. -/
theorem extract_ofList_append (before between behind : List Char) :
    (String.ofList (before ++ between ++ behind)).toByteArray.extract (utf8Length before)
      (utf8Length (before ++ between)) = (String.ofList between).toByteArray := by
  have hbehind := ByteArray.extract_append_size_add (a := (String.ofList before).toByteArray)
    (b := (String.ofList (between ++ behind)).toByteArray) (i := 0) (j := utf8Length between)
  rw [Nat.add_zero, size_toByteArray_ofList, ← utf8Length_append, ← String.toByteArray_append, ← String.ofList_append,
    ← List.append_assoc] at hbehind
  rw [hbehind, String.ofList_append, String.toByteArray_append,
    ByteArray.extract_append_eq_left (size_toByteArray_ofList between).symm]

/-- The bytes between the lengths of two beginnings of a text are those of the characters between their ends. -/
theorem extract_utf8Length_take (text : String) (a b : Nat) :
    text.toByteArray.extract (utf8Length (text.toList.take a)) (utf8Length (text.toList.take b)) =
      (String.ofList ((text.toList.take b).drop a)).toByteArray := by
  rcases Nat.le_total a b with hab | hba
  · have h := extract_ofList_append (text.toList.take a) ((text.toList.take b).drop a) (text.toList.drop b)
    rwa [take_append_drop_take hab, List.take_append_drop, String.ofList_toList] at h
  · have hnil : (text.toList.take b).drop a = [] := by
      refine List.drop_eq_nil_of_le ?_
      rw [List.length_take]
      omega
    rw [hnil, ByteArray.extract_eq_empty_iff.2 ((Nat.min_le_left _ _).trans (utf8Length_take_le hba))]
    rfl

namespace LineIndex

/-- The byte offset is the number of bytes before the offset. -/
theorem byteOffset_eq (text : String) (offset : Nat) :
    (ofText text).byteOffset offset = utf8Length (text.toList.take offset) := by
  rw [byteOffset, lineAt_ofText, clamp_eq_add]
  dsimp only
  rw [Nat.add_sub_cancel_left, List.take_left, ← utf8Length_append, List.rdropWhile_append_rtakeWhile]

/-- A line starts behind the bytes of the characters before it. -/
theorem byteStart_lineAt (text : String) (offset : Nat) :
    ((ofText text).lineAt offset).byteStart =
      utf8Length (text.toList.take ((ofText text).lineAt offset).start) := by
  have hprefix : (text.toList.take offset).rdropWhile (· ≠ '\n') <+: text.toList :=
    (List.rdropWhile_prefix _ _).trans (List.take_prefix _ _)
  rw [lineAt_ofText]
  dsimp only
  rw [← List.prefix_iff_eq_take.1 hprefix]

/-- The bytes of the beginning of a text end between two characters. -/
theorem isValid_utf8Length_take (text : String) (i : Nat) :
    String.Pos.Raw.IsValid text ⟨utf8Length (text.toList.take i)⟩ :=
  String.Pos.Raw.isValid_iff_exists_take_toList.2 ⟨i, (utf8ByteSize_ofList _).symm⟩

/-- The byte offset of an offset is the length in UTF-8 of what is before it. It is between two characters, as the start
of the line that it is found in is; it grows with the offset, up to the number of bytes of the text; and the bytes between
two byte offsets are those of the characters between the offsets. -/
theorem byteOffset_ofText (text : String) :
    (∀ offset, (ofText text).byteOffset offset =
        (String.ofList (text.toList.take (min offset text.length))).utf8ByteSize) ∧
      (∀ offset, String.Pos.Raw.IsValid text ⟨((ofText text).lineAt offset).byteStart⟩ ∧
        String.Pos.Raw.IsValid text ⟨(ofText text).byteOffset offset⟩) ∧
      (∀ a b, (ofText text).byteOffset a < (ofText text).byteOffset b ↔ min a text.length < min b text.length) ∧
      (∀ offset, (ofText text).byteOffset offset ≤ text.utf8ByteSize) ∧
      ∀ a b, text.toByteArray.extract ((ofText text).byteOffset a) ((ofText text).byteOffset b) =
        (String.ofList ((text.toList.take b).drop a)).toByteArray := by
  refine ⟨fun offset => ?_, fun offset => ⟨?_, ?_⟩, fun a b => ?_, fun offset => ?_, fun a b => ?_⟩
  · rw [take_min_length, utf8ByteSize_ofList, byteOffset_eq]
  · rw [byteStart_lineAt]
    exact isValid_utf8Length_take text _
  · rw [byteOffset_eq]
    exact isValid_utf8Length_take text offset
  · rw [byteOffset_eq, byteOffset_eq, ← take_min_length text a, ← take_min_length text b]
    refine ⟨fun h => ?_, fun h => utf8Length_take_lt h ?_⟩
    · by_contra hge
      exact absurd (utf8Length_take_le (Nat.le_of_not_lt hge)) (Nat.not_le.2 h)
    · rw [String.length_toList]
      exact Nat.min_le_right _ _
  · rw [byteOffset_eq]
    exact (isValid_utf8Length_take text offset).le_rawEndPos
  · rw [byteOffset_eq, byteOffset_eq]
    exact extract_utf8Length_take text a b

/-- Of the five characters before the last one, two take two bytes. -/
example : (ofText "é=1\nλx").byteOffset 5 = 7 := by
  decide

end LineIndex

end TokenParsing
