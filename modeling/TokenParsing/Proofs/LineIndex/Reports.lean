import TokenParsing.Diagnostic
import TokenParsing.Proofs.LineIndex.Tiling
import TokenParsing.Report

/-!
# Where reports and marks point

A report names a line of the text, shows it, and has a caret below it. A reader takes these three from the report alone
(`Failure.reportAt_inj`): they are the line that the failure starts in and the characters of that line before it, so the
caret is below the first character that the failure points at (`report_pointsAt`). The mark of a diagnostic is on the
bytes of the characters that the failure points at, and starts where the caret of the report is (`mark_of_le`).
-/

namespace TokenParsing

/-! ## The parts of a report -/

/-- The report of a failure that names the line `number`, shows `line`, and has its caret behind `spaces` more spaces than
the line is indented by. -/
def Failure.reportAt (f : Failure) (number : Nat) (line : String) (spaces : Nat) : String :=
  "Error at line " ++ toString number ++ f.label.elim "" (", in parser " ++ ·) ++ ":\n    " ++ line ++ "\n    " ++
    String.ofList (List.replicate spaces ' ') ++ "^\n" ++ f.message

/-- A report shows the line and the column of the offset that a failure starts at. -/
theorem Failure.report_eq (text : String) (f : Failure) :
    let position := (LineIndex.ofText text).position f.span.start
    f.report text =
      f.reportAt position.line (((LineIndex.ofText text).line? position.line).getD "") (position.column - 1) := by
  unfold Failure.report Failure.reportAt
  cases f.label <;> rfl

/-- Up to the first of some character a text is read in one way. -/
theorem append_cons_inj {c : Char} {xs ys l l' : List Char} (h : c ∉ l) (h' : c ∉ l')
    (heq : l ++ c :: xs = l' ++ c :: ys) : l = l' ∧ xs = ys := by
  induction l generalizing l' with
  | nil =>
    cases l' with
    | nil => exact ⟨rfl, (List.cons.inj heq).2⟩
    | cons d l' => exact absurd (List.cons.inj heq).1 (List.ne_of_not_mem_cons h')
  | cons b l ih =>
    cases l' with
    | nil => exact absurd (List.cons.inj heq).1.symm (List.ne_of_not_mem_cons h)
    | cons d l' =>
      obtain ⟨hbd, heq⟩ := List.cons.inj heq
      obtain ⟨hl, hxs⟩ := ih (List.not_mem_of_not_mem_cons h) (List.not_mem_of_not_mem_cons h') heq
      exact ⟨by rw [hbd, hl], hxs⟩

/-- The decimal digits of a number are digits. -/
theorem not_mem_toString {c : Char} (h : c.isDigit = false) (n : Nat) : c ∉ (toString n).toList := by
  intro hc
  rw [Nat.toString_eq_ofList_toDigits, String.toList_ofList] at hc
  have hdigit := Nat.isDigit_of_mem_toDigits (by decide) (by decide) hc
  rw [h] at hdigit
  nomatch hdigit

/-- A report as characters: behind the number of the line comes the same for every line, and no digit first. -/
theorem Failure.exists_toList_reportAt (f : Failure) :
    ∃ c between, c.isDigit = false ∧ ∀ number line spaces, (f.reportAt number line spaces).toList =
      "Error at line ".toList ++ ((toString number).toList ++ c :: (between ++ (line.toList ++ '\n' ::
        ("    ".toList ++ (List.replicate spaces ' ' ++ '^' :: '\n' :: f.message.toList))))) := by
  unfold Failure.reportAt
  cases f.label with
  | none =>
    refine ⟨':', "\n    ".toList, by decide, fun number line spaces => ?_⟩
    simp
  | some l =>
    refine ⟨',', " in parser ".toList ++ (l.toList ++ ":\n    ".toList), by decide, fun number line spaces => ?_⟩
    simp

theorem eq_of_toList_toString_eq {n n' : Nat} (h : (toString n).toList = (toString n').toList) : n = n' := by
  rw [Nat.toString_eq_ofList_toDigits, Nat.toString_eq_ofList_toDigits, String.toList_ofList, String.toList_ofList] at h
  rw [← Nat.ofDigitChars_ten_toDigits (n := n), h, Nat.ofDigitChars_ten_toDigits]

/-- The number, the line and the place of the caret can be read off a report. -/
theorem Failure.reportAt_inj {f : Failure} {n n' spaces spaces' : Nat} {line line' : String} (h : '\n' ∉ line.toList)
    (h' : '\n' ∉ line'.toList) (heq : f.reportAt n line spaces = f.reportAt n' line' spaces') :
    n = n' ∧ line = line' ∧ spaces = spaces' := by
  obtain ⟨c, between, hc, htoList⟩ := f.exists_toList_reportAt
  rw [← String.toList_inj, htoList, htoList] at heq
  obtain ⟨hnumber, heq⟩ := append_cons_inj (not_mem_toString hc n) (not_mem_toString hc n') (List.append_cancel_left heq)
  obtain ⟨hline, heq⟩ := append_cons_inj h h' (List.append_cancel_left heq)
  obtain ⟨hspaces, -⟩ := append_cons_inj (by simp) (by simp) (List.append_cancel_left heq)
  refine ⟨eq_of_toList_toString_eq hnumber, String.toList_inj.1 hline, ?_⟩
  exact (List.replicate_inj.1 hspaces).1

/-! ## The line and the caret of an offset -/

/-- The character at an offset ends a line: it is a newline, or a carriage return with a newline or the end of the text
behind it. -/
def EndsLine (cs : List Char) (o : Nat) : Prop :=
  cs[o]? = some '\n' ∨ cs[o]? = some '\r' ∧ (cs[o + 1]? = some '\n' ∨ cs[o + 1]? = none)

/-- An offset of a text is shown by the number of its line, the line, and as many spaces as there are characters in the
line before the offset: below the character at the offset, if it is one of the line. -/
structure PointsAt (cs : List Char) (o number : Nat) (shown : List Char) (spaces : Nat) : Prop where
  number_eq : number = 1 + (cs.take o).count '\n'
  piece : ∃ piece, (cs.splitOn '\n')[number - 1]? = some piece ∧ ShownAs piece shown
  not_mem : '\n' ∉ shown
  spaces_eq : (firstLines (number - 1) cs).length + spaces = o
  below : o < cs.length → ¬EndsLine cs o → shown[spaces]? = cs[o]?
  behind : ¬o < cs.length ∨ EndsLine cs o → spaces = shown.length ∨ spaces = shown.length + 1

namespace CutAtLine

variable {cs before shown ending behind : List Char} {spaces : Nat}

theorem getElem?_eq (h : CutAtLine cs before shown ending behind) (i : Nat) :
    cs[before.length + i]? = (shown ++ ending ++ behind)[i]? := by
  rw [h.eq_append, List.getElem?_append_right (Nat.le_add_right _ _), Nat.add_sub_cancel_left]

/-- What follows a line and its carriage return is a newline, if it is anything. -/
theorem getElem?_behind (h : CutAtLine cs before shown ending behind) :
    cs[before.length + (shown ++ ending).length]? = some '\n' ∨ cs[before.length + (shown ++ ending).length]? = none := by
  rw [h.getElem?_eq, List.getElem?_append_right (Nat.le_refl _), Nat.sub_self]
  rcases h.behind_eq with rfl | ⟨rest, rfl⟩
  · exact Or.inr rfl
  · exact Or.inl rfl

/-- The characters shown of a line end no line. -/
theorem not_endsLine (h : CutAtLine cs before shown ending behind) (hlt : spaces < shown.length) :
    ¬EndsLine cs (before.length + spaces) := by
  have hat : cs[before.length + spaces]? = some shown[spaces] := by
    rw [h.getElem?_eq, List.append_assoc, List.getElem?_append_left hlt, List.getElem?_eq_getElem hlt]
  intro hends
  unfold EndsLine at hends
  rw [hat, Option.some.injEq, Option.some.injEq] at hends
  rcases hends with hn | ⟨hr, hnext⟩
  · exact h.not_mem (List.mem_append_left _ (hn ▸ List.getElem_mem hlt))
  · by_cases hlast : spaces + 1 < (shown ++ ending).length
    · -- The next character is one of the line, or the carriage return behind it, and so no newline.
      rw [Nat.add_assoc, h.getElem?_eq, List.getElem?_append_left hlast, List.getElem?_eq_getElem hlast] at hnext
      rcases hnext with hnext | hnext
      · exact h.not_mem (Option.some.inj hnext ▸ List.getElem_mem hlast)
      · nomatch hnext
    · -- The carriage return would be the last character of the line, and not be shown.
      rw [List.length_append] at hlast
      rcases h.ending_eq with rfl | ⟨rfl, hreturn⟩
      · rw [List.length_singleton] at hlast
        omega
      · have hspaces : shown.length - 1 = spaces := by omega
        rw [List.getLast?_eq_getElem?, hspaces, List.getElem?_eq_getElem hlt, hr] at hreturn
        exact hreturn rfl

/-- The characters behind what is shown of a line end it. -/
theorem endsLine (h : CutAtLine cs before shown ending behind) (hge : shown.length ≤ spaces)
    (hle : spaces ≤ shown.length + ending.length) (hlt : before.length + spaces < cs.length) :
    EndsLine cs (before.length + spaces) := by
  have hbehind := h.getElem?_behind
  rw [List.length_append] at hbehind
  rcases Nat.lt_or_eq_of_le hle with hreturn | rfl
  · rcases h.ending_eq with rfl | ⟨rfl, -⟩
    · rw [List.length_singleton] at hreturn hbehind
      obtain rfl : spaces = shown.length := by omega
      refine Or.inr ⟨?_, hbehind⟩
      rw [h.getElem?_eq]
      simp
    · rw [List.length_nil] at hreturn
      omega
  · refine Or.inl (hbehind.resolve_right fun hnone => ?_)
    rw [List.getElem?_eq_none_iff] at hnone
    omega

end CutAtLine

/-- Where a text is cut, its offsets are shown. -/
theorem CutAtLine.pointsAt {text : String} {before shown ending behind : List Char} {spaces : Nat}
    (h : CutAtLine text.toList before shown ending behind) (hspaces : spaces ≤ shown.length + ending.length) :
    PointsAt text.toList (before.length + spaces) (before.count '\n' + 1) shown spaces where
  number_eq := by
    have hcount : ((shown ++ ending ++ behind).take spaces).count '\n' = 0 := by
      rw [List.take_append_of_le_length (by rwa [List.length_append])]
      exact List.count_eq_zero_of_not_mem fun hn => h.not_mem (List.mem_of_mem_take hn)
    rw [h.eq_append, List.take_length_add_append, List.count_append, hcount, Nat.add_comm, Nat.add_zero]
  piece := by
    obtain ⟨piece, hpiece, hshown⟩ := LineIndex.exists_shownAs_of_line? h.line?_eq
    rw [String.toList_ofList] at hshown
    exact ⟨piece, hpiece, hshown⟩
  not_mem := fun hn => h.not_mem (List.mem_append_left _ hn)
  spaces_eq := by
    have hfirst := h.block.firstLines_append 0 (shown ++ ending ++ behind)
    rw [firstLines_zero, List.append_nil, Nat.add_zero, ← h.eq_append] at hfirst
    rw [Nat.add_sub_cancel, hfirst]
  below := by
    intro hlt hends
    have hline : spaces < shown.length := Nat.lt_of_not_le fun hge => hends (h.endsLine hge hspaces hlt)
    rw [h.getElem?_eq, List.append_assoc, List.getElem?_append_left hline]
  behind := by
    intro hends
    have hge : shown.length ≤ spaces := by
      by_contra hlt
      have hlength := h.length_eq
      rcases hends with hend | hends
      · omega
      · exact h.not_endsLine (Nat.lt_of_not_le hlt) hends
    have hending : ending.length ≤ 1 := by
      rcases h.ending_eq with rfl | ⟨rfl, -⟩
      · exact Nat.le_refl 1
      · exact Nat.zero_le 1
    omega

/-- A report shows a line that the text can be cut at, with the caret behind some characters of the line or of its break.
-/
theorem Failure.exists_cutAtLine_of_report (text : String) (f : Failure) :
    ∃ before shown ending behind spaces, CutAtLine text.toList before shown ending behind ∧
      f.report text = f.reportAt (before.count '\n' + 1) (String.ofList shown) spaces ∧
      min f.span.start text.length = before.length + spaces ∧ spaces ≤ shown.length + ending.length := by
  obtain ⟨before, shown, ending, behind, spaces, hcut, hposition, hspaces⟩ :=
    LineIndex.exists_cutAtLine_of_offset text f.span.start
  refine ⟨before, shown, ending, behind, spaces, hcut, ?_, congrArg Position.offset hposition, hspaces⟩
  rw [f.report_eq, hposition, hcut.line?_eq]
  rfl

/-- A report names the line of the first character that a failure points at, shows the line, and has its caret below that
character, or behind the line if it points at what ends the line. Past the end of the text it points at the end. -/
theorem report_pointsAt (text : String) (f : Failure) :
    ∃ number shown spaces, f.report text = f.reportAt number (String.ofList shown) spaces ∧
      PointsAt text.toList (min f.span.start text.length) number shown spaces := by
  obtain ⟨before, shown, ending, behind, spaces, hcut, hreport, hoffset, hspaces⟩ := f.exists_cutAtLine_of_report text
  refine ⟨before.count '\n' + 1, shown, spaces, hreport, ?_⟩
  rw [hoffset]
  exact hcut.pointsAt hspaces

/-- A failure at the last character of a line that ends in a carriage return and a newline. -/
example : (Failure.of (.unexpected "'b'") (.single 1)).report "ab\r\nλ" =
    "Error at line 1:\n    ab\n     ^\nUnexpected item 'b'." := by
  decide

/-! ## Marks -/

/-- The first lines of a text are a beginning of it. -/
theorem take_length_firstLines (k : Nat) (cs : List Char) : cs.take (firstLines k cs).length = firstLines k cs := by
  induction cs generalizing k with
  | nil => cases k <;> rfl
  | cons c cs ih =>
    cases k with
    | zero => rfl
    | succ k => rw [firstLines, List.length_cons, List.take_succ_cons, ih]

/-- A mark is on the characters of a text in a span, or what is left of them in the text: it starts and ends between two
characters, and its bytes are theirs. -/
structure Mark.On (m : Mark) (text : String) (sp : Span) : Prop where
  stop_le : m.offset + m.length ≤ text.utf8ByteSize
  isValid_start : String.Pos.Raw.IsValid text ⟨m.offset⟩
  isValid_stop : String.Pos.Raw.IsValid text ⟨m.offset + m.length⟩
  bytes : text.toByteArray.extract m.offset (m.offset + m.length) =
    (String.ofList ((text.toList.take (min sp.stop text.length)).drop (min sp.start text.length))).toByteArray

/-- A mark on a span that does not end before it starts ends where the span does. -/
theorem Failure.offset_add_length_mark {text : String} {f : Failure}
    (h : (LineIndex.ofText text).byteOffset f.span.start ≤ (LineIndex.ofText text).byteOffset f.span.stop) :
    (f.mark text).offset + (f.mark text).length = utf8Length (text.toList.take f.span.stop) := by
  rw [← LineIndex.byteOffset_eq]
  exact Nat.add_sub_of_le h

theorem Failure.mark_on {text : String} {f : Failure}
    (h : (LineIndex.ofText text).byteOffset f.span.start ≤ (LineIndex.ofText text).byteOffset f.span.stop) :
    (f.mark text).On text f.span := by
  have hstart : (f.mark text).offset = utf8Length (text.toList.take f.span.start) :=
    LineIndex.byteOffset_eq text f.span.start
  have hstop := Failure.offset_add_length_mark h
  refine ⟨?_, ?_, ?_, ?_⟩
  · rw [hstop]
    exact (LineIndex.isValid_utf8Length_take text _).le_rawEndPos
  · rw [hstart]
    exact LineIndex.isValid_utf8Length_take text _
  · rw [hstop]
    exact LineIndex.isValid_utf8Length_take text _
  · rw [hstop, hstart, ← LineIndex.take_min_length text f.span.start, ← LineIndex.take_min_length text f.span.stop]
    exact extract_utf8Length_take text _ _

/-- The bytes before an offset are those of the lines before its line, and of the characters that its caret is behind. -/
theorem PointsAt.utf8Length_take {cs shown : List Char} {o number spaces : Nat} (h : PointsAt cs o number shown spaces) :
    utf8Length (cs.take o) =
      utf8Length (firstLines (number - 1) cs) +
        utf8Length ((cs.drop (firstLines (number - 1) cs).length).take spaces) := by
  rw [← h.spaces_eq, List.take_add, utf8Length_append, take_length_firstLines]

/-- A mark starts where the caret of the report is: behind the bytes of the lines before the one that the report names and
of as many characters as there are more spaces before the caret. -/
theorem Failure.offset_mark_of_report {text : String} {f : Failure} {number spaces : Nat} {line : String}
    (hline : '\n' ∉ line.toList) (h : f.report text = f.reportAt number line spaces) :
    (f.mark text).offset = utf8Length (firstLines (number - 1) text.toList) +
      utf8Length ((text.toList.drop (firstLines (number - 1) text.toList).length).take spaces) := by
  obtain ⟨before, shown, ending, behind, spaces', hcut, hreport, hoffset, hspaces⟩ := f.exists_cutAtLine_of_report text
  have hat := hcut.pointsAt hspaces
  rw [hreport] at h
  obtain ⟨rfl, -, rfl⟩ := Failure.reportAt_inj (by rw [String.toList_ofList]; exact hat.not_mem) hline h
  rw [← hat.utf8Length_take, ← hoffset, LineIndex.take_min_length]
  exact LineIndex.byteOffset_eq text f.span.start

/-- The mark of a failure is on the characters that the failure points at, as far as they are in the text. It starts where
the caret of the failure's report is, in whatever way the report is read. -/
theorem mark_of_le (text : String) (f : Failure) (h : f.span.start ≤ f.span.stop) :
    (LineIndex.ofText text).byteOffset f.span.start ≤ (LineIndex.ofText text).byteOffset f.span.stop ∧
      (f.mark text).On text f.span ∧
      (∃ number line spaces, '\n' ∉ line.toList ∧ f.report text = f.reportAt number line spaces) ∧
      ∀ number line spaces, '\n' ∉ line.toList → f.report text = f.reportAt number line spaces →
        (f.mark text).offset = utf8Length (firstLines (number - 1) text.toList) +
          utf8Length ((text.toList.drop (firstLines (number - 1) text.toList).length).take spaces) := by
  have hle : (LineIndex.ofText text).byteOffset f.span.start ≤ (LineIndex.ofText text).byteOffset f.span.stop := by
    rw [LineIndex.byteOffset_eq, LineIndex.byteOffset_eq]
    exact utf8Length_take_le h
  refine ⟨hle, Failure.mark_on hle, ?_, fun number line spaces => Failure.offset_mark_of_report⟩
  obtain ⟨before, shown, ending, behind, spaces, hcut, hreport, -, hspaces⟩ := f.exists_cutAtLine_of_report text
  refine ⟨_, String.ofList shown, spaces, ?_, hreport⟩
  rw [String.toList_ofList]
  exact (hcut.pointsAt hspaces).not_mem

/-- A failure at the last character of a text, with a character of two bytes in each line. -/
theorem mark_of_le_of_second_line :
    let text := "é=1\nλ?"
    let f := Failure.of (.unexpected "'?'") (.single 5)
    f.span.start ≤ f.span.stop ∧ (f.mark text).On text f.span ∧ f.mark text = ⟨"here", 7, 1⟩ ∧
      f.report text = f.reportAt 2 "λ?" 1 ∧
      (f.mark text).offset =
        utf8Length (firstLines 1 text.toList) +
          utf8Length ((text.toList.drop (firstLines 1 text.toList).length).take 1) := by
  intro text f
  have hreport : f.report text = f.reportAt 2 "λ?" 1 := by decide
  obtain ⟨-, hon, -, hcaret⟩ := mark_of_le text f (by decide)
  exact ⟨by decide, hon, by decide, hreport, hcaret 2 "λ?" 1 (by decide) hreport⟩

end TokenParsing
