import TokenParsing.Proofs.LineIndex.Tiling
import TokenParsing.Proofs.Settings.FirstBadLine

/-!
# The lines of entries

The grammar of settings and the index of a text cut a text into the same lines, although they differ on carriage returns:
the grammar takes one for a part of the line break, or of the comment it ends, and the index shows no line with one at its
end. What is shown of a line is still a line of the grammar, and makes the same entry (`exists_shownAs_of_lineText`). So a
line gives, read alone, what it gives in the text (`readAlone_eq`), and the entries of a text are those of its lines, one
after another (`listedByLine_of_parse_eq_ok`).
-/

namespace TokenParsing.Settings

open TokenParsing.Parser TokenParsing.TokenStream

variable {terminated : Bool} {start : Nat} {piece cs : List Char} {e : Option Entry} {x : Entry} {es : List Entry}

/-! ## What is shown of a line of the grammar -/

/-- Of a text the same is not shown as of its end, if what is before the end does not end in a carriage return. -/
theorem shownAs_append {before shown : List Char} (h : ShownAs piece shown) (hlast : before.getLast? ≠ some '\r') :
    ShownAs (before ++ piece) (before ++ shown) := by
  rcases h with rfl | ⟨rfl, hshown⟩
  · left
    rw [List.append_assoc]
  · right
    refine ⟨rfl, ?_⟩
    rw [List.getLast?_append]
    cases hp : piece.getLast? with
    | none => simpa using hlast
    | some c =>
      rw [hp] at hshown
      simpa using hshown

/-- A text is shown in one way. -/
theorem eq_of_shownAs {shown shown' : List Char} (h : ShownAs piece shown) (h' : ShownAs piece shown') :
    shown = shown' := by
  rw [← Line.shown_eq_of_shownAs (l := ⟨0, 0, piece⟩) h, ← Line.shown_eq_of_shownAs (l := ⟨0, 0, piece⟩) h']

/-- A value ends in a character, and not in a carriage return. -/
theorem exists_getLast?_of_valueText {v : Value} (h : ValueText cs v) : ∃ c, cs.getLast? = some c ∧ c ≠ '\r' := by
  cases h with
  | string _ =>
    refine ⟨'\x22', ?_, by decide⟩
    simp [List.getLast?_cons]
  | @integer negative ds hne hd _ _ =>
    refine ⟨ds.getLast hne, ?_, ?_⟩
    · rw [List.getLast?_append, List.getLast?_eq_some_getLast hne, Option.some_or]
    · intro hr
      have hdigit := hd _ (List.getLast_mem hne)
      rw [hr] at hdigit
      revert hdigit
      decide
  | yes => exact ⟨'e', by decide, by decide⟩
  | no => exact ⟨'e', by decide, by decide⟩

/-- What is shown of the rest of a line without an entry is such a rest, also where no newline follows. -/
theorem exists_shownAs_of_lineTail (h : LineTail terminated cs) : ∃ shown, ShownAs cs shown ∧ LineTail false shown := by
  cases h with
  | @mk b close hb hclose =>
    have hlast : b.getLast? ≠ some '\r' := by
      intro hr
      have hblank := hb _ (List.mem_of_getLast? hr)
      revert hblank
      decide
    cases hclose with
    | nothing => exact ⟨b ++ [], shownAs_append (Or.inr ⟨rfl, by simp⟩) hlast, .mk hb .nothing⟩
    | comment body =>
      obtain ⟨shown, ending, -, hshown⟩ := exists_shownAs body
      have hcomment : ShownAs (['#'] ++ body) (['#'] ++ shown) := shownAs_append hshown (by decide)
      exact ⟨b ++ '#' :: shown, shownAs_append hcomment hlast, .mk hb (.comment shown)⟩
    | carriageReturn _ => exact ⟨b ++ [], shownAs_append (Or.inl rfl) hlast, .mk hb .nothing⟩

/-- What is shown of a line makes the same entry as the line, also where no newline follows. -/
theorem exists_shownAs_of_lineText (h : LineText terminated start piece e) :
    ∃ shown, ShownAs piece shown ∧ LineText false start shown e := by
  cases h with
  | blank htail =>
    obtain ⟨shown, hshown, hline⟩ := exists_shownAs_of_lineTail htail
    exact ⟨shown, hshown, .blank hline⟩
  | @entry b₁ key b₂ b₃ v tail value h₁ hk h₂ h₃ hv htail =>
    obtain ⟨shown, hshown, hline⟩ := exists_shownAs_of_lineTail htail
    obtain ⟨c, hc, hr⟩ := exists_getLast?_of_valueText hv
    have hlast : (b₁ ++ key ++ b₂ ++ '=' :: (b₃ ++ v)).getLast? ≠ some '\r' := by
      simp [List.getLast?_append, List.getLast?_cons, hc, hr]
    refine ⟨b₁ ++ key ++ b₂ ++ '=' :: (b₃ ++ v ++ shown), ?_, .entry h₁ hk h₂ h₃ hv hline⟩
    simpa using shownAs_append hshown hlast

/-- A line makes the entry that it makes as a first line, as far along as it starts. -/
theorem exists_lineText_zero (h : LineText terminated start cs e) :
    ∃ e', LineText terminated 0 cs e' ∧ e = e'.map (Entry.shift start) := by
  cases h with
  | blank htail => exact ⟨none, .blank htail, rfl⟩
  | entry h₁ hk h₂ h₃ hv htail =>
    refine ⟨_, .entry h₁ hk h₂ h₃ hv htail, ?_⟩
    simp [Entry.shift, Span.shift]
    omega

/-! ## Lines read alone -/

/-- The line of a text at which an entry is listed: that of its key. -/
def entryLine (text : String) (x : Entry) : Nat :=
  ((LineIndex.ofText text).position x.span.start).line

/-- What a line of a text, counted from 1, gives when it is read alone: its entries, as far along as the line starts. -/
def readAlone (text : String) (k : Nat) : Option (Except Failure (List Entry)) := do
  let line ← (LineIndex.ofText text).line? k
  let sp ← (LineIndex.ofText text).lineSpan? k
  return (parse line).map fun settings => settings.entries.map (Entry.shift sp.start)

section

variable {text : String} {before shown ending behind : List Char}

/-- A line that is read in a text is read alone, with the same entry. -/
theorem readAlone_eq (hcut : CutAtLine text.toList before shown ending behind)
    (h : LineText terminated before.length (shown ++ ending) e) :
    readAlone text (before.count '\n' + 1) = some (.ok e.toList) := by
  obtain ⟨shown', hshown, hline⟩ := exists_shownAs_of_lineText h
  obtain rfl := eq_of_shownAs hshown hcut.shownAs
  obtain ⟨e', hfirst, rfl⟩ := exists_lineText_zero hline
  have hnewline : '\n' ∉ shown' := fun hn => hcut.not_mem (List.mem_append_left _ hn)
  have hparse : parse (String.ofList shown') = .ok ⟨e'.toList⟩ := by
    rw [parse_eq_ok_iff, String.toList_ofList, linePieces_of_not_mem hnewline]
    exact .last hfirst
  unfold readAlone
  rw [hcut.line?_eq, hcut.lineSpan?_eq]
  simp only [Option.bind_eq_bind, Option.bind_some, hparse]
  cases e' <;> rfl

/-- The key of an entry is in the line that makes it, at the span of the entry. -/
theorem exists_key_of_lineText (h : LineText terminated start cs (some x)) :
    ∃ b rest, cs = b ++ (x.key.toList ++ rest) ∧
      x.span = ⟨start + b.length, start + b.length + x.key.toList.length⟩ := by
  cases h with
  | @entry b₁ key b₂ b₃ v tail value h₁ hk h₂ h₃ hv htail =>
    refine ⟨b₁, b₂ ++ '=' :: (b₃ ++ v ++ tail), ?_, ?_⟩
    · simp
    · simp

/-- An entry is listed at the line that makes it. -/
theorem entryLine_eq (hcut : CutAtLine text.toList before shown ending behind)
    (h : LineText terminated before.length (shown ++ ending) (some x)) :
    entryLine text x = before.count '\n' + 1 := by
  obtain ⟨b, rest, hpiece, hspan⟩ := exists_key_of_lineText h
  unfold entryLine
  rw [line_position, hcut.eq_append, hspan]
  refine congrArg (· + 1) (count_newline_take hcut.not_mem (Nat.le_add_right _ _) ?_ behind)
  rw [hpiece, List.length_append]
  exact Nat.add_le_add_left (Nat.le_add_right _ _) _

/-- The characters of an entry are those of its key. -/
theorem key_eq (hcut : CutAtLine text.toList before shown ending behind)
    (h : LineText terminated before.length (shown ++ ending) (some x)) :
    x.span.stop ≤ text.length ∧ String.ofList ((text.toList.take x.span.stop).drop x.span.start) = x.key := by
  obtain ⟨b, rest, hpiece, hspan⟩ := exists_key_of_lineText h
  have htext : text.toList = (before ++ b) ++ (x.key.toList ++ (rest ++ behind)) := by
    rw [hcut.eq_append, hpiece]
    simp
  rw [hspan]
  constructor
  · rw [← String.length_toList, htext]
    simp
    omega
  · rw [htext, ← List.length_append, List.take_length_add_append, List.drop_left, List.take_left, String.ofList_toList]

end

/-! ## All the lines of a text -/

/-- Every line of a document makes an entry or none, and these are the entries of the document in order. -/
theorem exists_perLine_of_document {pieces : List (List Char)} (h : Document start pieces es) (byteStart : Nat) :
    ∃ perLine : Nat → Option Entry, es = (List.range pieces.length).filterMap perLine ∧
      ∀ k l, (placeLines start byteStart pieces)[k]? = some l →
        ∃ terminated, LineText terminated l.start l.chars (perLine k) := by
  induction h generalizing byteStart with
  | @last start piece e hl =>
    refine ⟨fun _ => e, ?_, ?_⟩
    · cases e <;> rfl
    · intro k l hk
      cases k with
      | zero =>
        cases hk
        exact ⟨_, hl⟩
      | succ k => simp [placeLines] at hk
  | @more start piece next pieces e es hl _ ih =>
    obtain ⟨perLine, hes, hlines⟩ := ih (byteStart + utf8Length piece + 1)
    refine ⟨fun k => k.casesOn e perLine, ?_, ?_⟩
    · have hrange : List.range (piece :: next :: pieces).length =
          0 :: (List.range (next :: pieces).length).map Nat.succ := List.range_succ_eq_map
      rw [hes, hrange, List.filterMap_cons, List.filterMap_map]
      cases e <;> rfl
    · intro k l hk
      cases k with
      | zero =>
        cases hk
        exact ⟨_, hl⟩
      | succ k => exact hlines k l hk

/-- Every line of an accepted text makes an entry or none, and these are the entries of the text in order. -/
theorem exists_perLine_of_parse_eq_ok {text : String} {settings : Settings} (h : parse text = .ok settings) :
    ∃ perLine : Nat → Option Entry,
      settings.entries = (List.range' 1 (LineIndex.ofText text).lineCount).filterMap perLine ∧
      ∀ k, 1 ≤ k → k ≤ (LineIndex.ofText text).lineCount →
        ∃ before shown ending behind terminated, CutAtLine text.toList before shown ending behind ∧
          k = before.count '\n' + 1 ∧ LineText terminated before.length (shown ++ ending) (perLine k) := by
  obtain ⟨perLine, hes, hlines⟩ := exists_perLine_of_document (parse_eq_ok_iff.1 h) 0
  have hcount : (LineIndex.ofText text).lineCount = (linePieces text.toList).length := length_placeLines _ _ _
  refine ⟨fun k => perLine (k - 1), ?_, ?_⟩
  · rw [hes, hcount, List.range'_eq_map_range, List.filterMap_map]
    simp
  · intro k hpos hle
    obtain ⟨before, shown, ending, behind, hcut, rfl⟩ := LineIndex.exists_cutAtLine_of_le hpos hle
    obtain ⟨terminated, hl⟩ := hlines _ _ hcut.getElem?_lines
    exact ⟨before, shown, ending, behind, terminated, hcut, rfl, hl⟩

/-- The entries of a text agree with its lines. They stand on one line after another, each at its key. A line of an entry,
read alone, gives this entry and no other, and every other line gives none. So the entries are those of the lines, one after
another. -/
structure ListedByLine (text : String) (entries : List Entry) : Prop where
  increasing : (entries.map (entryLine text)).Pairwise (· < ·)
  key : ∀ x ∈ entries, x.span.stop ≤ text.length ∧
    String.ofList ((text.toList.take x.span.stop).drop x.span.start) = x.key
  atEntry : ∀ x ∈ entries, readAlone text (entryLine text x) = some (.ok [x])
  elsewhere : ∀ k, 1 ≤ k → k ≤ (LineIndex.ofText text).lineCount → (∀ x ∈ entries, entryLine text x ≠ k) →
    readAlone text k = some (.ok [])
  concat : ∃ perLine : Nat → Option Entry,
    (∀ k, 1 ≤ k → k ≤ (LineIndex.ofText text).lineCount → readAlone text k = some (.ok (perLine k).toList)) ∧
      entries = (List.range' 1 (LineIndex.ofText text).lineCount).filterMap perLine

/-- The entries of an accepted text agree with its lines. -/
theorem listedByLine_of_parse_eq_ok {text : String} {settings : Settings} (h : parse text = .ok settings) :
    ListedByLine text settings.entries := by
  obtain ⟨perLine, hes, hlines⟩ := exists_perLine_of_parse_eq_ok h
  have halone : ∀ k, 1 ≤ k → k ≤ (LineIndex.ofText text).lineCount →
      readAlone text k = some (.ok (perLine k).toList) := by
    intro k hpos hle
    obtain ⟨before, shown, ending, behind, terminated, hcut, rfl, hl⟩ := hlines k hpos hle
    exact readAlone_eq hcut hl
  have hline : ∀ k, 1 ≤ k → k ≤ (LineIndex.ofText text).lineCount → ∀ x, perLine k = some x →
      entryLine text x = k := by
    intro k hpos hle x hx
    obtain ⟨before, shown, ending, behind, terminated, hcut, rfl, hl⟩ := hlines k hpos hle
    rw [hx] at hl
    exact entryLine_eq hcut hl
  have hmem : ∀ x ∈ settings.entries, ∃ k, 1 ≤ k ∧ k ≤ (LineIndex.ofText text).lineCount ∧ perLine k = some x := by
    intro x hx
    rw [hes, List.mem_filterMap] at hx
    obtain ⟨k, hk, hx⟩ := hx
    rw [List.mem_range'_1] at hk
    exact ⟨k, hk.1, by omega, hx⟩
  constructor
  · rw [List.pairwise_map, hes, List.pairwise_filterMap]
    refine List.Pairwise.imp_of_mem ?_ List.pairwise_lt_range'
    intro j k hj hk hjk x hx y hy
    rw [List.mem_range'_1] at hj hk
    rw [hline j hj.1 (by omega) x hx, hline k hk.1 (by omega) y hy]
    exact hjk
  · intro x hx
    obtain ⟨k, hpos, hle, hk⟩ := hmem x hx
    obtain ⟨before, shown, ending, behind, terminated, hcut, -, hl⟩ := hlines k hpos hle
    rw [hk] at hl
    exact key_eq hcut hl
  · intro x hx
    obtain ⟨k, hpos, hle, hk⟩ := hmem x hx
    rw [hline k hpos hle x hk, halone k hpos hle, hk]
    rfl
  · intro k hpos hle hno
    rw [halone k hpos hle]
    cases hk : perLine k with
    | none => rfl
    | some x =>
      have hx : x ∈ settings.entries := by
        rw [hes, List.mem_filterMap]
        refine ⟨k, ?_, hk⟩
        rw [List.mem_range'_1]
        omega
      exact absurd (hline k hpos hle x hk) (hno x hx)
  · exact ⟨perLine, halone, hes⟩

set_option maxRecDepth 20000 in
/-- The second and the fourth of four lines have entries; three of the lines end in a carriage return. -/
theorem listedByLine_of_parse_eq_ok_of_carriage_returns :
    readAlone "# c\r\na = 1\r\n\nb = true # x\r" 1 = some (.ok []) ∧
      readAlone "# c\r\na = 1\r\n\nb = true # x\r" 2 = some (.ok [⟨"a", .integer 1, ⟨5, 6⟩⟩]) ∧
      readAlone "# c\r\na = 1\r\n\nb = true # x\r" 4 = some (.ok [⟨"b", .boolean true, ⟨13, 14⟩⟩]) := by
  have hparse : parse "# c\r\na = 1\r\n\nb = true # x\r" =
      .ok ⟨[⟨"a", .integer 1, ⟨5, 6⟩⟩, ⟨"b", .boolean true, ⟨13, 14⟩⟩]⟩ := by rfl
  have hlisted := listedByLine_of_parse_eq_ok hparse
  have ha : entryLine "# c\r\na = 1\r\n\nb = true # x\r" ⟨"a", .integer 1, ⟨5, 6⟩⟩ = 2 := by decide
  have hb : entryLine "# c\r\na = 1\r\n\nb = true # x\r" ⟨"b", .boolean true, ⟨13, 14⟩⟩ = 4 := by decide
  refine ⟨?_, ?_, ?_⟩
  · refine hlisted.elsewhere 1 (by decide) (by decide) ?_
    simp [ha, hb]
  · have hread := hlisted.atEntry ⟨"a", .integer 1, ⟨5, 6⟩⟩ (by simp)
    rwa [ha] at hread
  · have hread := hlisted.atEntry ⟨"b", .boolean true, ⟨13, 14⟩⟩ (by simp)
    rwa [hb] at hread

end TokenParsing.Settings
