import TokenParsing.Span

/-!
# Lines and columns

A `LineIndex` cuts a text at its newlines once and answers where a character offset stands: its line and column, the
text of its line, and its offset in the UTF-8 bytes of the text. Offsets past the end of the text stand for the end.
-/

namespace TokenParsing

/-- A place in a text for a human reader. -/
structure Position where
  /-- The line, counted from 1. -/
  line : Nat
  /-- The column, counted in characters from 1. -/
  column : Nat
  /-- The number of characters before the place. -/
  offset : Nat
  deriving DecidableEq, Repr

/-- The place where every text starts. -/
def Position.origin : Position :=
  ⟨1, 1, 0⟩

instance : Inhabited Position := ⟨.origin⟩

/-- A line of a text, with the place where it starts. -/
structure Line where
  /-- The number of characters of the text before the line. -/
  start : Nat
  /-- The number of bytes of the text before the line. -/
  byteStart : Nat
  /-- The characters of the line, up to its newline and without it. -/
  chars : List Char
  deriving DecidableEq, Repr

/-- The number of bytes that characters take in UTF-8. -/
def utf8Length (cs : List Char) : Nat :=
  cs.foldr (fun c bytes => c.utf8Size + bytes) 0

/-- The pieces of a text between its newlines; a text without a newline is one piece, and so is the empty text. -/
def linePieces : List Char → List (List Char)
  | [] => [[]]
  | c :: cs =>
    if c = '\n' then
      [] :: linePieces cs
    else
      match linePieces cs with
      | [] => [[c]]
      | piece :: pieces => (c :: piece) :: pieces

/-- There is at least one piece. -/
theorem linePieces_ne_nil (cs : List Char) : linePieces cs ≠ [] := by
  cases cs with
  | nil => simp [linePieces]
  | cons c cs =>
    rw [linePieces]
    split
    · simp
    · split <;> simp

/-- Without a newline a text is one piece. -/
theorem linePieces_of_not_mem {cs : List Char} (h : '\n' ∉ cs) : linePieces cs = [cs] := by
  induction cs with
  | nil => rfl
  | cons c cs ih =>
    simp only [List.mem_cons, not_or] at h
    rw [linePieces, if_neg (Ne.symm h.1), ih h.2]

/-- The first newline ends the first piece. -/
theorem linePieces_append_newline {piece : List Char} (h : '\n' ∉ piece) (cs : List Char) :
    linePieces (piece ++ '\n' :: cs) = piece :: linePieces cs := by
  induction piece with
  | nil => simp [linePieces]
  | cons c piece ih =>
    simp only [List.mem_cons, not_or] at h
    rw [List.cons_append, linePieces, if_neg (Ne.symm h.1), ih h.2]

/-- The lines made of pieces, the first of which starts after the given numbers of characters and bytes; a newline,
one character and one byte long, separates a piece from the next. -/
def placeLines (start byteStart : Nat) : List (List Char) → List Line
  | [] => []
  | piece :: pieces =>
    ⟨start, byteStart, piece⟩ :: placeLines (start + piece.length + 1) (byteStart + utf8Length piece + 1) pieces

/-- A line as shown to a reader: without the carriage return of a two-character line break. -/
def Line.shown (l : Line) : List Char :=
  if l.chars.getLast? = some '\r' then l.chars.dropLast else l.chars

/-- The lines of a text and its length in characters. -/
structure LineIndex where
  /-- The lines in order, at least one. -/
  lines : List Line
  /-- The number of characters of the text. -/
  length : Nat
  deriving DecidableEq, Repr

namespace LineIndex

/-- The index of a text. -/
def ofText (text : String) : LineIndex :=
  ⟨placeLines 0 0 (linePieces text.toList), text.length⟩

/-- The number of lines. -/
def lineCount (index : LineIndex) : Nat :=
  index.lines.length

/-- An offset moved back to the end of the text if it is past it. -/
def clamp (index : LineIndex) (offset : Nat) : Nat :=
  min offset index.length

/-- The lines that start at or before an offset. The last of them holds the character at the offset; a newline belongs
to the line it ends. -/
def reached (index : LineIndex) (offset : Nat) : List Line :=
  index.lines.takeWhile fun l => l.start ≤ index.clamp offset

/-- The line that holds the character at an offset. -/
def lineAt (index : LineIndex) (offset : Nat) : Line :=
  (index.reached offset).getLast?.getD ⟨0, 0, []⟩

/-- The line and column of an offset. -/
def position (index : LineIndex) (offset : Nat) : Position :=
  ⟨(index.reached offset).length, index.clamp offset - (index.lineAt offset).start + 1, index.clamp offset⟩

/-- The text of a line, counted from 1, without its line break. -/
def line? (index : LineIndex) : Nat → Option String
  | 0 => none
  | k + 1 => index.lines[k]?.map fun l => String.ofList l.shown

/-- The span of a line, counted from 1, its line break excluded. -/
def lineSpan? (index : LineIndex) : Nat → Option Span
  | 0 => none
  | k + 1 => index.lines[k]?.map fun l => ⟨l.start, l.start + l.shown.length⟩

/-- The number of bytes before the character at an offset. -/
def byteOffset (index : LineIndex) (offset : Nat) : Nat :=
  let l := index.lineAt offset
  l.byteStart + utf8Length (l.chars.take (index.clamp offset - l.start))

end LineIndex

end TokenParsing
