import Mathlib.Algebra.Group.Int.Defs
import TokenParsing.Settings.Grammar

/-!
# The line grammar of settings

What a settings file may look like, said about its characters and not about a parser. A text is cut at its newlines
(`linePieces`); every piece is blank or gives a value to a key (`LineText`), and the entries of a file are those of its
pieces in order (`Document`). The last piece is not followed by a newline, which is why it alone may not end in a bare
carriage return.
-/

namespace TokenParsing.Settings

/-- Only blanks of one line. -/
def Blank (cs : List Char) : Prop :=
  ∀ c ∈ cs, c ∈ Text.inlineBlanks

/-- A character that may start an identifier, then characters that may go on with one. -/
def IsIdent : List Char → Prop
  | [] => False
  | c :: cs => Text.isIdentStart c = true ∧ ∀ d ∈ cs, Text.isIdentRest d = true

/-- The integer that digits write after an optional minus sign. -/
def written (negative : Bool) (ds : List Char) : Int :=
  if negative then -(Decimal.ofDigits ds : Int) else Decimal.ofDigits ds

/-- The sign of an integer as it is written. -/
def signText (negative : Bool) : List Char :=
  if negative then ['-'] else []

/-- The ways to write a value. -/
inductive ValueText : List Char → Value → Prop where
  | string {cs : List Char} (h : ∀ c ∈ cs, c ≠ '\x22' ∧ c ≠ '\n') :
      ValueText ('\x22' :: (cs ++ ['\x22'])) (.string (String.ofList cs))
  | integer (negative : Bool) {ds : List Char} (hne : ds ≠ []) (hd : ∀ c ∈ ds, c.isDigit = true)
      (hlo : -2 ^ 63 ≤ written negative ds) (hhi : written negative ds < 2 ^ 63) :
      ValueText (signText negative ++ ds) (.integer (written negative ds))
  | yes : ValueText "true".toList (.boolean true)
  | no : ValueText "false".toList (.boolean false)

/-- The ways a line may close: with nothing, with a comment or, before a newline, with a carriage return. -/
inductive LineClose (terminated : Bool) : List Char → Prop where
  | nothing : LineClose terminated []
  | comment (body : List Char) : LineClose terminated ('#' :: body)
  | carriageReturn (ht : terminated = true) : LineClose terminated ['\r']

/-- The ways a line may go on when it has no more to say: blanks, then the close. -/
inductive LineTail (terminated : Bool) : List Char → Prop where
  | mk {b close : List Char} (hb : Blank b) (hc : LineClose terminated close) : LineTail terminated (b ++ close)

/-- The lines that start at a position of the text, each with the entry it makes, if it makes one. -/
inductive LineText (terminated : Bool) (start : Nat) : List Char → Option Entry → Prop where
  | blank {cs : List Char} (h : LineTail terminated cs) : LineText terminated start cs none
  | entry {b₁ key b₂ b₃ v tail : List Char} {value : Value} (h₁ : Blank b₁) (hk : IsIdent key) (h₂ : Blank b₂)
      (h₃ : Blank b₃) (hv : ValueText v value) (ht : LineTail terminated tail) :
      LineText terminated start (b₁ ++ key ++ b₂ ++ '=' :: (b₃ ++ v ++ tail))
        (some ⟨String.ofList key, value, ⟨start + b₁.length, start + b₁.length + key.length⟩⟩)

/-- The pieces of a text from a position on, with the entries they make. A newline stands between a piece and the
next. -/
inductive Document : Nat → List (List Char) → List Entry → Prop where
  | last {start : Nat} {piece : List Char} {e : Option Entry} :
      LineText false start piece e → Document start [piece] e.toList
  | more {start : Nat} {piece next : List Char} {pieces : List (List Char)} {e : Option Entry} {es : List Entry} :
      LineText true start piece e → Document (start + piece.length + 1) (next :: pieces) es →
        Document start (piece :: next :: pieces) (e.toList ++ es)

end TokenParsing.Settings
