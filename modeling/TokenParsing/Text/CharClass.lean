import TokenParsing.Text.Alphabetic
import TokenParsing.Text.Extending
import TokenParsing.Text.Numeric
import TokenParsing.Text.Unprintable

/-!
# Character classes

Membership of a character in the classes that grammars and quoted texts ask about. Classes that reach past ASCII are
tables of code point ranges; the digits of numbers are the ten ASCII digits.
-/

namespace TokenParsing.Text

/-- Whether the code point of a character lies in one of the inclusive ranges. -/
def inRanges (ranges : List (Nat × Nat)) (c : Char) : Bool :=
  ranges.any fun r => r.1 ≤ c.toNat && c.toNat ≤ r.2

/-- Whether a character is a letter or acts as one in a word. -/
def isAlphabetic (c : Char) : Bool :=
  inRanges alphabeticRanges c

/-- Whether a character is a digit or another number of any script. -/
def isNumeric (c : Char) : Bool :=
  inRanges numericRanges c

/-- Whether a character is alphabetic or numeric. -/
def isAlphanumeric (c : Char) : Bool :=
  isAlphabetic c || isNumeric c

/-- Whether a character may start an identifier. -/
def isIdentStart (c : Char) : Bool :=
  isAlphabetic c || c == '_'

/-- Whether a character may stand in an identifier after its start. -/
def isIdentRest (c : Char) : Bool :=
  isAlphanumeric c || c == '_'

/-- The characters that may separate words on one line. -/
def inlineBlanks : List Char :=
  [' ', '\t']

/-- The characters that may separate words of a text of several lines. -/
def blanks : List Char :=
  [' ', '\t', '\r', '\n']

/-- Whether a character cannot be shown alone: it draws onto its neighbour or has no visible form. -/
def needsCode (c : Char) : Bool :=
  inRanges extendingRanges c || inRanges unprintableRanges c

/-- A character is in a class when one of its ranges holds it. -/
theorem inRanges_of_mem {ranges : List (Nat × Nat)} {c : Char} {lo hi : Nat} (h : (lo, hi) ∈ ranges)
    (hlo : lo ≤ c.toNat) (hhi : c.toNat ≤ hi) : inRanges ranges c = true := by
  simp only [inRanges, List.any_eq_true]
  exact ⟨(lo, hi), h, by simp [hlo, hhi]⟩

/-- The ASCII digits are numeric. -/
theorem isNumeric_of_isDigit {c : Char} (h : c.isDigit = true) : isNumeric c = true := by
  simp only [Char.isDigit, Bool.and_eq_true, decide_eq_true_eq, UInt32.le_iff_toNat_le] at h
  exact inRanges_of_mem (show (0x30, 0x39) ∈ numericRanges by decide) h.1 h.2

/-- What may start an identifier may also go on with one. -/
theorem isIdentRest_of_isIdentStart {c : Char} (h : isIdentStart c = true) : isIdentRest c = true := by
  simp only [isIdentStart, Bool.or_eq_true] at h
  simp only [isIdentRest, isAlphanumeric, Bool.or_eq_true]
  rcases h with h | h
  · exact Or.inl (Or.inl h)
  · exact Or.inr h

end TokenParsing.Text
