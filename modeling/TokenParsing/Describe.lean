import TokenParsing.Text.Quoted

/-!
# Descriptions of tokens

A failure names the tokens it met. `Describe` gives each token type the text it is named by: characters and strings
are quoted, integers are decimal, and a list is its elements in brackets.
-/

namespace TokenParsing

/-- Token types that a failure can name. -/
class Describe (τ : Type) where
  /-- The text that names a token. -/
  describe : τ → String

export Describe (describe)

/-- The text of a list whose elements have the given texts. -/
def describeList (texts : List String) : String :=
  "[" ++ ", ".intercalate texts ++ "]"

/-- A character is named in single quotes. -/
instance : Describe Char := ⟨Text.quotedChar⟩

/-- A text is named in double quotes. -/
instance : Describe String := ⟨Text.quoted⟩

/-- An integer is named by its digits. -/
instance : Describe Int := ⟨toString⟩

/-- A byte is named by its number. -/
instance : Describe UInt8 := ⟨fun b => toString b.toNat⟩

/-- A list is named by its elements, in brackets. -/
instance {τ : Type} [Describe τ] : Describe (List τ) :=
  ⟨fun ts => describeList (ts.map describe)⟩

end TokenParsing
