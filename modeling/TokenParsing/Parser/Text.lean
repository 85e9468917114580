import TokenParsing.Decimal.Nearest
import TokenParsing.Parser.Delimited
import TokenParsing.Parser.Repetition

/-!
# Parsers of characters

Parsers over character streams that read the words, blanks and numbers most grammars are made of.
-/

namespace TokenParsing.Parser

open Text

variable {α : Type}

/-- Gives the characters read as a string. -/
def asString {τ : Type} (p : Parser τ (List Char)) : Parser τ String :=
  p.map String.ofList

/-- Reads exactly the given text. When as many characters are ahead as the text has, a difference is reported as a
whole. -/
def literal (expected : String) : Parser Char String := do
  let (cs, span) ← (take expected.length).spanned
  let found := String.ofList cs
  if found = expected then
    return found
  else
    reject (.single (.expected (quoted expected) (quoted found)) span (some "just_str"))

/-- Reads the text before the first occurrence of a pattern, which stays ahead. A missing pattern is named as a text.
-/
def takeUntilText (pattern : String) : Parser Char String :=
  (takeUntil pattern.toList).asString.mapFailure fun
    | .single (.patternNotFound _) span _ => .single (.patternNotFound (quoted pattern)) span (some "take_until")
    | f => f

/-- Reads exactly the given text, under a label of its own. -/
def symbol (expected : String) : Parser Char String :=
  (literal expected).withLabel "symbol"

/-- Reads one or more characters with a property. -/
def charRun (property : Char → Bool) : Parser Char String :=
  (satisfy property).many1.asString

/-- Reads an identifier: an alphabetic character or an underscore, then any number of alphanumeric characters and
underscores. -/
def ident : Parser Char String :=
  ((satisfy isIdentStart).both (satisfy isIdentRest).many).map (fun (c, cs) => String.ofList (c :: cs))
    |>.withLabel "ident"

/-- Reads any blanks, line breaks among them. -/
def whitespace : Parser Char String :=
  (oneOf blanks).many.asString

/-- Reads any blanks of one line. -/
def inlineWhitespace : Parser Char String :=
  (oneOf inlineBlanks).many.asString

/-- Reads `p` between any blanks, line breaks among them. -/
def paddedByWhitespace (p : Parser Char α) : Parser Char α :=
  p.padded whitespace

/-- Reads a decimal number: digits, and a point followed by digits if there is one. A point without a digit after it
is left ahead. -/
def number : Parser Char Float :=
  withLabel "number" do
    let ((whole, fraction), span) ← ((charRun Char.isDigit).both (token '.' *> charRun Char.isDigit).optional).spanned
    let text :=
      match fraction with
      | none => whole
      | some fraction => whole ++ "." ++ fraction
    match Decimal.read? text with
    | some x => return x
    | none => reject (.custom "invalid float literal" span)

/-- Reads the given character if it is next, and nothing otherwise. -/
def skipChar (c : Char) : Parser Char Unit :=
  (token c).optional.map fun _ => ()

/-- A literal answers by the characters ahead, as many as it has. -/
theorem parse_literal (expected : String) (s : TokenStream Char) :
    (literal expected).parse s =
      if s.length < expected.length then .error (.single .endOfInput (.single s.position) (some "take"))
      else if String.ofList (s.rest.take expected.length) = expected then
        .ok ⟨String.ofList (s.rest.take expected.length), s.advance expected.length⟩
      else
        .error (.single (.expected (quoted expected) (quoted (String.ofList (s.rest.take expected.length))))
          ⟨s.position, s.position + expected.length⟩ (some "just_str")) := by
  rw [literal, bind_eq, parse_bind, parse_spanned, parse_take]
  by_cases h : s.length < expected.length
  · simp [h]
  · by_cases hf : String.ofList (s.rest.take expected.length) = expected
    · simp [h, hf]
    · simp [h, hf, parse_reject, TokenStream.position_advance_of_le (Nat.le_of_not_lt h)]

end TokenParsing.Parser
