import TokenParsing.Parser.Text
import TokenParsing.Settings.Basic

/-!
# The grammar of settings

A settings file is read line by line. A line is an entry, `key = value`, or blank; either may end in a comment, which
runs from `#` to the end of the line. A value is a string between double quotes, a whole number or a truth value, and
its first character tells which.
-/

namespace TokenParsing.Settings

open TokenParsing.Parser

/-! ## Values -/

/-- The smallest whole number that a value can be. -/
def leastInteger : Int := -0x8000000000000000

/-- The largest whole number that a value can be. -/
def greatestInteger : Int := 0x7fffffffffffffff

/-- Reads a string: any characters between double quotes on one line. -/
def stringValue : Parser Char Value :=
  (delimitedBy (Text.quotedChar '\x22') (token '\x22') (token '\x22') (noneOf ['\x22', '\n']).many.asString).map .string

/-- Reads a whole number: digits after an optional minus sign. Numbers of more than 64 bits are refused as a whole. -/
def integerValue : Parser Char Value := do
  let ((sign, digits), span) ← ((token '-').optional.both (charRun Char.isDigit)).spanned
  let magnitude : Int := Decimal.ofDigits digits.toList
  let n := if sign.isSome then -magnitude else magnitude
  if greatestInteger < n then
    reject (.custom "Invalid integer: number too large to fit in target type." span)
  else if n < leastInteger then
    reject (.custom "Invalid integer: number too small to fit in target type." span)
  else
    return .integer n

/-- Reads a truth value by its name. -/
def booleanValue : Parser Char Value := do
  let (word, span) ← ident.spanned
  if word = "true" then
    return .boolean true
  else if word = "false" then
    return .boolean false
  else
    reject (.of (.expected "a value" (Text.quoted word)) span)

/-- The parser of the kind of value that starts with the given character. -/
def valueFrom (first : Option Char) : Parser Char Value :=
  match first with
  | none => booleanValue
  | some c =>
    if c = '\x22' then stringValue
    else if c = '-' ∨ c.isDigit then integerValue
    else booleanValue

/-- Reads a value, of the kind that the next character tells. -/
def value : Parser Char Value where
  label := some "value"
  attempt s := (valueFrom s.head?).parse s

/-! ## Lines -/

/-- Reads a comment up to the end of the line. -/
def comment : Parser Char (List Char) :=
  token '#' *> (noneOf ['\n']).many

/-- Reads a line break, or nothing at the end of the input. -/
def lineBreak : Parser Char Unit :=
  ((skipChar '\r' *> token '\n').map (fun _ => ()) <|> endOfInput).mapFailure fun f =>
    .custom "Expected end of line." f.span

/-- Reads the rest of a line that has no more to say: blanks, a comment and the line break. -/
def lineEnd : Parser Char Unit :=
  inlineWhitespace *> comment.optional *> lineBreak

/-- Reads a line that gives a value to a key. -/
def entry : Parser Char Entry :=
  (((inlineWhitespace *> ident.spanned) <* (token '=').padded inlineWhitespace).both value <* lineEnd).map
    fun ((key, span), value) => ⟨key, value, span⟩

/-- Reads a line: an entry, or a line without one. -/
def line : Parser Char (Option Entry) :=
  entry.map some <|> lineEnd.map fun _ => none

/-- Reads lines as long as there are any. -/
def lines : Parser Char Settings :=
  line.many.map fun es => ⟨es.filterMap id⟩

/-- Succeeds at the end of the input. Elsewhere the failure is that of reading an entry there. -/
def finish (settings : Settings) : Parser Char Settings where
  attempt s :=
    if s.isEmpty then
      .ok ⟨settings, s⟩
    else
      match entry.parse s with
      | .error f => .error f
      | .ok _ => .error (.custom "Unparsed input." (.single s.position))

/-- Reads a whole settings file. -/
def file : Parser Char Settings :=
  lines.bind finish

/-- The settings that a text gives. -/
def parse (text : String) : Except Failure Settings :=
  (file.parse (.ofText text)).map Success.value

end TokenParsing.Settings
