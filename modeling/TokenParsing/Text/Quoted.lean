import TokenParsing.Text.CharClass

/-!
# Quoted text

Characters and strings written between quotes, so that every character is visible: the quote in use and the backslash
are escaped, the usual control characters have letters, and a character that cannot be shown alone is written as its
code point.
-/

namespace TokenParsing.Text

/-- A code point as lower-case hexadecimal digits in braces, without leading zeros. -/
def codeEscape (c : Char) : List Char :=
  "\\u\x7b".toList ++ Nat.toDigits 16 c.toNat ++ ['\x7d']

/-- A character as it is written between two copies of `quote`. -/
def escaped (quote c : Char) : List Char :=
  if c = '\x00' then ['\\', '0']
  else if c = '\t' then ['\\', 't']
  else if c = '\r' then ['\\', 'r']
  else if c = '\n' then ['\\', 'n']
  else if c = '\\' ∨ c = quote then ['\\', c]
  else if needsCode c then codeEscape c
  else [c]

/-- Characters between two copies of `quote`. -/
def quotedWith (quote : Char) (cs : List Char) : String :=
  String.ofList (quote :: (cs.flatMap (escaped quote) ++ [quote]))

/-- A character between single quotes. -/
def quotedChar (c : Char) : String :=
  quotedWith '\x27' [c]

/-- A string between double quotes. -/
def quoted (s : String) : String :=
  quotedWith '\x22' s.toList

end TokenParsing.Text
