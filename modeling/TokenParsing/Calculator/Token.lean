import TokenParsing.Decimal.Shortest
import TokenParsing.Parser.Text

/-!
# Tokens of arithmetic

The tokens that an arithmetic text is made of, and the parser that reads a text as a list of them. Blanks separate
tokens and are dropped; every token keeps the span of its characters.
-/

namespace TokenParsing.Calculator

/-- The symbols of arithmetic. -/
inductive Symbol where
  | plus
  | minus
  | times
  | divide
  | power
  | leftParen
  | rightParen
  deriving DecidableEq, Repr

namespace Symbol

/-- All the symbols. -/
def all : List Symbol :=
  [plus, minus, times, divide, power, leftParen, rightParen]

/-- The character that writes a symbol. -/
def char : Symbol → Char
  | plus => '+'
  | minus => '-'
  | times => '*'
  | divide => '/'
  | power => '^'
  | leftParen => '('
  | rightParen => ')'

/-- The symbol that a character writes. -/
def ofChar? (c : Char) : Option Symbol :=
  all.find? fun s => s.char == c

/-- A character writes a symbol exactly when it is the symbol's character. -/
theorem ofChar?_eq_some_iff (c : Char) (s : Symbol) : ofChar? c = some s ↔ c = s.char := by
  constructor
  · intro h
    have := List.find?_some h
    exact (beq_iff_eq.mp this).symm
  · rintro rfl
    cases s <;> rfl

end Symbol

/-- What a token stands for. -/
inductive TokenKind where
  /-- A number. -/
  | number (value : Float)
  /-- A symbol. -/
  | symbol (s : Symbol)
  deriving Repr

namespace TokenKind

/-- The text that names a token to a reader. -/
def render : TokenKind → String
  | number value => "number " ++ Decimal.render value
  | symbol s => Text.quotedChar s.char

/-- The symbol that a token is. -/
def symbol? : TokenKind → Option Symbol
  | number _ => none
  | symbol s => some s

end TokenKind

/-- A token and the characters it was read from. -/
structure Token where
  /-- What the token stands for. -/
  kind : TokenKind
  /-- Its characters. -/
  span : Span
  deriving Repr

/-- Whether a token is the given symbol. -/
def Token.is (s : Symbol) (t : Token) : Bool :=
  t.kind.symbol? == some s

/-- A failure names a token by its kind, as a reader writes it, and not by its parts. That is the text of every failure
over tokens that reading a text can answer with: of an operator or a number that is missing, and of text left over. -/
instance : Describe Token := ⟨fun t => t.kind.render⟩

open TokenParsing.Parser

/-- Reads a symbol. -/
def symbolKind : Parser Char TokenKind :=
  (satisfy fun c => (Symbol.ofChar? c).isSome).map (fun c => .symbol ((Symbol.ofChar? c).getD .rightParen))
    |>.withLabel "operator"

/-- Reads one token. -/
def lexeme : Parser Char Token :=
  (number.map TokenKind.number <|> symbolKind).spanned.map fun (kind, span) => ⟨kind, span⟩

/-- Reads a whole text as tokens. -/
def tokens : Parser Char (List Token) :=
  whitespace *> (lexeme <* whitespace).many <* endOfInput

end TokenParsing.Calculator
