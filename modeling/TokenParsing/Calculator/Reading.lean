import TokenParsing.Calculator.Grammar

/-!
# Reading arithmetic texts

A text is read in two stages, tokens first and then the expression they make; both must take in all of their input.
The places of the expression, and of a failure of the second stage, are then given in characters of the text.
-/

namespace TokenParsing.Calculator

open TokenParsing.Parser

/-- The characters from the first to the last token of a span of tokens, in a text of the given length. Past the last
token is the end of the text; a place that covers nothing points at the character where it stands. -/
def textSpan (ts : List Token) (length : Nat) (s : Span) : Span :=
  let start := (ts[s.start]?.map (·.span.start)).getD length
  let last := if s.stop = 0 then none else ts[s.stop - 1]?
  let stop := max start ((last.map (·.span.stop)).getD length)
  if start = stop then .single start else ⟨start, stop⟩

/-- Reads a text as an expression. -/
def parse (text : String) : Except Failure (Expr Span) :=
  match tokens.parse (.ofText text) with
  | .error f => .error f
  | .ok scanned =>
    let inText := textSpan scanned.value text.length
    match (expression <* endOfInput).parse (.ofList scanned.value) with
    | .error f => .error (f.withSpan (inText f.span))
    | .ok r => .ok (r.value.map inText)

end TokenParsing.Calculator
