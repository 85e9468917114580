import TokenParsing.Calculator.Expr
import TokenParsing.Calculator.Token

/-!
# The grammar of arithmetic

Sums of terms, terms of signed powers, powers of atoms; sums and terms associate to the left, powers to the right and
above a sign. An atom is a number or an expression in parentheses.

The rules that recur are given the rules they recur to, the whole expression and the signed power, as parsers, and
`knot n` ties them with `n` levels of recursion. Every level reads at least one token before the next is entered, so
a stream of `n` tokens never needs more than `n` levels below the first.
-/

namespace TokenParsing.Calculator

open TokenParsing.Parser

/-- A parser of an expression over tokens; the places are spans of tokens. -/
abbrev Rule := Parser Token (Expr Span)

/-! ## Pieces -/

/-- Reads the given symbol. How its failure names another token is not observable: before a sign, a power or a group it
runs only where its symbol is next, and behind a group its failure gives way to that of the parenthesis left open (see
`parse_signed`, `parse_power` and `parse_atom`, none of which keeps a failure of it). -/
def exactly (s : Symbol) : Parser Token Token :=
  satisfy (Token.is s)

/-- Reads with `p` when the next token is the given symbol, otherwise with `q`. The failure of the rule chosen is not
combined with another's. -/
def whenNext (s : Symbol) (p q : Rule) : Rule where
  attempt st := if st.head?.any (Token.is s) then p.parse st else q.parse st

/-- An operation on the two expressions around its symbol, at the place that covers both. -/
def join (op : BinaryOp) (left right : Expr Span) : Expr Span :=
  .binary op left right (left.place.merge right.place)

/-- Reads the symbol of one of some operations. -/
def operator (ops : Symbol → Option BinaryOp) : Parser Token BinaryOp := do
  let (t, span) ← anyToken.spanned
  match t.kind.symbol?.bind ops with
  | some op => return op
  | none => reject (.of (.unexpected (describe t)) span)

/-- The operations of terms. -/
def termOp : Symbol → Option BinaryOp
  | .times => some .multiply
  | .divide => some .divide
  | _ => none

/-- The operations of sums. -/
def sumOp : Symbol → Option BinaryOp
  | .plus => some .add
  | .minus => some .subtract
  | _ => none

/-- Goes on with a chain whose first part has been read: reads further operators and operands while there is an
operator, at most `budget` times. Once an operator has been read, a failure of its operand is a failure of the chain.
-/
def chain (operand : Rule) (op : Parser Token BinaryOp) :
    (budget : Nat) → Expr Span → TokenStream Token → Outcome Token (Expr Span)
  | 0, left, s => .ok ⟨left, s⟩
  | budget + 1, left, s =>
    match op.parse s with
    | .error _ => .ok ⟨left, s⟩
    | .ok o =>
      match operand.parse o.remaining with
      | .error e => .error e
      | .ok right => chain operand op budget (join o.value left right.value) right.remaining

/-- Reads operands separated by operators, associating to the left. An operator takes at least one token, so the
tokens after the first operand bound their number. -/
def leftAssoc (operand : Rule) (op : Parser Token BinaryOp) : Rule where
  attempt s :=
    match operand.parse s with
    | .error e => .error e
    | .ok first => chain operand op first.remaining.length first.value first.remaining

/-! ## Rules -/

/-- Reads a number. -/
def numeral : Rule :=
  withLabel "number" do
    let (t, span) ← anyToken.spanned
    match t.kind with
    | .number value => return .number value span
    | .symbol _ => reject (.of (.expected "a number" (describe t)) span)

/-- Reads a number, or an expression in parentheses. -/
def atom (expression : Rule) : Rule :=
  whenNext .leftParen
    ((delimitedBy (Text.quotedChar '(') (exactly .leftParen) (exactly .rightParen) expression).spanned.map
      fun (e, span) => .group e span)
    numeral

/-- Reads an atom, raised to a signed power if the symbol of powers follows. -/
def power (expression unary : Rule) : Rule := do
  let base ← atom expression
  whenNext .power ((exactly .power *> unary).map (join .power base)) (succeed base)

/-- Reads a signed power: any number of minus signs before a power. -/
def signed (expression unary : Rule) : Rule :=
  whenNext .minus
    ((exactly .minus *> unary).spanned.map fun (e, span) => .negate e span)
    (power expression unary)

/-- Reads a term: signed powers multiplied and divided. -/
def term (expression unary : Rule) : Rule :=
  leftAssoc (signed expression unary) (operator termOp)

/-- Reads a sum: terms added and subtracted. -/
def sum (expression unary : Rule) : Rule :=
  leftAssoc (term expression unary) (operator sumOp)

/-! ## Recursion -/

/-- The two rules that other rules recur to. -/
structure Knot where
  /-- A whole expression. -/
  expression : Rule
  /-- A signed power. -/
  unary : Rule

/-- The rules with at most `n` levels of recursion, the first one counted. -/
def knot : Nat → Knot
  | 0 => ⟨zero, zero⟩
  | n + 1 => ⟨sum (knot n).expression (knot n).unary, signed (knot n).expression (knot n).unary⟩

/-- Reads an expression. -/
def expression : Rule where
  attempt s := (knot (s.length + 1)).expression.parse s

/-! ## What they answer -/

theorem parse_exactly (sym : Symbol) (s : TokenStream Token) :
    (exactly sym).parse s =
      match s.head? with
      | none => .error (.single .endOfInput (.single s.position) (some "take_any"))
      | some t =>
        if t.is sym then .ok ⟨t, s.advance 1⟩
        else .error (.single (.unexpected (describe t)) (.single s.position) (some "satisfy")) := by
  rw [exactly, satisfy, parse_accept]
  cases s.head? <;> rfl

/-- Where its symbol is next, a parser of one symbol reads it. -/
theorem parse_exactly_of_next {sym : Symbol} {s : TokenStream Token} (h : s.head?.any (Token.is sym) = true) :
    ∃ t, (exactly sym).parse s = .ok ⟨t, s.advance 1⟩ := by
  rw [parse_exactly]
  cases hs : s.head? with
  | none => simp [hs] at h
  | some t =>
    have ht : t.is sym = true := by simpa [hs] using h
    exact ⟨t, by simp [ht]⟩

/-- The symbol that is next is one token. -/
theorem position_advance_of_next {sym : Symbol} {s : TokenStream Token} (h : s.head?.any (Token.is sym) = true) :
    (s.advance 1).position = s.position + 1 := by
  obtain ⟨t, ht, -⟩ := (Option.any_eq_true _ _).1 h
  exact TokenStream.position_advance_of_head? ht

theorem parse_whenNext (sym : Symbol) (p q : Rule) (s : TokenStream Token) :
    (whenNext sym p q).parse s = if s.head?.any (Token.is sym) then p.parse s else q.parse s :=
  parse_of_label_eq_none rfl s

theorem parse_operator (ops : Symbol → Option BinaryOp) (s : TokenStream Token) :
    (operator ops).parse s =
      match s.head? with
      | none => .error (.single .endOfInput (.single s.position) (some "take_any"))
      | some t =>
        match t.kind.symbol?.bind ops with
        | some op => .ok ⟨op, s.advance 1⟩
        | none => .error (.single (.unexpected (describe t)) (.single s.position) none) := by
  rw [operator, bind_eq, parse_bind, parse_spanned, parse_anyToken]
  cases hs : s.head? with
  | none => rfl
  | some t =>
    cases h : t.kind.symbol?.bind ops <;>
      simp [h, parse_reject, Failure.of, TokenStream.position_advance_of_head? hs, Span.single]

theorem parse_leftAssoc (operand : Rule) (op : Parser Token BinaryOp) (s : TokenStream Token) :
    (leftAssoc operand op).parse s =
      match operand.parse s with
      | .error e => .error e
      | .ok first => chain operand op first.remaining.length first.value first.remaining :=
  parse_of_label_eq_none rfl s

theorem parse_numeral (s : TokenStream Token) :
    numeral.parse s =
      match s.head? with
      | none => .error (.single .endOfInput (.single s.position) (some "number"))
      | some t =>
        match t.kind with
        | .number v => .ok ⟨.number v (.single s.position), s.advance 1⟩
        | .symbol _ =>
          .error (.single (.expected "a number" (describe t)) (.single s.position) (some "number")) := by
  rw [numeral, parse_withLabel, bind_eq, parse_bind, parse_spanned, parse_anyToken]
  cases hs : s.head? with
  | none => rfl
  | some t => cases h : t.kind <;> simp [h, parse_reject, Failure.of, Failure.withLabel, mapError_ok, mapError_error,
      TokenStream.position_advance_of_head? hs, Span.single]

/-- A parenthesis opens a group, which is closed where the expression inside ends; anything else must be a number. -/
theorem parse_atom (expression : Rule) (s : TokenStream Token) :
    (atom expression).parse s =
      if s.head?.any (Token.is .leftParen) then
        match expression.parse (s.advance 1) with
        | .error e => .error e
        | .ok r =>
          match (exactly .rightParen).parse r.remaining with
          | .error _ =>
            .error (.single (.unclosed (Text.quotedChar '(')) (.single s.position) (some "delimited_by"))
          | .ok r' => .ok ⟨.group r.value ⟨s.position, r'.remaining.position⟩, r'.remaining⟩
      else numeral.parse s := by
  rw [atom, parse_whenNext]
  by_cases h : s.head?.any (Token.is .leftParen) = true
  · obtain ⟨t, ht⟩ := parse_exactly_of_next h
    rw [if_pos h, if_pos h, parse_map, parse_spanned, parse_delimitedBy, ht]
    dsimp only
    rw [position_advance_of_next h]
    cases expression.parse (s.advance 1) with
    | error e => rfl
    | ok r =>
      dsimp only
      cases (exactly .rightParen).parse r.remaining <;> rfl
  · rw [if_neg h, if_neg h]

theorem parse_power (expression unary : Rule) (s : TokenStream Token) :
    (power expression unary).parse s =
      match (atom expression).parse s with
      | .error e => .error e
      | .ok b =>
        if b.remaining.head?.any (Token.is .power) then
          match unary.parse (b.remaining.advance 1) with
          | .error e => .error e
          | .ok x => .ok ⟨join .power b.value x.value, x.remaining⟩
        else .ok b := by
  rw [power, bind_eq, parse_bind]
  cases (atom expression).parse s with
  | error e => rfl
  | ok b =>
    dsimp only
    rw [parse_whenNext]
    by_cases h : b.remaining.head?.any (Token.is .power) = true
    · obtain ⟨t, ht⟩ := parse_exactly_of_next h
      rw [if_pos h, if_pos h, parse_map, seqRight_eq, parse_keepRight, ht]
      dsimp only
      cases unary.parse (b.remaining.advance 1) <;> rfl
    · rw [if_neg h, if_neg h]
      rfl

theorem parse_signed (expression unary : Rule) (s : TokenStream Token) :
    (signed expression unary).parse s =
      if s.head?.any (Token.is .minus) then
        match unary.parse (s.advance 1) with
        | .error e => .error e
        | .ok r => .ok ⟨.negate r.value ⟨s.position, r.remaining.position⟩, r.remaining⟩
      else (power expression unary).parse s := by
  rw [signed, parse_whenNext]
  by_cases h : s.head?.any (Token.is .minus) = true
  · obtain ⟨t, ht⟩ := parse_exactly_of_next h
    rw [if_pos h, if_pos h, parse_map, parse_spanned, seqRight_eq, parse_keepRight, ht]
    dsimp only
    cases unary.parse (s.advance 1) <;> rfl
  · rw [if_neg h, if_neg h]

end TokenParsing.Calculator
