import TokenParsing.Parser.Basic

/-!
# Parsers of tokens

The parsers that look at the stream themselves: those that fail outright, and those that read one token, a number of
tokens, or the tokens up to a pattern. All other parsers are made of these.
-/

namespace TokenParsing.Parser

variable {τ α : Type}

/-! ## Failing -/

/-- Fails with the given failure. -/
def reject (f : Failure) : Parser τ α where
  attempt _ := .error f

/-- Fails at the next token: the parser that reads nothing, whatever is ahead. -/
def zero : Parser τ α where
  attempt s := .error (.single (.custom "Zero parser.") (.single s.position) (some "zero"))

/-- Fails at the next token for a reason given by the parser's author. -/
def fail (message : String) : Parser τ α where
  attempt s := .error (.single (.custom message) (.single s.position) (some "fail"))

/-- Fails at the next token, naming an unexpected item. -/
def unexpected (found : String) : Parser τ α where
  attempt s := .error (.of (.unexpected found) (.single s.position))

/-! ## Reading tokens -/

/-- Reads the next token, whatever it is. -/
def anyToken : Parser τ τ where
  attempt s :=
    match s.head? with
    | none => .error ((Failure.endOfInput s.position).withLabel "take_any")
    | some t => .ok ⟨t, s.advance 1⟩

/-- Reads exactly `n` tokens. -/
def take (n : Nat) : Parser τ (List τ) where
  attempt s :=
    match s.take n with
    | .error _ => .error ((Failure.endOfInput s.position).withLabel "take")
    | .ok (ts, s') => .ok ⟨ts, s'⟩

/-- Reads the next token if it is accepted; otherwise the token is unexpected, under the given label. At the end of
the input the failure is that of `anyToken`. -/
def accept [Describe τ] (label : String) (accepts : τ → Bool) : Parser τ τ :=
  anyToken.spanned.bind fun (t, span) =>
    if accepts t then succeed t else reject (.single (.unexpected (describe t)) span (some label))

/-- Reads the given token. -/
def token [DecidableEq τ] [Describe τ] (expected : τ) : Parser τ τ :=
  accept "just" (· = expected)

/-- Reads a token of a set. -/
def oneOf [DecidableEq τ] [Describe τ] (set : List τ) : Parser τ τ :=
  accept "one_of" (· ∈ set)

/-- Reads a token outside a set. -/
def noneOf [DecidableEq τ] [Describe τ] (set : List τ) : Parser τ τ :=
  accept "none_of" (· ∉ set)

/-- Reads a token with a property. -/
def satisfy [Describe τ] (property : τ → Bool) : Parser τ τ :=
  accept "satisfy" property

/-- The text that names a pattern: a single token by itself, any other number of them as a list. -/
def describePattern [Describe τ] : List τ → String
  | [t] => describe t
  | ts => describe ts

/-- Reads the tokens before the first occurrence of a pattern, which stays ahead. -/
def takeUntil [DecidableEq τ] [Describe τ] (pattern : List τ) : Parser τ (List τ) where
  attempt s :=
    match s.find pattern with
    | .ok k => (take k).parse s
    | .error _ =>
      .error (.single (.patternNotFound (describePattern pattern)) (.single s.position) (some "take_until"))

/-- Reads nothing, and succeeds only where no token is ahead. -/
def endOfInput [Describe τ] : Parser τ Unit where
  attempt s :=
    match s.head? with
    | none => .ok ⟨(), s⟩
    | some t => .error (.single (.unexpected (describe t)) (.single s.position) (some "end_of_input"))

/-! ## What they answer -/

theorem parse_reject (f : Failure) (s : TokenStream τ) : (reject f : Parser τ α).parse s = .error f := rfl

theorem parse_zero (s : TokenStream τ) :
    (zero : Parser τ α).parse s =
      .error (.single (.custom "Zero parser.") (.single s.position) (some "zero")) := rfl

theorem parse_fail (message : String) (s : TokenStream τ) :
    (fail message : Parser τ α).parse s =
      .error (.single (.custom message) (.single s.position) (some "fail")) := rfl

theorem parse_unexpected (found : String) (s : TokenStream τ) :
    (unexpected found : Parser τ α).parse s = .error (.single (.unexpected found) (.single s.position) none) := rfl

theorem parse_anyToken (s : TokenStream τ) :
    anyToken.parse s =
      match s.head? with
      | none => .error (.single .endOfInput (.single s.position) (some "take_any"))
      | some t => .ok ⟨t, s.advance 1⟩ :=
  parse_of_label_eq_none rfl s

/-- A parser of one token answers by the next token alone. -/
theorem parse_accept [Describe τ] (label : String) (accepts : τ → Bool) (s : TokenStream τ) :
    (accept label accepts).parse s =
      match s.head? with
      | none => .error (.single .endOfInput (.single s.position) (some "take_any"))
      | some t =>
        if accepts t then .ok ⟨t, s.advance 1⟩
        else .error (.single (.unexpected (describe t)) (.single s.position) (some label)) := by
  rw [accept, parse_bind, parse_spanned, parse_anyToken]
  cases hs : s.head? with
  | none => rfl
  | some t =>
    by_cases h : accepts t = true <;>
      simp [h, parse_reject, TokenStream.position_advance_of_head? hs, Span.single]

theorem parse_take (n : Nat) (s : TokenStream τ) :
    (take n).parse s =
      if s.length < n then .error (.single .endOfInput (.single s.position) (some "take"))
      else .ok ⟨s.rest.take n, s.advance n⟩ := by
  rw [parse_of_label_eq_none rfl s]
  simp only [take, TokenStream.take_eq]
  by_cases h : s.length < n <;> simp [h, Failure.endOfInput, Failure.of, Failure.withLabel]

theorem parse_takeUntil [DecidableEq τ] [Describe τ] (pattern : List τ) (s : TokenStream τ) :
    (takeUntil pattern).parse s =
      match TokenStream.firstOccurrence pattern s.rest with
      | some k => (take k).parse s
      | none =>
        .error (.single (.patternNotFound (describePattern pattern)) (.single s.position) (some "take_until")) := by
  rw [parse_of_label_eq_none rfl s]
  simp only [takeUntil, TokenStream.find]
  cases TokenStream.firstOccurrence pattern s.rest <;> rfl

theorem parse_endOfInput [Describe τ] (s : TokenStream τ) :
    (endOfInput : Parser τ Unit).parse s =
      match s.head? with
      | none => .ok ⟨(), s⟩
      | some t => .error (.single (.unexpected (describe t)) (.single s.position) (some "end_of_input")) :=
  parse_of_label_eq_none rfl s

end TokenParsing.Parser
