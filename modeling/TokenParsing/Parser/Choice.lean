import TokenParsing.Parser.Token

/-!
# Choice

Trying a parser and going on from the same place when it fails. Whatever a failed attempt read is forgotten.
-/

namespace TokenParsing.Parser

variable {τ α : Type}

/-- Reads with `p`; if `p` fails, reads with `q` from the same place. When both fail the answer holds both failures.
-/
def orElse (p q : Parser τ α) : Parser τ α where
  attempt s :=
    match p.parse s with
    | .ok r => .ok r
    | .error e =>
      match q.parse s with
      | .ok r => .ok r
      | .error e' => .error (.combine e e')

/-- Choice, with the parser that always fails as its neutral element. -/
instance : Alternative (Parser τ) where
  failure := zero
  orElse p q := p.orElse (q ())

/-- Reads with `p`; if `p` fails, reads nothing. -/
def optional (p : Parser τ α) : Parser τ (Option α) where
  attempt s :=
    match p.parse s with
    | .ok r => .ok (r.map some)
    | .error _ => .ok ⟨none, s⟩

/-- A choice is answered by its second part only where the first fails, and combines the failures of both. -/
theorem parse_orElse (p q : Parser τ α) (s : TokenStream τ) :
    (p.orElse q).parse s =
      match p.parse s with
      | .ok r => .ok r
      | .error e =>
        match q.parse s with
        | .ok r => .ok r
        | .error e' => .error (.combine e e') :=
  parse_of_label_eq_none rfl s

/-- Nothing is read, and nothing is wrong, where the optional part fails. -/
theorem parse_optional (p : Parser τ α) (s : TokenStream τ) :
    p.optional.parse s =
      match p.parse s with
      | .ok r => .ok (r.map some)
      | .error _ => .ok ⟨none, s⟩ :=
  parse_of_label_eq_none rfl s

@[simp] theorem orElse_eq (p q : Parser τ α) : (p <|> q) = p.orElse q := rfl

end TokenParsing.Parser
