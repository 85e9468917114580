import TokenParsing.Parser.Choice

/-!
# Delimiters and operators

Parsers between other parsers, and the operators that write sequences and choices: `p + q` gives both values, `p - q`
the first, `p * q` the second, `p ||| q` is a choice and `p >>> f` changes the value.
-/

namespace TokenParsing.Parser

variable {τ α β γ : Type}

/-- Reads an opening, `p` and a closing, and gives the value of `p`. -/
def between (p : Parser τ α) (opening : Parser τ β) (closing : Parser τ γ) : Parser τ α :=
  opening *> p <* closing

/-- Reads `p` with padding on either side, or none. -/
def padded (p : Parser τ α) (padding : Parser τ β) : Parser τ α :=
  p.between padding.optional padding.optional

/-- Reads an opening, `inner` and a closing, and gives the value of `inner`. A missing closing is reported as the
delimiter left unclosed, at the opening. -/
def delimitedBy (delimiter : String) (opening : Parser τ β) (closing : Parser τ γ) (inner : Parser τ α) :
    Parser τ α := do
  let (_, span) ← opening.spanned
  inner <* closing.mapFailure fun _ => .single (.unclosed delimiter) span (some "delimited_by")

/-- Reads both and gives both values. -/
instance : HAdd (Parser τ α) (Parser τ β) (Parser τ (α × β)) := ⟨both⟩

/-- Reads both and gives the first value. -/
instance : HSub (Parser τ α) (Parser τ β) (Parser τ α) := ⟨keepLeft⟩

/-- Reads both and gives the second value. -/
instance : HMul (Parser τ α) (Parser τ β) (Parser τ β) := ⟨keepRight⟩

/-- Reads with the first, or with the second. -/
instance : HOr (Parser τ α) (Parser τ α) (Parser τ α) := ⟨orElse⟩

/-- Maps the value that is read. -/
instance : HShiftRight (Parser τ α) (α → β) (Parser τ β) := ⟨fun p f => p.map f⟩

/-- The parts are read in order, and the first that fails answers for all. -/
theorem parse_between (p : Parser τ α) (opening : Parser τ β) (closing : Parser τ γ) (s : TokenStream τ) :
    (p.between opening closing).parse s =
      match opening.parse s with
      | .error e => .error e
      | .ok r =>
        match p.parse r.remaining with
        | .error e => .error e
        | .ok r' =>
          match closing.parse r'.remaining with
          | .error e => .error e
          | .ok r'' => .ok ⟨r'.value, r''.remaining⟩ := by
  rw [between, seqLeft_eq, seqRight_eq, parse_keepLeft, parse_keepRight]
  cases opening.parse s <;> rfl

/-- A delimited parser answers as its parts do in order, but for the closing, whose failure names the opening. -/
theorem parse_delimitedBy (delimiter : String) (opening : Parser τ β) (closing : Parser τ γ) (inner : Parser τ α)
    (s : TokenStream τ) :
    (delimitedBy delimiter opening closing inner).parse s =
      match opening.parse s with
      | .error e => .error e
      | .ok r =>
        match inner.parse r.remaining with
        | .error e => .error e
        | .ok r' =>
          match closing.parse r'.remaining with
          | .error _ =>
            .error (.single (.unclosed delimiter) ⟨s.position, r.remaining.position⟩ (some "delimited_by"))
          | .ok r'' => .ok ⟨r'.value, r''.remaining⟩ := by
  rw [delimitedBy, bind_eq, parse_bind, parse_spanned]
  cases opening.parse s with
  | error e => rfl
  | ok r =>
    simp only [seqLeft_eq, parse_keepLeft, parse_mapFailure]
    cases inner.parse r.remaining with
    | error e => rfl
    | ok r' =>
      dsimp only
      cases closing.parse r'.remaining <;> rfl

end TokenParsing.Parser
