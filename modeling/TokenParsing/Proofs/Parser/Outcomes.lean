import TokenParsing.Parser.Delimited
import TokenParsing.Parser.Repetition

/-!
# When a composed parser succeeds, and when it fails

For every combinator, the conditions on its parts under which it answers a given success or a given failure. They turn
a hypothesis about a composed parser into hypotheses about its parts, so no later proof opens a combinator.
-/

namespace TokenParsing.Parser

variable {τ α β γ : Type}

/-! ## Successes -/

/-- A label changes no success. -/
theorem parse_withLabel_eq_ok_iff {l : String} {p : Parser τ α} {s : TokenStream τ} {r : Success τ α} :
    (p.withLabel l).parse s = .ok r ↔ p.parse s = .ok r := by
  rw [parse_withLabel]
  cases p.parse s <;> simp [mapError_ok, mapError_error]

/-- A value that is given reads nothing. -/
theorem parse_succeed_eq_ok_iff {a : α} {s : TokenStream τ} {r : Success τ α} :
    (succeed a).parse s = .ok r ↔ r = ⟨a, s⟩ := by
  rw [parse_succeed, Except.ok.injEq]
  exact eq_comm

/-- A sequence succeeds when its first part does and then the second, which the first value chooses. -/
theorem parse_bind_eq_ok_iff {p : Parser τ α} {f : α → Parser τ β} {s : TokenStream τ} {r : Success τ β} :
    (p.bind f).parse s = .ok r ↔ ∃ r₁, p.parse s = .ok r₁ ∧ (f r₁.value).parse r₁.remaining = .ok r := by
  rw [parse_bind]
  cases p.parse s <;> simp

/-- A function of the value changes nothing else. -/
theorem parse_map_eq_ok_iff {f : α → β} {p : Parser τ α} {s : TokenStream τ} {r : Success τ β} :
    (p.map f).parse s = .ok r ↔ ∃ r₁, p.parse s = .ok r₁ ∧ r = r₁.map f := by
  rw [parse_map]
  cases p.parse s <;> simp [Except.map, eq_comm]

/-- A pair succeeds when its parts do, one behind the other. -/
theorem parse_both_eq_ok_iff {p : Parser τ α} {q : Parser τ β} {s : TokenStream τ} {r : Success τ (α × β)} :
    (p.both q).parse s = .ok r ↔
      ∃ r₁ r₂, p.parse s = .ok r₁ ∧ q.parse r₁.remaining = .ok r₂ ∧ r = ⟨(r₁.value, r₂.value), r₂.remaining⟩ := by
  rw [parse_both]
  cases p.parse s with
  | error e => simp
  | ok r₁ => cases hq : q.parse r₁.remaining <;> simp [hq, eq_comm]

/-- So does a pair of which the first value is kept, the second part read nonetheless. -/
theorem parse_keepLeft_eq_ok_iff {p : Parser τ α} {q : Parser τ β} {s : TokenStream τ} {r : Success τ α} :
    (p.keepLeft q).parse s = .ok r ↔
      ∃ r₁ r₂, p.parse s = .ok r₁ ∧ q.parse r₁.remaining = .ok r₂ ∧ r = ⟨r₁.value, r₂.remaining⟩ := by
  rw [parse_keepLeft]
  cases p.parse s with
  | error e => simp
  | ok r₁ => cases hq : q.parse r₁.remaining <;> simp [hq, eq_comm]

/-- And one of which the second value is kept. -/
theorem parse_keepRight_eq_ok_iff {p : Parser τ α} {q : Parser τ β} {s : TokenStream τ} {r : Success τ β} :
    (p.keepRight q).parse s = .ok r ↔ ∃ r₁, p.parse s = .ok r₁ ∧ q.parse r₁.remaining = .ok r :=
  parse_bind_eq_ok_iff

/-- The span of a success reaches from the position at the start to the one behind it. -/
theorem parse_spanned_eq_ok_iff {p : Parser τ α} {s : TokenStream τ} {r : Success τ (α × Span)} :
    p.spanned.parse s = .ok r ↔
      ∃ r₁, p.parse s = .ok r₁ ∧ r = ⟨(r₁.value, ⟨s.position, r₁.remaining.position⟩), r₁.remaining⟩ := by
  rw [parse_spanned]
  cases p.parse s <;> simp [eq_comm]

/-- A function of the failure changes no success. -/
theorem parse_mapFailure_eq_ok_iff {f : Failure → Failure} {p : Parser τ α} {s : TokenStream τ} {r : Success τ α} :
    (p.mapFailure f).parse s = .ok r ↔ p.parse s = .ok r := by
  rw [parse_mapFailure]
  cases p.parse s <;> simp [mapError_ok, mapError_error]

/-- A choice gives what its first alternative gives, or what the second does where the first fails. -/
theorem parse_orElse_eq_ok_iff {p q : Parser τ α} {s : TokenStream τ} {r : Success τ α} :
    (p.orElse q).parse s = .ok r ↔ p.parse s = .ok r ∨ (∃ e, p.parse s = .error e) ∧ q.parse s = .ok r := by
  rw [parse_orElse]
  cases p.parse s with
  | ok r₁ => simp
  | error e => cases q.parse s <;> simp

/-- A choice between parsers that agree where both succeed gives what either of them gives. -/
theorem parse_orElse_eq_ok_iff_of_agree {p q : Parser τ α} {s : TokenStream τ} {r : Success τ α}
    (hagree : ∀ r₁ r₂, p.parse s = .ok r₁ → q.parse s = .ok r₂ → r₁ = r₂) :
    (p.orElse q).parse s = .ok r ↔ p.parse s = .ok r ∨ q.parse s = .ok r := by
  rw [parse_orElse_eq_ok_iff]
  constructor
  · rintro (h | ⟨-, h⟩)
    · exact Or.inl h
    · exact Or.inr h
  · rintro (h | h)
    · exact Or.inl h
    · cases hp : p.parse s with
      | error e => exact Or.inr ⟨⟨e, rfl⟩, h⟩
      | ok r₁ =>
        obtain rfl := hagree r₁ r hp h
        exact Or.inl rfl

/-- An optional part is read where it succeeds, and where it fails nothing is. -/
theorem parse_optional_eq_ok_iff {p : Parser τ α} {s : TokenStream τ} {r : Success τ (Option α)} :
    p.optional.parse s = .ok r ↔
      (∃ r₁, p.parse s = .ok r₁ ∧ r = r₁.map some) ∨ (∃ e, p.parse s = .error e) ∧ r = ⟨none, s⟩ := by
  rw [parse_optional]
  cases p.parse s <;> simp [eq_comm]

/-- A parser between two others succeeds when the three do, one behind the other. -/
theorem parse_between_eq_ok_iff {p : Parser τ α} {opening : Parser τ β} {closing : Parser τ γ} {s : TokenStream τ}
    {r : Success τ α} :
    (p.between opening closing).parse s = .ok r ↔
      ∃ r₁ r₂ r₃, opening.parse s = .ok r₁ ∧ p.parse r₁.remaining = .ok r₂ ∧ closing.parse r₂.remaining = .ok r₃ ∧
        r = ⟨r₂.value, r₃.remaining⟩ := by
  rw [parse_between]
  cases opening.parse s with
  | error e => simp
  | ok r₁ =>
    cases hp : p.parse r₁.remaining with
    | error e => simp [hp]
    | ok r₂ => cases hc : closing.parse r₂.remaining <;> simp [hp, hc, eq_comm]

/-- So does a delimited one: its own failure for a missing closing changes no success. -/
theorem parse_delimitedBy_eq_ok_iff {delimiter : String} {opening : Parser τ β} {closing : Parser τ γ}
    {inner : Parser τ α} {s : TokenStream τ} {r : Success τ α} :
    (delimitedBy delimiter opening closing inner).parse s = .ok r ↔
      ∃ r₁ r₂ r₃, opening.parse s = .ok r₁ ∧ inner.parse r₁.remaining = .ok r₂ ∧ closing.parse r₂.remaining = .ok r₃ ∧
        r = ⟨r₂.value, r₃.remaining⟩ := by
  rw [parse_delimitedBy]
  cases opening.parse s with
  | error e => simp
  | ok r₁ =>
    cases hp : inner.parse r₁.remaining with
    | error e => simp [hp]
    | ok r₂ => cases hc : closing.parse r₂.remaining <;> simp [hp, hc, eq_comm]

/-- A parser of one token succeeds on the next token if it accepts it. -/
theorem parse_accept_eq_ok_iff [Describe τ] {label : String} {accepts : τ → Bool} {s : TokenStream τ}
    {r : Success τ τ} :
    (accept label accepts).parse s = .ok r ↔
      s.head? = some r.value ∧ accepts r.value = true ∧ r.remaining = s.advance 1 := by
  obtain ⟨v, s'⟩ := r
  rw [parse_accept]
  cases s.head? with
  | none => simp
  | some t =>
    by_cases ht : accepts t = true
    · simp only [ht, if_true, Except.ok.injEq, Success.mk.injEq, Option.some.injEq]
      refine ⟨fun h => ?_, fun h => ?_⟩
      · obtain ⟨rfl, rfl⟩ := h
        exact ⟨rfl, ht, rfl⟩
      · obtain ⟨rfl, -, rfl⟩ := h
        exact ⟨rfl, rfl⟩
    · simp only [ht, Option.some.injEq]
      refine ⟨fun h => ?_, fun hright => ?_⟩
      · nomatch h
      · obtain ⟨rfl, h, -⟩ := hright
        exact absurd h ht

/-- The end of the input is where no token is ahead. -/
theorem parse_endOfInput_eq_ok_iff [Describe τ] {s : TokenStream τ} {r : Success τ Unit} :
    endOfInput.parse s = .ok r ↔ s.rest = [] ∧ r.remaining = s := by
  rw [parse_endOfInput, ← TokenStream.head?_eq_none_iff]
  obtain ⟨v, s'⟩ := r
  cases s.head? <;> simp [eq_comm]

/-- A repetition succeeds with the matches collected, if they are enough. -/
theorem parse_repeated_eq_ok_iff {minimum : Nat} {maximum : Option Nat} {p : Parser τ α} {s : TokenStream τ}
    {r : Success τ (List α)} :
    (p.repeated minimum maximum).parse s = .ok r ↔
      minimum ≤ r.value.length ∧
        p.collect maximum.isNone (maximum.getD (unboundedBudget minimum s)) minimum s = (r.value, r.remaining) := by
  obtain ⟨vs, s'⟩ := r
  rw [parse_repeated]
  dsimp only
  generalize p.collect maximum.isNone (maximum.getD (unboundedBudget minimum s)) minimum s = c
  obtain ⟨vs', s''⟩ := c
  by_cases h : vs'.length < minimum
  · simp only [h, if_true, Prod.mk.injEq]
    refine ⟨fun h' => ?_, fun hright => ?_⟩
    · nomatch h'
    · obtain ⟨h', rfl, rfl⟩ := hright
      omega
  · simp only [h, if_false, Except.ok.injEq, Success.mk.injEq, Prod.mk.injEq]
    refine ⟨fun hleft => ?_, fun hright => ?_⟩
    · obtain ⟨rfl, rfl⟩ := hleft
      exact ⟨by omega, rfl, rfl⟩
    · obtain ⟨-, rfl, rfl⟩ := hright
      exact ⟨rfl, rfl⟩

/-! ## Failures -/

/-- A parser fails where it does not succeed. -/
theorem exists_parse_eq_error_iff {p : Parser τ α} {s : TokenStream τ} :
    (∃ e, p.parse s = .error e) ↔ ∀ r, p.parse s ≠ .ok r := by
  cases p.parse s <;> simp

/-- A label is set on the failure of the part. -/
theorem parse_withLabel_eq_error_iff {l : String} {p : Parser τ α} {s : TokenStream τ} {e : Failure} :
    (p.withLabel l).parse s = .error e ↔ ∃ e₁, p.parse s = .error e₁ ∧ e = e₁.withLabel l := by
  rw [parse_withLabel]
  cases p.parse s <;> simp [mapError_ok, mapError_error, eq_comm]

/-- A function of the failure is applied to that of the part. -/
theorem parse_mapFailure_eq_error_iff {f : Failure → Failure} {p : Parser τ α} {s : TokenStream τ} {e : Failure} :
    (p.mapFailure f).parse s = .error e ↔ ∃ e₁, p.parse s = .error e₁ ∧ e = f e₁ := by
  rw [parse_mapFailure]
  cases p.parse s <;> simp [mapError_ok, mapError_error, eq_comm]

/-- A sequence fails in its first part or, after it, in its second. -/
theorem parse_bind_eq_error_iff {p : Parser τ α} {f : α → Parser τ β} {s : TokenStream τ} {e : Failure} :
    (p.bind f).parse s = .error e ↔
      p.parse s = .error e ∨ ∃ r, p.parse s = .ok r ∧ (f r.value).parse r.remaining = .error e := by
  rw [parse_bind]
  cases p.parse s <;> simp

/-- So does a pair. -/
theorem parse_both_eq_error_iff {p : Parser τ α} {q : Parser τ β} {s : TokenStream τ} {e : Failure} :
    (p.both q).parse s = .error e ↔
      p.parse s = .error e ∨ ∃ r, p.parse s = .ok r ∧ q.parse r.remaining = .error e := by
  rw [parse_both]
  cases p.parse s with
  | error e₁ => simp
  | ok r => cases hq : q.parse r.remaining <;> simp [hq]

/-- Keeping one value makes no difference to the failures. -/
theorem parse_keepLeft_eq_error_iff {p : Parser τ α} {q : Parser τ β} {s : TokenStream τ} {e : Failure} :
    (p.keepLeft q).parse s = .error e ↔
      p.parse s = .error e ∨ ∃ r, p.parse s = .ok r ∧ q.parse r.remaining = .error e := by
  rw [parse_keepLeft]
  cases p.parse s with
  | error e₁ => simp
  | ok r => cases hq : q.parse r.remaining <;> simp [hq]

/-- Nor does a function of the value. -/
theorem parse_map_eq_error_iff {f : α → β} {p : Parser τ α} {s : TokenStream τ} {e : Failure} :
    (p.map f).parse s = .error e ↔ p.parse s = .error e := by
  rw [parse_map]
  cases p.parse s <;> simp [Except.map]

/-- Nor does the span. -/
theorem parse_spanned_eq_error_iff {p : Parser τ α} {s : TokenStream τ} {e : Failure} :
    p.spanned.parse s = .error e ↔ p.parse s = .error e := by
  rw [parse_spanned]
  cases p.parse s <;> simp

/-- A choice fails where both of its alternatives do. -/
theorem parse_orElse_eq_error_iff {p q : Parser τ α} {s : TokenStream τ} {e : Failure} :
    (p.orElse q).parse s = .error e ↔
      ∃ e₁ e₂, p.parse s = .error e₁ ∧ q.parse s = .error e₂ ∧ e = .combine e₁ e₂ := by
  rw [parse_orElse]
  cases p.parse s with
  | ok r => simp
  | error e₁ => cases q.parse s <;> simp [eq_comm]

/-- A delimited parser fails in its opening, behind it, or where its closing is missing, whatever the closing says. -/
theorem parse_delimitedBy_eq_error_iff {delimiter : String} {opening : Parser τ β} {closing : Parser τ γ}
    {inner : Parser τ α} {s : TokenStream τ} {e : Failure} :
    (delimitedBy delimiter opening closing inner).parse s = .error e ↔
      opening.parse s = .error e ∨ ∃ r, opening.parse s = .ok r ∧
        (inner.parse r.remaining = .error e ∨ ∃ r₁ e₁, inner.parse r.remaining = .ok r₁ ∧
          closing.parse r₁.remaining = .error e₁ ∧
          e = .single (.unclosed delimiter) ⟨s.position, r.remaining.position⟩ (some "delimited_by")) := by
  rw [parse_delimitedBy]
  cases opening.parse s with
  | error e₀ => simp
  | ok r =>
    cases hi : inner.parse r.remaining with
    | error e₀ => simp [hi]
    | ok r₁ => cases hc : closing.parse r₁.remaining <;> simp [hi, hc, eq_comm]

/-- An optional part never fails. -/
theorem parse_optional_ne_error {p : Parser τ α} {s : TokenStream τ} {e : Failure} :
    p.optional.parse s ≠ .error e := by
  rw [parse_optional]
  cases p.parse s <;> simp

/-- The end of the input is missing at the next token. -/
theorem parse_endOfInput_eq_error_iff [Describe τ] {s : TokenStream τ} {e : Failure} :
    endOfInput.parse s = .error e ↔
      ∃ t, s.head? = some t ∧ e = .single (.unexpected (describe t)) (.single s.position) (some "end_of_input") := by
  rw [parse_endOfInput]
  cases s.head? <;> simp [eq_comm]

/-- A repetition fails after too few matches, at the token after the last of them. -/
theorem parse_repeated_eq_error_iff {minimum : Nat} {maximum : Option Nat} {p : Parser τ α} {s : TokenStream τ}
    {e : Failure} :
    (p.repeated minimum maximum).parse s = .error e ↔
      ∃ vs s', p.collect maximum.isNone (maximum.getD (unboundedBudget minimum s)) minimum s = (vs, s') ∧
        vs.length < minimum ∧ e = .single (.tooFew minimum vs.length) (.single s'.position) none := by
  rw [parse_repeated]
  dsimp only
  generalize p.collect maximum.isNone (maximum.getD (unboundedBudget minimum s)) minimum s = c
  obtain ⟨vs, s'⟩ := c
  by_cases h : vs.length < minimum
  · simp only [h, if_true, Except.error.injEq, Prod.mk.injEq]
    constructor
    · rintro rfl
      exact ⟨vs, s', ⟨rfl, rfl⟩, h, rfl⟩
    · rintro ⟨_, _, ⟨rfl, rfl⟩, -, rfl⟩
      rfl
  · simp only [h, if_false, Prod.mk.injEq]
    refine ⟨fun h' => ?_, fun hright => ?_⟩
    · nomatch h'
    · obtain ⟨_, _, ⟨rfl, rfl⟩, h', -⟩ := hright
      exact absurd h' h

end TokenParsing.Parser
