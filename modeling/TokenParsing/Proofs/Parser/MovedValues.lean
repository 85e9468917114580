import TokenParsing.Parser.Delimited
import TokenParsing.Proofs.Parser.Translation

/-!
# Values that hold positions

A value read may hold positions, and the parser made of it may answer them: then a parser run further along does not
give the same value but one that has moved. `Parser.MovesTo` relates two parsers, the second run further along, by a
relation between their values. Where no position is left in the values it says that a parser moves with its input
(`Parser.Equivariant`), although positions were read on the way.
-/

namespace TokenParsing

/-- Two answers agree, but for positions: values are related, and the positions of streams and failures of the second
are `distance` further along. -/
inductive Outcome.MovedBy {τ α : Type} (distance : Nat) (moved : α → α → Prop) : Outcome τ α → Outcome τ α → Prop where
  | ok {v v' : α} {s s' : TokenStream τ} (hv : moved v v') (h : s.ShiftedBy distance s') :
      MovedBy distance moved (.ok ⟨v, s⟩) (.ok ⟨v', s'⟩)
  | error (e : Failure) : MovedBy distance moved (.error e) (.error (e.shift distance))

namespace Parser

open TokenStream

variable {τ α β γ : Type} {distance : Nat} {moved : α → α → Prop} {moved' : β → β → Prop}

/-- The second parser answers further along as the first does, with related values. -/
def MovesTo (distance : Nat) (moved : α → α → Prop) (p p' : Parser τ α) : Prop :=
  ∀ s s', s.ShiftedBy distance s' → Outcome.MovedBy distance moved (p.parse s) (p'.parse s')

/-- Two runs, the second further along: both succeed, with related values, or both fail. -/
theorem MovesTo.answers {p p' : Parser τ α} (hp : MovesTo distance moved p p') {s s' : TokenStream τ}
    (h : s.ShiftedBy distance s') :
    (∃ v v' s₁ s₁', p.parse s = .ok ⟨v, s₁⟩ ∧ p'.parse s' = .ok ⟨v', s₁'⟩ ∧ moved v v' ∧ s₁.ShiftedBy distance s₁') ∨
      ∃ e, p.parse s = .error e ∧ p'.parse s' = .error (e.shift distance) := by
  have hs := hp s s' h
  generalize p.parse s = o, p'.parse s' = o' at hs
  cases hs with
  | ok hv h₁ => exact Or.inl ⟨_, _, _, _, rfl, rfl, hv, h₁⟩
  | error e => exact Or.inr ⟨e, rfl, rfl⟩

/-- A parser whose answers move gives the same value at both places. -/
theorem Equivariant.movesTo {p : Parser τ α} (hp : p.Equivariant distance) : MovesTo distance Eq p p := by
  intro s s' h
  rcases hp.answers h with ⟨v, s₁, s₁', hr, hr', h₁⟩ | ⟨e, he, he'⟩
  · rw [hr, hr']
    exact .ok rfl h₁
  · rw [he, he']
    exact .error e

/-- And one that gives the same value at both places is such a parser. -/
theorem MovesTo.equivariant {p : Parser τ α} (hp : MovesTo distance Eq p p) : p.Equivariant distance := by
  intro s s' h
  rcases hp.answers h with ⟨v, v', s₁, s₁', hr, hr', rfl, h₁⟩ | ⟨e, he, he'⟩
  · rw [hr, hr']
    exact .ok h₁
  · rw [he, he']
    exact .error e

/-- Values that are moved into each other may be given. -/
theorem movesTo_succeed {a a' : α} (h : moved a a') :
    MovesTo distance moved (succeed a : Parser τ α) (succeed a') :=
  fun _ _ hs => .ok h hs

/-- A failure chosen by the author at a position that was read moves with that position. -/
theorem movesTo_reject (f : Failure) :
    MovesTo distance moved (reject f : Parser τ α) (reject (f.shift distance)) :=
  fun _ _ _ => .error f

/-- Sequences move when their parts do, for every two values that are moved into each other. -/
theorem MovesTo.bind {p p' : Parser τ α} {f f' : α → Parser τ β} (hp : MovesTo distance moved p p')
    (hf : ∀ a a', moved a a' → MovesTo distance moved' (f a) (f' a')) :
    MovesTo distance moved' (p.bind f) (p'.bind f') := by
  intro s s' h
  rw [parse_bind, parse_bind]
  rcases hp.answers h with ⟨v, v', s₁, s₁', hr, hr', hv, h₁⟩ | ⟨e, he, he'⟩
  · rw [hr, hr']
    exact hf v v' hv s₁ s₁' h₁
  · rw [he, he']
    exact .error e

/-- Functions may be applied that keep values moved into each other. -/
theorem MovesTo.map {p p' : Parser τ α} {f f' : α → β} (hp : MovesTo distance moved p p')
    (hf : ∀ a a', moved a a' → moved' (f a) (f' a')) : MovesTo distance moved' (p.map f) (p'.map f') := by
  intro s s' h
  rw [parse_map, parse_map]
  rcases hp.answers h with ⟨v, v', s₁, s₁', hr, hr', hv, h₁⟩ | ⟨e, he, he'⟩
  · rw [hr, hr']
    exact .ok (hf v v' hv) h₁
  · rw [he, he']
    exact .error e

/-- The span that was read moves with the input. -/
theorem Equivariant.movesTo_spanned {p : Parser τ α} (hp : p.Equivariant distance) :
    MovesTo distance (fun a a' => a' = (a.1, a.2.shift distance)) p.spanned p.spanned := by
  intro s s' h
  rw [parse_spanned, parse_spanned]
  rcases hp.answers h with ⟨v, s₁, s₁', hr, hr', h₁⟩ | ⟨e, he, he'⟩
  · rw [hr, hr']
    refine .ok ?_ h₁
    rw [h.position_eq, h₁.position_eq]
    rfl
  · rw [he, he']
    exact .error e

/-- What is made of a value and the span it was read from. -/
theorem Equivariant.spanned_bind {p : Parser τ α} {f : α × Span → Parser τ β} (hp : p.Equivariant distance)
    (hf : ∀ v sp, MovesTo distance moved' (f (v, sp)) (f (v, sp.shift distance))) :
    MovesTo distance moved' (p.spanned.bind f) (p.spanned.bind f) := by
  refine hp.movesTo_spanned.bind ?_
  rintro ⟨v, sp⟩ _ rfl
  exact hf v sp

/-- A missing closing is reported at the place of the opening, which moves. -/
theorem Equivariant.delimitedBy (delimiter : String) {opening : Parser τ β} {closing : Parser τ γ}
    {inner : Parser τ α} (ho : opening.Equivariant distance) (hc : closing.Equivariant distance)
    (hi : inner.Equivariant distance) : (delimitedBy delimiter opening closing inner).Equivariant distance := by
  intro s s' h
  rw [parse_delimitedBy, parse_delimitedBy]
  rcases ho.answers h with ⟨v, s₁, s₁', hr, hr', h₁⟩ | ⟨e, he, he'⟩
  · rw [hr, hr']
    dsimp only
    rcases hi.answers h₁ with ⟨w, s₂, s₂', hr, hr', h₂⟩ | ⟨e, he, he'⟩
    · rw [hr, hr']
      dsimp only
      rcases hc.answers h₂ with ⟨x, s₃, s₃', hr, hr', h₃⟩ | ⟨e, he, he'⟩
      · rw [hr, hr']
        exact .ok h₃
      · rw [he, he', h.position_eq, h₁.position_eq]
        exact .error _
    · rw [he, he']
      exact .error e
  · rw [he, he']
    exact .error e

end Parser

end TokenParsing
