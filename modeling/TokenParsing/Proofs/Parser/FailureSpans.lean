import TokenParsing.Proofs.Parser.Forward

/-!
# Where failures point

A failure points into the input, at or after the place of the attempt: its span is not empty, starts no later than the
end of the input and reaches at most one position past it, where the end of the input itself is reported. The same holds
of the failures of the alternatives that it combines (`Failure.Within`). Every combinator keeps that property, provided
its parts move forward (`Parser.FailsWithin`); an author who chooses failures freely, with `reject` or `mapFailure`, need
not.
-/

namespace TokenParsing

/-! ## Spans within an input -/

/-- The span is not empty and points into an input of `size` tokens, at or after a position. -/
structure Span.Within (sp : Span) (position size : Nat) : Prop where
  position_le_start : position ≤ sp.start
  start_le_size : sp.start ≤ size
  start_lt_stop : sp.start < sp.stop
  stop_le_size_succ : sp.stop ≤ size + 1

/-- A single place up to the end of the input is within it. -/
theorem Span.within_single {position k size : Nat} (h : position ≤ k) (hk : k ≤ size) :
    (Span.single k).Within position size where
  position_le_start := h
  start_le_size := hk
  start_lt_stop := Nat.lt_succ_self k
  stop_le_size_succ := Nat.succ_le_succ hk

/-- What points at or after a later place points at or after an earlier one. -/
theorem Span.Within.mono {sp : Span} {position position' size : Nat} (h : sp.Within position' size)
    (hle : position ≤ position') : sp.Within position size where
  position_le_start := Nat.le_trans hle h.position_le_start
  start_le_size := h.start_le_size
  start_lt_stop := h.start_lt_stop
  stop_le_size_succ := h.stop_le_size_succ

/-- The span over two within the input is within it. -/
theorem Span.Within.merge {sp sp' : Span} {position size : Nat} (h : sp.Within position size)
    (h' : sp'.Within position size) : (sp.merge sp').Within position size := by
  obtain ⟨h₁, h₂, h₃, h₄⟩ := h
  obtain ⟨h₁', h₂', h₃', h₄'⟩ := h'
  refine ⟨?_, ?_, ?_, ?_⟩ <;> unfold Span.merge <;> dsimp only <;> omega

/-- The failure points into an input of `size` tokens, at or after a position, and so do the failures it combines. -/
def Failure.Within (position size : Nat) : Failure → Prop
  | .single _ sp _ => sp.Within position size
  | .combined f g sp _ => sp.Within position size ∧ f.Within position size ∧ g.Within position size

/-- The span of a failure within the input is within it. -/
theorem Failure.Within.span {position size : Nat} {f : Failure} (h : f.Within position size) :
    f.span.Within position size := by
  cases f with
  | single c sp l => exact h
  | combined f g sp l => exact h.1

/-- A failure that points at or after a later place points at or after an earlier one. -/
theorem Failure.Within.mono {position position' size : Nat} {f : Failure} (h : f.Within position' size)
    (hle : position ≤ position') : f.Within position size := by
  induction f with
  | single c sp l => exact Span.Within.mono h hle
  | combined f g sp l ihf ihg =>
    obtain ⟨hsp, hf, hg⟩ := h
    exact ⟨hsp.mono hle, ihf hf, ihg hg⟩

/-- A label does not change where a failure points. -/
theorem Failure.within_withLabel_iff {position size : Nat} {l : String} {f : Failure} :
    (f.withLabel l).Within position size ↔ f.Within position size := by
  cases f <;> exact Iff.rfl

/-- A failure that combines two within the input is within it. -/
theorem Failure.Within.combine {position size : Nat} {f g : Failure} (hf : f.Within position size)
    (hg : g.Within position size) : (Failure.combine f g).Within position size :=
  ⟨hf.span.merge hg.span, hf, hg⟩

namespace Parser

open TokenStream

variable {τ α β : Type}

/-! ## Primitives -/

/-- A parser whose failures point into the input, at or after the place of the attempt. -/
def FailsWithin (p : Parser τ α) : Prop :=
  ∀ s e, p.parse s = .error e → e.Within s.position s.buffer.size

/-- A failure at the next token, or at the end of the input, points there. -/
theorem failsWithin_of_single {p : Parser τ α}
    (h : ∀ s e, p.parse s = .error e → ∃ c l, e = .single c (.single s.position) l) : p.FailsWithin := by
  intro s e he
  obtain ⟨c, l, rfl⟩ := h s e he
  exact Span.within_single (Nat.le_refl _) s.position_le_size

/-- A missing token is reported at the end of the input. -/
theorem failsWithin_anyToken : (anyToken : Parser τ τ).FailsWithin := by
  refine failsWithin_of_single fun s e he => ?_
  rw [parse_anyToken] at he
  cases hs : s.head? with
  | none =>
    simp only [hs, Except.error.injEq] at he
    exact ⟨_, _, he.symm⟩
  | some t => simp [hs] at he

/-- Missing tokens are reported where the first was to be taken. -/
theorem failsWithin_take (n : Nat) : (take n : Parser τ (List τ)).FailsWithin := by
  refine failsWithin_of_single fun s e he => ?_
  rw [parse_take] at he
  by_cases hn : s.length < n
  · simp only [hn, if_true, Except.error.injEq] at he
    exact ⟨_, _, he.symm⟩
  · simp [hn] at he

/-- A token that is not accepted is reported at its place, and a missing one at the end. -/
theorem failsWithin_accept [Describe τ] (label : String) (accepts : τ → Bool) :
    (accept label accepts).FailsWithin := by
  refine failsWithin_of_single fun s e he => ?_
  rw [parse_accept] at he
  cases hs : s.head? with
  | none =>
    simp only [hs, Except.error.injEq] at he
    exact ⟨_, _, he.symm⟩
  | some t =>
    by_cases ht : accepts t = true
    · simp [hs, ht] at he
    · simp only [hs, ht, Bool.false_eq_true, if_false, Except.error.injEq] at he
      exact ⟨_, _, he.symm⟩

/-- A pattern that does not occur is reported where the search starts. -/
theorem failsWithin_takeUntil [DecidableEq τ] [Describe τ] (pattern : List τ) : (takeUntil pattern).FailsWithin := by
  intro s e he
  rw [parse_takeUntil] at he
  cases hk : firstOccurrence pattern s.rest with
  | none =>
    simp only [hk, Except.error.injEq] at he
    subst he
    exact Span.within_single (Nat.le_refl _) s.position_le_size
  | some k =>
    simp only [hk] at he
    exact failsWithin_take k s e he

/-- Input that is left over is reported at its first token. -/
theorem failsWithin_endOfInput [Describe τ] : (endOfInput : Parser τ Unit).FailsWithin := by
  refine failsWithin_of_single fun s e he => ?_
  rw [parse_endOfInput] at he
  cases hs : s.head? with
  | none => simp [hs] at he
  | some t =>
    simp only [hs, Except.error.injEq] at he
    exact ⟨_, _, he.symm⟩

/-- A literal that differs from what is ahead is not empty, so neither is the span of it. -/
theorem failsWithin_literal (expected : String) : (literal expected).FailsWithin := by
  intro s e he
  rw [parse_literal] at he
  by_cases hn : s.length < expected.length
  · simp only [hn, if_true, Except.error.injEq] at he
    subst he
    exact Span.within_single (Nat.le_refl _) s.position_le_size
  · by_cases hf : String.ofList (s.rest.take expected.length) = expected
    · simp [hn, hf] at he
    · simp only [hn, hf, if_false, Except.error.injEq] at he
      subst he
      have hpos : expected.length ≠ 0 := by
        intro h0
        refine hf ?_
        rw [h0, List.take_zero]
        exact (String.length_eq_zero_iff.1 h0).symm
      unfold TokenStream.length at hn
      refine ⟨Nat.le_refl _, s.position_le_size, ?_, ?_⟩
      · show s.position < s.position + expected.length
        omega
      · show s.position + expected.length ≤ s.buffer.size + 1
        omega

/-! ## Combinators -/

/-- A failure after tokens have been consumed points at or after the place before them. -/
theorem FailsWithin.of_consumes {p : Parser τ α} (hp : p.FailsWithin) {s s' : TokenStream τ} {ts : List τ}
    (hc : s.Consumes ts s') {e : Failure} (he : p.parse s' = .error e) :
    e.Within s.position s.buffer.size := by
  have h := hp s' e he
  rw [hc.buffer_eq] at h
  exact h.mono (Nat.le.intro hc.position_eq.symm)

/-- A sequence fails in its first part, or in its second behind what the first has consumed. -/
theorem FailsWithin.bind {p : Parser τ α} {f : α → Parser τ β} (hp : p.FailsWithin) (hpf : p.Forward)
    (hf : ∀ a, (f a).FailsWithin) : (p.bind f).FailsWithin := by
  intro s e he
  rcases parse_bind_eq_error_iff.1 he with he | ⟨r, hr, he⟩
  · exact hp s e he
  · obtain ⟨ts, hc⟩ := hpf s r hr
    exact (hf r.value).of_consumes hc he

/-- A function of the value changes no failure. -/
theorem FailsWithin.map (f : α → β) {p : Parser τ α} (hp : p.FailsWithin) : (p.map f).FailsWithin :=
  fun s e he => hp s e (parse_map_eq_error_iff.1 he)

/-- A pair fails as a sequence does. -/
theorem FailsWithin.both {p : Parser τ α} {q : Parser τ β} (hp : p.FailsWithin) (hpf : p.Forward)
    (hq : q.FailsWithin) : (p.both q).FailsWithin := by
  intro s e he
  rcases parse_both_eq_error_iff.1 he with he | ⟨r, hr, he⟩
  · exact hp s e he
  · obtain ⟨ts, hc⟩ := hpf s r hr
    exact hq.of_consumes hc he

/-- A choice combines the failures of its alternatives, which start at the same place. -/
theorem FailsWithin.orElse {p q : Parser τ α} (hp : p.FailsWithin) (hq : q.FailsWithin) :
    (p.orElse q).FailsWithin := by
  intro s e he
  obtain ⟨e₁, e₂, h₁, h₂, rfl⟩ := parse_orElse_eq_error_iff.1 he
  exact (hp s e₁ h₁).combine (hq s e₂ h₂)

/-- An optional part never fails. -/
theorem failsWithin_optional (p : Parser τ α) : p.optional.FailsWithin :=
  fun _ _ he => absurd he parse_optional_ne_error

/-- Too few matches are reported where the last of them stopped, which is not past the end. -/
theorem failsWithin_repeated (minimum : Nat) (maximum : Option Nat) {p : Parser τ α} (hpf : p.Forward) :
    (p.repeated minimum maximum).FailsWithin := by
  intro s e he
  obtain ⟨vs, s', hcollect, -, rfl⟩ := parse_repeated_eq_error_iff.1 he
  obtain ⟨ts, hc⟩ := hpf.collect maximum.isNone (maximum.getD (unboundedBudget minimum s)) minimum s
  rw [hcollect] at hc
  refine Span.within_single (Nat.le.intro hc.position_eq.symm) ?_
  rw [← hc.buffer_eq]
  exact s'.position_le_size

/-- A label does not move a failure. -/
theorem FailsWithin.withLabel (l : String) {p : Parser τ α} (hp : p.FailsWithin) : (p.withLabel l).FailsWithin := by
  intro s e he
  obtain ⟨e₁, h₁, rfl⟩ := parse_withLabel_eq_error_iff.1 he
  exact Failure.within_withLabel_iff.2 (hp s e₁ h₁)

/-- The span changes no failure. -/
theorem FailsWithin.spanned {p : Parser τ α} (hp : p.FailsWithin) : p.spanned.FailsWithin :=
  fun s e he => hp s e (parse_spanned_eq_error_iff.1 he)

/-- Changing failures without moving them keeps them within the input. -/
theorem FailsWithin.mapFailure {f : Failure → Failure}
    (hf : ∀ e position size, e.Within position size → (f e).Within position size) {p : Parser τ α}
    (hp : p.FailsWithin) : (p.mapFailure f).FailsWithin := by
  intro s e he
  obtain ⟨e₁, h₁, rfl⟩ := parse_mapFailure_eq_error_iff.1 he
  exact hf e₁ _ _ (hp s e₁ h₁)

/-- A text that does not occur is reported where a pattern is; only its name is that of a text. -/
theorem failsWithin_takeUntilText (pattern : String) : (takeUntilText pattern).FailsWithin := by
  refine ((failsWithin_takeUntil _).map _).mapFailure fun e position size h => ?_
  split
  · exact h
  · exact h

/-! ## Built parsers -/

/-- The failures of a built parser whose author chooses none of them point into the input. -/
theorem Built.failsWithin {features : List Feature} (hreject : .reject ∉ features) (hmap : .mapFailure ∉ features)
    {p : Parser τ α} (h : Built features p) : p.FailsWithin := by
  induction h with
  | succeed a => exact fun s e he => nomatch he
  | zero => exact failsWithin_of_single fun s e he => ⟨_, _, (Except.error.inj he).symm⟩
  | fail message => exact failsWithin_of_single fun s e he => ⟨_, _, (Except.error.inj he).symm⟩
  | unexpected found => exact failsWithin_of_single fun s e he => ⟨_, _, (Except.error.inj he).symm⟩
  | reject h f => exact absurd h hreject
  | anyToken => exact failsWithin_anyToken
  | take n => exact failsWithin_take n
  | accept label accepts => exact failsWithin_accept label accepts
  | takeUntil pattern => exact failsWithin_takeUntil pattern
  | endOfInput => exact failsWithin_endOfInput
  | literal expected => exact failsWithin_literal expected
  | takeUntilText pattern => exact failsWithin_takeUntilText pattern
  | bind hp _ ihp ihf => exact ihp.bind hp.forward ihf
  | map f _ ih => exact ih.map f
  | both hp _ ihp ihq => exact ihp.both hp.forward ihq
  | orElse _ _ ihp ihq => exact ihp.orElse ihq
  | optional _ _ => exact failsWithin_optional _
  | repeated minimum maximum hp _ => exact failsWithin_repeated minimum maximum hp.forward
  | withLabel l _ ih => exact ih.withLabel l
  | mapFailure h f _ _ => exact absurd h hmap
  | spanned _ _ ih => exact ih.spanned

/-- A failure of a built parser, made without `reject` and `mapFailure`, has a span that is not empty, starts at or
after the place of the attempt and no later than the end of the input, and reaches at most one position past the end;
so has every failure that it combines. -/
theorem within_of_parse_eq_error {p : Parser τ α} (h : Built [.spanned] p) {s : TokenStream τ} {e : Failure}
    (he : p.parse s = .error e) : e.Within s.position s.buffer.size :=
  h.failsWithin (by decide) (by decide) s e he

/-- The first alternative gives up at the end of the input, the second before it; the failure of the choice covers both
places. -/
theorem within_of_parse_eq_error_of_choice :
    let s : TokenStream Char := ⟨#['a', 'b'], 1, by decide⟩
    ∃ e, ((token 'b' *> token 'c') <|> token 'c').parse s = .error e ∧ e.span = ⟨1, 3⟩ ∧ e.Within 1 2 := by
  intro s
  have hbuilt : Built [.spanned] ((token 'b' *> token 'c') <|> token 'c') :=
    ((built_token _).keepRight (built_token _)).orElse (built_token _)
  have hfails : ((token 'b' *> token 'c') <|> token 'c').parse s = .error _ := rfl
  exact ⟨_, hfails, rfl, within_of_parse_eq_error hbuilt hfails⟩

end Parser

end TokenParsing
