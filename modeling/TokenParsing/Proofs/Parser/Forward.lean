import TokenParsing.Proofs.Parser.Built
import TokenParsing.Proofs.Parser.Words

/-!
# Parsers move forward

A parser that succeeds has consumed the tokens between where it started and where it stopped, and nothing else: the
stream it leaves is over the same buffer, no further back and not past the end. Every combinator keeps that property
(`Parser.Forward`), so every built parser has it (`Built.forward`).
-/

namespace TokenParsing.Parser

open TokenParsing.TokenStream

variable {τ α β : Type}

/-- A parser that leaves, whenever it succeeds, the stream after tokens that were ahead. -/
def Forward (p : Parser τ α) : Prop :=
  ∀ s r, p.parse s = .ok r → ∃ ts, s.Consumes ts r.remaining

/-- A parser that never succeeds moves nowhere. -/
theorem forward_of_fails {p : Parser τ α} (h : ∀ s, ∃ e, p.parse s = .error e) : p.Forward := by
  intro s r hr
  obtain ⟨e, he⟩ := h s
  nomatch he.symm.trans hr

/-! ## Primitives -/

/-- Giving a value consumes nothing. -/
theorem forward_succeed (a : α) : (succeed a : Parser τ α).Forward := by
  intro s r hr
  obtain rfl := parse_succeed_eq_ok_iff.1 hr
  exact ⟨[], Consumes.refl s⟩

/-- Reading a token consumes it. -/
theorem forward_anyToken : (anyToken : Parser τ τ).Forward := by
  intro s r hr
  rw [parse_anyToken] at hr
  cases hs : s.head? with
  | none => simp [hs] at hr
  | some t =>
    simp only [hs, Except.ok.injEq] at hr
    subst hr
    exact ⟨[t], consumes_of_head? hs⟩

/-- Taking tokens consumes as many as asked for. -/
theorem forward_take (n : Nat) : (take n : Parser τ (List τ)).Forward := by
  intro s r hr
  obtain ⟨hc, -⟩ := parse_take_eq_ok_iff.1 hr
  exact ⟨_, hc⟩

/-- Reading a token that is accepted consumes it. -/
theorem forward_accept [Describe τ] (label : String) (accepts : τ → Bool) : (accept label accepts).Forward := by
  intro s r hr
  obtain ⟨hc, -⟩ := parse_accept_eq_ok_iff_consumes.1 hr
  exact ⟨_, hc⟩

/-- Up to a pattern the tokens before its first occurrence are consumed, and none of its own. -/
theorem forward_takeUntil [DecidableEq τ] [Describe τ] (pattern : List τ) : (takeUntil pattern).Forward := by
  intro s r hr
  rw [parse_takeUntil] at hr
  cases hk : firstOccurrence pattern s.rest with
  | none => simp [hk] at hr
  | some k =>
    simp only [hk] at hr
    exact forward_take k s r hr

/-- The end of the input is found without consuming anything. -/
theorem forward_endOfInput [Describe τ] : (endOfInput : Parser τ Unit).Forward := by
  intro s r hr
  obtain ⟨-, hremaining⟩ := parse_endOfInput_eq_ok_iff.1 hr
  rw [hremaining]
  exact ⟨[], Consumes.refl s⟩

/-! ## Combinators -/

/-- What a sequence consumes is what its first part does and then its second. -/
theorem Forward.bind {p : Parser τ α} {f : α → Parser τ β} (hp : p.Forward) (hf : ∀ a, (f a).Forward) :
    (p.bind f).Forward := by
  intro s r hr
  obtain ⟨r₁, h₁, h₂⟩ := parse_bind_eq_ok_iff.1 hr
  obtain ⟨ts, hc₁⟩ := hp s r₁ h₁
  obtain ⟨us, hc₂⟩ := hf r₁.value r₁.remaining r h₂
  exact ⟨ts ++ us, hc₁.trans hc₂⟩

/-- A function of the value consumes nothing. -/
theorem Forward.map (f : α → β) {p : Parser τ α} (hp : p.Forward) : (p.map f).Forward := by
  intro s r hr
  obtain ⟨r₁, h₁, rfl⟩ := parse_map_eq_ok_iff.1 hr
  exact hp s r₁ h₁

/-- What a pair consumes is what its parts do, one behind the other. -/
theorem Forward.both {p : Parser τ α} {q : Parser τ β} (hp : p.Forward) (hq : q.Forward) : (p.both q).Forward := by
  intro s r hr
  obtain ⟨r₁, r₂, h₁, h₂, rfl⟩ := parse_both_eq_ok_iff.1 hr
  obtain ⟨ts, hc₁⟩ := hp s r₁ h₁
  obtain ⟨us, hc₂⟩ := hq r₁.remaining r₂ h₂
  exact ⟨ts ++ us, hc₁.trans hc₂⟩

/-- The second choice starts where the first did, not where it gave up. -/
theorem Forward.orElse {p q : Parser τ α} (hp : p.Forward) (hq : q.Forward) : (p.orElse q).Forward := by
  intro s r hr
  rcases parse_orElse_eq_ok_iff.1 hr with h | ⟨-, h⟩
  · exact hp s r h
  · exact hq s r h

/-- An optional part that is absent consumes nothing. -/
theorem Forward.optional {p : Parser τ α} (hp : p.Forward) : p.optional.Forward := by
  intro s r hr
  rcases parse_optional_eq_ok_iff.1 hr with ⟨r₁, h₁, rfl⟩ | ⟨-, rfl⟩
  · exact hp s r₁ h₁
  · exact ⟨[], Consumes.refl s⟩

/-- A label does not change what is consumed. -/
theorem Forward.withLabel (l : String) {p : Parser τ α} (hp : p.Forward) : (p.withLabel l).Forward :=
  fun s r hr => hp s r (parse_withLabel_eq_ok_iff.1 hr)

/-- Nor does a function of the failure. -/
theorem Forward.mapFailure (f : Failure → Failure) {p : Parser τ α} (hp : p.Forward) : (p.mapFailure f).Forward :=
  fun s r hr => hp s r (parse_mapFailure_eq_ok_iff.1 hr)

/-- Nor does the span. -/
theorem Forward.spanned {p : Parser τ α} (hp : p.Forward) : p.spanned.Forward := by
  intro s r hr
  obtain ⟨r₁, h₁, rfl⟩ := parse_spanned_eq_ok_iff.1 hr
  exact hp s r₁ h₁

/-- Collecting matches moves forward: every match goes on where the one before it stopped. -/
theorem Forward.collect {p : Parser τ α} (hp : p.Forward) (untilIdle : Bool) (budget owed : Nat) (s : TokenStream τ) :
    ∃ ts, s.Consumes ts (p.collect untilIdle budget owed s).2 := by
  induction budget generalizing owed s with
  | zero => exact ⟨[], Consumes.refl s⟩
  | succ budget ih =>
    rw [Parser.collect]
    cases h : p.parse s with
    | error e => exact ⟨[], Consumes.refl s⟩
    | ok r =>
      obtain ⟨ts, hc⟩ := hp s r h
      obtain ⟨us, hc'⟩ := ih (owed - 1) r.remaining
      dsimp only
      split
      · exact ⟨ts, hc⟩
      · exact ⟨ts ++ us, hc.trans hc'⟩

/-- A repetition consumes what its matches do. -/
theorem Forward.repeated (minimum : Nat) (maximum : Option Nat) {p : Parser τ α} (hp : p.Forward) :
    (p.repeated minimum maximum).Forward := by
  intro s r hr
  obtain ⟨-, hcollect⟩ := parse_repeated_eq_ok_iff.1 hr
  have h := hp.collect maximum.isNone (maximum.getD (unboundedBudget minimum s)) minimum s
  rw [hcollect] at h
  exact h

/-- A literal consumes the characters it is made of. -/
theorem forward_literal (expected : String) : (literal expected).Forward := by
  rw [literal, bind_eq]
  refine (forward_take _).spanned.bind ?_
  rintro ⟨cs, span⟩
  dsimp only
  split
  · exact forward_succeed _
  · exact forward_of_fails fun s => ⟨_, rfl⟩

/-- Up to the text of a pattern the characters before it are consumed. -/
theorem forward_takeUntilText (pattern : String) : (takeUntilText pattern).Forward :=
  ((forward_takeUntil _).map _).mapFailure _

/-! ## Built parsers -/

/-- Every built parser moves forward, whichever ways it is made in. -/
theorem Built.forward {features : List Feature} {p : Parser τ α} (h : Built features p) : p.Forward := by
  induction h with
  | succeed a => exact forward_succeed a
  | zero => exact forward_of_fails fun s => ⟨_, parse_zero s⟩
  | fail message => exact forward_of_fails fun s => ⟨_, parse_fail message s⟩
  | unexpected found => exact forward_of_fails fun s => ⟨_, parse_unexpected found s⟩
  | reject _ f => exact forward_of_fails fun s => ⟨_, parse_reject f s⟩
  | anyToken => exact forward_anyToken
  | take n => exact forward_take n
  | accept label accepts => exact forward_accept label accepts
  | takeUntil pattern => exact forward_takeUntil pattern
  | endOfInput => exact forward_endOfInput
  | literal expected => exact forward_literal expected
  | takeUntilText pattern => exact forward_takeUntilText pattern
  | bind _ _ ihp ihf => exact ihp.bind ihf
  | map f _ ih => exact ih.map f
  | both _ _ ihp ihq => exact ihp.both ihq
  | orElse _ _ ihp ihq => exact ihp.orElse ihq
  | optional _ ih => exact ih.optional
  | repeated minimum maximum _ ih => exact ih.repeated minimum maximum
  | withLabel l _ ih => exact ih.withLabel l
  | mapFailure _ f _ ih => exact ih.mapFailure f
  | spanned _ _ ih => exact ih.spanned

/-- A built parser that succeeds leaves a stream over the same buffer, at a position from the one it started at up to
the end, and with it the tokens that were ahead, but for those in between. -/
theorem remaining_of_built {features : List Feature} {p : Parser τ α} (h : Built features p) {s : TokenStream τ}
    {r : Success τ α} (hr : p.parse s = .ok r) :
    r.remaining.buffer = s.buffer ∧ s.position ≤ r.remaining.position ∧ r.remaining.position ≤ s.buffer.size ∧
      r.remaining.rest = s.rest.drop (r.remaining.position - s.position) := by
  obtain ⟨ts, hc⟩ := h.forward s r hr
  refine ⟨hc.buffer_eq, Nat.le.intro hc.position_eq.symm, hc.buffer_eq ▸ r.remaining.position_le_size, ?_⟩
  rw [hc.position_eq, Nat.add_sub_cancel_left, hc.1, rest_advance]

/-- Characters in parentheses are read up to the closing one, and what is after it is left. -/
theorem remaining_of_built_in_parentheses :
    let s : TokenStream Char := ⟨#['b', '(', 'a', 'a', ')', 'b'], 1, by decide⟩
    ∃ r, (delimitedBy "(" (token '(') (token ')') (token 'a').many).parse s = .ok r ∧
      r.remaining.buffer = #['b', '(', 'a', 'a', ')', 'b'] ∧ 1 ≤ r.remaining.position ∧ r.remaining.position ≤ 6 ∧
      r.remaining.rest = ['(', 'a', 'a', ')', 'b'].drop (r.remaining.position - 1) := by
  intro s
  have hbuilt : Built [.mapFailure, .spanned] (delimitedBy "(" (token '(') (token ')') (token 'a').many) :=
    .delimitedBy (by simp) (by simp) _ (built_token _) (built_token _) (built_token _).many
  have hr : (delimitedBy "(" (token '(') (token ')') (token 'a').many).parse s = .ok ⟨['a', 'a'], s.advance 4⟩ := rfl
  exact ⟨_, hr, remaining_of_built hbuilt hr⟩

end TokenParsing.Parser
