import TokenParsing.Proofs.Parser.Outcomes

/-!
# Runs of accepted tokens

A parser of one accepted token, repeated, reads the longest run of accepted tokens ahead: no fewer, because it stops
only at a token that is not accepted, and no more. `Consumes` says what a parser has read as the list of tokens between
two streams, so that the runs of a sequence of parsers append.
-/

namespace TokenParsing

variable {τ : Type}

namespace TokenStream

/-- Exactly the given tokens stand between one stream and another. -/
def Consumes (s : TokenStream τ) (ts : List τ) (s' : TokenStream τ) : Prop :=
  s' = s.advance ts.length ∧ s.rest = ts ++ s'.rest

/-- Tokens that are ahead can be consumed. -/
theorem consumes_of_rest {s : TokenStream τ} {ts rest : List τ} (h : s.rest = ts ++ rest) :
    s.Consumes ts (s.advance ts.length) := by
  refine ⟨rfl, ?_⟩
  rw [rest_advance, h, List.drop_left]

/-- Stepping over the tokens that come first leaves those behind them. -/
theorem rest_advance_of_rest {s : TokenStream τ} {ts rest : List τ} (h : s.rest = ts ++ rest) :
    (s.advance ts.length).rest = rest := by
  rw [rest_advance, h, List.drop_left]

/-- What can be consumed is what the tokens ahead start with. -/
theorem consumes_iff_starts {s s' : TokenStream τ} {ts : List τ} :
    s.Consumes ts s' ↔ ts <+: s.rest ∧ s' = s.advance ts.length := by
  constructor
  · rintro ⟨hs', hrest⟩
    exact ⟨⟨s'.rest, hrest.symm⟩, hs'⟩
  · rintro ⟨⟨rest, hrest⟩, rfl⟩
    exact consumes_of_rest hrest.symm

/-- Consuming nothing is staying where one is. -/
theorem consumes_nil_iff {s s' : TokenStream τ} : s.Consumes [] s' ↔ s' = s := by
  constructor
  · rintro ⟨hs', -⟩
    rw [hs', List.length_nil, advance_zero]
  · rintro rfl
    exact ⟨s'.advance_zero.symm, rfl⟩

/-- No token stands between a stream and itself. -/
theorem Consumes.refl (s : TokenStream τ) : s.Consumes [] s :=
  consumes_nil_iff.2 rfl

/-- What is read one after the other is read together. -/
theorem Consumes.trans {s s₁ s₂ : TokenStream τ} {ts us : List τ} (h : s.Consumes ts s₁) (h' : s₁.Consumes us s₂) :
    s.Consumes (ts ++ us) s₂ := by
  obtain ⟨rfl, hr⟩ := h
  obtain ⟨rfl, hr'⟩ := h'
  refine ⟨?_, ?_⟩
  · rw [advance_advance, List.length_append]
  · rw [hr, hr', List.append_assoc]

/-- Tokens are consumed in parts. -/
theorem consumes_append_iff {s s' : TokenStream τ} {ts us : List τ} :
    s.Consumes (ts ++ us) s' ↔ ∃ s₁, s.Consumes ts s₁ ∧ s₁.Consumes us s' := by
  refine ⟨fun h => ?_, fun hright => ?_⟩
  · obtain ⟨rfl, hr⟩ := h
    rw [List.append_assoc] at hr
    refine ⟨s.advance ts.length, consumes_of_rest hr, ?_, ?_⟩
    · rw [advance_advance, List.length_append]
    · exact rest_advance_of_rest hr
  · obtain ⟨s₁, h, h'⟩ := hright
    exact h.trans h'

/-- The first token that is consumed is the next one. -/
theorem Consumes.head?_eq_some {s s' : TokenStream τ} {t : τ} {ts : List τ} (h : s.Consumes (t :: ts) s') :
    s.head? = some t := by
  rw [← head?_rest, h.2]
  rfl

/-- The tokens read and those still ahead are the tokens that were ahead. -/
theorem Consumes.length_eq {s s' : TokenStream τ} {ts : List τ} (h : s.Consumes ts s') :
    s.length = ts.length + s'.length := by
  rw [← length_rest, h.2, List.length_append, length_rest]

/-- The stream after consumed tokens is as many positions further. -/
theorem Consumes.position_eq {s s' : TokenStream τ} {ts : List τ} (h : s.Consumes ts s') :
    s'.position = s.position + ts.length := by
  rw [h.1, position_advance_of_le]
  exact Nat.le.intro h.length_eq.symm

/-- Fewer tokens are ahead of a later position. -/
theorem Consumes.length_lt {s s' : TokenStream τ} {ts : List τ} (h : s.Consumes ts s')
    (hlater : s.position < s'.position) : s'.length < s.length := by
  have hposition := h.position_eq
  have hlength := h.length_eq
  omega

/-- Reading leaves the buffer as it is. -/
theorem Consumes.buffer_eq {s s' : TokenStream τ} {ts : List τ} (h : s.Consumes ts s') : s'.buffer = s.buffer := by
  rw [h.1, buffer_advance]

/-- The next token can be consumed. -/
theorem consumes_of_head? {s : TokenStream τ} {t : τ} (h : s.head? = some t) : s.Consumes [t] (s.advance 1) :=
  ⟨rfl, (head?_eq_some_iff s t).1 h⟩

/-- Tokens are taken by their number. -/
theorem take_eq_ok_iff {s s' : TokenStream τ} {us : List τ} {n : Nat} :
    s.take n = .ok (us, s') ↔ s.Consumes us s' ∧ us.length = n := by
  rw [take_eq]
  by_cases h : s.length < n
  · rw [if_pos h]
    constructor
    · intro hleft
      cases hleft
    · rintro ⟨hconsumes, hn⟩
      have hlength := hconsumes.length_eq
      omega
  · rw [if_neg h, Except.ok.injEq, Prod.mk.injEq]
    have hlength : (s.rest.take n).length = n := by
      rw [List.length_take, length_rest]
      omega
    constructor
    · rintro ⟨rfl, rfl⟩
      have hconsumes := consumes_of_rest (List.take_append_drop n s.rest).symm
      rw [hlength] at hconsumes
      exact ⟨hconsumes, hlength⟩
    · rintro ⟨⟨hadvance, hrest⟩, rfl⟩
      exact ⟨by rw [hrest, List.take_left], hadvance.symm⟩

end TokenStream

open TokenStream

/-- The list is empty, or its first token is not accepted. -/
def StopsAt (accepts : τ → Bool) (ts : List τ) : Prop :=
  ∀ t, ts.head? = some t → accepts t = false

theorem stopsAt_nil (accepts : τ → Bool) : StopsAt accepts [] :=
  fun _ h => (nomatch h)

theorem stopsAt_cons {accepts : τ → Bool} {t : τ} (h : accepts t = false) (ts : List τ) :
    StopsAt accepts (t :: ts) := by
  intro t' ht
  cases ht
  exact h

/-- A run that stops before a list stops before the beginning of it. -/
theorem StopsAt.of_append {accepts : τ → Bool} {ts us : List τ} (h : StopsAt accepts (ts ++ us)) :
    StopsAt accepts ts := by
  intro t ht
  refine h t ?_
  rw [List.head?_append, ht, Option.some_or]

/-- What follows the longest run of accepted tokens is not accepted. -/
theorem stopsAt_dropWhile (accepts : τ → Bool) (ts : List τ) : StopsAt accepts (ts.dropWhile accepts) := by
  intro t ht
  have h := List.head?_dropWhile_not accepts ts
  rw [ht] at h
  simpa using h

/-- The longest run of accepted tokens is told by the token after it. -/
theorem takeWhile_append_of_stopsAt {accepts : τ → Bool} {ts rest : List τ} (h : ∀ t ∈ ts, accepts t = true)
    (hr : StopsAt accepts rest) : (ts ++ rest).takeWhile accepts = ts := by
  rw [List.takeWhile_append_of_pos h]
  cases rest with
  | nil => simp
  | cons t rest => simp [hr t rfl]

/-- A list stops at once exactly where its longest run of accepted tokens is empty. -/
theorem stopsAt_iff_takeWhile_eq_nil {accepts : τ → Bool} {ts : List τ} :
    StopsAt accepts ts ↔ ts.takeWhile accepts = [] := by
  unfold StopsAt
  cases ts with
  | nil => simp
  | cons t ts => cases h : accepts t <;> simp [h]

/-- Behind accepted tokens and a stop, the rest is what the accepted tokens are dropped from. -/
theorem dropWhile_append_of_stopsAt {accepts : τ → Bool} {ts rest : List τ} (h : ∀ t ∈ ts, accepts t = true)
    (hr : StopsAt accepts rest) : (ts ++ rest).dropWhile accepts = rest := by
  rw [List.dropWhile_append_of_pos h]
  cases rest with
  | nil => rfl
  | cons t rest => simp [hr t rfl]

namespace Parser

/-- Tokens are read by their number. -/
theorem parse_take_eq_ok_iff {s : TokenStream τ} {n : Nat} {r : Success τ (List τ)} :
    (take n).parse s = .ok r ↔ s.Consumes r.value r.remaining ∧ r.value.length = n := by
  obtain ⟨us, s'⟩ := r
  rw [← take_eq_ok_iff, parse_of_label_eq_none rfl s]
  simp only [take]
  cases s.take n <;> simp [Prod.ext_iff]

variable [Describe τ] {label : String} {accepts : τ → Bool}

/-- Collecting accepted tokens gives the longest run of them, cut at the budget. A match always reads a token, so it is
never the match without progress that would end the collection early. -/
theorem collect_accept (untilIdle : Bool) (budget owed : Nat) (s : TokenStream τ) :
    (accept label accepts).collect untilIdle budget owed s =
      ((s.rest.take budget).takeWhile accepts, s.advance ((s.rest.take budget).takeWhile accepts).length) := by
  induction budget generalizing owed s with
  | zero => simp [collect]
  | succ budget ih =>
    rw [collect, parse_accept]
    cases hs : s.head? with
    | none =>
      rw [(head?_eq_none_iff s).1 hs]
      simp
    | some t =>
      have hrest : s.rest = t :: (s.advance 1).rest := (head?_eq_some_iff s t).1 hs
      by_cases ht : accepts t = true
      · have hp : ¬(s.advance 1).position ≤ s.position := by
          rw [position_advance_of_head? hs]
          exact Nat.not_succ_le_self _
        simp only [ht, if_true, hp, decide_false, Bool.and_false, Bool.false_and, Bool.false_eq_true, if_false]
        rw [ih, hrest, List.take_succ_cons, List.takeWhile_cons_of_pos ht]
        simp [Nat.add_comm]
      · rw [hrest, List.take_succ_cons, List.takeWhile_cons_of_neg ht]
        simp [ht]

/-- An unbounded repetition of a one-token parser collects the longest run of accepted tokens. -/
theorem collect_accept_unbounded (minimum owed : Nat) (s : TokenStream τ) :
    (accept label accepts).collect true (unboundedBudget minimum s) owed s =
      (s.rest.takeWhile accepts, s.advance (s.rest.takeWhile accepts).length) := by
  have h : s.rest.take (unboundedBudget minimum s) = s.rest := by
    apply List.take_of_length_le
    rw [length_rest, unboundedBudget]
    omega
  rw [collect_accept, h]

/-- A run is read when its tokens are accepted, the token after it is not, and it is long enough. -/
theorem parse_repeated_accept_eq_ok_iff {minimum : Nat} {s : TokenStream τ} {r : Success τ (List τ)} :
    ((accept label accepts).repeated minimum none).parse s = .ok r ↔
      s.Consumes r.value r.remaining ∧ (∀ t ∈ r.value, accepts t = true) ∧ StopsAt accepts r.remaining.rest ∧
        minimum ≤ r.value.length := by
  obtain ⟨ts, s'⟩ := r
  rw [parse_repeated_eq_ok_iff]
  show minimum ≤ ts.length ∧
    (accept label accepts).collect true (unboundedBudget minimum s) minimum s = (ts, s') ↔ _
  rw [collect_accept_unbounded]
  refine ⟨fun hleft => ?_, fun hright => ?_⟩
  · obtain ⟨hmin, h⟩ := hleft
    cases h
    refine ⟨consumes_of_rest List.takeWhile_append_dropWhile.symm, fun t ht => ?_, ?_, hmin⟩
    · exact List.all_eq_true.mp List.all_takeWhile t ht
    · rw [rest_advance_of_rest (List.takeWhile_append_dropWhile (p := accepts)).symm]
      exact stopsAt_dropWhile accepts s.rest
  · obtain ⟨⟨hadv, hrest⟩, hall, hstop, hmin⟩ := hright
    dsimp only at hadv hrest hall hstop
    subst hadv
    have h : s.rest.takeWhile accepts = ts := by
      rw [hrest]
      exact takeWhile_append_of_stopsAt hall hstop
    exact ⟨hmin, by rw [h]⟩

/-- A run without a minimum can be read anywhere: it may be empty. -/
theorem exists_parse_many_accept (s : TokenStream τ) : ∃ r, (accept label accepts).many.parse s = .ok r := by
  have h : s.rest = s.rest.takeWhile accepts ++ s.rest.dropWhile accepts := List.takeWhile_append_dropWhile.symm
  refine ⟨⟨s.rest.takeWhile accepts, s.advance (s.rest.takeWhile accepts).length⟩,
    parse_repeated_accept_eq_ok_iff.2 ⟨consumes_of_rest h, ?_, ?_, Nat.zero_le _⟩⟩
  · intro t ht
    exact List.all_eq_true.mp List.all_takeWhile t ht
  · rw [rest_advance_of_rest h]
    exact stopsAt_dropWhile accepts s.rest

/-- A one-token parser reads exactly one token, which it accepts. -/
theorem parse_accept_eq_ok_iff_consumes {s : TokenStream τ} {r : Success τ τ} :
    (accept label accepts).parse s = .ok r ↔ s.Consumes [r.value] r.remaining ∧ accepts r.value = true := by
  rw [parse_accept_eq_ok_iff, head?_eq_some_iff]
  refine ⟨fun h => ?_, fun h => ?_⟩
  · obtain ⟨hrest, hacc, hadv⟩ := h
    exact ⟨⟨hadv, by rw [hadv]; exact hrest⟩, hacc⟩
  · obtain ⟨⟨hadv, hrest⟩, hacc⟩ := h
    have hadv' : r.remaining = s.advance 1 := hadv
    exact ⟨by rw [← hadv']; exact hrest, hacc, hadv'⟩

/-- A parser of one token fails exactly where the next token is not accepted, or none is ahead. -/
theorem parse_accept_eq_error_iff {s : TokenStream τ} :
    (∃ e, (accept label accepts).parse s = .error e) ↔ StopsAt accepts s.rest := by
  rw [parse_accept, StopsAt, head?_rest]
  cases s.head? with
  | none => simp
  | some t => cases ht : accepts t <;> simp [ht]

end Parser

end TokenParsing
