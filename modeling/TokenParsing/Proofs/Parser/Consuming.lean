import TokenParsing.Proofs.Parser.Matches

/-!
# Repeating a parser that reads something

A parser whose every match reads a token cannot match more often than there are tokens ahead, so no match is ever idle.
Then the ways in which a repetition may end come down to one: the loop makes the same matches whether it has a maximum
or not and whatever it owes (`Consuming.collect_eq`), and a budget beyond the tokens ahead adds nothing
(`Consuming.collect_eq_of_length_le`). What a loop does in two budgets, one after the other, it does in their sum
(`collect_add`), and a budget that is used up is that many matches in turn (`parse_times_eq_ok_iff`).
-/

namespace TokenParsing.Parser

open TokenParsing.TokenStream

variable {τ α β : Type} {p : Parser τ α} {s : TokenStream τ} {r : Success τ α}

/-! ## Parsers that read something -/

/-- A parser that stays in the buffer it is run on and reads at least one token. -/
def Consuming (p : Parser τ α) : Prop :=
  ∀ s r, p.parse s = .ok r → r.remaining.buffer = s.buffer ∧ s.position < r.remaining.position

theorem Consuming.onward (hp : p.Consuming) : p.Onward := by
  intro s r hr
  obtain ⟨hbuffer, hforward⟩ := hp s r hr
  exact ⟨hbuffer, Nat.le_of_lt hforward⟩

/-- A parser that leaves the stream after tokens that were ahead reads something if these are not none. -/
theorem consuming_of_consumes (h : ∀ s r, p.parse s = .ok r → ∃ t ts, s.Consumes (t :: ts) r.remaining) :
    p.Consuming := by
  intro s r hr
  obtain ⟨t, ts, hc⟩ := h s r hr
  have hposition := hc.position_eq
  rw [List.length_cons] at hposition
  exact ⟨hc.buffer_eq, by omega⟩

theorem consuming_accept [Describe τ] (label : String) (accepts : τ → Bool) : (accept label accepts).Consuming :=
  consuming_of_consumes fun _ r hr => ⟨r.value, [], (parse_accept_eq_ok_iff_consumes.1 hr).1⟩

/-- Reading something and then going on reads something. -/
theorem Consuming.both (hp : p.Consuming) {q : Parser τ β} (hq : q.Onward) : (p.both q).Consuming := by
  intro s r hr
  obtain ⟨r₁, r₂, h₁, h₂, rfl⟩ := parse_both_eq_ok_iff.1 hr
  obtain ⟨hbuffer, hforward⟩ := hp s r₁ h₁
  obtain ⟨hbuffer', hforward'⟩ := hq r₁.remaining r₂ h₂
  exact ⟨hbuffer'.trans hbuffer, Nat.lt_of_lt_of_le hforward hforward'⟩

/-- Every match leaves fewer tokens ahead. -/
theorem Consuming.length_lt (hp : p.Consuming) (hr : p.parse s = .ok r) :
    r.remaining.length < s.length := by
  obtain ⟨hbuffer, hforward⟩ := hp s r hr
  have hsize := s.position_add_length
  have hsize' := r.remaining.position_add_length
  rw [hbuffer] at hsize'
  omega

/-- Where no token is ahead there is nothing to read. -/
theorem Consuming.exists_error (hp : p.Consuming) (hlength : s.length = 0) :
    ∃ e, p.parse s = .error e := by
  cases hr : p.parse s with
  | error e => exact ⟨e, rfl⟩
  | ok r =>
    have := hp.length_lt hr
    omega

/-! ## The loop -/

/-- A loop that does not end at idle matches owes nothing that it looks at. -/
theorem collect_owed (p : Parser τ α) (budget owed owed' : Nat) (s : TokenStream τ) :
    p.collect false budget owed s = p.collect false budget owed' s := by
  induction budget generalizing owed owed' s with
  | zero => rfl
  | succ budget ih =>
    unfold collect
    cases p.parse s with
    | error e => rfl
    | ok r => simp only [Bool.false_and, Bool.false_eq_true, if_false, ih (owed - 1) (owed' - 1)]

/-- The matches of a parser that reads something do not depend on what else may end the loop. -/
theorem Consuming.collect_eq (hp : p.Consuming) (untilIdle : Bool)
    (budget owed : Nat) : p.collect untilIdle budget owed s = p.collect false budget 0 s := by
  induction budget generalizing owed s with
  | zero => rfl
  | succ budget ih =>
    cases hr : p.parse s with
    | error e => rw [collect_of_error hr, collect_of_error hr]
    | ok r =>
      obtain ⟨-, hforward⟩ := hp s r hr
      rw [collect_of_progress hr hforward, collect_of_progress hr hforward, Nat.zero_sub,
        ih]

theorem Consuming.collect_of_length_eq_zero (hp : p.Consuming) (hlength : s.length = 0) (budget : Nat) :
    p.collect false budget 0 s = ([], s) := by
  obtain ⟨e, he⟩ := hp.exists_error hlength
  cases budget with
  | zero => rfl
  | succ budget => exact collect_of_error he _ _ _

/-- A budget of one match for every token ahead is as good as any larger one. -/
theorem Consuming.collect_eq_of_length_le (hp : p.Consuming) {budget budget' : Nat}
    (h : s.length ≤ budget) (h' : s.length ≤ budget') : p.collect false budget 0 s = p.collect false budget' 0 s := by
  induction budget generalizing budget' s with
  | zero => rw [hp.collect_of_length_eq_zero (by omega), hp.collect_of_length_eq_zero (by omega)]
  | succ budget ih =>
    cases budget' with
    | zero => rw [hp.collect_of_length_eq_zero (by omega), hp.collect_of_length_eq_zero (by omega)]
    | succ budget' =>
      cases hr : p.parse s with
      | error e => rw [collect_of_error hr, collect_of_error hr]
      | ok r =>
        obtain ⟨-, hforward⟩ := hp s r hr
        have hlt := hp.length_lt hr
        have hrest : p.collect false budget 0 r.remaining = p.collect false budget' 0 r.remaining :=
          ih (by omega) (by omega)
        rw [collect_of_progress hr hforward, collect_of_progress hr hforward, Nat.zero_sub, hrest]

/-- A loop with two budgets, the second from where the first left off, is a loop with their sum. -/
theorem collect_add (p : Parser τ α) (a b : Nat) (s : TokenStream τ) :
    p.collect false (a + b) 0 s =
      ((p.collect false a 0 s).1 ++ (p.collect false b 0 (p.collect false a 0 s).2).1,
        (p.collect false b 0 (p.collect false a 0 s).2).2) := by
  induction a generalizing s with
  | zero => rw [Nat.zero_add]; rfl
  | succ a ih =>
    rw [Nat.add_right_comm]
    cases hr : p.parse s with
    | error e =>
      -- the second loop stands where the first one failed
      have hstays : p.collect false b 0 s = ([], s) := by
        cases b with
        | zero => rfl
        | succ b => exact collect_of_error hr _ _ _
      rw [collect_of_error hr, collect_of_error hr, hstays]
      rfl
    | ok r =>
      have hgoesOn : ¬(false = true ∧ r.remaining.position ≤ s.position ∧ 0 ≤ 1) := fun h => nomatch h.1
      rw [collect_of_not_idle hr hgoesOn, collect_of_not_idle hr hgoesOn, Nat.zero_sub, ih]
      rfl

theorem length_collect_le (p : Parser τ α) (budget : Nat) (s : TokenStream τ) :
    (p.collect false budget 0 s).1.length ≤ budget := by
  induction budget generalizing s with
  | zero => exact Nat.le_refl 0
  | succ budget ih =>
    unfold collect
    cases p.parse s with
    | error e => exact Nat.zero_le _
    | ok r => exact Nat.succ_le_succ (ih r.remaining)

/-- A loop stays in the buffer and does not go back. -/
theorem Onward.collect (hp : p.Onward) (budget : Nat) :
    (p.collect false budget 0 s).2.buffer = s.buffer ∧ s.position ≤ (p.collect false budget 0 s).2.position := by
  induction budget generalizing s with
  | zero => exact ⟨rfl, Nat.le_refl _⟩
  | succ budget ih =>
    unfold Parser.collect
    cases hr : p.parse s with
    | error e => exact ⟨rfl, Nat.le_refl _⟩
    | ok r =>
      obtain ⟨hbuffer, hforward⟩ := hp s r hr
      obtain ⟨hbuffer', hforward'⟩ := ih (s := r.remaining)
      exact ⟨hbuffer'.trans hbuffer, Nat.le_trans hforward hforward'⟩

/-- A repetition of a parser that reads something answers the matches in a budget of its maximum or, where there is
none, of the tokens ahead. -/
theorem Consuming.parse_repeated (hp : p.Consuming) (minimum : Nat)
    (maximum : Option Nat) :
    (p.repeated minimum maximum).parse s =
      let c := p.collect false (maximum.getD s.length) 0 s
      if c.1.length < minimum then .error (.single (.tooFew minimum c.1.length) (.single c.2.position) none)
      else .ok ⟨c.1, c.2⟩ := by
  have hcollect : p.collect maximum.isNone (maximum.getD (unboundedBudget minimum s)) minimum s =
      p.collect false (maximum.getD s.length) 0 s := by
    rw [hp.collect_eq]
    cases maximum with
    | none => exact hp.collect_eq_of_length_le (Nat.le_of_lt (length_lt_unboundedBudget minimum s)) (Nat.le_refl _)
    | some n => rfl
  rw [Parser.parse_repeated, hcollect]

/-- A repetition that need not match succeeds. -/
theorem Consuming.parse_repeated_zero (hp : p.Consuming) (maximum : Option Nat) :
    (p.repeated 0 maximum).parse s =
      .ok ⟨(p.collect false (maximum.getD s.length) 0 s).1, (p.collect false (maximum.getD s.length) 0 s).2⟩ := by
  rw [hp.parse_repeated]
  exact if_neg (Nat.not_lt_zero _)

/-- After some matches of a loop, the matches that are left are those of a loop without a maximum from there. -/
theorem Consuming.collect_add_length (hp : p.Consuming) (a : Nat) :
    p.collect false s.length 0 s =
      ((p.collect false a 0 s).1 ++
          (p.collect false (p.collect false a 0 s).2.length 0 (p.collect false a 0 s).2).1,
        (p.collect false (p.collect false a 0 s).2.length 0 (p.collect false a 0 s).2).2) := by
  obtain ⟨hbuffer, hforward⟩ := hp.onward.collect (s := s) a
  have hlength : (p.collect false a 0 s).2.length ≤ s.length := by
    unfold TokenStream.length
    rw [hbuffer]
    omega
  rw [hp.collect_eq_of_length_le (Nat.le_refl _) (Nat.le_add_left s.length a), collect_add,
    hp.collect_eq_of_length_le hlength (Nat.le_refl _)]

/-! ## A number of matches in turn -/

/-- Reads with `p` exactly `n` times, each time with one more parser put in sequence. -/
def times (p : Parser τ α) : Nat → Parser τ (List α)
  | 0 => succeed []
  | n + 1 => ((p.times n).both p).map fun (vs, v) => vs ++ [v]

/-- A loop with one match to make. -/
theorem collect_one (p : Parser τ α) (s : TokenStream τ) :
    p.collect false 1 0 s =
      match p.parse s with
      | .error _ => ([], s)
      | .ok r => ([r.value], r.remaining) := by
  unfold collect
  cases p.parse s <;> rfl

/-- Matches in turn are those of a loop that uses up its budget. -/
theorem parse_times_eq_ok_iff {n : Nat} {r : Success τ (List α)} :
    (p.times n).parse s = .ok r ↔ p.collect false n 0 s = (r.value, r.remaining) ∧ r.value.length = n := by
  obtain ⟨vs, s'⟩ := r
  induction n generalizing vs s' with
  | zero =>
    rw [times, parse_succeed_eq_ok_iff, Success.mk.injEq, collect, Prod.mk.injEq]
    refine ⟨fun hleft => ?_, fun hright => ?_⟩
    · obtain ⟨rfl, rfl⟩ := hleft
      exact ⟨⟨rfl, rfl⟩, rfl⟩
    · obtain ⟨⟨rfl, rfl⟩, -⟩ := hright
      exact ⟨rfl, rfl⟩
  | succ n ih =>
    have hfirst := length_collect_le p n s
    rw [times, parse_map_eq_ok_iff, collect_add, collect_one]
    refine ⟨fun hleft => ?_, fun hright => ?_⟩
    · obtain ⟨r₁, hboth, hr⟩ := hleft
      obtain ⟨⟨us, s₁⟩, r₂, htimes, hlast, rfl⟩ := parse_both_eq_ok_iff.1 hboth
      obtain ⟨hcollect, hlength⟩ := (ih us s₁).1 htimes
      cases hr
      dsimp only at hlast hlength
      rw [hcollect]
      dsimp only
      rw [hlast]
      exact ⟨rfl, by rw [List.length_append, hlength]; rfl⟩
    · obtain ⟨hcollect, hlength⟩ := hright
      cases hlast : p.parse (p.collect false n 0 s).2 with
      | error e =>
        -- without the last match there are too few
        rw [hlast, Prod.mk.injEq, List.append_nil] at hcollect
        obtain ⟨rfl, -⟩ := hcollect
        dsimp only at hlength
        omega
      | ok r₂ =>
        rw [hlast, Prod.mk.injEq] at hcollect
        obtain ⟨rfl, rfl⟩ := hcollect
        have hbefore : (p.collect false n 0 s).1.length = n := by
          rw [List.length_append] at hlength
          exact Nat.succ.inj hlength
        have htimes := (ih _ _).2 ⟨rfl, hbefore⟩
        exact ⟨_, parse_both_eq_ok_iff.2 ⟨_, r₂, htimes, hlast, rfl⟩, rfl⟩

/-! ## Laws of repetition -/

/-- For a parser that reads something, a maximum of at least the tokens ahead is none; a repetition with a maximum and
then another one read what a repetition with the sum of their maxima reads; and as many matches as the minimum and the
maximum both say are as many parsers in sequence. -/
theorem repeated_of_consuming (hp : p.Consuming) :
    (∀ m n, s.length ≤ n → (p.repeated m (some n)).parse s = (p.repeated m none).parse s) ∧
      (∀ a b, ∃ r₁ r₂, (p.repeated 0 (some a)).parse s = .ok r₁ ∧ (p.repeated 0 b).parse r₁.remaining = .ok r₂ ∧
        (p.repeated 0 (b.map (a + ·))).parse s = .ok ⟨r₁.value ++ r₂.value, r₂.remaining⟩) ∧
      ∀ k r, (p.repeated k (some k)).parse s = .ok r ↔ (p.times k).parse s = .ok r := by
  refine ⟨?_, ?_, ?_⟩
  · intro m n hn
    rw [hp.parse_repeated, hp.parse_repeated, Option.getD_some, Option.getD_none,
      hp.collect_eq_of_length_le hn (Nat.le_refl _)]
  · intro a b
    refine ⟨_, _, hp.parse_repeated_zero (some a), hp.parse_repeated_zero b, ?_⟩
    rw [hp.parse_repeated_zero]
    cases b with
    | none => rw [Option.map_none, Option.getD_none, hp.collect_add_length a]; rfl
    | some n => rw [Option.map_some, Option.getD_some, collect_add]; rfl
  · intro k r
    rw [parse_repeated_eq_ok_iff, parse_times_eq_ok_iff, Option.isNone_some, Option.getD_some, collect_owed p k k 0]
    have hle := length_collect_le p k s
    refine ⟨fun hleft => ?_, fun hright => ?_⟩
    · obtain ⟨hlength, hcollect⟩ := hleft
      rw [hcollect] at hle
      exact ⟨hcollect, Nat.le_antisymm hle hlength⟩
    · obtain ⟨hcollect, hlength⟩ := hright
      exact ⟨Nat.le_of_eq hlength.symm, hcollect⟩

/-- Pairs of characters, of which there are two and the first character of a third. -/
theorem repeated_of_consuming_of_pairs :
    let pair := (token 'a').both (token 'b')
    let s := ofList ['a', 'b', 'a', 'b', 'a']
    (pair.repeated 3 (some 5)).parse s = (pair.repeated 3 none).parse s ∧
      (∃ r₁ r₂, (pair.repeated 0 (some 1)).parse s = .ok r₁ ∧ (pair.repeated 0 none).parse r₁.remaining = .ok r₂ ∧
        (pair.repeated 0 none).parse s = .ok ⟨r₁.value ++ r₂.value, r₂.remaining⟩) ∧
      (pair.times 2).parse s = .ok ⟨[('a', 'b'), ('a', 'b')], s.advance 4⟩ := by
  intro pair s
  have hp : pair.Consuming := (consuming_accept _ _).both (consuming_accept _ _).onward
  obtain ⟨hmaximum, hsum, htimes⟩ := repeated_of_consuming hp (s := s)
  exact ⟨hmaximum 3 5 (by decide), hsum 1 none, (htimes 2 _).1 rfl⟩

end TokenParsing.Parser
