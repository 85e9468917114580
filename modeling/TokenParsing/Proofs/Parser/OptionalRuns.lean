import TokenParsing.Proofs.Parser.Consuming

/-!
# Repeating an optional parser

Where `p` no longer matches, `p.optional` still does, without reading anything, so a repetition of it never fails. It
makes the matches that a repetition of `p` makes, and behind them as many empty ones as the minimum still asks for, but
always one: it takes an empty match to see that there is no other (`repeated_optional_of_consuming`).
-/

namespace TokenParsing.Parser

open TokenParsing.TokenStream

variable {τ α : Type} {p : Parser τ α} {s : TokenStream τ}

/-- An optional parser gives the value that its parser reads. -/
theorem parse_optional_of_ok {r : Success τ α} (h : p.parse s = .ok r) : p.optional.parse s = .ok (r.map some) := by
  rw [parse_optional, h]

/-- Where its parser fails, it succeeds without a value and reads nothing. -/
theorem parse_optional_of_error {e : Failure} (h : p.parse s = .error e) : p.optional.parse s = .ok ⟨none, s⟩ := by
  rw [parse_optional, h]

/-- Where the parser does not match, the loop over the optional one makes the empty matches that are owed, and one if
none is. -/
theorem collect_optional_of_error {e : Failure} (h : p.parse s = .error e) {budget owed : Nat}
    (hb : max 1 owed ≤ budget) :
    p.optional.collect true budget owed s = (List.replicate (max 1 owed) none, s) := by
  have hempty := parse_optional_of_error h
  induction budget generalizing owed with
  | zero => omega
  | succ budget ih =>
    by_cases howed : owed ≤ 1
    · have hone : max 1 owed = 1 := by omega
      rw [collect_of_idle hempty (Nat.le_refl _) howed, hone]
      rfl
    · have hmore : max 1 owed = max 1 (owed - 1) + 1 := by omega
      have hrest : p.optional.collect true budget (owed - 1) s = (List.replicate (max 1 (owed - 1)) none, s) :=
        ih (by omega)
      rw [collect_of_not_idle hempty (fun hidle => howed hidle.2.2), hrest, hmore, List.replicate_succ]

/-- The loop over the optional parser makes the matches of the loop over the parser, and then the empty ones. -/
theorem Consuming.collect_optional (hp : p.Consuming) {budget owed : Nat}
    (hb : s.length + max 1 owed ≤ budget) :
    p.optional.collect true budget owed s =
      let c := p.collect false budget 0 s
      (c.1.map some ++ List.replicate (max 1 (owed - c.1.length)) none, c.2) := by
  induction budget generalizing s owed with
  | zero => omega
  | succ budget ih =>
    cases hr : p.parse s with
    | error e =>
      rw [collect_optional_of_error hr (by omega), collect_of_error hr]
      rfl
    | ok r =>
      obtain ⟨-, hforward⟩ := hp s r hr
      have hlt := hp.length_lt hr
      have hbudget : r.remaining.length + max 1 (owed - 1) ≤ budget := by omega
      have hrest := ih hbudget
      rw [collect_of_progress (parse_optional_of_ok hr) hforward, collect_of_progress hr hforward, Nat.zero_sub]
      dsimp only [Success.map]
      rw [hrest]
      simp only [List.map_cons, List.cons_append, List.length_cons]
      rw [Nat.sub_sub, Nat.add_comm 1]

/-- A repetition of an optional parser never fails: it answers the values of a repetition of the parser itself, and
behind them empty matches up to the minimum, and at least one. It leaves off where the other repetition does. -/
theorem repeated_optional_of_consuming (hp : p.Consuming) (minimum : Nat) :
    ∃ vs s', (p.repeated 0 none).parse s = .ok ⟨vs, s'⟩ ∧
      (p.optional.repeated minimum none).parse s =
        .ok ⟨vs.map some ++ List.replicate (max 1 (minimum - vs.length)) none, s'⟩ := by
  have hbudget : s.length + max 1 minimum ≤ unboundedBudget minimum s := by
    unfold unboundedBudget
    omega
  have hcollect := hp.collect_optional hbudget
  have hmatches : p.collect false (unboundedBudget minimum s) 0 s = p.collect false s.length 0 s :=
    hp.collect_eq_of_length_le (by omega) (Nat.le_refl _)
  rw [hmatches] at hcollect
  refine ⟨_, _, hp.parse_repeated_zero none, parse_repeated_eq_ok_iff.2 ⟨?_, hcollect⟩⟩
  rw [List.length_append, List.length_map, List.length_replicate, Option.getD_none]
  omega

/-- Two characters are read, and two of the four matches asked for read nothing. -/
theorem repeated_optional_of_two_characters :
    let s := ofList ['a', 'a', 'b']
    ((token 'a').repeated 0 none).parse s = .ok ⟨['a', 'a'], s.advance 2⟩ ∧
      ((token 'a').optional.repeated 4 none).parse s = .ok ⟨[some 'a', some 'a', none, none], s.advance 2⟩ := by
  intro s
  have hp : (token 'a').Consuming := consuming_accept _ _
  have htwo : ((token 'a').repeated 0 none).parse s = .ok ⟨['a', 'a'], s.advance 2⟩ := rfl
  obtain ⟨vs, s', hmany, hoptional⟩ := repeated_optional_of_consuming hp 4
  cases htwo.symm.trans hmany
  exact ⟨htwo, hoptional⟩

end TokenParsing.Parser
