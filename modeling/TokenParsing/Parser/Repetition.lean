import TokenParsing.Parser.Choice

/-!
# Repetition

Reading with the same parser again and again. A repetition ends at the first failure, at its maximum, or, when it has
no maximum, at a match that reads nothing once the minimum is met; so it ends on every stream, also for a parser that
succeeds without reading anything.
-/

namespace TokenParsing.Parser

variable {τ α β : Type}

/-- The values of repeated matches from a stream, and the stream after them. At most `budget` matches are made; `owed`
is the number of them still missing from the minimum. With `untilIdle`, a match that reads nothing is the last one
unless more than that one is owed. -/
def collect (p : Parser τ α) (untilIdle : Bool) : (budget owed : Nat) → TokenStream τ → List α × TokenStream τ
  | 0, _, s => ([], s)
  | budget + 1, owed, s =>
    match p.parse s with
    | .error _ => ([], s)
    | .ok r =>
      if untilIdle && r.remaining.position ≤ s.position && owed ≤ 1 then
        ([r.value], r.remaining)
      else
        let (vs, s') := p.collect untilIdle budget (owed - 1) r.remaining
        (r.value :: vs, s')

/-- The matches that a repetition without a maximum may need: one for each token, the minimum of them, and one that
ends it. -/
def unboundedBudget (minimum : Nat) (s : TokenStream τ) : Nat :=
  s.length + minimum + 1

/-- Reads with `p` at least `minimum` times and at most `maximum` times, if there is a maximum, and as often as
possible. Too few matches are a failure at the token after the last of them. -/
def repeated (minimum : Nat) (maximum : Option Nat) (p : Parser τ α) : Parser τ (List α) where
  attempt s :=
    let (vs, s') := p.collect maximum.isNone (maximum.getD (unboundedBudget minimum s)) minimum s
    if vs.length < minimum then
      .error (.of (.tooFew minimum vs.length) (.single s'.position))
    else
      .ok ⟨vs, s'⟩

/-- Reads with `p` as often as possible. -/
def many (p : Parser τ α) : Parser τ (List α) :=
  p.repeated 0 none

/-- Reads with `p` as often as possible, at least once. -/
def many1 (p : Parser τ α) : Parser τ (List α) :=
  p.repeated 1 none

/-- Folds the items of a chain onto its first element, from left to right. -/
def fold (f : α → β → α) (p : Parser τ (α × List β)) : Parser τ α :=
  p.map fun (first, items) => items.foldl f first

/-- A repetition answers by the values collected and the stream after them. -/
theorem parse_repeated (minimum : Nat) (maximum : Option Nat) (p : Parser τ α) (s : TokenStream τ) :
    (p.repeated minimum maximum).parse s =
      let c := p.collect maximum.isNone (maximum.getD (unboundedBudget minimum s)) minimum s
      if c.1.length < minimum then
        .error (.single (.tooFew minimum c.1.length) (.single c.2.position) none)
      else
        .ok ⟨c.1, c.2⟩ :=
  parse_of_label_eq_none rfl s

/-- Collecting ends where there is no match. -/
theorem collect_of_error {p : Parser τ α} {s : TokenStream τ} {e : Failure} (h : p.parse s = .error e)
    (untilIdle : Bool) (budget owed : Nat) : p.collect untilIdle (budget + 1) owed s = ([], s) := by
  rw [collect, h]

/-- Collecting goes on after a match, unless it may end at a match that has read nothing when no more than that one is
owed. -/
theorem collect_of_not_idle {p : Parser τ α} {s : TokenStream τ} {r : Success τ α} (h : p.parse s = .ok r)
    {untilIdle : Bool} {owed : Nat} (hidle : ¬(untilIdle = true ∧ r.remaining.position ≤ s.position ∧ owed ≤ 1))
    (budget : Nat) :
    p.collect untilIdle (budget + 1) owed s =
      (r.value :: (p.collect untilIdle budget (owed - 1) r.remaining).1,
        (p.collect untilIdle budget (owed - 1) r.remaining).2) := by
  have htest : (untilIdle && r.remaining.position ≤ s.position && owed ≤ 1) = false := by
    rw [Bool.eq_false_iff]
    intro htrue
    simp only [Bool.and_eq_true, decide_eq_true_eq] at htrue
    exact hidle ⟨htrue.1.1, htrue.1.2, htrue.2⟩
  rw [collect, h]
  simp only [htest, Bool.false_eq_true, if_false]

/-- Collecting goes on after a match that reads something. -/
theorem collect_of_progress {p : Parser τ α} {s : TokenStream τ} {r : Success τ α} (h : p.parse s = .ok r)
    (hpos : s.position < r.remaining.position) (untilIdle : Bool) (budget owed : Nat) :
    p.collect untilIdle (budget + 1) owed s =
      (r.value :: (p.collect untilIdle budget (owed - 1) r.remaining).1,
        (p.collect untilIdle budget (owed - 1) r.remaining).2) := by
  refine collect_of_not_idle h ?_ budget
  intro hidle
  omega

/-- A match that reads nothing is the last one, if no more than that one is owed. -/
theorem collect_of_idle {p : Parser τ α} {s : TokenStream τ} {r : Success τ α} (h : p.parse s = .ok r)
    (hpos : r.remaining.position ≤ s.position) {owed : Nat} (howed : owed ≤ 1) (budget : Nat) :
    p.collect true (budget + 1) owed s = ([r.value], r.remaining) := by
  rw [collect, h]
  simp only [hpos, howed, decide_true, Bool.and_true, if_true]

/-- A repetition without a maximum may match at every token ahead. -/
theorem length_lt_unboundedBudget (minimum : Nat) (s : TokenStream τ) : s.length < unboundedBudget minimum s := by
  rw [unboundedBudget]
  omega

end TokenParsing.Parser
