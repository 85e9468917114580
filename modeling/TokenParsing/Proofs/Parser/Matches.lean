import TokenParsing.Parser.Repetition
import TokenParsing.Proofs.Parser.Forward

/-!
# The matches of a repetition

A repetition is told by its matches, one after the other, and by why there are no more of them: the maximum is reached,
the parser fails, or, where there is no maximum, a match has read nothing once the minimum is met (`Repetition`). For a
parser that does not go back there is exactly one such list of matches on every stream, and it is what the repetition
answers (`exists_repetition`). Without a maximum the number of times that the parser is run has a bound that does not
depend on the parser (`runs_le_of_onward`): every match but the last one brings the loop nearer to its end, because it
reads a token or is owed to the minimum (`Onward.measure_lt`). The budget that the loop is given is never used up.
-/

namespace TokenParsing.Parser

open TokenParsing.TokenStream

variable {τ α : Type} {p : Parser τ α} {minimum : Nat} {maximum : Option Nat} {s : TokenStream τ} {r : Success τ α}
  {rs : List (Success τ α)}

/-! ## Parsers that do not go back -/

/-- A parser that stays in the buffer it is run on and does not go back. -/
def Onward (p : Parser τ α) : Prop :=
  ∀ s r, p.parse s = .ok r → r.remaining.buffer = s.buffer ∧ s.position ≤ r.remaining.position

theorem Forward.onward (h : p.Forward) : p.Onward := by
  intro s r hr
  obtain ⟨ts, hc⟩ := h s r hr
  exact ⟨hc.buffer_eq, Nat.le.intro hc.position_eq.symm⟩

/-- Every match but the last one brings a repetition without a maximum nearer to its end: it reads a token, or it is one
of several that are owed. -/
theorem Onward.measure_lt (hp : p.Onward) (hr : p.parse s = .ok r) {owed : Nat}
    (hidle : ¬(r.remaining.position ≤ s.position ∧ owed ≤ 1)) :
    r.remaining.length + max (owed - 1) 1 < s.length + max owed 1 := by
  obtain ⟨hbuffer, hforward⟩ := hp s r hr
  have hsize := s.position_add_length
  have hsize' := r.remaining.position_add_length
  rw [hbuffer] at hsize'
  omega

/-! ## Matches and why they end -/

/-- The stream after the first `i` of some matches, the first of which starts at `s`. -/
def streamAfter (s : TokenStream τ) : List (Success τ α) → Nat → TokenStream τ
  | [], _ => s
  | _ :: _, 0 => s
  | r :: rs, i + 1 => streamAfter r.remaining rs i

/-- The maximum is reached after `i` matches. -/
def Full (maximum : Option Nat) (i : Nat) : Prop :=
  maximum = some i

/-- There is no maximum, and after `i` matches the minimum is met and the last of them has read nothing. -/
def Idle (minimum : Nat) (maximum : Option Nat) (s : TokenStream τ) (rs : List (Success τ α)) (i : Nat) : Prop :=
  maximum = none ∧ 1 ≤ i ∧ minimum ≤ i ∧ (streamAfter s rs i).position = (streamAfter s rs (i - 1)).position

/-- The matches that a repetition makes from a stream: all of them, and no more. -/
structure Repetition (p : Parser τ α) (minimum : Nat) (maximum : Option Nat) (s : TokenStream τ)
    (rs : List (Success τ α)) : Prop where
  /-- Each match is made where the one before it stopped. -/
  matched : ∀ i r, rs[i]? = some r → p.parse (streamAfter s rs i) = .ok r
  /-- Before the last match there was no reason but a failure to end. -/
  goesOn : ∀ i, i < rs.length → ¬Full maximum i ∧ ¬Idle minimum maximum s rs i
  /-- After the last match there is a reason to end. -/
  ends : Full maximum rs.length ∨ (∃ e, p.parse (streamAfter s rs rs.length) = .error e) ∨
    Idle minimum maximum s rs rs.length

@[simp] theorem streamAfter_zero (s : TokenStream τ) (rs : List (Success τ α)) : streamAfter s rs 0 = s := by
  cases rs <;> rfl

/-- The maximum counts the first match. -/
theorem full_succ_iff (hmaximum : maximum ≠ some 0) (i : Nat) :
    Full maximum (i + 1) ↔ Full (maximum.map (· - 1)) i := by
  cases maximum with
  | none => simp [Full]
  | some n =>
    simp only [Full, Option.map_some, Option.some.injEq, ne_eq] at hmaximum ⊢
    omega

/-- After the first match, a repetition that goes on is idle when the first match is, or when the others are by
themselves. -/
theorem idle_cons_succ_iff (i : Nat) :
    Idle minimum maximum s (r :: rs) (i + 1) ↔
      (i = 0 ∧ maximum = none ∧ minimum ≤ 1 ∧ r.remaining.position = s.position) ∨
        Idle (minimum - 1) (maximum.map (· - 1)) r.remaining rs i := by
  unfold Idle
  cases i with
  | zero => simp [streamAfter]
  | succ i =>
    have hminimum : minimum - 1 ≤ i + 1 ↔ minimum ≤ i + 1 + 1 := by omega
    simp [streamAfter, hminimum]

/-- No match is made where none is allowed and where the parser fails. -/
theorem repetition_nil_iff :
    Repetition p minimum maximum s [] ↔ maximum = some 0 ∨ ∃ e, p.parse s = .error e := by
  constructor
  · intro h
    rcases h.ends with hfull | hfails | ⟨-, hpos, -⟩
    · exact Or.inl hfull
    · exact Or.inr hfails
    · simp at hpos
  · intro h
    refine ⟨?_, ?_, h.imp_right Or.inl⟩
    · intro i r hr
      simp at hr
    · intro i hi
      simp at hi

/-- A first match is the only one if it reads nothing when no more than one is owed; otherwise the repetition goes on
where it stopped, and owes and allows one match less. -/
theorem repetition_cons_iff :
    Repetition p minimum maximum s (r :: rs) ↔
      p.parse s = .ok r ∧ maximum ≠ some 0 ∧
        if maximum = none ∧ minimum ≤ 1 ∧ r.remaining.position = s.position then rs = []
        else Repetition p (minimum - 1) (maximum.map (· - 1)) r.remaining rs := by
  constructor
  · intro h
    have hfull : maximum ≠ some 0 := (h.goesOn 0 (Nat.succ_pos _)).1
    refine ⟨h.matched 0 r rfl, hfull, ?_⟩
    split
    · rename_i hidle
      cases rs with
      | nil => rfl
      | cons r' rs =>
        have hlength : 1 < (r :: r' :: rs).length := Nat.succ_lt_succ (Nat.succ_pos _)
        exact absurd ((idle_cons_succ_iff 0).2 (Or.inl ⟨rfl, hidle⟩)) (h.goesOn 1 hlength).2
    · rename_i hidle
      refine ⟨fun i r' hr' => h.matched (i + 1) r' hr', ?_, ?_⟩
      · intro i hi
        have hgoes := h.goesOn (i + 1) (Nat.succ_lt_succ hi)
        rw [full_succ_iff hfull, idle_cons_succ_iff] at hgoes
        exact ⟨hgoes.1, fun hrest => hgoes.2 (Or.inr hrest)⟩
      · have hends := h.ends
        rw [List.length_cons, full_succ_iff hfull, idle_cons_succ_iff] at hends
        rcases hends with hfull' | hfails | ⟨-, hfirst⟩ | hrest
        · exact Or.inl hfull'
        · exact Or.inr (Or.inl hfails)
        · exact absurd hfirst hidle
        · exact Or.inr (Or.inr hrest)
  · rintro ⟨hr, hfull, hrest⟩
    split at hrest
    · rename_i hidle
      subst hrest
      refine ⟨?_, ?_, Or.inr (Or.inr ((idle_cons_succ_iff 0).2 (Or.inl ⟨rfl, hidle⟩)))⟩
      · intro i r' hr'
        obtain ⟨rfl, rfl⟩ : i = 0 ∧ r = r' := by
          cases i <;> simp_all
        exact hr
      · intro i hi
        obtain rfl : i = 0 := by simpa using hi
        simp [Full, Idle, hfull]
    · rename_i hidle
      refine ⟨?_, ?_, ?_⟩
      · intro i r' hr'
        cases i with
        | zero =>
          cases hr'
          exact hr
        | succ i => exact hrest.matched i r' hr'
      · intro i hi
        cases i with
        | zero => simp [Full, Idle, hfull]
        | succ i =>
          obtain ⟨hfull', hidle'⟩ := hrest.goesOn i (Nat.lt_of_succ_lt_succ hi)
          rw [full_succ_iff hfull, idle_cons_succ_iff]
          refine ⟨hfull', ?_⟩
          rintro (⟨-, hfirst⟩ | hothers)
          · exact hidle hfirst
          · exact hidle' hothers
      · rw [List.length_cons, full_succ_iff hfull, idle_cons_succ_iff]
        rcases hrest.ends with hfull' | hfails | hidle'
        · exact Or.inl hfull'
        · exact Or.inr (Or.inl hfails)
        · exact Or.inr (Or.inr (Or.inr hidle'))

theorem Repetition.not_nil (h : Repetition p minimum maximum s (r :: rs)) : ¬Repetition p minimum maximum s [] := by
  intro hnil
  obtain ⟨hr, hfull, -⟩ := repetition_cons_iff.1 h
  rcases repetition_nil_iff.1 hnil with hfull' | ⟨e, he⟩
  · exact hfull hfull'
  · rw [hr] at he
    cases he

/-- The stream and the numbers allowed leave no choice of matches. -/
theorem Repetition.unique (h : Repetition p minimum maximum s rs) {rs' : List (Success τ α)}
    (h' : Repetition p minimum maximum s rs') : rs' = rs := by
  induction rs generalizing minimum maximum s rs' with
  | nil =>
    cases rs' with
    | nil => rfl
    | cons r' rs' => exact absurd h h'.not_nil
  | cons r rs ih =>
    cases rs' with
    | nil => exact absurd h' h.not_nil
    | cons r' rs' =>
      obtain ⟨hr, -, hrest⟩ := repetition_cons_iff.1 h
      obtain ⟨hr', -, hrest'⟩ := repetition_cons_iff.1 h'
      rw [hr] at hr'
      cases hr'
      split at hrest
      · rename_i hidle
        rw [if_pos hidle] at hrest'
        rw [hrest, hrest']
      · rename_i hidle
        rw [if_neg hidle] at hrest'
        rw [ih hrest hrest']

/-! ## The matches that are collected -/

/-- Collecting makes the matches of a repetition, as long as its budget is the maximum or, where there is none, as large
as the loop may need. -/
theorem exists_repetition_collect (hp : p.Onward) (budget : Nat)
    (hbudget : maximum = some budget ∨ maximum = none ∧ s.length + max minimum 1 ≤ budget) :
    ∃ rs, Repetition p minimum maximum s rs ∧
      p.collect maximum.isNone budget minimum s = (rs.map Success.value, streamAfter s rs rs.length) := by
  induction budget generalizing minimum maximum s with
  | zero =>
    rcases hbudget with hfull | ⟨-, hmeasure⟩
    · exact ⟨[], repetition_nil_iff.2 (Or.inl hfull), rfl⟩
    · omega
  | succ budget ih =>
    cases hr : p.parse s with
    | error e => exact ⟨[], repetition_nil_iff.2 (Or.inr ⟨e, hr⟩), collect_of_error hr _ budget minimum⟩
    | ok r =>
      obtain ⟨-, hforward⟩ := hp s r hr
      have hfull : maximum ≠ some 0 := by
        rintro rfl
        rcases hbudget with hbudget | ⟨hbudget, -⟩ <;> cases hbudget
      by_cases hidle : maximum = none ∧ minimum ≤ 1 ∧ r.remaining.position = s.position
      · refine ⟨[r], repetition_cons_iff.2 ⟨hr, hfull, by rw [if_pos hidle]⟩, ?_⟩
        obtain ⟨rfl, hminimum, hposition⟩ := hidle
        exact collect_of_idle hr (Nat.le_of_eq hposition) hminimum budget
      · have hgoesOn : ¬(maximum.isNone = true ∧ r.remaining.position ≤ s.position ∧ minimum ≤ 1) :=
          fun h => hidle ⟨Option.isNone_iff_eq_none.1 h.1, h.2.2, Nat.le_antisymm h.2.1 hforward⟩
        have hbudget' : maximum.map (· - 1) = some budget ∨
            maximum.map (· - 1) = none ∧ r.remaining.length + max (minimum - 1) 1 ≤ budget := by
          rcases hbudget with rfl | ⟨rfl, hmeasure⟩
          · exact Or.inl rfl
          · have hlt := hp.measure_lt hr fun h => hgoesOn ⟨rfl, h⟩
            exact Or.inr ⟨rfl, by omega⟩
        obtain ⟨rs, hrs, hrest⟩ := ih hbudget'
        refine ⟨r :: rs, repetition_cons_iff.2 ⟨hr, hfull, by rw [if_neg hidle]; exact hrs⟩, ?_⟩
        rw [Option.isNone_map] at hrest
        rw [collect_of_not_idle hr hgoesOn, hrest]
        rfl

/-- A repetition without a maximum is given a budget that it cannot use up. -/
theorem measure_le_unboundedBudget (minimum : Nat) (s : TokenStream τ) :
    s.length + max minimum 1 ≤ unboundedBudget minimum s := by
  unfold unboundedBudget
  omega

theorem Repetition.length_le (h : Repetition p minimum maximum s rs) {n : Nat} (hn : maximum = some n) :
    rs.length ≤ n := by
  induction rs generalizing minimum maximum s n with
  | nil => exact Nat.zero_le n
  | cons r rs ih =>
    obtain ⟨-, hfull, hrest⟩ := repetition_cons_iff.1 h
    subst hn
    rw [if_neg (fun hidle => nomatch hidle.1)] at hrest
    have hle : rs.length ≤ n - 1 := ih hrest rfl
    have hpos : n ≠ 0 := fun hzero => hfull (congrArg some hzero)
    rw [List.length_cons]
    omega

/-- On every stream a parser that does not go back has exactly one list of matches, each made where the one before it
stopped, that ends where the maximum is reached, where the parser fails, or, without a maximum, at a match that reads
nothing once the minimum is met, and nowhere before. A repetition answers the values of these matches and the stream
after them if they reach the minimum, and otherwise fails there for too few matches. So there are always as many values
as the minimum says and no more than the maximum, and none at all if the maximum is below the minimum. -/
theorem exists_repetition (hp : p.Onward) (minimum : Nat) (maximum : Option Nat) :
    ∃ rs : List (Success τ α), Repetition p minimum maximum s rs ∧
      (∀ rs', Repetition p minimum maximum s rs' → rs' = rs) ∧
      (p.repeated minimum maximum).parse s =
        (if minimum ≤ rs.length then .ok ⟨rs.map Success.value, streamAfter s rs rs.length⟩
        else .error (.single (.tooFew minimum rs.length) (.single (streamAfter s rs rs.length).position) none)) ∧
      (∀ r, (p.repeated minimum maximum).parse s = .ok r →
        minimum ≤ r.value.length ∧ ∀ n, maximum = some n → r.value.length ≤ n) ∧
      ∀ n, maximum = some n → n < minimum → ∃ e, (p.repeated minimum maximum).parse s = .error e := by
  have hbudget : maximum = some (maximum.getD (unboundedBudget minimum s)) ∨
      maximum = none ∧ s.length + max minimum 1 ≤ maximum.getD (unboundedBudget minimum s) := by
    cases maximum with
    | none => exact Or.inr ⟨rfl, measure_le_unboundedBudget minimum s⟩
    | some n => exact Or.inl rfl
  obtain ⟨rs, hrs, hcollect⟩ := exists_repetition_collect hp _ hbudget
  have hparse : (p.repeated minimum maximum).parse s =
      (if minimum ≤ rs.length then .ok ⟨rs.map Success.value, streamAfter s rs rs.length⟩
      else .error (.single (.tooFew minimum rs.length) (.single (streamAfter s rs rs.length).position) none)) := by
    rw [parse_repeated, hcollect]
    dsimp only
    rw [List.length_map]
    by_cases hminimum : minimum ≤ rs.length
    · rw [if_neg (Nat.not_lt.2 hminimum), if_pos hminimum]
    · rw [if_pos (Nat.lt_of_not_le hminimum), if_neg hminimum]
  refine ⟨rs, hrs, fun rs' hrs' => hrs.unique hrs', hparse, ?_, ?_⟩
  · intro r hr
    rw [hparse] at hr
    split at hr
    · rename_i hminimum
      cases hr
      rw [List.length_map]
      exact ⟨hminimum, fun n hn => hrs.length_le hn⟩
    · cases hr
  · intro n hn hlt
    have hle := hrs.length_le hn
    rw [hparse, if_neg (by omega)]
    exact ⟨_, rfl⟩

/-- Two characters are read, and two of the four matches owed read nothing; the last of them ends the repetition. -/
theorem exists_repetition_of_optional :
    ∃ rs : List (Success Char (Option Char)), rs.length = 4 ∧
      Repetition (token 'a').optional 4 none (ofList ['a', 'a', 'b']) rs ∧
      ((token 'a').optional.repeated 4 none).parse (ofList ['a', 'a', 'b']) =
        .ok ⟨rs.map Success.value, streamAfter (ofList ['a', 'a', 'b']) rs rs.length⟩ := by
  have hp : (token 'a').optional.Onward := (forward_accept _ _).optional.onward
  have hfour : ((token 'a').optional.repeated 4 none).parse (ofList ['a', 'a', 'b']) =
      .ok ⟨[some 'a', some 'a', none, none], (ofList ['a', 'a', 'b']).advance 2⟩ := rfl
  obtain ⟨rs, hrs, -, hparse, -⟩ := exists_repetition hp 4 none
  have hanswer := hfour.symm.trans hparse
  split at hanswer
  · rename_i hminimum
    rw [if_pos hminimum] at hparse
    have hvalues : [some 'a', some 'a', none, none] = rs.map Success.value :=
      (Success.mk.inj (Except.ok.inj hanswer)).1
    have hlength := congrArg List.length hvalues
    rw [List.length_map] at hlength
    exact ⟨rs, hlength.symm, hrs, hparse⟩
  · cases hanswer

/-! ## The number of runs -/

/-- What collecting gives, with the number of times that the parser is run for it. -/
def countedCollect (p : Parser τ α) (untilIdle : Bool) :
    (budget owed : Nat) → TokenStream τ → (List α × TokenStream τ) × Nat
  | 0, _, s => (([], s), 0)
  | budget + 1, owed, s =>
    match p.parse s with
    | .error _ => (([], s), 1)
    | .ok r =>
      if untilIdle && r.remaining.position ≤ s.position && owed ≤ 1 then
        (([r.value], r.remaining), 1)
      else
        let ((vs, s'), runs) := p.countedCollect untilIdle budget (owed - 1) r.remaining
        ((r.value :: vs, s'), runs + 1)

/-- Counting the runs changes nothing else. -/
theorem countedCollect_fst (p : Parser τ α) (untilIdle : Bool) (budget owed : Nat) (s : TokenStream τ) :
    (p.countedCollect untilIdle budget owed s).1 = p.collect untilIdle budget owed s := by
  induction budget generalizing owed s with
  | zero => rfl
  | succ budget ih =>
    unfold countedCollect collect
    cases p.parse s with
    | error e => rfl
    | ok r =>
      dsimp only
      split
      · rfl
      · rw [← ih]

/-- Every value comes from a run. -/
theorem length_countedCollect_le (p : Parser τ α) (untilIdle : Bool) (budget owed : Nat) (s : TokenStream τ) :
    (p.countedCollect untilIdle budget owed s).1.1.length ≤ (p.countedCollect untilIdle budget owed s).2 := by
  induction budget generalizing owed s with
  | zero => exact Nat.le_refl 0
  | succ budget ih =>
    unfold countedCollect
    cases p.parse s with
    | error e => exact Nat.zero_le 1
    | ok r =>
      dsimp only
      split
      · exact Nat.le_refl 1
      · exact Nat.succ_le_succ (ih (owed - 1) r.remaining)

/-- The loop ends by itself: with any budget that is as large as it may need it makes the same runs, and these are no
more than there are tokens ahead and matches owed, or one more where none is owed. The induction is on a bound for what
every run but the last makes smaller. -/
theorem exists_countedCollect (hp : p.Onward) (n : Nat) {owed : Nat}
    (hn : s.length + max owed 1 ≤ n) :
    ∃ vs s' runs, runs ≤ s.length + max owed 1 ∧
      ∀ budget, s.length + max owed 1 ≤ budget → p.countedCollect true budget owed s = ((vs, s'), runs) := by
  induction n generalizing owed s with
  | zero => omega
  | succ n ih =>
    cases hr : p.parse s with
    | error e =>
      refine ⟨[], s, 1, by omega, ?_⟩
      intro budget hbudget
      obtain ⟨budget, rfl⟩ : ∃ b, budget = b + 1 := ⟨budget - 1, by omega⟩
      rw [countedCollect, hr]
    | ok r =>
      by_cases hidle : r.remaining.position ≤ s.position ∧ owed ≤ 1
      · refine ⟨[r.value], r.remaining, 1, by omega, ?_⟩
        intro budget hbudget
        obtain ⟨budget, rfl⟩ : ∃ b, budget = b + 1 := ⟨budget - 1, by omega⟩
        rw [countedCollect, hr]
        simp [hidle]
      · have hlt := hp.measure_lt hr hidle
        have hmeasure : r.remaining.length + max (owed - 1) 1 ≤ n := by omega
        obtain ⟨vs, s', runs, hruns, hrest⟩ := ih hmeasure
        refine ⟨r.value :: vs, s', runs + 1, by omega, ?_⟩
        intro budget hbudget
        obtain ⟨budget, rfl⟩ : ∃ b, budget = b + 1 := ⟨budget - 1, by omega⟩
        have htest : (true && r.remaining.position ≤ s.position && owed ≤ 1) = false := by
          simpa using hidle
        rw [countedCollect, hr]
        simp only [htest, Bool.false_eq_true, if_false]
        rw [hrest budget (by omega)]

/-- A repetition without a maximum, of a parser that does not go back, ends by itself. It runs the parser no more often
than there are tokens ahead and matches in the minimum, or once more where the minimum is none, and it collects no more
values than that, whether or not every match reads something; a larger budget does not change its answer. -/
theorem runs_le_of_onward (hp : p.Onward) (minimum : Nat) :
    ∃ vs s' runs,
      (∀ budget, s.length + max minimum 1 ≤ budget →
        p.countedCollect true budget minimum s = ((vs, s'), runs) ∧ p.collect true budget minimum s = (vs, s')) ∧
      runs ≤ s.length + max minimum 1 ∧ vs.length ≤ s.length + max minimum 1 ∧
      (p.repeated minimum none).parse s =
        if vs.length < minimum then .error (.single (.tooFew minimum vs.length) (.single s'.position) none)
        else .ok ⟨vs, s'⟩ := by
  obtain ⟨vs, s', runs, hruns, hall⟩ := exists_countedCollect hp _ (Nat.le_refl (s.length + max minimum 1))
  have hcollect : ∀ budget, s.length + max minimum 1 ≤ budget → p.collect true budget minimum s = (vs, s') := by
    intro budget hbudget
    rw [← countedCollect_fst, hall budget hbudget]
  have hvalues := length_countedCollect_le p true (s.length + max minimum 1) minimum s
  rw [hall _ (Nat.le_refl _)] at hvalues
  refine ⟨vs, s', runs, fun budget hbudget => ⟨hall budget hbudget, hcollect budget hbudget⟩, hruns,
    Nat.le_trans hvalues hruns, ?_⟩
  rw [parse_repeated]
  simp only [Option.isNone_none, Option.getD_none, hcollect _ (measure_le_unboundedBudget minimum s)]

/-- Five matches of an optional character take five runs where two characters are read, and could take eight. -/
theorem runs_le_of_optional :
    ∃ vs s', (token 'a').optional.countedCollect true 8 5 (ofList ['a', 'a', 'b']) = ((vs, s'), 5) ∧
      5 ≤ (ofList ['a', 'a', 'b']).length + max 5 1 ∧
      ((token 'a').optional.repeated 5 none).parse (ofList ['a', 'a', 'b']) = .ok ⟨vs, s'⟩ := by
  have hp : (token 'a').optional.Onward := (forward_accept _ _).optional.onward
  obtain ⟨vs, s', runs, hall, hruns, -, hparse⟩ := runs_le_of_onward hp (s := ofList ['a', 'a', 'b']) 5
  obtain ⟨hcounted, -⟩ := hall 8 (by decide)
  have hfive : (token 'a').optional.countedCollect true 8 5 (ofList ['a', 'a', 'b']) =
      (([some 'a', some 'a', none, none, none], (ofList ['a', 'a', 'b']).advance 2), 5) := rfl
  cases hcounted.symm.trans hfive
  exact ⟨_, _, hfive, hruns, hparse⟩

end TokenParsing.Parser
