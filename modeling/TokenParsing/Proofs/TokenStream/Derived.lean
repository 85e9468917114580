import TokenParsing.Proofs.Parser.Runs

/-!
# Streams derived from a stream

A stream is never changed: to take tokens from it is to make another stream, and the streams made so far stay at hand
for further steps. So the streams made from one list of tokens branch, and `Traced` keeps with each of them the runs of
tokens that were taken on the way to it. Whatever steps are made, in any order and on any of the streams, what was taken
on the way to a stream and what is ahead of it are together the list it all began with, and its position counts what was
taken (`Complete`, kept by one operation in `Complete.operate` and by a whole run in `complete_of_mem_run`). Taking
tokens in two goes is taking them at once, and a refusal tells which stream could not give them (`takeInTurn_eq`).
-/

namespace TokenParsing.TokenStream

variable {τ : Type}

/-! ## Taking in two goes -/

/-- Tokens are refused where there are not enough of them, with the number asked for, the number there are and the
position. -/
theorem take_eq_error_iff {s : TokenStream τ} {n : Nat} {e : StreamError} :
    s.take n = .error e ↔ s.length < n ∧ e = .outOfRange n s.length s.position := by
  rw [take_eq]
  by_cases hlt : s.length < n
  · simp [hlt, eq_comm]
  · simp [hlt]

/-- The tokens that are taken in two goes, the second from the stream that the first one makes, and the last stream. -/
def takeInTurn (s : TokenStream τ) (a b : Nat) : Except StreamError (List τ × TokenStream τ) :=
  match s.take a with
  | .error e => .error e
  | .ok (us, s₁) =>
    match s₁.take b with
    | .error e => .error e
    | .ok (vs, s₂) => .ok (us ++ vs, s₂)

/-- Taking in two goes is refused by the first stream or by the second one, and otherwise is taking at once. -/
theorem takeInTurn_eq (s : TokenStream τ) (a b : Nat) :
    s.takeInTurn a b =
      if s.length < a then .error (.outOfRange a s.length s.position)
      else if s.length < a + b then .error (.outOfRange b (s.length - a) (s.position + a))
      else s.take (a + b) := by
  rw [takeInTurn, take_eq]
  by_cases ha : s.length < a
  · simp [ha]
  · have hposition : (s.advance a).position = s.position + a := position_advance_of_le (Nat.le_of_not_lt ha)
    simp only [ha, if_false, take_eq, length_advance, hposition, rest_advance, advance_advance]
    by_cases hb : s.length < a + b
    · have hrest : s.length - a < b := by omega
      simp [hb, hrest]
    · have hrest : ¬s.length - a < b := by omega
      simp [hb, hrest, List.take_add]

/-- Tokens can be taken in two goes when they can be taken at once. -/
theorem takeInTurn_eq_ok_iff {s : TokenStream τ} {a b : Nat} {r : List τ × TokenStream τ} :
    s.takeInTurn a b = .ok r ↔ s.take (a + b) = .ok r := by
  rw [takeInTurn_eq]
  by_cases hb : s.length < a + b
  · have hwhole : s.take (a + b) = .error (.outOfRange (a + b) s.length s.position) := take_eq_error_iff.2 ⟨hb, rfl⟩
    rw [hwhole]
    split <;> simp
  · have ha : ¬s.length < a := by omega
    rw [if_neg ha, if_neg hb]

/-- The stream that refuses is the first one where it has not enough tokens for the first go, and otherwise the second
one. -/
theorem takeInTurn_eq_error_iff {s : TokenStream τ} {a b : Nat} {e : StreamError} :
    s.takeInTurn a b = .error e ↔
      s.length < a ∧ e = .outOfRange a s.length s.position ∨
        a ≤ s.length ∧ s.length < a + b ∧ e = .outOfRange b (s.length - a) (s.position + a) := by
  rw [takeInTurn_eq]
  by_cases ha : s.length < a
  · simp [ha, Nat.not_le.2 ha, eq_comm]
  · by_cases hb : s.length < a + b
    · simp [ha, Nat.le_of_not_lt ha, hb, eq_comm]
    · simp [ha, hb, take_eq]

/-! ## Streams and the ways to them -/

/-- A stream at hand, and the runs of tokens that were taken on the way to it. -/
structure Traced (τ : Type) where
  /-- The stream. -/
  stream : TokenStream τ
  /-- The tokens that were taken on the way to it, run by run. -/
  path : List (List τ)

/-- The stream of a list of tokens, from which nothing has been taken. -/
def Traced.new (ts : List τ) : Traced τ :=
  ⟨ofList ts, []⟩

/-- What was taken on the way to a stream and what is ahead of it are the given tokens, and the position counts what was
taken. -/
structure Complete (ts : List τ) (h : Traced τ) : Prop where
  tokens : h.path.flatten ++ h.stream.rest = ts
  position : h.stream.position = h.path.flatten.length

variable {ts : List τ} {h h' : Traced τ}

theorem complete_new (ts : List τ) : Complete ts (Traced.new ts) :=
  ⟨rfl, rfl⟩

/-- Tokens that are taken go from what is ahead to the end of what was taken. -/
theorem Complete.take (hc : Complete ts h) {n : Nat} {us : List τ} {s : TokenStream τ}
    (ht : h.stream.take n = .ok (us, s)) : Complete ts ⟨s, h.path ++ [us]⟩ := by
  obtain ⟨hconsumes, -⟩ := take_eq_ok_iff.1 ht
  have hflatten : (h.path ++ [us]).flatten = h.path.flatten ++ us := by
    rw [List.flatten_append, List.flatten_singleton]
  constructor
  · rw [hflatten, List.append_assoc, ← hconsumes.2, hc.tokens]
  · rw [hflatten, List.length_append, ← hc.position]
    exact hconsumes.position_eq

/-- No position is past the end of the tokens. -/
theorem Complete.position_le (hc : Complete ts h) : h.stream.position ≤ ts.length := by
  rw [hc.position, ← hc.tokens, List.length_append]
  exact Nat.le_add_right _ _

/-! ## Steps -/

/-- What can be done with a stream. -/
inductive Operation (τ : Type) where
  /-- Taking a number of tokens. -/
  | take (n : Nat)
  /-- Looking for a pattern. -/
  | find (pattern : List τ)
  /-- Making a second stream like it. -/
  | clone
  /-- Looking at the next token. -/
  | peek

/-- What an operation answers when it is not refused. -/
inductive Answer (τ : Type) where
  /-- The tokens that were taken. -/
  | taken (us : List τ)
  /-- The number of tokens before a pattern. -/
  | found (k : Nat)
  /-- A second stream was made. -/
  | cloned
  /-- The next token, if there is one. -/
  | next (t : Option τ)

/-- An operation on one of the streams at hand, which are numbered as they were made. -/
structure Step (τ : Type) where
  /-- The number of the stream. -/
  number : Nat
  /-- The operation. -/
  operation : Operation τ

variable [DecidableEq τ]

/-- The answer of an operation on a stream and the stream that it makes, if it makes one; or why it is refused. -/
def Traced.operate (h : Traced τ) : Operation τ → Except StreamError (Answer τ × Option (Traced τ))
  | .take n =>
    match h.stream.take n with
    | .error e => .error e
    | .ok (us, s) => .ok (.taken us, some ⟨s, h.path ++ [us]⟩)
  | .find pattern =>
    match h.stream.find pattern with
    | .error e => .error e
    | .ok k => .ok (.found k, none)
  | .clone => .ok (.cloned, some h)
  | .peek => .ok (.next h.stream.head?, none)

/-- The streams at hand after a step: a stream that the step makes is put behind the others. Without a stream of the
given number nothing is done. -/
def perform (pool : List (Traced τ)) (step : Step τ) : List (Traced τ) :=
  match pool[step.number]? with
  | none => pool
  | some h =>
    match h.operate step.operation with
    | .error _ => pool
    | .ok (_, made) => pool ++ made.toList

/-- The streams at hand after some steps. -/
def run (pool : List (Traced τ)) (steps : List (Step τ)) : List (Traced τ) :=
  steps.foldl perform pool

variable {pool : List (Traced τ)}

/-- A stream is made by taking tokens or by making a second one. -/
theorem Complete.operate (hc : Complete ts h) {operation : Operation τ} {answer : Answer τ}
    (hmade : h.operate operation = .ok (answer, some h')) : Complete ts h' := by
  cases operation with
  | take n =>
    cases ht : h.stream.take n with
    | error e => simp [Traced.operate, ht] at hmade
    | ok r =>
      simp only [Traced.operate, ht, Except.ok.injEq, Prod.mk.injEq, Option.some.injEq] at hmade
      rw [← hmade.2]
      exact hc.take ht
  | find pattern =>
    cases hf : h.stream.find pattern <;> simp [Traced.operate, hf] at hmade
  | clone =>
    simp only [Traced.operate, Except.ok.injEq, Prod.mk.injEq, Option.some.injEq] at hmade
    rw [← hmade.2]
    exact hc
  | peek => simp [Traced.operate] at hmade

/-- A step leaves the streams at hand as they are. All it can do is to put behind them a stream that an operation on one
of them makes. -/
theorem perform_cases (pool : List (Traced τ)) (step : Step τ) :
    perform pool step = pool ∨ ∃ h ∈ pool, ∃ answer h', h.operate step.operation = .ok (answer, some h') ∧
      perform pool step = pool ++ [h'] := by
  unfold perform
  cases hh : pool[step.number]? with
  | none => exact Or.inl rfl
  | some h =>
    dsimp only
    cases hop : h.operate step.operation with
    | error e => exact Or.inl rfl
    | ok r =>
      obtain ⟨answer, made⟩ := r
      cases made with
      | none => exact Or.inl (List.append_nil pool)
      | some h' => exact Or.inr ⟨h, List.mem_of_getElem? hh, answer, h', hop, rfl⟩

theorem prefix_perform (pool : List (Traced τ)) (step : Step τ) : pool <+: perform pool step := by
  rcases perform_cases pool step with hsame | ⟨h, -, answer, h', -, hmore⟩
  · exact ⟨[], (List.append_nil pool).trans hsame.symm⟩
  · exact ⟨[h'], hmore.symm⟩

/-- A step that is refused makes no stream. -/
theorem perform_of_error {i : Nat} {operation : Operation τ} {e : StreamError} (hh : pool[i]? = some h)
    (he : h.operate operation = .error e) : perform pool ⟨i, operation⟩ = pool := by
  simp [perform, hh, he]

theorem complete_of_mem_perform (hpool : ∀ h ∈ pool, Complete ts h) (step : Step τ) :
    ∀ h ∈ perform pool step, Complete ts h := by
  intro x hx
  rcases perform_cases pool step with hsame | ⟨h, hmem, answer, h', hmade, hmore⟩
  · rw [hsame] at hx
    exact hpool x hx
  · rw [hmore, List.mem_append, List.mem_singleton] at hx
    rcases hx with hx | rfl
    · exact hpool x hx
    · exact (hpool h hmem).operate hmade

/-! ## Runs -/

theorem run_append (pool : List (Traced τ)) (steps more : List (Step τ)) :
    run pool (steps ++ more) = run (run pool steps) more :=
  List.foldl_append

theorem prefix_run (pool : List (Traced τ)) (steps : List (Step τ)) : pool <+: run pool steps := by
  induction steps generalizing pool with
  | nil => exact List.prefix_refl pool
  | cons step steps ih => exact (prefix_perform pool step).trans (ih (perform pool step))

theorem complete_of_mem_run (hpool : ∀ h ∈ pool, Complete ts h) (steps : List (Step τ)) :
    ∀ h ∈ run pool steps, Complete ts h := by
  induction steps generalizing pool with
  | nil => exact hpool
  | cons step steps ih => exact ih (complete_of_mem_perform hpool step)

/-- Of the streams made from a list of tokens by any steps, none is past the end of the list: its position counts the
tokens that were taken on the way to it, and these and the tokens ahead of it are the list. Steps leave the streams at
hand as they are, whatever is done with them later, and a step that is refused makes no stream. Taking tokens in two
goes is taking as many at once, with the same last stream; it is refused where there are not enough tokens for both,
with the number asked for, the number left and the position of the stream that refuses. -/
theorem run_loses_nothing (ts : List τ) (steps : List (Step τ)) :
    (∀ h ∈ run [.new ts] steps, h.stream.position ≤ ts.length ∧ h.stream.position = h.path.flatten.length ∧
      h.path.flatten ++ h.stream.rest = ts) ∧
    (∀ more, run [.new ts] steps <+: run [.new ts] (steps ++ more)) ∧
    (∀ (i : Nat) (h : Traced τ) (operation : Operation τ) (e : StreamError), (run [.new ts] steps)[i]? = some h →
      h.operate operation = .error e → perform (run [.new ts] steps) ⟨i, operation⟩ = run [.new ts] steps) ∧
    ∀ (s : TokenStream τ) (a b : Nat),
      (∀ r, s.takeInTurn a b = .ok r ↔ s.take (a + b) = .ok r) ∧
      (∀ e, s.takeInTurn a b = .error e ↔
        s.length < a ∧ e = .outOfRange a s.length s.position ∨
          a ≤ s.length ∧ s.length < a + b ∧ e = .outOfRange b (s.length - a) (s.position + a)) ∧
      ∀ e, s.take (a + b) = .error e ↔ s.length < a + b ∧ e = .outOfRange (a + b) s.length s.position := by
  have hnew : ∀ h ∈ [Traced.new ts], Complete ts h := by
    intro h hh
    obtain rfl := List.mem_singleton.1 hh
    exact complete_new ts
  refine ⟨?_, ?_, ?_, ?_⟩
  · intro h hh
    have hc := complete_of_mem_run hnew steps h hh
    exact ⟨hc.position_le, hc.position, hc.tokens⟩
  · intro more
    rw [run_append]
    exact prefix_run _ more
  · intro i h operation e hh he
    exact perform_of_error hh he
  · intro s a b
    exact ⟨fun r => takeInTurn_eq_ok_iff, fun e => takeInTurn_eq_error_iff, fun e => take_eq_error_iff⟩

/-- Two tokens are taken, and a third one from a second stream like the one that is left; four are refused. -/
theorem run_loses_nothing_of_clone :
    let steps : List (Step Char) := [⟨0, .take 2⟩, ⟨0, .take 4⟩, ⟨1, .clone⟩, ⟨2, .take 1⟩, ⟨0, .find ['c']⟩, ⟨3, .peek⟩]
    let pool := run [.new ['a', 'b', 'c']] steps
    let h : Traced Char := ⟨(ofList ['a', 'b', 'c']).advance 3, [['a', 'b'], ['c']]⟩
    (h ∈ pool ∧ h.stream.position ≤ 3 ∧ h.stream.position = h.path.flatten.length ∧
      h.path.flatten ++ h.stream.rest = ['a', 'b', 'c']) ∧
    pool[0]? = some (.new ['a', 'b', 'c']) ∧
      Traced.operate (.new ['a', 'b', 'c']) (.take 4) = .error (.outOfRange 4 3 0) ∧ perform pool ⟨0, .take 4⟩ = pool := by
  intro steps pool h
  obtain ⟨hcomplete, -, hrefused, -⟩ := run_loses_nothing ['a', 'b', 'c'] steps
  have hh : h ∈ pool := List.mem_of_getElem? (i := 3) rfl
  exact ⟨⟨hh, hcomplete h hh⟩, rfl, rfl, hrefused 0 (.new ['a', 'b', 'c']) (.take 4) (.outOfRange 4 3 0) rfl rfl⟩

end TokenParsing.TokenStream
