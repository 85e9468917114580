import TokenParsing.Proofs.Parser.Runs
import TokenParsing.Settings.Grammar

/-!
# Longest runs

Of all the runs of accepted tokens at the front of a list that keep to a maximum, one is the longest (`LongestRun`). A
repetition of a parser of one token reads this run: it neither stops before the last token of it nor goes on behind it,
and where the run is shorter than the minimum the failure tells how long it is and points behind it (`readsRun_accept`).
Runs of characters, blanks, identifiers and comments are made of such repetitions, so they are longest runs too
(`readsRun_of_tokenClasses`).
-/

namespace TokenParsing

open TokenStream

variable {τ α β : Type}

/-! ## Runs of accepted tokens -/

/-- Tokens at the front of a list that are all accepted, no more of them than the maximum, if there is one. -/
structure AcceptedRun (accepts : τ → Bool) (maximum : Option Nat) (ts run : List τ) : Prop where
  starts : run <+: ts
  accepted : ∀ t ∈ run, accepts t = true
  within : ∀ n, maximum = some n → run.length ≤ n

/-- The longest of these runs. -/
structure LongestRun (accepts : τ → Bool) (maximum : Option Nat) (ts run : List τ) : Prop
    extends AcceptedRun accepts maximum ts run where
  longest : ∀ run', AcceptedRun accepts maximum ts run' → run'.length ≤ run.length

variable {accepts : τ → Bool} {minimum : Nat} {maximum : Option Nat} {ts run : List τ}

/-- A list has no more than one longest run. -/
theorem LongestRun.unique (h : LongestRun accepts maximum ts run) {run' : List τ}
    (h' : LongestRun accepts maximum ts run') : run' = run := by
  have hle : run'.length ≤ run.length := h.longest run' h'.toAcceptedRun
  have hge : run.length ≤ run'.length := h'.longest run h.toAcceptedRun
  exact (List.prefix_of_prefix_length_le h'.starts h.starts hle).eq_of_length (Nat.le_antisymm hle hge)

/-- Taking tokens as long as they are accepted, from as many as the maximum allows, takes the longest run. -/
theorem longestRun_takeWhile {front : List τ}
    (h : ∀ us, us <+: front ↔ us <+: ts ∧ ∀ n, maximum = some n → us.length ≤ n) :
    LongestRun accepts maximum ts (front.takeWhile accepts) := by
  obtain ⟨hstarts, hwithin⟩ := (h _).1 (List.takeWhile_prefix accepts)
  refine ⟨⟨hstarts, fun t ht => List.all_eq_true.1 List.all_takeWhile t ht, hwithin⟩, ?_⟩
  intro run' hrun'
  obtain ⟨rest, rfl⟩ := (h run').2 ⟨hrun'.starts, hrun'.within⟩
  rw [List.takeWhile_append_of_pos hrun'.accepted, List.length_append]
  exact Nat.le_add_right _ _

namespace Parser

variable {p : Parser τ α} {give : List τ → α}

/-! ## Parsers that read the longest run -/

/-- A parser that reads the longest run of accepted tokens ahead and gives what `give` makes of it. A run shorter than
the minimum is refused with its length, at the token behind it. -/
def ReadsRun (p : Parser τ α) (accepts : τ → Bool) (minimum : Nat) (maximum : Option Nat) (give : List τ → α) : Prop :=
  ∀ s, ∃ run, LongestRun accepts maximum s.rest run ∧
    p.parse s =
      if minimum ≤ run.length then .ok ⟨give run, s.advance run.length⟩
      else .error (.single (.tooFew minimum run.length) (.single (s.position + run.length)) none)

/-- A parser of one token, repeated, reads the longest run: it fails in the same way at a token that is not accepted and
at the end of the input, and a match of it is never idle. -/
theorem readsRun_accept [Describe τ] (label : String) (accepts : τ → Bool) (minimum : Nat) (maximum : Option Nat) :
    ((accept label accepts).repeated minimum maximum).ReadsRun accepts minimum maximum id := by
  intro s
  obtain ⟨run, hrun, hcollect⟩ : ∃ run, LongestRun accepts maximum s.rest run ∧
      (accept label accepts).collect maximum.isNone (maximum.getD (unboundedBudget minimum s)) minimum s =
        (run, s.advance run.length) := by
    cases maximum with
    | none => exact ⟨_, longestRun_takeWhile (by simp), collect_accept_unbounded minimum minimum s⟩
    | some n => exact ⟨_, longestRun_takeWhile (by simp [List.prefix_take_iff]), collect_accept false n minimum s⟩
  have hlength : run.length ≤ s.length := by
    rw [← length_rest]
    exact hrun.starts.length_le
  refine ⟨run, hrun, ?_⟩
  rw [parse_repeated, hcollect]
  dsimp only
  rw [position_advance_of_le hlength]
  by_cases hmin : minimum ≤ run.length
  · rw [if_neg (Nat.not_lt.2 hmin), if_pos hmin]
    rfl
  · rw [if_pos (Nat.lt_of_not_le hmin), if_neg hmin]

theorem ReadsRun.map (h : p.ReadsRun accepts minimum maximum give) (f : α → β) :
    (p.map f).ReadsRun accepts minimum maximum (f ∘ give) := by
  intro s
  obtain ⟨run, hrun, hparse⟩ := h s
  refine ⟨run, hrun, ?_⟩
  rw [parse_map, hparse]
  split <;> rfl

/-- A run without a minimum is always read. -/
theorem ReadsRun.parse_eq_ok_iff (h : p.ReadsRun accepts 0 maximum give) {s : TokenStream τ} {r : Success τ α} :
    p.parse s = .ok r ↔ ∃ run, LongestRun accepts maximum s.rest run ∧ r = ⟨give run, s.advance run.length⟩ := by
  obtain ⟨run, hrun, hparse⟩ := h s
  rw [hparse, if_pos (Nat.zero_le _), Except.ok.injEq]
  constructor
  · rintro rfl
    exact ⟨run, hrun, rfl⟩
  · rintro ⟨run', hrun', rfl⟩
    rw [hrun.unique hrun']

/-! ## A token and a run behind it -/

/-- A token is read and then the longest run behind it. -/
theorem parse_accept_and_run_iff [Describe τ] {label : String} {first : τ → Bool} (h : p.ReadsRun accepts 0 none give)
    {s : TokenStream τ} {r₁ : Success τ τ} {r₂ : Success τ α} :
    (accept label first).parse s = .ok r₁ ∧ p.parse r₁.remaining = .ok r₂ ↔
      ∃ run, s.head? = some r₁.value ∧ first r₁.value = true ∧ r₁.remaining = s.advance 1 ∧
        LongestRun accepts none (s.advance 1).rest run ∧ r₂ = ⟨give run, s.advance (1 + run.length)⟩ := by
  rw [parse_accept_eq_ok_iff, h.parse_eq_ok_iff]
  constructor
  · rintro ⟨⟨hhead, hfirst, hremaining⟩, run, hrun, rfl⟩
    rw [hremaining] at hrun
    refine ⟨run, hhead, hfirst, hremaining, hrun, ?_⟩
    rw [hremaining, advance_advance]
  · rintro ⟨run, hhead, hfirst, hremaining, hrun, rfl⟩
    rw [hremaining]
    refine ⟨⟨hhead, hfirst, rfl⟩, run, hrun, ?_⟩
    rw [advance_advance]

/-- An identifier is a character that can start one and the longest run of characters that can go on with it. -/
theorem parse_ident_eq_ok_iff_longestRun {s : TokenStream Char} {r : Success Char String} :
    ident.parse s = .ok r ↔
      ∃ c run, s.head? = some c ∧ Text.isIdentStart c = true ∧
        LongestRun Text.isIdentRest none (s.advance 1).rest run ∧
        r = ⟨String.ofList (c :: run), s.advance (1 + run.length)⟩ := by
  have htail : (satisfy Text.isIdentRest).many.ReadsRun Text.isIdentRest 0 none id := readsRun_accept _ _ 0 none
  rw [ident, parse_withLabel_eq_ok_iff, parse_map_eq_ok_iff]
  constructor
  · rintro ⟨r₀, hboth, rfl⟩
    obtain ⟨r₁, r₂, hfirst, hrest, rfl⟩ := parse_both_eq_ok_iff.1 hboth
    obtain ⟨run, hhead, hstart, -, hrun, rfl⟩ := (parse_accept_and_run_iff htail).1 ⟨hfirst, hrest⟩
    exact ⟨r₁.value, run, hhead, hstart, hrun, rfl⟩
  · rintro ⟨c, run, hhead, hstart, hrun, rfl⟩
    have hparts : (satisfy Text.isIdentStart).parse s = .ok ⟨c, s.advance 1⟩ ∧
        (satisfy Text.isIdentRest).many.parse (s.advance 1) = .ok ⟨run, s.advance (1 + run.length)⟩ :=
      (parse_accept_and_run_iff htail).2 ⟨run, hhead, hstart, rfl, hrun, rfl⟩
    exact ⟨_, parse_both_eq_ok_iff.2 ⟨_, _, hparts.1, hparts.2, rfl⟩, rfl⟩

/-- A comment is its mark and the longest run of characters of the line. -/
theorem parse_comment_eq_ok_iff_longestRun {s : TokenStream Char} {r : Success Char (List Char)} :
    Settings.comment.parse s = .ok r ↔
      s.head? = some '#' ∧ LongestRun (· ∉ ['\n']) none (s.advance 1).rest r.value ∧
        r.remaining = s.advance (1 + r.value.length) := by
  have hbody : (noneOf ['\n']).many.ReadsRun (· ∉ ['\n']) 0 none id := readsRun_accept _ _ 0 none
  rw [Settings.comment, seqRight_eq, parse_keepRight_eq_ok_iff]
  constructor
  · rintro ⟨r₁, hmark, hrest⟩
    obtain ⟨run, hhead, hvalue, -, hrun, rfl⟩ := (parse_accept_and_run_iff hbody).1 ⟨hmark, hrest⟩
    rw [of_decide_eq_true hvalue] at hhead
    exact ⟨hhead, hrun, rfl⟩
  · rintro ⟨hhead, hrun, hremaining⟩
    have hparts : (token '#').parse s = .ok ⟨'#', s.advance 1⟩ ∧ (noneOf ['\n']).many.parse (s.advance 1) = .ok r :=
      (parse_accept_and_run_iff hbody).2 ⟨r.value, hhead, rfl, rfl, hrun, congrArg (Success.mk r.value) hremaining⟩
    exact ⟨_, hparts⟩

/-! ## Token classes -/

/-- A repetition of a parser of one token with a property, in a set or outside it reads the longest run of such tokens
ahead, cut at the maximum, and where it is shorter than the minimum fails with its length, at the token behind it. So
runs of characters and of blanks are read to their last character and no further, and so are identifiers behind their
first character and comments behind their mark. -/
theorem readsRun_of_tokenClasses [Describe τ] (minimum : Nat) (maximum : Option Nat) :
    (∀ property : τ → Bool,
      ((satisfy property).repeated minimum maximum).ReadsRun property minimum maximum id) ∧
    (∀ [DecidableEq τ] (set : List τ),
      ((oneOf set).repeated minimum maximum).ReadsRun (· ∈ set) minimum maximum id ∧
        ((noneOf set).repeated minimum maximum).ReadsRun (· ∉ set) minimum maximum id) ∧
    (∀ property : Char → Bool, (charRun property).ReadsRun property 1 none String.ofList) ∧
    whitespace.ReadsRun (· ∈ Text.blanks) 0 none String.ofList ∧
    inlineWhitespace.ReadsRun (· ∈ Text.inlineBlanks) 0 none String.ofList ∧
    (∀ s r, ident.parse s = .ok r ↔
      ∃ c run, s.head? = some c ∧ Text.isIdentStart c = true ∧
        LongestRun Text.isIdentRest none (s.advance 1).rest run ∧
        r = ⟨String.ofList (c :: run), s.advance (1 + run.length)⟩) ∧
    ∀ s r, Settings.comment.parse s = .ok r ↔
      s.head? = some '#' ∧ LongestRun (· ∉ ['\n']) none (s.advance 1).rest r.value ∧
        r.remaining = s.advance (1 + r.value.length) := by
  refine ⟨?_, ?_, ?_, ?_, ?_, ?_, ?_⟩
  · exact fun property => readsRun_accept _ property minimum maximum
  · intro _ set
    exact ⟨readsRun_accept _ _ minimum maximum, readsRun_accept _ _ minimum maximum⟩
  · exact fun property => (readsRun_accept _ property 1 none).map String.ofList
  · exact (readsRun_accept _ _ 0 none).map String.ofList
  · exact (readsRun_accept _ _ 0 none).map String.ofList
  · exact fun s r => parse_ident_eq_ok_iff_longestRun
  · exact fun s r => parse_comment_eq_ok_iff_longestRun

/-- A run is cut at the maximum, and a maximum below the minimum refuses every run at the place of the cut. -/
example :
    let s := ofList ['a', 'a', 'a', 'b']
    ((satisfy (· = 'a')).repeated 1 (some 2)).parse s = .ok ⟨['a', 'a'], s.advance 2⟩ ∧
      ((satisfy (· = 'a')).repeated 3 (some 2)).parse s = .error (.single (.tooFew 3 2) ⟨2, 3⟩ none) :=
  ⟨rfl, rfl⟩

end Parser

end TokenParsing
