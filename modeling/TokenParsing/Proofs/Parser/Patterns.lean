import TokenParsing.Proofs.Parser.Words

/-!
# The tokens before a pattern

Looking for a pattern goes through the tokens ahead from the first one on, so it ends where the pattern occurs first
(`firstOccurrence_eq_some_iff`), and at the end of the tokens only if the pattern does not occur
(`firstOccurrence_eq_none_iff`). What is read up to a pattern are the fewest tokens that the pattern follows, and the
pattern can be read behind them (`parse_takeUntil_upToFirst`).
-/

namespace TokenParsing

variable {τ : Type}

/-! ## The first occurrence of a pattern -/

/-- The fewest tokens of a list that a pattern follows. -/
structure UpToFirst (pattern ts us : List τ) : Prop where
  followed : us ++ pattern <+: ts
  fewest : ∀ vs, vs ++ pattern <+: ts → us.length ≤ vs.length

theorem UpToFirst.occurs {pattern ts us : List τ} (h : UpToFirst pattern ts us) : pattern <:+: ts :=
  (List.suffix_append us pattern).isInfix.trans h.followed.isInfix

/-- No tokens are before a pattern that the list starts with. -/
theorem upToFirst_iff_of_starts {pattern ts us : List τ} (h : pattern <+: ts) : UpToFirst pattern ts us ↔ us = [] := by
  constructor
  · intro hfirst
    exact List.eq_nil_of_length_eq_zero (Nat.le_zero.1 (hfirst.fewest [] h))
  · rintro rfl
    exact ⟨h, fun vs _ => Nat.zero_le _⟩

/-- A pattern that the list does not start with occurs first where it does behind the first token. -/
theorem upToFirst_cons_iff {pattern ts us : List τ} {t : τ} (h : ¬pattern <+: t :: ts) :
    UpToFirst pattern (t :: ts) us ↔ ∃ vs, us = t :: vs ∧ UpToFirst pattern ts vs := by
  constructor
  · intro hfirst
    cases us with
    | nil => exact absurd hfirst.followed h
    | cons u us =>
      obtain ⟨rfl, hfollowed⟩ := List.cons_prefix_cons.1 hfirst.followed
      refine ⟨us, rfl, hfollowed, fun vs hvs => ?_⟩
      have hle := hfirst.fewest (u :: vs) (List.cons_prefix_cons.2 ⟨rfl, hvs⟩)
      exact Nat.le_of_succ_le_succ hle
  · rintro ⟨vs, rfl, hfirst⟩
    refine ⟨List.cons_prefix_cons.2 ⟨rfl, hfirst.followed⟩, fun ws hws => ?_⟩
    cases ws with
    | nil => exact absurd hws h
    | cons w ws =>
      have hle := hfirst.fewest ws (List.cons_prefix_cons.1 hws).2
      exact Nat.succ_le_succ hle

namespace TokenStream

variable [DecidableEq τ] {pattern ts : List τ}

/-- The search ends at once where the pattern is. -/
theorem firstOccurrence_of_starts (h : pattern <+: ts) : firstOccurrence pattern ts = some 0 := by
  cases ts with
  | nil => simp [firstOccurrence, List.prefix_nil.1 h]
  | cons t ts => simp [firstOccurrence, h]

/-- Otherwise it goes on behind the first token. -/
theorem firstOccurrence_cons {t : τ} (h : ¬pattern <+: t :: ts) :
    firstOccurrence pattern (t :: ts) = (firstOccurrence pattern ts).map (· + 1) := by
  simp [firstOccurrence, h]

/-- The search ends behind the fewest tokens that the pattern follows. -/
theorem firstOccurrence_eq_some_iff {k : Nat} :
    firstOccurrence pattern ts = some k ↔ ∃ us, UpToFirst pattern ts us ∧ us.length = k := by
  induction ts generalizing k with
  | nil =>
    by_cases hp : pattern <+: []
    · simp [firstOccurrence_of_starts hp, upToFirst_iff_of_starts hp]
    · have hnone : ∀ us, ¬UpToFirst pattern [] us := fun us h => hp (List.prefix_nil.2 (List.infix_nil.1 h.occurs))
      rw [List.prefix_nil] at hp
      simp [firstOccurrence, hp, hnone]
  | cons t ts ih =>
    by_cases hp : pattern <+: t :: ts
    · simp [firstOccurrence_of_starts hp, upToFirst_iff_of_starts hp]
    · rw [firstOccurrence_cons hp, Option.map_eq_some_iff]
      simp only [upToFirst_cons_iff hp, ih]
      constructor
      · rintro ⟨-, ⟨vs, hfirst, rfl⟩, rfl⟩
        exact ⟨t :: vs, ⟨vs, rfl, hfirst⟩, rfl⟩
      · rintro ⟨-, ⟨vs, rfl, hfirst⟩, rfl⟩
        exact ⟨vs.length, ⟨vs, hfirst, rfl⟩, rfl⟩

/-- A pattern that overlaps itself occurs first where a beginning of it has been left. -/
example : firstOccurrence ['a', 'a', 'b'] ['a', 'a', 'a', 'b'] = some 1 := by
  decide

/-- The search finds nothing exactly when the pattern does not occur. -/
theorem firstOccurrence_eq_none_iff : firstOccurrence pattern ts = none ↔ ¬pattern <:+: ts := by
  induction ts with
  | nil => simp [firstOccurrence, List.infix_nil]
  | cons t ts ih =>
    rw [List.infix_cons_iff]
    by_cases hp : pattern <+: t :: ts
    · simp [firstOccurrence_of_starts hp, hp]
    · simp [firstOccurrence_cons hp, hp, ih]

/-- A pattern that occurs in a list occurs first behind some of its tokens. -/
theorem exists_upToFirst {ts : List τ} (h : pattern <:+: ts) : ∃ us, UpToFirst pattern ts us := by
  cases hk : firstOccurrence pattern ts with
  | none => exact absurd h (firstOccurrence_eq_none_iff.1 hk)
  | some k =>
    obtain ⟨us, hfirst, -⟩ := firstOccurrence_eq_some_iff.1 hk
    exact ⟨us, hfirst⟩

end TokenStream

namespace Parser

open TokenStream

/-! ## Reading up to a pattern -/

section

variable {s : TokenStream τ}

/-- The pattern is next where the tokens before it have been consumed. -/
theorem starts_of_upToFirst {pattern us : List τ} {s' : TokenStream τ} (h : UpToFirst pattern s.rest us)
    (hconsumes : s.Consumes us s') : pattern <+: s'.rest := by
  have hfollowed := h.followed
  rwa [hconsumes.2, List.prefix_append_right_inj] at hfollowed

variable [DecidableEq τ] [Describe τ] {pattern : List τ}

/-- What is read up to a pattern are the fewest tokens that it follows. -/
theorem parse_takeUntil_eq_ok_iff {r : Success τ (List τ)} :
    (takeUntil pattern).parse s = .ok r ↔ UpToFirst pattern s.rest r.value ∧ s.Consumes r.value r.remaining := by
  rw [parse_takeUntil]
  cases hk : firstOccurrence pattern s.rest with
  | none =>
    constructor
    · intro hleft
      cases hleft
    · rintro ⟨hfirst, -⟩
      exact absurd hfirst.occurs (firstOccurrence_eq_none_iff.1 hk)
  | some k =>
    obtain ⟨us, hfirst, rfl⟩ := firstOccurrence_eq_some_iff.1 hk
    dsimp only
    rw [parse_take_eq_ok_iff]
    constructor
    · rintro ⟨hconsumes, hlength⟩
      obtain ⟨rest, hrest⟩ := hfirst.followed
      rw [hconsumes.2, List.append_assoc] at hrest
      obtain rfl := List.append_inj_left hrest hlength.symm
      exact ⟨hfirst, hconsumes⟩
    · rintro ⟨hfirst', hconsumes⟩
      have hk' := firstOccurrence_eq_some_iff.2 ⟨r.value, hfirst', rfl⟩
      rw [hk, Option.some.injEq] at hk'
      exact ⟨hconsumes, hk'.symm⟩

/-- Tokens that a pattern follows can be read up to it. -/
theorem parse_takeUntil_of_upToFirst {us : List τ} (h : UpToFirst pattern s.rest us) :
    (takeUntil pattern).parse s = .ok ⟨us, s.advance us.length⟩ := by
  obtain ⟨rest, hrest⟩ := h.followed
  rw [List.append_assoc] at hrest
  exact parse_takeUntil_eq_ok_iff.2 ⟨h, consumes_of_rest hrest.symm⟩

theorem exists_parse_takeUntil_iff : (∃ r, (takeUntil pattern).parse s = .ok r) ↔ pattern <:+: s.rest := by
  constructor
  · rintro ⟨r, hr⟩
    exact (parse_takeUntil_eq_ok_iff.1 hr).1.occurs
  · intro h
    obtain ⟨us, hfirst⟩ := exists_upToFirst h
    exact ⟨_, parse_takeUntil_of_upToFirst hfirst⟩

/-- Nothing is read up to a pattern that does not occur. -/
theorem parse_takeUntil_eq_error_iff {e : Failure} :
    (takeUntil pattern).parse s = .error e ↔ ¬pattern <:+: s.rest ∧
      e = .single (.patternNotFound (describePattern pattern)) (.single s.position) (some "take_until") := by
  by_cases h : pattern <:+: s.rest
  · obtain ⟨us, hfirst⟩ := exists_upToFirst h
    rw [parse_takeUntil_of_upToFirst hfirst]
    simp [h]
  · rw [parse_takeUntil, firstOccurrence_eq_none_iff.2 h]
    simp [h, eq_comm]

end

/-! ## Texts -/

variable {s : TokenStream Char} {pattern : String}

/-- The first characters of a list, as many as a text has, are the text exactly when the list starts with it. -/
theorem ofList_take_eq_iff {expected : String} {cs : List Char} :
    String.ofList (cs.take expected.length) = expected ↔ expected.toList <+: cs := by
  rw [List.prefix_iff_eq_take, String.length_toList, ← String.toList_inj, String.toList_ofList, eq_comm]

/-- A text is read when its characters are next. -/
theorem parse_literal_eq_ok_iff {expected : String} {r : Success Char String} :
    (literal expected).parse s = .ok r ↔ s.Consumes expected.toList r.remaining ∧ r.value = expected := by
  obtain ⟨v, s'⟩ := r
  rw [parse_literal, consumes_iff_starts, String.length_toList]
  by_cases hlength : s.length < expected.length
  · rw [if_pos hlength]
    constructor
    · intro hleft
      cases hleft
    · rintro ⟨⟨hstarts, -⟩, -⟩
      have hle := hstarts.length_le
      rw [length_rest, String.length_toList] at hle
      omega
  · rw [if_neg hlength]
    by_cases hstarts : expected.toList <+: s.rest
    · have hfound := ofList_take_eq_iff.2 hstarts
      rw [if_pos hfound, hfound, Except.ok.injEq, Success.mk.injEq]
      constructor
      · rintro ⟨rfl, rfl⟩
        exact ⟨⟨hstarts, rfl⟩, rfl⟩
      · rintro ⟨⟨-, hs'⟩, hv⟩
        exact ⟨hv.symm, hs'.symm⟩
    · rw [if_neg (mt ofList_take_eq_iff.1 hstarts)]
      constructor
      · intro hleft
        cases hleft
      · rintro ⟨⟨hstarts', -⟩, -⟩
        exact absurd hstarts' hstarts

/-- Up to a pattern of characters the same is read as a text. -/
theorem parse_takeUntilText_eq_ok_iff {r : Success Char String} :
    (takeUntilText pattern).parse s = .ok r ↔
      (takeUntil pattern.toList).parse s = .ok ⟨r.value.toList, r.remaining⟩ := by
  rw [takeUntilText, parse_mapFailure_eq_ok_iff, parse_asString_eq_ok_iff]
  constructor
  · rintro ⟨cs, h, hv⟩
    rwa [hv, String.toList_ofList]
  · intro h
    exact ⟨r.value.toList, h, String.ofList_toList.symm⟩

/-- The text before a pattern and then the pattern are read where the pattern occurs. -/
theorem parse_takeUntilText_both_literal_eq_ok_iff {r : Success Char (String × String)} :
    ((takeUntilText pattern).both (literal pattern)).parse s = .ok r ↔
      ∃ cs, UpToFirst pattern.toList s.rest cs ∧ s.Consumes (cs ++ pattern.toList) r.remaining ∧
        r.value = (String.ofList cs, pattern) := by
  rw [parse_both_eq_ok_iff]
  constructor
  · rintro ⟨r₁, r₂, h₁, h₂, rfl⟩
    obtain ⟨hfirst, hconsumes⟩ := parse_takeUntil_eq_ok_iff.1 (parse_takeUntilText_eq_ok_iff.1 h₁)
    obtain ⟨hconsumes', hv⟩ := parse_literal_eq_ok_iff.1 h₂
    refine ⟨r₁.value.toList, hfirst, hconsumes.trans hconsumes', ?_⟩
    rw [String.ofList_toList, hv]
  · rintro ⟨cs, hfirst, hconsumes, hv⟩
    obtain ⟨s₁, hbefore, hpattern⟩ := consumes_append_iff.1 hconsumes
    refine ⟨⟨String.ofList cs, s₁⟩, ⟨pattern, r.remaining⟩, ?_, parse_literal_eq_ok_iff.2 ⟨hpattern, rfl⟩, ?_⟩
    · rw [parse_takeUntilText_eq_ok_iff, parse_takeUntil_eq_ok_iff]
      dsimp only
      rw [String.toList_ofList]
      exact ⟨hfirst, hbefore⟩
    · rw [← hv]

/-- Up to a pattern a parser reads the fewest tokens that the pattern follows, and leaves the pattern; it fails exactly
when the pattern does not occur ahead. A text read up to a pattern is what is read as characters, and the pattern itself can
be read behind it. -/
theorem parse_takeUntil_upToFirst :
    (∀ {τ : Type} [DecidableEq τ] [Describe τ] (pattern : List τ) (s : TokenStream τ),
      (∀ r, (takeUntil pattern).parse s = .ok r ↔
        UpToFirst pattern s.rest r.value ∧ s.Consumes r.value r.remaining ∧ pattern <+: r.remaining.rest) ∧
      ((∃ r, (takeUntil pattern).parse s = .ok r) ↔ pattern <:+: s.rest) ∧
      (∀ e, (takeUntil pattern).parse s = .error e ↔ ¬pattern <:+: s.rest ∧
        e = .single (.patternNotFound (describePattern pattern)) (.single s.position) (some "take_until")) ∧
      (takeUntil ([] : List τ)).parse s = .ok ⟨[], s⟩) ∧
    ∀ (pattern : String) (s : TokenStream Char),
      (∀ r, (takeUntilText pattern).parse s = .ok r ↔
        (takeUntil pattern.toList).parse s = .ok ⟨r.value.toList, r.remaining⟩) ∧
      (∀ r, ((takeUntilText pattern).both (literal pattern)).parse s = .ok r ↔
        ∃ cs, UpToFirst pattern.toList s.rest cs ∧ s.Consumes (cs ++ pattern.toList) r.remaining ∧
          r.value = (String.ofList cs, pattern)) ∧
      ((∃ r, ((takeUntilText pattern).both (literal pattern)).parse s = .ok r) ↔ pattern.toList <:+: s.rest) := by
  refine ⟨fun {τ} _ _ pattern s => ⟨fun r => ?_, exists_parse_takeUntil_iff, fun e => parse_takeUntil_eq_error_iff, ?_⟩,
    fun pattern s => ⟨fun r => parse_takeUntilText_eq_ok_iff,
      fun r => parse_takeUntilText_both_literal_eq_ok_iff, ?_⟩⟩
  · rw [parse_takeUntil_eq_ok_iff]
    constructor
    · rintro ⟨hfirst, hconsumes⟩
      exact ⟨hfirst, hconsumes, starts_of_upToFirst hfirst hconsumes⟩
    · rintro ⟨hfirst, hconsumes, -⟩
      exact ⟨hfirst, hconsumes⟩
  · exact parse_takeUntil_eq_ok_iff.2 ⟨(upToFirst_iff_of_starts List.nil_prefix).2 rfl, Consumes.refl s⟩
  · constructor
    · rintro ⟨r, hr⟩
      obtain ⟨cs, hfirst, -, -⟩ := parse_takeUntilText_both_literal_eq_ok_iff.1 hr
      exact hfirst.occurs
    · intro h
      obtain ⟨cs, hfirst⟩ := exists_upToFirst h
      obtain ⟨rest, hrest⟩ := hfirst.followed
      exact ⟨⟨_, _⟩, parse_takeUntilText_both_literal_eq_ok_iff.2 ⟨cs, hfirst, consumes_of_rest hrest.symm, rfl⟩⟩

end Parser

end TokenParsing
