import TokenParsing.Proofs.Parser.Built
import TokenParsing.Proofs.Parser.Outcomes

/-!
# Parsing further along

What a parser answers depends on the tokens ahead, not on where they stand: run further along, it gives the same value
and leaves the same tokens, and all positions in the answer move with it (`Parser.Equivariant`). Every combinator keeps
that property. The exceptions are the ways to make a parser that let an author see or choose positions, the features of
`Built`; a built parser that uses one of them is only known to answer alike at the same position. That is enough for
streams with the same tokens ahead there: they may differ in the tokens already consumed, which no built parser sees
(`parse_of_same_ahead`), and so may equal streams (`parse_of_beq`).
-/

namespace TokenParsing

/-! ## Moving failures -/

/-- A single place further along is the place, moved. -/
theorem Span.single_add (position distance : Nat) :
    Span.single (position + distance) = (Span.single position).shift distance := by
  simp only [Span.single, Span.shift, Nat.add_right_comm]

/-- A span moved nowhere is the span. -/
theorem Span.shift_zero (sp : Span) : sp.shift 0 = sp := rfl

/-- The span over two moves with them. -/
theorem Span.shift_merge (distance : Nat) (sp sp' : Span) :
    (sp.merge sp').shift distance = (sp.shift distance).merge (sp'.shift distance) := by
  simp only [Span.merge, Span.shift, Nat.add_min_add_right, Nat.add_max_add_right]

namespace Failure

/-- The failure moved `distance` positions away from the origin, and with it the failures that it combines. -/
def shift (distance : Nat) : Failure → Failure
  | single c sp l => single c (sp.shift distance) l
  | combined f g sp l => combined (f.shift distance) (g.shift distance) (sp.shift distance) l

variable (distance : Nat) (f g : Failure)

@[simp] theorem span_shift : (f.shift distance).span = f.span.shift distance := by
  cases f <;> rfl

@[simp] theorem label_shift : (f.shift distance).label = f.label := by
  cases f <;> rfl

@[simp] theorem code_shift : (f.shift distance).code = f.code := by
  cases f <;> rfl

/-- Messages name no positions. -/
@[simp] theorem message_shift : (f.shift distance).message = f.message := by
  induction f with
  | single c sp l => rfl
  | combined f g sp l ihf ihg => rw [shift, message_combined, message_combined, ihf, ihg]

/-- A label is set before or after a failure is moved. -/
theorem shift_withLabel (l : String) : (f.withLabel l).shift distance = (f.shift distance).withLabel l := by
  cases f <;> rfl

/-- Failures are combined before or after they are moved. -/
theorem shift_combine : (combine f g).shift distance = combine (f.shift distance) (g.shift distance) := by
  rw [combine, combine, shift, span_shift, span_shift, Span.shift_merge]

/-- A failure moved nowhere is the failure. -/
theorem shift_zero : f.shift 0 = f := by
  induction f with
  | single c sp l => rfl
  | combined f g sp l ihf ihg => rw [shift, ihf, ihg, Span.shift_zero]

end Failure

/-! ## Moving streams and outcomes -/

/-- The same tokens are ahead of two streams, of the second `distance` positions further along. -/
structure TokenStream.ShiftedBy {τ : Type} (distance : Nat) (s s' : TokenStream τ) : Prop where
  rest_eq : s'.rest = s.rest
  position_eq : s'.position = s.position + distance

namespace TokenStream.ShiftedBy

variable {τ : Type} {distance : Nat} {s s' : TokenStream τ}

/-- The same token is next. -/
theorem head?_eq (h : s.ShiftedBy distance s') : s'.head? = s.head? := by
  rw [← head?_rest, ← head?_rest, h.rest_eq]

/-- As many tokens are ahead. -/
theorem length_eq (h : s.ShiftedBy distance s') : s'.length = s.length := by
  rw [← length_rest, ← length_rest, h.rest_eq]

/-- The same number of tokens is consumed of both. -/
theorem advance (h : s.ShiftedBy distance s') (n : Nat) : (s.advance n).ShiftedBy distance (s'.advance n) where
  rest_eq := by rw [rest_advance, rest_advance, h.rest_eq]
  position_eq := by rw [position_advance, position_advance, h.length_eq, h.position_eq, Nat.add_right_comm]

end TokenStream.ShiftedBy

/-- A stream over tokens behind others, those others consumed, is the stream of the tokens alone, further along. -/
theorem TokenStream.shiftedBy_append {τ : Type} (pre rest : List τ) :
    (ofList rest).ShiftedBy pre.length ((ofList (pre ++ rest)).advance pre.length) where
  rest_eq := by rw [rest_advance, rest_ofList, rest_ofList, List.drop_left]
  position_eq := by
    rw [position_advance_of_le, position_ofList, position_ofList]
    simp

/-- Two answers agree, but for positions: those of the second are `distance` further along. -/
inductive Outcome.ShiftedBy {τ α : Type} (distance : Nat) : Outcome τ α → Outcome τ α → Prop where
  | ok {v : α} {s s' : TokenStream τ} (h : s.ShiftedBy distance s') : ShiftedBy distance (.ok ⟨v, s⟩) (.ok ⟨v, s'⟩)
  | error (e : Failure) : ShiftedBy distance (.error e) (.error (e.shift distance))

/-- Failures at the next token of two streams agree when the streams do. -/
theorem Outcome.ShiftedBy.error_single {τ α : Type} {distance : Nat} {s s' : TokenStream τ}
    (h : s.ShiftedBy distance s') (c : Cause) (l : Option String) :
    Outcome.ShiftedBy (τ := τ) (α := α) distance (.error (.single c (.single s.position) l))
      (.error (.single c (.single s'.position) l)) := by
  rw [h.position_eq, Span.single_add]
  exact .error _

namespace Parser

open TokenStream

variable {τ α β : Type} {distance : Nat}

/-- A parser whose answers move with its input. -/
def Equivariant (distance : Nat) (p : Parser τ α) : Prop :=
  ∀ s s', s.ShiftedBy distance s' → Outcome.ShiftedBy distance (p.parse s) (p.parse s')

/-- Two runs of a parser whose answers move with its input: both succeed or both fail. -/
theorem Equivariant.answers {p : Parser τ α} (hp : p.Equivariant distance) {s s' : TokenStream τ}
    (h : s.ShiftedBy distance s') :
    (∃ v s₁ s₁', p.parse s = .ok ⟨v, s₁⟩ ∧ p.parse s' = .ok ⟨v, s₁'⟩ ∧ s₁.ShiftedBy distance s₁') ∨
      ∃ e, p.parse s = .error e ∧ p.parse s' = .error (e.shift distance) := by
  have hs := hp s s' h
  generalize p.parse s = o, p.parse s' = o' at hs
  cases hs with
  | ok h₁ => exact Or.inl ⟨_, _, _, rfl, rfl, h₁⟩
  | error e => exact Or.inr ⟨e, rfl, rfl⟩

/-! ## Primitives -/

/-- A value that is given tells no position. -/
theorem equivariant_succeed (a : α) : (succeed a : Parser τ α).Equivariant distance :=
  fun _ _ h => .ok h

/-- A parser that always fails at the next token. -/
theorem equivariant_of_single {p : Parser τ α} {c : Cause} {l : Option String}
    (h : ∀ s, p.parse s = .error (.single c (.single s.position) l)) : p.Equivariant distance := by
  intro s s' hs
  rw [h, h]
  exact .error_single hs c l

/-- A failure of the author's choice does not move. -/
theorem equivariant_reject (f : Failure) : (reject f : Parser τ α).Equivariant 0 := by
  intro s s' _
  have h : Outcome.ShiftedBy 0 (.error f : Outcome τ α) (.error (f.shift 0)) := .error f
  rwa [f.shift_zero] at h

/-- The next token is the same wherever it stands. -/
theorem equivariant_anyToken : (anyToken : Parser τ τ).Equivariant distance := by
  intro s s' h
  rw [parse_anyToken, parse_anyToken, h.head?_eq]
  cases s.head? with
  | none => exact .error_single h _ _
  | some t => exact .ok (h.advance 1)

/-- Whether enough tokens are ahead does not depend on the place. -/
theorem equivariant_take (n : Nat) : (take n : Parser τ (List τ)).Equivariant distance := by
  intro s s' h
  rw [parse_take, parse_take, h.length_eq, h.rest_eq]
  split
  · exact .error_single h _ _
  · exact .ok (h.advance n)

/-- Whether a token is accepted does not depend on its place. -/
theorem equivariant_accept [Describe τ] (label : String) (accepts : τ → Bool) :
    (accept label accepts).Equivariant distance := by
  intro s s' h
  rw [parse_accept, parse_accept, h.head?_eq]
  cases s.head? with
  | none => exact .error_single h _ _
  | some t =>
    dsimp only
    split
    · exact .ok (h.advance 1)
    · exact .error_single h _ _

/-- A pattern first occurs as far ahead as before. -/
theorem equivariant_takeUntil [DecidableEq τ] [Describe τ] (pattern : List τ) :
    (takeUntil pattern).Equivariant distance := by
  intro s s' h
  rw [parse_takeUntil, parse_takeUntil, h.rest_eq]
  cases firstOccurrence pattern s.rest with
  | none => exact .error_single h _ _
  | some k => exact equivariant_take k s s' h

/-- The input ends as far ahead as before. -/
theorem equivariant_endOfInput [Describe τ] : (endOfInput : Parser τ Unit).Equivariant distance := by
  intro s s' h
  rw [parse_endOfInput, parse_endOfInput, h.head?_eq]
  cases s.head? with
  | none => exact .ok h
  | some t => exact .error_single h _ _

/-- The failure of a literal spans all of its characters. -/
theorem equivariant_literal (expected : String) : (literal expected).Equivariant distance := by
  intro s s' h
  rw [parse_literal, parse_literal, h.length_eq, h.rest_eq]
  split
  · exact .error_single h _ _
  · split
    · exact .ok (h.advance _)
    · rw [h.position_eq, Nat.add_right_comm]
      exact .error _

/-! ## Combinators -/

/-- The second part of a sequence starts further along by the same distance, as its value is the same. -/
theorem Equivariant.bind {p : Parser τ α} {f : α → Parser τ β} (hp : p.Equivariant distance)
    (hf : ∀ a, (f a).Equivariant distance) : (p.bind f).Equivariant distance := by
  intro s s' h
  rw [parse_bind, parse_bind]
  rcases hp.answers h with ⟨v, s₁, s₁', hr, hr', h₁⟩ | ⟨e, he, he'⟩
  · rw [hr, hr']
    exact hf v s₁ s₁' h₁
  · rw [he, he']
    exact .error e

/-- So does the second part when the first value is dropped. -/
theorem Equivariant.keepRight {p : Parser τ α} {q : Parser τ β} (hp : p.Equivariant distance)
    (hq : q.Equivariant distance) : (p.keepRight q).Equivariant distance :=
  hp.bind fun _ => hq

/-- A function of the value sees no position. -/
theorem Equivariant.map (f : α → β) {p : Parser τ α} (hp : p.Equivariant distance) :
    (p.map f).Equivariant distance := by
  intro s s' h
  rw [parse_map, parse_map]
  rcases hp.answers h with ⟨v, s₁, s₁', hr, hr', h₁⟩ | ⟨e, he, he'⟩
  · rw [hr, hr']
    exact .ok h₁
  · rw [he, he']
    exact .error e

/-- The parts of a pair move together. -/
theorem Equivariant.both {p : Parser τ α} {q : Parser τ β} (hp : p.Equivariant distance)
    (hq : q.Equivariant distance) : (p.both q).Equivariant distance := by
  intro s s' h
  rw [parse_both, parse_both]
  rcases hp.answers h with ⟨v, s₁, s₁', hr, hr', h₁⟩ | ⟨e, he, he'⟩
  · rw [hr, hr']
    dsimp only
    rcases hq.answers h₁ with ⟨w, s₂, s₂', hr, hr', h₂⟩ | ⟨e, he, he'⟩
    · rw [hr, hr']
      exact .ok h₂
    · rw [he, he']
      exact .error e
  · rw [he, he']
    exact .error e

/-- The two alternatives of a choice fail at places that move together, so the span of both moves with them. -/
theorem Equivariant.orElse {p q : Parser τ α} (hp : p.Equivariant distance) (hq : q.Equivariant distance) :
    (p.orElse q).Equivariant distance := by
  intro s s' h
  rw [parse_orElse, parse_orElse]
  rcases hp.answers h with ⟨v, s₁, s₁', hr, hr', h₁⟩ | ⟨e, he, he'⟩
  · rw [hr, hr']
    exact .ok h₁
  · rw [he, he']
    dsimp only
    rcases hq.answers h with ⟨v, s₁, s₁', hr, hr', h₁⟩ | ⟨e', he, he'⟩
    · rw [hr, hr']
      exact .ok h₁
    · rw [he, he']
      dsimp only
      rw [← Failure.shift_combine]
      exact .error _

/-- An optional part is absent at both places or at neither. -/
theorem Equivariant.optional {p : Parser τ α} (hp : p.Equivariant distance) : p.optional.Equivariant distance := by
  intro s s' h
  rw [parse_optional, parse_optional]
  rcases hp.answers h with ⟨v, s₁, s₁', hr, hr', h₁⟩ | ⟨e, he, he'⟩
  · rw [hr, hr']
    exact .ok h₁
  · rw [he, he']
    exact .ok h

/-- A failure changed in a way that does not look at positions moves as it did before. -/
theorem Equivariant.mapFailure {f : Failure → Failure} (hf : ∀ e, f (e.shift distance) = (f e).shift distance)
    {p : Parser τ α} (hp : p.Equivariant distance) : (p.mapFailure f).Equivariant distance := by
  intro s s' h
  rw [parse_mapFailure, parse_mapFailure]
  rcases hp.answers h with ⟨v, s₁, s₁', hr, hr', h₁⟩ | ⟨e, he, he'⟩
  · rw [hr, hr']
    exact .ok h₁
  · rw [he, he', mapError_error, mapError_error, hf]
    exact .error (f e)

/-- A label names no position. -/
theorem Equivariant.withLabel (l : String) {p : Parser τ α} (hp : p.Equivariant distance) :
    (p.withLabel l).Equivariant distance := by
  intro s s' h
  rw [parse_withLabel, parse_withLabel, ← parse_mapFailure, ← parse_mapFailure]
  exact hp.mapFailure (fun e => (e.shift_withLabel distance l).symm) s s' h

/-- The span that was read is part of the value, so it must not move. -/
theorem Equivariant.spanned {p : Parser τ α} (hp : p.Equivariant 0) : p.spanned.Equivariant 0 := by
  intro s s' h
  rw [parse_spanned, parse_spanned]
  rcases hp.answers h with ⟨v, s₁, s₁', hr, hr', h₁⟩ | ⟨e, he, he'⟩
  · rw [hr, hr', h.position_eq]
    dsimp only
    rw [h₁.position_eq]
    exact .ok h₁
  · rw [he, he']
    exact .error e

/-- Collecting makes the same matches further along: whether a match reads something does not depend on the place. -/
theorem Equivariant.collect {p : Parser τ α} (hp : p.Equivariant distance) (untilIdle : Bool) (budget owed : Nat)
    {s s' : TokenStream τ} (h : s.ShiftedBy distance s') :
    (p.collect untilIdle budget owed s').1 = (p.collect untilIdle budget owed s).1 ∧
      (p.collect untilIdle budget owed s).2.ShiftedBy distance (p.collect untilIdle budget owed s').2 := by
  induction budget generalizing owed s s' with
  | zero => exact ⟨rfl, h⟩
  | succ budget ih =>
    rw [Parser.collect, Parser.collect]
    rcases hp.answers h with ⟨v, s₁, s₁', hr, hr', h₁⟩ | ⟨e, he, he'⟩
    · -- the test for progress compares two positions, and both have moved
      have hidle : decide (s₁'.position ≤ s'.position) = decide (s₁.position ≤ s.position) := by
        simp only [h₁.position_eq, h.position_eq, Nat.add_le_add_iff_right]
      rw [hr, hr']
      dsimp only
      rw [hidle]
      split
      · exact ⟨rfl, h₁⟩
      · obtain ⟨hvalues, hstreams⟩ := ih (owed - 1) h₁
        exact ⟨congrArg (v :: ·) hvalues, hstreams⟩
    · rw [he, he']
      exact ⟨rfl, h⟩

/-- A repetition collects the same matches and stops further along by the same distance. -/
theorem Equivariant.repeated (minimum : Nat) (maximum : Option Nat) {p : Parser τ α} (hp : p.Equivariant distance) :
    (p.repeated minimum maximum).Equivariant distance := by
  intro s s' h
  have hbudget : unboundedBudget minimum s' = unboundedBudget minimum s := by
    rw [unboundedBudget, unboundedBudget, h.length_eq]
  obtain ⟨hvalues, hstreams⟩ :=
    hp.collect maximum.isNone (maximum.getD (unboundedBudget minimum s)) minimum h
  rw [parse_repeated, parse_repeated, hbudget]
  dsimp only
  rw [hvalues]
  split
  · exact .error_single hstreams _ _
  · exact .ok hstreams

/-- The text of a pattern is named the same at any place. -/
theorem equivariant_takeUntilText (pattern : String) : (takeUntilText pattern).Equivariant distance := by
  refine ((equivariant_takeUntil _).map _).mapFailure fun e => ?_
  cases e with
  | combined f g sp l => rfl
  | single c sp l => cases c <;> rfl

/-! ## Built parsers -/

/-- A built parser answers alike further along if its author can neither see nor choose positions; any built parser
does at the same position. -/
theorem Built.equivariant {features : List Feature} (hfeatures : features ≠ [] → distance = 0) {p : Parser τ α}
    (h : Built features p) : p.Equivariant distance := by
  have hzero : ∀ {f : Feature}, f ∈ features → distance = 0 := fun hf => hfeatures (List.ne_nil_of_mem hf)
  induction h with
  | succeed a => exact equivariant_succeed a
  | zero => exact equivariant_of_single parse_zero
  | fail message => exact equivariant_of_single (parse_fail message)
  | unexpected found => exact equivariant_of_single (parse_unexpected found)
  | reject hf f =>
    obtain rfl := hzero hf
    exact equivariant_reject f
  | anyToken => exact equivariant_anyToken
  | take n => exact equivariant_take n
  | accept label accepts => exact equivariant_accept label accepts
  | takeUntil pattern => exact equivariant_takeUntil pattern
  | endOfInput => exact equivariant_endOfInput
  | literal expected => exact equivariant_literal expected
  | takeUntilText pattern => exact equivariant_takeUntilText pattern
  | bind _ _ ihp ihf => exact ihp.bind ihf
  | map f _ ih => exact ih.map f
  | both _ _ ihp ihq => exact ihp.both ihq
  | orElse _ _ ihp ihq => exact ihp.orElse ihq
  | optional _ ih => exact ih.optional
  | repeated minimum maximum _ ih => exact ih.repeated minimum maximum
  | withLabel l _ ih => exact ih.withLabel l
  | mapFailure hf f _ ih =>
    obtain rfl := hzero hf
    exact ih.mapFailure fun e => by rw [Failure.shift_zero, Failure.shift_zero]
  | spanned hf _ ih =>
    obtain rfl := hzero hf
    exact ih.spanned

/-- A built parser whose author can neither see nor choose positions answers after consumed tokens as it does on the
tokens ahead alone: it gives the same value and leaves the same tokens, and the positions in its answer, among them
those in every failure that a failure combines, are further along by the number of consumed tokens. -/
theorem parse_after_consumed {p : Parser τ α} (h : Built [] p) (pre rest : List τ) :
    (∀ r, p.parse (ofList rest) = .ok r →
      ∃ r', p.parse ((ofList (pre ++ rest)).advance pre.length) = .ok r' ∧ r'.value = r.value ∧
        r'.remaining.rest = r.remaining.rest ∧ r'.remaining.position = r.remaining.position + pre.length) ∧
    ∀ e, p.parse (ofList rest) = .error e →
      p.parse ((ofList (pre ++ rest)).advance pre.length) = .error (e.shift pre.length) ∧
        (e.shift pre.length).code = e.code ∧ (e.shift pre.length).message = e.message ∧
        (e.shift pre.length).label = e.label := by
  have hp : p.Equivariant pre.length := h.equivariant fun hne => absurd rfl hne
  rcases hp.answers (shiftedBy_append pre rest) with ⟨v, s₁, s₁', hr, hr', h₁⟩ | ⟨e₁, he, he'⟩
  · refine ⟨fun r hok => ?_, fun e hfail => (nomatch hr.symm.trans hfail)⟩
    cases hr.symm.trans hok
    exact ⟨⟨v, s₁'⟩, hr', rfl, h₁.rest_eq, h₁.position_eq⟩
  · refine ⟨fun r hok => (nomatch he.symm.trans hok), fun e hfail => ?_⟩
    cases he.symm.trans hfail
    exact ⟨he', Failure.code_shift _ _, Failure.message_shift _ _, Failure.label_shift _ _⟩

/-- The second of two alternatives gets further than the first; both places move past the two characters consumed. -/
theorem parse_after_consumed_of_choice :
    ∃ e, ((token 'b').many1 <|> (token 'a').repeated 3 none).parse (ofList ['a', 'a', 'c']) = .error e ∧
      e.span = ⟨0, 3⟩ ∧
      ((token 'b').many1 <|> (token 'a').repeated 3 none).parse ((ofList ['x', 'y', 'a', 'a', 'c']).advance 2) =
        .error (e.shift 2) ∧
      (e.shift 2).span = ⟨2, 5⟩ := by
  have hbuilt : Built [] ((token 'b').many1 <|> (token 'a').repeated 3 none) :=
    (built_token _).many1.orElse ((built_token _).repeated 3 none)
  exact ⟨_, rfl, rfl, ((parse_after_consumed hbuilt ['x', 'y'] ['a', 'a', 'c']).2 _ rfl).1, rfl⟩

/-! ## Streams with the same tokens ahead -/

/-- No built parser sees consumed tokens: on streams with the same tokens ahead at the same position it either succeeds
with the same value and leaves streams that are alike again, or fails with the same failure. -/
theorem parse_of_same_ahead {features : List Feature} {p : Parser τ α} (h : Built features p) {s s' : TokenStream τ}
    (hposition : s.position = s'.position) (hrest : s.rest = s'.rest) :
    (∃ v s₁ s₁', p.parse s = .ok ⟨v, s₁⟩ ∧ p.parse s' = .ok ⟨v, s₁'⟩ ∧ s₁.position = s₁'.position ∧
        s₁.rest = s₁'.rest) ∨
      ∃ e, p.parse s = .error e ∧ p.parse s' = .error e := by
  have hp : p.Equivariant 0 := h.equivariant fun _ => rfl
  rcases hp.answers ⟨hrest.symm, hposition.symm⟩ with ⟨v, s₁, s₁', hr, hr', h₁⟩ | ⟨e, he, he'⟩
  · exact Or.inl ⟨v, s₁, s₁', hr, hr', h₁.position_eq.symm, h₁.rest_eq.symm⟩
  · rw [e.shift_zero] at he'
    exact Or.inr ⟨e, he, he'⟩

/-- Equal streams have the same tokens ahead at the same position; their buffers may differ in the tokens already
consumed. -/
theorem beq_iff_same_ahead [DecidableEq τ] {s s' : TokenStream τ} :
    (s == s') = true ↔ s.position = s'.position ∧ s.rest = s'.rest := by
  show (s.position == s'.position && s.rest == s'.rest) = true ↔ _
  rw [Bool.and_eq_true, beq_iff_eq, beq_iff_eq]

/-- On equal streams a built parser either succeeds with the same value and leaves equal streams, or fails with the same
failure. Streams are equal here when their tokens are the same ones. Tokens that carry numbers can also be compared by
the numbers' own equality, to which the two zeros are equal and not-a-number is not equal to itself; a parser may tell
tokens apart that are equal in that sense, and `parse_of_same_ahead` is what holds of them. -/
theorem parse_of_beq [DecidableEq τ] {features : List Feature} {p : Parser τ α} (h : Built features p)
    {s s' : TokenStream τ} (heq : (s == s') = true) :
    (∃ v s₁ s₁', p.parse s = .ok ⟨v, s₁⟩ ∧ p.parse s' = .ok ⟨v, s₁'⟩ ∧ (s₁ == s₁') = true) ∨
      ∃ e, p.parse s = .error e ∧ p.parse s' = .error e := by
  obtain ⟨hposition, hrest⟩ := beq_iff_same_ahead.1 heq
  rcases parse_of_same_ahead h hposition hrest with ⟨v, s₁, s₁', hr, hr', h₁⟩ | hfails
  · exact Or.inl ⟨v, s₁, s₁', hr, hr', beq_iff_same_ahead.2 h₁⟩
  · exact Or.inr hfails

/-- The group that is not closed is reported at the same place whatever was read before it. -/
theorem parse_of_beq_of_unclosed_group :
    let s : TokenStream Char := ⟨#['x', '(', 'a'], 1, by decide⟩
    let s' : TokenStream Char := ⟨#['(', '(', 'a'], 1, by decide⟩
    (s == s') = true ∧
      ∃ e, (delimitedBy "(" (token '(') (token ')') (token 'a').many).parse s = .error e ∧
        (delimitedBy "(" (token '(') (token ')') (token 'a').many).parse s' = .error e ∧ e.span = ⟨1, 2⟩ := by
  intro s s'
  have hbuilt : Built [.mapFailure, .spanned] (delimitedBy "(" (token '(') (token ')') (token 'a').many) :=
    .delimitedBy (by simp) (by simp) _ (built_token _) (built_token _) (built_token _).many
  have heq : (s == s') = true := by decide
  refine ⟨heq, ?_⟩
  rcases parse_of_beq hbuilt heq with ⟨v, s₁, s₁', hr, -⟩ | ⟨e, he, he'⟩
  · nomatch hr
  · refine ⟨e, he, he', ?_⟩
    cases he
    rfl

end Parser

end TokenParsing
