import TokenParsing.Proofs.Parser.Outcomes

/-!
# Delimiters in delimiters

`delimitedBy` reads what `between` reads and fails where it fails. The two say something else only where the closing is
missing: `delimitedBy` then names the opening. Delimiters may be nested in one another (`nested`). Their openings are read
from the outermost to the innermost (`Opens`) and their closings the other way round (`Closes`), so of several delimiters
that are not closed it is the innermost that is named (`parse_nested_eq_error_iff`), and the closings around it are never
looked for.
-/

namespace TokenParsing.Parser

variable {τ α β γ : Type}

/-! ## Nested delimiters -/

/-- An opening and a closing, under the name by which a missing closing is reported. -/
structure Delimiter (τ : Type) where
  /-- What the opening reads. -/
  Opening : Type
  /-- What the closing reads. -/
  Closing : Type
  /-- The name. -/
  name : String
  /-- The parser of the opening. -/
  opening : Parser τ Opening
  /-- The parser of the closing. -/
  closing : Parser τ Closing

/-- Reads `p` within delimiters that are nested in one another, the outermost first. -/
def nested (ds : List (Delimiter τ)) (p : Parser τ α) : Parser τ α :=
  ds.foldr (fun d inner => delimitedBy d.name d.opening d.closing inner) p

/-- The openings of nested delimiters are read between one stream and another, the outermost first. -/
inductive Opens : List (Delimiter τ) → TokenStream τ → TokenStream τ → Prop where
  | nil (s : TokenStream τ) : Opens [] s s
  | cons {d : Delimiter τ} {ds : List (Delimiter τ)} {s s' : TokenStream τ} {r : Success τ d.Opening}
      (h : d.opening.parse s = .ok r) (hs : Opens ds r.remaining s') : Opens (d :: ds) s s'

/-- The closings of nested delimiters are read between one stream and another, the innermost first. -/
inductive Closes : List (Delimiter τ) → TokenStream τ → TokenStream τ → Prop where
  | nil (s : TokenStream τ) : Closes [] s s
  | cons {d : Delimiter τ} {ds : List (Delimiter τ)} {s s' : TokenStream τ} {r : Success τ d.Closing}
      (hs : Closes ds s s') (h : d.closing.parse s' = .ok r) : Closes (d :: ds) s r.remaining

/-- Why a parser within nested delimiters fails: an opening is missing behind those around it, the parser itself fails
behind all of them, or a delimiter is not closed although all those inside it are. -/
inductive NestingFails (p : Parser τ α) (s : TokenStream τ) : List (Delimiter τ) → Failure → Prop where
  | opening {outer inside : List (Delimiter τ)} {d : Delimiter τ} {s₀ : TokenStream τ} {e : Failure}
      (ho : Opens outer s s₀) (he : d.opening.parse s₀ = .error e) : NestingFails p s (outer ++ d :: inside) e
  | inner {ds : List (Delimiter τ)} {s₀ : TokenStream τ} {e : Failure} (ho : Opens ds s s₀)
      (he : p.parse s₀ = .error e) : NestingFails p s ds e
  | unclosed {outer inside : List (Delimiter τ)} {d : Delimiter τ} {s₀ s₁ s₂ : TokenStream τ}
      {r : Success τ d.Opening} {r₁ : Success τ α} {e : Failure} (ho : Opens outer s s₀)
      (hd : d.opening.parse s₀ = .ok r) (hi : Opens inside r.remaining s₁) (hp : p.parse s₁ = .ok r₁)
      (hc : Closes inside r₁.remaining s₂) (he : d.closing.parse s₂ = .error e) :
      NestingFails p s (outer ++ d :: inside)
        (.single (.unclosed d.name) ⟨s₀.position, r.remaining.position⟩ (some "delimited_by"))

theorem nested_cons (d : Delimiter τ) (ds : List (Delimiter τ)) (p : Parser τ α) :
    nested (d :: ds) p = delimitedBy d.name d.opening d.closing (nested ds p) := rfl

theorem nested_append (outer inside : List (Delimiter τ)) (p : Parser τ α) :
    nested (outer ++ inside) p = nested outer (nested inside p) := by
  unfold nested
  rw [List.foldr_append]

section

variable {p : Parser τ α} {s : TokenStream τ} {e : Failure} {ds : List (Delimiter τ)}

/-- A parser is read within nested delimiters when all of them are opened before it and closed behind it. -/
theorem parse_nested_eq_ok_iff {r : Success τ α} :
    (nested ds p).parse s = .ok r ↔
      ∃ s₁ r₁, Opens ds s s₁ ∧ p.parse s₁ = .ok r₁ ∧ Closes ds r₁.remaining r.remaining ∧ r.value = r₁.value := by
  induction ds generalizing s r with
  | nil =>
    constructor
    · intro h
      exact ⟨s, r, .nil s, h, .nil _, rfl⟩
    · rintro ⟨s₁, r₁, ho, hp, hc, hv⟩
      obtain ⟨v, s'⟩ := r
      cases ho
      cases hc
      dsimp only at hv
      subst hv
      exact hp
  | cons d ds ih =>
    rw [nested_cons, parse_delimitedBy_eq_ok_iff]
    constructor
    · rintro ⟨r₀, r₂, r₃, hopen, hinner, hclose, rfl⟩
      obtain ⟨s₁, r₁, ho, hp, hc, hv⟩ := ih.1 hinner
      exact ⟨s₁, r₁, .cons hopen ho, hp, .cons hc hclose, hv⟩
    · rintro ⟨s₁, r₁, ho, hp, hc, hv⟩
      obtain ⟨v, s'⟩ := r
      cases ho with
      | cons hopen ho =>
        cases hc with
        | @cons _ _ _ s₂ r₃ hc hclose =>
          refine ⟨_, ⟨v, s₂⟩, r₃, hopen, ih.2 ⟨s₁, r₁, ho, hp, hc, hv⟩, hclose, rfl⟩

/-- What fails behind the openings of nested delimiters fails within them. -/
theorem parse_nested_of_error {s₁ : TokenStream τ} (ho : Opens ds s s₁) (he : p.parse s₁ = .error e) :
    (nested ds p).parse s = .error e := by
  induction ho with
  | nil => exact he
  | cons hopen _ ih =>
    rw [nested_cons]
    exact parse_delimitedBy_eq_error_iff.2 (Or.inr ⟨_, hopen, Or.inl (ih he)⟩)

/-- A failure within one delimiter more is the same failure. -/
theorem NestingFails.cons {d : Delimiter τ} {r : Success τ d.Opening} (hopen : d.opening.parse s = .ok r)
    (h : NestingFails p r.remaining ds e) : NestingFails p s (d :: ds) e := by
  cases h with
  | opening ho he =>
    rw [← List.cons_append]
    exact .opening (.cons hopen ho) he
  | inner ho he => exact .inner (.cons hopen ho) he
  | unclosed ho hd hi hp hc he =>
    rw [← List.cons_append]
    exact .unclosed (.cons hopen ho) hd hi hp hc he

/-- Within nested delimiters a parser fails for one of three reasons. Of the delimiters that are not closed the innermost
one is named, at its opening. -/
theorem parse_nested_eq_error_iff : (nested ds p).parse s = .error e ↔ NestingFails p s ds e := by
  constructor
  · intro h
    induction ds generalizing s e with
    | nil => exact .inner (.nil s) h
    | cons d ds ih =>
      rw [nested_cons] at h
      rcases parse_delimitedBy_eq_error_iff.1 h with hopen | ⟨r, hopen, hinner | ⟨r₁, e₁, hinner, hclose, rfl⟩⟩
      · rw [← List.nil_append (d :: ds)]
        exact .opening (.nil s) hopen
      · exact (ih hinner).cons hopen
      · obtain ⟨s₁, r₂, hi, hp, hc, -⟩ := parse_nested_eq_ok_iff.1 hinner
        rw [← List.nil_append (d :: ds)]
        exact .unclosed (.nil s) hopen hi hp hc hclose
  · intro h
    cases h with
    | opening ho he =>
      rw [nested_append, nested_cons]
      exact parse_nested_of_error ho (parse_delimitedBy_eq_error_iff.2 (Or.inl he))
    | inner ho he => exact parse_nested_of_error ho he
    | @unclosed outer inside d s₀ s₁ s₂ r r₁ e₁ ho hd hi hp hc he =>
      have hinner : (nested inside p).parse r.remaining = .ok ⟨r₁.value, s₂⟩ :=
        parse_nested_eq_ok_iff.2 ⟨s₁, r₁, hi, hp, hc, rfl⟩
      rw [nested_append, nested_cons]
      exact parse_nested_of_error ho
        (parse_delimitedBy_eq_error_iff.2 (Or.inr ⟨r, hd, Or.inr ⟨_, _, hinner, he, rfl⟩⟩))

end

/-- A delimited parser reads what is read between the same opening and closing. A failure of the opening, or of what is
inside, is the failure of both. Where the closing is missing, what it says is lost: the failure names the delimiter, at the
opening. Where delimiters are nested, it names the innermost one that is not closed. -/
theorem parse_delimitedBy_refines_between (delimiter : String) (opening : Parser τ β) (closing : Parser τ γ)
    (inner : Parser τ α) (s : TokenStream τ) :
    (∀ r, (delimitedBy delimiter opening closing inner).parse s = .ok r ↔
      (inner.between opening closing).parse s = .ok r) ∧
    (∀ e, opening.parse s = .error e →
      (delimitedBy delimiter opening closing inner).parse s = .error e ∧
        (inner.between opening closing).parse s = .error e) ∧
    (∀ r e, opening.parse s = .ok r → inner.parse r.remaining = .error e →
      (delimitedBy delimiter opening closing inner).parse s = .error e ∧
        (inner.between opening closing).parse s = .error e) ∧
    (∀ r r₁ e, opening.parse s = .ok r → inner.parse r.remaining = .ok r₁ →
      closing.parse r₁.remaining = .error e →
      (delimitedBy delimiter opening closing inner).parse s =
          .error (.single (.unclosed delimiter) ⟨s.position, r.remaining.position⟩ (some "delimited_by")) ∧
        (inner.between opening closing).parse s = .error e) ∧
    ∀ (ds : List (Delimiter τ)) (e : Failure), (nested ds inner).parse s = .error e ↔ NestingFails inner s ds e := by
  refine ⟨?_, ?_, ?_, ?_, ?_⟩
  · intro r
    rw [parse_delimitedBy_eq_ok_iff, parse_between_eq_ok_iff]
  · intro e ho
    rw [parse_delimitedBy, parse_between]
    simp [ho]
  · intro r e ho hi
    rw [parse_delimitedBy, parse_between]
    simp [ho, hi]
  · intro r r₁ e ho hi hc
    rw [parse_delimitedBy, parse_between]
    simp [ho, hi, hc]
  · intro ds e
    exact parse_nested_eq_error_iff

/-- Neither the parenthesis nor the bracket in it is closed: the bracket is named. -/
theorem parse_delimitedBy_refines_between_of_bracket :
    (nested [⟨Char, Char, "'('", token '(', token ')'⟩, ⟨Char, Char, "'['", token '[', token ']'⟩] (token 'a')).parse
      (.ofText "([a") = .error (.single (.unclosed "'['") ⟨1, 2⟩ (some "delimited_by")) := by
  obtain ⟨-, -, -, -, hnested⟩ := parse_delimitedBy_refines_between "'['" (token '[') (token ']') (token 'a')
    (.ofText "([a")
  have hparen : (token '(').parse (.ofText "([a") = .ok ⟨'(', (TokenStream.ofText "([a").advance 1⟩ := by rfl
  have hbracket : (token '[').parse ((TokenStream.ofText "([a").advance 1) =
      .ok ⟨'[', (TokenStream.ofText "([a").advance 2⟩ := by rfl
  have ha : (token 'a').parse ((TokenStream.ofText "([a").advance 2) =
      .ok ⟨'a', (TokenStream.ofText "([a").advance 3⟩ := by rfl
  have hclose : (token ']').parse ((TokenStream.ofText "([a").advance 3) =
      .error (.single .endOfInput ⟨3, 4⟩ (some "take_any")) := by rfl
  have ho : Opens [⟨Char, Char, "'('", token '(', token ')'⟩] (.ofText "([a")
      ((TokenStream.ofText "([a").advance 1) := .cons hparen (.nil _)
  have hfails := NestingFails.unclosed (d := ⟨Char, Char, "'['", token '[', token ']'⟩) ho hbracket (.nil _) ha
    (.nil _) hclose
  exact (hnested _ _).2 hfails

end TokenParsing.Parser
