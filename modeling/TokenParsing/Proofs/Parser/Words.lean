import TokenParsing.Parser.Text
import TokenParsing.Proofs.Parser.Runs

/-!
# Words, blanks and digits

What the parsers of characters read, as the characters they consume and the character they stop at: runs of digits and
blanks, identifiers, single characters.
-/

namespace TokenParsing.Parser

open TokenParsing.TokenStream

variable {s : TokenStream Char}

/-- The characters read make up the text. -/
theorem parse_asString_eq_ok_iff {τ : Type} {s : TokenStream τ} {p : Parser τ (List Char)} {r : Success τ String} :
    p.asString.parse s = .ok r ↔ ∃ cs, p.parse s = .ok ⟨cs, r.remaining⟩ ∧ r.value = String.ofList cs := by
  rw [asString, parse_map_eq_ok_iff]
  refine ⟨fun hleft => ?_, fun hright => ?_⟩
  · obtain ⟨⟨cs, s'⟩, h, rfl⟩ := hleft
    exact ⟨cs, h, rfl⟩
  · obtain ⟨cs, h, hv⟩ := hright
    refine ⟨⟨cs, r.remaining⟩, h, ?_⟩
    rw [Success.map, ← hv]

/-- A given character is read if it is next. -/
theorem parse_token_eq_ok_iff {c : Char} {r : Success Char Char} :
    (token c).parse s = .ok r ↔ s.Consumes [c] r.remaining ∧ r.value = c := by
  rw [token, parse_accept_eq_ok_iff_consumes, decide_eq_true_eq]
  refine ⟨fun hleft => ?_, fun hright => ?_⟩
  · obtain ⟨h, rfl⟩ := hleft
    exact ⟨h, rfl⟩
  · obtain ⟨h, rfl⟩ := hright
    exact ⟨h, rfl⟩

/-- A parser of one character fails exactly where another character, or none, is next. -/
theorem parse_token_eq_error_iff {c : Char} :
    (∃ e, (token c).parse s = .error e) ↔ StopsAt (· = c) s.rest :=
  parse_accept_eq_error_iff

/-- The parser of an optional character reads it if it is next, and nothing otherwise. -/
theorem parse_skipChar_eq_ok_iff {c : Char} {r : Success Char Unit} :
    (skipChar c).parse s = .ok r ↔ s.Consumes [c] r.remaining ∨ StopsAt (· = c) s.rest ∧ r.remaining = s := by
  rw [skipChar, parse_map_eq_ok_iff]
  refine ⟨fun hleft => ?_, fun hright => ?_⟩
  · obtain ⟨r₁, hoptional, rfl⟩ := hleft
    rcases parse_optional_eq_ok_iff.1 hoptional with ⟨r₂, h, rfl⟩ | ⟨h, rfl⟩
    · exact Or.inl (parse_token_eq_ok_iff.1 h).1
    · exact Or.inr ⟨parse_token_eq_error_iff.1 h, rfl⟩
  · rcases hright with h | ⟨h, hr⟩
    · exact ⟨⟨some c, r.remaining⟩,
        parse_optional_eq_ok_iff.2 (Or.inl ⟨⟨c, r.remaining⟩, parse_token_eq_ok_iff.2 ⟨h, rfl⟩, rfl⟩), rfl⟩
    · refine ⟨⟨none, s⟩, parse_optional_eq_ok_iff.2 (Or.inr ⟨parse_token_eq_error_iff.2 h, rfl⟩), ?_⟩
      rw [Success.map, ← hr]

/-- A run is all the characters ahead with a property, at least one of them. -/
theorem parse_charRun_eq_ok_iff {property : Char → Bool} {r : Success Char String} :
    (charRun property).parse s = .ok r ↔
      ∃ cs, s.Consumes cs r.remaining ∧ (∀ c ∈ cs, property c = true) ∧ StopsAt property r.remaining.rest ∧
        cs ≠ [] ∧ r.value = String.ofList cs := by
  rw [charRun, parse_asString_eq_ok_iff]
  simp only [many1, satisfy, parse_repeated_accept_eq_ok_iff, and_assoc, Nat.one_le_iff_ne_zero, ne_eq,
    List.length_eq_zero_iff]

/-- Characters with a property are missing exactly where none is next. -/
theorem parse_charRun_eq_error_iff {property : Char → Bool} {e : Failure} :
    (charRun property).parse s = .error e ↔
      StopsAt property s.rest ∧ e = .single (.tooFew 1 0) (.single s.position) none := by
  rw [charRun, asString, parse_map_eq_error_iff, many1, satisfy, parse_repeated_eq_error_iff]
  have hcollect : (accept "satisfy" property).collect (none : Option Nat).isNone
      ((none : Option Nat).getD (unboundedBudget 1 s)) 1 s
      = (s.rest.takeWhile property, s.advance (s.rest.takeWhile property).length) :=
    collect_accept_unbounded 1 1 s
  rw [hcollect]
  constructor
  · rintro ⟨vs, s', hrun, hlength, rfl⟩
    obtain ⟨rfl, rfl⟩ := Prod.mk.inj hrun
    have hnone : s.rest.takeWhile property = [] := List.length_eq_zero_iff.1 (by omega)
    refine ⟨stopsAt_iff_takeWhile_eq_nil.2 hnone, ?_⟩
    simp [hnone]
  · rintro ⟨hstop, rfl⟩
    have hnone := stopsAt_iff_takeWhile_eq_nil.1 hstop
    exact ⟨_, _, rfl, by simp [hnone], by simp [hnone]⟩

/-- A run of characters of a set is read up to the first character outside it. -/
theorem parse_oneOf_many_eq_ok_iff {set : List Char} {r : Success Char String} :
    (oneOf set).many.asString.parse s = .ok r ↔
      ∃ cs, s.Consumes cs r.remaining ∧ (∀ c ∈ cs, c ∈ set) ∧ StopsAt (· ∈ set) r.remaining.rest ∧
        r.value = String.ofList cs := by
  rw [parse_asString_eq_ok_iff]
  simp only [many, oneOf, parse_repeated_accept_eq_ok_iff, and_assoc, decide_eq_true_eq, Nat.zero_le, true_and]

/-- A run of characters of a set can be read anywhere: it may be empty. -/
theorem exists_parse_oneOf_many (set : List Char) (s : TokenStream Char) :
    ∃ r, (oneOf set).many.asString.parse s = .ok r := by
  obtain ⟨r, h⟩ : ∃ r, (oneOf set).many.parse s = .ok r := exists_parse_many_accept s
  exact ⟨⟨String.ofList r.value, r.remaining⟩, parse_asString_eq_ok_iff.2 ⟨r.value, h, rfl⟩⟩

/-- All the blanks ahead on the line are read. -/
theorem parse_inlineWhitespace_eq_ok_iff {r : Success Char String} :
    inlineWhitespace.parse s = .ok r ↔
      ∃ cs, s.Consumes cs r.remaining ∧ (∀ c ∈ cs, c ∈ Text.inlineBlanks) ∧
        StopsAt (· ∈ Text.inlineBlanks) r.remaining.rest ∧ r.value = String.ofList cs :=
  parse_oneOf_many_eq_ok_iff

/-- Blanks can be read anywhere. -/
theorem exists_parse_inlineWhitespace (s : TokenStream Char) : ∃ r, inlineWhitespace.parse s = .ok r :=
  exists_parse_oneOf_many Text.inlineBlanks s

/-- All the blanks ahead are read, line breaks among them. -/
theorem parse_whitespace_eq_ok_iff {r : Success Char String} :
    whitespace.parse s = .ok r ↔
      ∃ cs, s.Consumes cs r.remaining ∧ (∀ c ∈ cs, c ∈ Text.blanks) ∧ StopsAt (· ∈ Text.blanks) r.remaining.rest ∧
        r.value = String.ofList cs :=
  parse_oneOf_many_eq_ok_iff

/-- As blanks can be read anywhere, reading them is never skipped. -/
theorem parse_optional_inlineWhitespace_eq_ok_iff {r : Success Char (Option String)} :
    inlineWhitespace.optional.parse s = .ok r ↔ ∃ r₁, inlineWhitespace.parse s = .ok r₁ ∧ r = r₁.map some := by
  obtain ⟨r₀, h₀⟩ := exists_parse_inlineWhitespace s
  rw [parse_optional_eq_ok_iff, or_iff_left]
  rintro ⟨⟨e, he⟩, -⟩
  nomatch h₀.symm.trans he

/-- A character between blanks, if it is not one of them. -/
theorem parse_token_padded_eq_ok_iff {c : Char} (hb : c ∉ Text.inlineBlanks) {r : Success Char Char} :
    ((token c).padded inlineWhitespace).parse s = .ok r ↔
      ∃ b₁ b₂, s.Consumes (b₁ ++ c :: b₂) r.remaining ∧ (∀ d ∈ b₁, d ∈ Text.inlineBlanks) ∧
        (∀ d ∈ b₂, d ∈ Text.inlineBlanks) ∧ StopsAt (· ∈ Text.inlineBlanks) r.remaining.rest ∧ r.value = c := by
  rw [padded, parse_between_eq_ok_iff]
  simp only [parse_optional_inlineWhitespace_eq_ok_iff]
  refine ⟨fun h => ?_, fun h => ?_⟩
  · obtain ⟨_, r₂, _, ⟨r₁, h₁, rfl⟩, h₂, ⟨r₃, h₃, rfl⟩, rfl⟩ := h
    obtain ⟨b₁, hc₁, hb₁, -, -⟩ := parse_inlineWhitespace_eq_ok_iff.1 h₁
    obtain ⟨hc₂, hv⟩ := parse_token_eq_ok_iff.1 h₂
    obtain ⟨b₂, hc₃, hb₂, hstop, -⟩ := parse_inlineWhitespace_eq_ok_iff.1 h₃
    exact ⟨b₁, b₂, hc₁.trans (hc₂.trans hc₃), hb₁, hb₂, hstop, hv⟩
  · obtain ⟨b₁, b₂, hc, hb₁, hb₂, hstop, hv⟩ := h
    obtain ⟨s₁, hc₁, hc⟩ := consumes_append_iff.1 hc
    obtain ⟨s₂, hc₂, hc₃⟩ := consumes_append_iff.1 (show s₁.Consumes ([c] ++ b₂) r.remaining from hc)
    have hstop₁ : StopsAt (· ∈ Text.inlineBlanks) s₁.rest := by
      rw [hc₂.2]
      exact stopsAt_cons (by simpa using hb) _
    have h₁ : inlineWhitespace.parse s = .ok ⟨String.ofList b₁, s₁⟩ :=
      parse_inlineWhitespace_eq_ok_iff.2 ⟨b₁, hc₁, hb₁, hstop₁, rfl⟩
    have h₂ : (token c).parse s₁ = .ok ⟨c, s₂⟩ := parse_token_eq_ok_iff.2 ⟨hc₂, rfl⟩
    have h₃ : inlineWhitespace.parse s₂ = .ok ⟨String.ofList b₂, r.remaining⟩ :=
      parse_inlineWhitespace_eq_ok_iff.2 ⟨b₂, hc₃, hb₂, hstop, rfl⟩
    refine ⟨_, _, _, ⟨_, h₁, rfl⟩, h₂, ⟨_, h₃, rfl⟩, ?_⟩
    show r = ⟨c, r.remaining⟩
    rw [← hv]

/-- A name is a character that may start one and all those ahead that may follow. -/
theorem parse_ident_eq_ok_iff {r : Success Char String} :
    ident.parse s = .ok r ↔
      ∃ c cs, s.Consumes (c :: cs) r.remaining ∧ Text.isIdentStart c = true ∧
        (∀ d ∈ cs, Text.isIdentRest d = true) ∧ StopsAt Text.isIdentRest r.remaining.rest ∧
        r.value = String.ofList (c :: cs) := by
  rw [ident, parse_withLabel_eq_ok_iff, parse_map_eq_ok_iff]
  refine ⟨fun hleft => ?_, fun h => ?_⟩
  · obtain ⟨⟨⟨c, cs⟩, s₂⟩, h, rfl⟩ := hleft
    obtain ⟨r₁, r₂, h₁, h₂, h⟩ := parse_both_eq_ok_iff.1 h
    cases h
    obtain ⟨hc, hstart⟩ := parse_accept_eq_ok_iff_consumes.1 h₁
    obtain ⟨hcs, hrest, hstop, -⟩ := parse_repeated_accept_eq_ok_iff.1 h₂
    exact ⟨r₁.value, r₂.value, hc.trans hcs, hstart, hrest, hstop, rfl⟩
  · obtain ⟨c, cs, hc, hstart, hrest, hstop, hv⟩ := h
    obtain ⟨s₁, hc, hcs⟩ := consumes_append_iff.1 (show s.Consumes ([c] ++ cs) r.remaining from hc)
    have h₁ : (satisfy Text.isIdentStart).parse s = .ok ⟨c, s₁⟩ :=
      parse_accept_eq_ok_iff_consumes.2 ⟨hc, hstart⟩
    have h₂ : (satisfy Text.isIdentRest).many.parse s₁ = .ok ⟨cs, r.remaining⟩ :=
      parse_repeated_accept_eq_ok_iff.2 ⟨hcs, hrest, hstop, Nat.zero_le _⟩
    refine ⟨⟨(c, cs), r.remaining⟩, parse_both_eq_ok_iff.2 ⟨_, _, h₁, h₂, rfl⟩, ?_⟩
    show r = ⟨String.ofList (c :: cs), r.remaining⟩
    rw [← hv]

end TokenParsing.Parser
