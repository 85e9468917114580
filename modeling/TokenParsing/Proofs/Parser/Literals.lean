import TokenParsing.Proofs.Parser.Patterns

/-!
# Literals, as a whole and character by character

A literal compares as many characters as it has with the ones ahead, all at once. It reads what its characters read one
after the other (`parse_inTurn_eq_ok_iff`), and the two differ in how they fail only: a literal tells first whether
enough characters are left, and names all of those it compared (`parse_literal_inTurn`).
-/

namespace TokenParsing.Parser

open Text TokenStream

/-- Reads the given tokens one after the other. -/
def inTurn {τ : Type} [DecidableEq τ] [Describe τ] : List τ → Parser τ (List τ)
  | [] => succeed []
  | t :: ts => ((token t).both (inTurn ts)).map fun (u, us) => u :: us

variable {s : TokenStream Char}

/-- Characters can be read one after the other when they are next. -/
theorem parse_inTurn_eq_ok_iff {cs : List Char} {r : Success Char (List Char)} :
    (inTurn cs).parse s = .ok r ↔ s.Consumes cs r.remaining ∧ r.value = cs := by
  induction cs generalizing s r with
  | nil =>
    rw [inTurn, parse_succeed_eq_ok_iff]
    constructor
    · rintro rfl
      exact ⟨.refl s, rfl⟩
    · rintro ⟨hconsumes, hv⟩
      rw [← hv, ← consumes_nil_iff.1 hconsumes]
  | cons c cs ih =>
    rw [inTurn, parse_map_eq_ok_iff]
    constructor
    · rintro ⟨r₀, hboth, rfl⟩
      obtain ⟨r₁, r₂, hfirst, hrest, rfl⟩ := parse_both_eq_ok_iff.1 hboth
      obtain ⟨hc, hv⟩ := parse_token_eq_ok_iff.1 hfirst
      obtain ⟨hcs, hvs⟩ := ih.1 hrest
      refine ⟨hc.trans hcs, ?_⟩
      rw [← hv, ← hvs]
      rfl
    · rintro ⟨hconsumes, hv⟩
      obtain ⟨s₁, hc, hcs⟩ := consumes_append_iff.1 (show s.Consumes ([c] ++ cs) r.remaining from hconsumes)
      have hfirst : (token c).parse s = .ok ⟨c, s₁⟩ := parse_token_eq_ok_iff.2 ⟨hc, rfl⟩
      have hrest : (inTurn cs).parse s₁ = .ok ⟨cs, r.remaining⟩ := ih.2 ⟨hcs, rfl⟩
      refine ⟨⟨(c, cs), r.remaining⟩, parse_both_eq_ok_iff.2 ⟨_, _, hfirst, hrest, rfl⟩, ?_⟩
      exact congrArg (Success.mk · r.remaining) hv

/-- A text is read when the characters ahead start with it. -/
theorem parse_literal_eq_ok_iff_starts {expected : String} {r : Success Char String} :
    (literal expected).parse s = .ok r ↔
      expected.toList <+: s.rest ∧ r = ⟨expected, s.advance expected.length⟩ := by
  obtain ⟨v, s'⟩ := r
  rw [parse_literal_eq_ok_iff, consumes_iff_starts, String.length_toList, Success.mk.injEq, and_assoc,
    and_comm (b := v = expected)]

/-- A text that the characters ahead do not start with is refused: for want of characters where too few of them are left,
and else with all the characters that stand in its place. -/
theorem parse_literal_of_not_starts {expected : String} (h : ¬expected.toList <+: s.rest) :
    (literal expected).parse s = .error
      (if s.rest.length < expected.length then .single .endOfInput (.single s.position) (some "take")
      else .single (.expected (quoted expected) (quoted (String.ofList (s.rest.take expected.length))))
        ⟨s.position, s.position + expected.length⟩ (some "just_str")) := by
  rw [parse_literal, if_neg (mt ofList_take_eq_iff.1 h), length_rest]
  split <;> rfl

/-- A literal succeeds where the characters ahead start with it, which is where its characters succeed one after the
other, and answers the same; where they do not, it fails for want of characters if too few are left, even if one
of these differs already, and otherwise names the literal and as many characters as it has. -/
theorem parse_literal_inTurn (expected : String) (s : TokenStream Char) :
    (∀ r, (literal expected).parse s = .ok r ↔
      expected.toList <+: s.rest ∧ r = ⟨expected, s.advance expected.length⟩) ∧
    (∀ r, (literal expected).parse s = .ok r ↔ (inTurn expected.toList).asString.parse s = .ok r) ∧
    ∀ e, (literal expected).parse s = .error e ↔ ¬expected.toList <+: s.rest ∧
      e = if s.rest.length < expected.length then .single .endOfInput (.single s.position) (some "take")
        else .single (.expected (quoted expected) (quoted (String.ofList (s.rest.take expected.length))))
          ⟨s.position, s.position + expected.length⟩ (some "just_str") := by
  refine ⟨fun r => parse_literal_eq_ok_iff_starts, fun r => ?_, fun e => ?_⟩
  · rw [parse_literal_eq_ok_iff, parse_asString_eq_ok_iff]
    simp only [parse_inTurn_eq_ok_iff]
    constructor
    · rintro ⟨hconsumes, hv⟩
      exact ⟨_, ⟨hconsumes, rfl⟩, by rw [hv, String.ofList_toList]⟩
    · rintro ⟨cs, ⟨hconsumes, rfl⟩, hv⟩
      exact ⟨hconsumes, by rw [hv, String.ofList_toList]⟩
  · by_cases h : expected.toList <+: s.rest
    · rw [parse_literal_eq_ok_iff_starts.2 ⟨h, rfl⟩]
      simp [h]
    · rw [parse_literal_of_not_starts h, Except.error.injEq]
      simp only [h, not_false_eq_true, true_and]
      exact eq_comm

end TokenParsing.Parser
