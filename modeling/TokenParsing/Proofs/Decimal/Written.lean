import Mathlib.Data.List.DropRight
import TokenParsing.Decimal.Nearest
import TokenParsing.Proofs.Decimal.Intervals

/-!
# Decimals as they are written

What a decimal written without an exponent stands for (`pointedValue`) is the decimal it was written from
(`pointedValue_positional`): its digits before the point are the whole part of the quotient that it is, and those behind
the point the remainder, without the zeros at their end.
-/

namespace TokenParsing.Decimal

/-- The number that digits with a point among them write. -/
def pointedValue (cs : List Char) : ℚ :=
  let whole := cs.takeWhile (· ≠ '.')
  let fraction := (cs.dropWhile (· ≠ '.')).drop 1
  ofDigits (whole ++ fraction) / 10 ^ fraction.length

/-! ## Digits -/

/-- Digits in front count as many times more as there are digits behind them. -/
theorem ofDigits_append (ds es : List Char) : ofDigits (ds ++ es) = ofDigits ds * 10 ^ es.length + ofDigits es := by
  have happend : ofDigits (ds ++ es) = Nat.ofDigitChars 10 es (ofDigits ds) := Nat.ofDigitChars_append 0
  rw [happend, Nat.ofDigitChars_eq_ofDigitChars_zero, Nat.mul_comm]
  rfl

/-- The digits of a number write it. -/
theorem ofDigits_digits (n : ℕ) : ofDigits (digits n) = n :=
  Nat.ofDigitChars_ten_toDigits

/-- Zeros write zero. -/
theorem ofDigits_replicate_zero (n : ℕ) : ofDigits (List.replicate n '0') = 0 :=
  Nat.ofDigitChars_replicate_zero.trans (Nat.mul_zero _)

/-- Digits write a number that they have the places for. -/
theorem ofDigits_lt {ds : List Char} (h : ∀ c ∈ ds, c.isDigit = true) : ofDigits ds < 10 ^ ds.length := by
  induction ds using List.reverseRecOn with
  | nil => exact Nat.one_pos
  | append_singleton ds c ih =>
    have hc := Char.isDigit_iff_toNat.1 (h c (List.mem_append_right ds List.mem_cons_self))
    have hds := ih fun c' hc' => h c' (List.mem_append_left [c] hc')
    have hdigit : ofDigits [c] = c.toNat - '0'.toNat := Nat.zero_add _
    rw [ofDigits_append, hdigit, List.length_append, List.length_singleton, pow_one, pow_succ]
    have hnine : '9'.toNat = '0'.toNat + 9 := rfl
    omega

/-- Only digits write a number. -/
theorem isDigit_of_mem_digits {n : ℕ} {c : Char} (hc : c ∈ digits n) : c.isDigit = true :=
  Nat.isDigit_of_mem_toDigits (by decide) (by decide) hc

theorem ne_point_of_isDigit {c : Char} (hc : c.isDigit = true) : c ≠ '.' := by
  rintro rfl
  cases hc

/-- Digits without a point write a whole number. -/
theorem pointedValue_digits {ds : List Char} (h : ∀ c ∈ ds, c.isDigit = true) : pointedValue ds = ofDigits ds := by
  have hpoint : ∀ c ∈ ds, decide (c ≠ '.') = true := fun c hc => decide_eq_true (ne_point_of_isDigit (h c hc))
  unfold pointedValue
  rw [List.takeWhile_eq_self_iff.2 hpoint, List.dropWhile_eq_nil_iff.2 hpoint]
  simp

/-- Digits behind a point write as many tenths of tenths. -/
theorem pointedValue_pointed {ds fs : List Char} (h : ∀ c ∈ ds, c.isDigit = true) :
    pointedValue (ds ++ '.' :: fs) = ofDigits ds + ofDigits fs / 10 ^ fs.length := by
  have hpoint : ∀ c ∈ ds, decide (c ≠ '.') = true := fun c hc => decide_eq_true (ne_point_of_isDigit (h c hc))
  have htake : (ds ++ '.' :: fs).takeWhile (· ≠ '.') = ds := by
    rw [List.takeWhile_append_of_pos hpoint]
    simp
  have hdrop : (ds ++ '.' :: fs).dropWhile (· ≠ '.') = '.' :: fs := by
    rw [List.dropWhile_append_of_pos hpoint]
    simp
  unfold pointedValue
  rw [htake, hdrop, List.drop_one, List.tail_cons]
  dsimp only
  rw [ofDigits_append]
  push_cast
  field_simp

/-! ## Fractions -/

/-- The digits of a fraction before the zeros at their end are cut off. -/
def paddedDigits (n places : ℕ) : List Char :=
  List.replicate (places - (digits n).length) '0' ++ digits n

theorem fractionDigits_eq (n places : ℕ) : fractionDigits n places = (paddedDigits n places).rdropWhile (· == '0') := rfl

/-- Zeros in front do not count. -/
theorem ofDigits_paddedDigits (n places : ℕ) : ofDigits (paddedDigits n places) = n := by
  rw [paddedDigits, ofDigits_append, ofDigits_replicate_zero, ofDigits_digits, Nat.zero_mul, Nat.zero_add]

/-- The digits of a fraction fill its places. -/
theorem length_paddedDigits {n places : ℕ} (h : n < 10 ^ places) (hplaces : 0 < places) :
    (paddedDigits n places).length = places := by
  have hle : (digits n).length ≤ places := (Nat.length_toDigits_le_iff (by decide) hplaces).2 h
  rw [paddedDigits, List.length_append, List.length_replicate]
  omega

/-- Digits are those up to the last that is not zero, and zeros. -/
theorem exists_eq_rdropWhile_append (ds : List Char) :
    ∃ n, ds = ds.rdropWhile (· == '0') ++ List.replicate n '0' := by
  have hzeros : ds.rtakeWhile (· == '0') = List.replicate (ds.rtakeWhile (· == '0')).length '0' := by
    refine List.eq_replicate_iff.2 ⟨rfl, fun c hc => ?_⟩
    have hzero := List.mem_rtakeWhile_imp hc
    exact beq_iff_eq.1 hzero
  refine ⟨(ds.rtakeWhile (· == '0')).length, ?_⟩
  rw [← hzeros, List.rdropWhile_append_rtakeWhile]

/-- Zeros at the end of a fraction do not count. -/
theorem value_fractionDigits {n places : ℕ} (h : n < 10 ^ places) :
    (ofDigits (fractionDigits n places) : ℚ) / 10 ^ (fractionDigits n places).length = n / 10 ^ places := by
  rcases Nat.eq_zero_or_pos places with rfl | hplaces
  · obtain rfl : n = 0 := by omega
    rfl
  · obtain ⟨m, hm⟩ := exists_eq_rdropWhile_append (paddedDigits n places)
    rw [← fractionDigits_eq] at hm
    have hn : n = ofDigits (fractionDigits n places) * 10 ^ m := by
      conv => lhs; rw [← ofDigits_paddedDigits n places, hm, ofDigits_append]
      rw [ofDigits_replicate_zero, List.length_replicate, Nat.add_zero]
    have hlength : places = (fractionDigits n places).length + m := by
      conv => lhs; rw [← length_paddedDigits h hplaces, hm]
      rw [List.length_append, List.length_replicate]
    generalize fractionDigits n places = fs at hn hlength ⊢
    rw [hn, hlength, pow_add]
    push_cast
    field_simp

/-- Only digits write a fraction. -/
theorem isDigit_of_mem_fractionDigits {n places : ℕ} {c : Char} (hc : c ∈ fractionDigits n places) :
    c.isDigit = true := by
  rw [fractionDigits_eq] at hc
  rcases List.mem_append.1 ((List.rdropWhile_prefix _ _).subset hc) with hzero | hdigit
  · rw [List.eq_of_mem_replicate hzero]
    rfl
  · exact isDigit_of_mem_digits hdigit

/-! ## Decimals without an exponent -/

/-- A decimal is written as its whole part, with its fraction behind a point if there is one. -/
theorem pointedValue_positional (d : ℕ) (k : ℤ) : pointedValue (positional d k) = d * 10 ^ k := by
  have hpos : 0 < 10 ^ (-k).toNat := Nat.pow_pos (by decide)
  -- the fraction is the remainder of the quotient that the whole part is, as one of the two powers is one
  have hmod : d % 10 ^ (-k).toNat = d * 10 ^ k.toNat % 10 ^ (-k).toNat := by
    rcases le_total 0 k with hk | hk
    · have hzero : (-k).toNat = 0 := by omega
      rw [hzero, pow_zero, Nat.mod_one, Nat.mod_one]
    · have hzero : k.toNat = 0 := by omega
      rw [hzero, pow_zero, mul_one]
  have hvalue : (d : ℚ) * 10 ^ k = (d * 10 ^ k.toNat / 10 ^ (-k).toNat : ℕ) +
      (d % 10 ^ (-k).toNat : ℕ) / 10 ^ (-k).toNat := by
    rw [hmod, Binary.zpow_eq_div (by norm_num)]
    have hdivision := congrArg (Nat.cast (R := ℚ)) (Nat.div_add_mod (d * 10 ^ k.toNat) (10 ^ (-k).toNat))
    push_cast at hdivision
    field_simp
    linarith
  rw [hvalue, ← value_fractionDigits (Nat.mod_lt d hpos)]
  unfold positional
  simp only [Nat.pow_eq]
  split
  · rename_i hnone
    rw [hnone, pointedValue_digits fun c hc => isDigit_of_mem_digits hc, ofDigits_digits]
    simp [ofDigits]
  · rw [pointedValue_pointed fun c hc => isDigit_of_mem_digits hc, ofDigits_digits]

/-- A decimal is made of digits and a point. -/
theorem mem_positional {d : ℕ} {k : ℤ} {c : Char} (hc : c ∈ positional d k) : c.isDigit = true ∨ c = '.' := by
  unfold positional at hc
  dsimp only at hc
  split at hc
  · exact Or.inl (isDigit_of_mem_digits hc)
  · rcases List.mem_append.1 hc with hwhole | hpointed
    · exact Or.inl (isDigit_of_mem_digits hwhole)
    · rcases List.mem_cons.1 hpointed with rfl | hfraction
      · exact Or.inr rfl
      · exact Or.inl (isDigit_of_mem_fractionDigits hfraction)

/-- A decimal starts with a digit. -/
theorem exists_positional_eq_cons (d : ℕ) (k : ℤ) : ∃ c cs, positional d k = c :: cs ∧ c.isDigit = true := by
  have hwhole : ∀ n, ∃ c cs, digits n = c :: cs ∧ c.isDigit = true := by
    intro n
    obtain ⟨c, cs, heq⟩ := List.exists_cons_of_ne_nil (Nat.toDigits_ne_nil : digits n ≠ [])
    exact ⟨c, cs, heq, isDigit_of_mem_digits (heq ▸ List.mem_cons_self)⟩
  obtain ⟨c, cs, heq, hc⟩ := hwhole (d * Nat.pow 10 k.toNat / Nat.pow 10 (-k).toNat)
  unfold positional
  dsimp only
  rw [heq]
  split
  · exact ⟨c, cs, rfl, hc⟩
  · exact ⟨c, _, rfl, hc⟩

end TokenParsing.Decimal
