import Mathlib.Algebra.Order.Field.Power
import Mathlib.Algebra.Order.Field.Rat
import Mathlib.Tactic.FieldSimp
import Mathlib.Tactic.Linarith
import Mathlib.Tactic.Positivity
import Mathlib.Tactic.Ring
import TokenParsing.Decimal.Shortest

/-!
# The interval around a floating-point number

A floating-point number stands for an interval of rational numbers around it, half way to its neighbours on either side
(`RoundsTo`). The decimal written for the number lies in its interval, whichever grid it was found on
(`roundsTo_shortest`), and the intervals of different numbers have nothing in common (`RoundsTo.unique`): where two of
them meet, one of the numbers is odd and leaves the point to the other.
-/

namespace TokenParsing.Decimal.Binary

/-! ## Numbers and their intervals -/

/-- The number itself. -/
def value (b : Binary) : ℚ :=
  b.mantissa * 2 ^ b.exponent

/-- A positive number with as many bits as its size allows: 53, or fewer at the least exponent. -/
structure Canonical (b : Binary) : Prop where
  pos : 0 < b.mantissa
  lt : b.mantissa < 2 ^ 53
  least : -1074 ≤ b.exponent
  leading : b.exponent = -1074 ∨ 2 ^ 52 ≤ b.mantissa

/-- The lower end of the interval of a number, in quarters of the spacing of its neighbours. -/
def lowQuarters (b : Binary) : ℕ :=
  4 * b.mantissa - if b.isNarrowBelow then 1 else 2

/-- The upper end. -/
def highQuarters (b : Binary) : ℕ :=
  4 * b.mantissa + 2

/-- A number lies in the interval of another, the ends of which belong to it if the mantissa is even. -/
structure RoundsTo (b : Binary) (x : ℚ) : Prop where
  low : b.lowQuarters * 2 ^ b.exponent ≤ 4 * x
  high : 4 * x ≤ b.highQuarters * 2 ^ b.exponent
  inside : b.mantissa % 2 = 1 → b.lowQuarters * 2 ^ b.exponent < 4 * x ∧ 4 * x < b.highQuarters * 2 ^ b.exponent

/-! ## The decimal written for a number -/

/-- A power with any exponent as a quotient of two powers, one of which is one. -/
theorem zpow_eq_div {a : ℚ} (ha : a ≠ 0) (e : ℤ) : a ^ e = a ^ e.toNat / a ^ (-e).toNat := by
  rw [← zpow_natCast, ← zpow_natCast, ← zpow_sub₀ ha, Int.toNat_sub_toNat_neg]

/-- Lengths in units of a number's spacing are compared with decimals over a common denominator. -/
theorem quarters_compare (q k : ℤ) (n d : ℕ) :
    ((n : ℚ) * 2 ^ q ≤ 4 * (d * 10 ^ k) ↔
      n * (2 ^ q.toNat * 10 ^ (-k).toNat) ≤ d * (4 * 2 ^ (-q).toNat * 10 ^ k.toNat)) ∧
    (4 * (d * 10 ^ k) ≤ (n : ℚ) * 2 ^ q ↔
      d * (4 * 2 ^ (-q).toNat * 10 ^ k.toNat) ≤ n * (2 ^ q.toNat * 10 ^ (-k).toNat)) := by
  have hdenominator : (0 : ℚ) < 2 ^ (-q).toNat * 10 ^ (-k).toNat := by positivity
  have hn : (n : ℚ) * 2 ^ q * (2 ^ (-q).toNat * 10 ^ (-k).toNat) =
      ((n * (2 ^ q.toNat * 10 ^ (-k).toNat) : ℕ) : ℚ) := by
    rw [zpow_eq_div two_ne_zero q]
    push_cast
    field_simp
  have hd : 4 * ((d : ℚ) * 10 ^ k) * (2 ^ (-q).toNat * 10 ^ (-k).toNat) =
      ((d * (4 * 2 ^ (-q).toNat * 10 ^ k.toNat) : ℕ) : ℚ) := by
    rw [zpow_eq_div (by norm_num) k]
    push_cast
    field_simp
  rw [← mul_le_mul_iff_left₀ hdenominator, hn, hd, Nat.cast_le,
    ← mul_le_mul_iff_left₀ hdenominator, hn, hd, Nat.cast_le]
  exact ⟨Iff.rfl, Iff.rfl⟩

/-- The test by which a grid is searched: whether a multiple of `10 ^ k` lies in the interval. -/
def isInside (b : Binary) (k : ℤ) (d : ℕ) : Bool :=
  let scale := 2 ^ b.exponent.toNat * 10 ^ (-k).toNat
  let spacing := 4 * 2 ^ (-b.exponent).toNat * 10 ^ k.toNat
  if b.mantissa % 2 = 0 then b.lowQuarters * scale ≤ d * spacing && d * spacing ≤ b.highQuarters * scale
  else b.lowQuarters * scale < d * spacing && d * spacing < b.highQuarters * scale

variable {b c : Binary} {k : ℤ} {d : ℕ} {x : ℚ}

theorem roundsTo_of_isInside (h : b.isInside k d = true) : b.RoundsTo (d * 10 ^ k) := by
  obtain ⟨hlow, hlow'⟩ := quarters_compare b.exponent k b.lowQuarters d
  obtain ⟨hhigh, hhigh'⟩ := quarters_compare b.exponent k b.highQuarters d
  unfold isInside at h
  split at h
  · simp only [Bool.and_eq_true, decide_eq_true_eq] at h
    exact ⟨hlow.2 h.1, hhigh'.2 h.2, fun hodd => by omega⟩
  · simp only [Bool.and_eq_true, decide_eq_true_eq] at h
    refine ⟨hlow.2 h.1.le, hhigh'.2 h.2.le, fun _ => ⟨?_, ?_⟩⟩
    · rw [← not_le, hlow', not_le]
      exact h.1
    · rw [← not_le, hhigh, not_le]
      exact h.2

/-- A point found on a grid has passed the test. -/
theorem isInside_of_gridPoint? (h : b.gridPoint? k = some d) : b.isInside k d = true := by
  unfold gridPoint? at h
  dsimp only at h
  split at h
  · rename_i hbelow habove
    rw [Option.some.injEq] at h
    subst h
    split
    · exact hbelow
    · exact habove
  · rename_i hbelow _
    rw [Option.some.injEq] at h
    subst h
    exact hbelow
  · rename_i _ habove
    rw [Option.some.injEq] at h
    subst h
    exact habove
  · cases h

/-- A number lies in its own interval. -/
theorem roundsTo_value (hb : 0 < b.mantissa) : b.RoundsTo b.value := by
  have hpower : (0 : ℚ) < 2 ^ b.exponent := by positivity
  have hlow : (b.lowQuarters : ℚ) < 4 * b.mantissa := by
    unfold lowQuarters
    have hlt : (4 * b.mantissa - if b.isNarrowBelow then 1 else 2) < 4 * b.mantissa := by
      split <;> omega
    exact_mod_cast hlt
  have hhigh : 4 * (b.mantissa : ℚ) < b.highQuarters := by
    unfold highQuarters
    push_cast
    linarith
  have hlow' := mul_lt_mul_of_pos_right hlow hpower
  have hhigh' := mul_lt_mul_of_pos_right hhigh hpower
  rw [mul_assoc 4, ← value] at hlow' hhigh'
  exact ⟨hlow'.le, hhigh'.le, fun _ => ⟨hlow', hhigh'⟩⟩

/-- The number's own digits, scaled, are the number. -/
theorem exact_eq_value : (b.exact.1 : ℚ) * 10 ^ b.exact.2 = b.value := by
  unfold exact value
  split
  · rename_i he
    have habs : (b.exponent.toNat : ℤ) = b.exponent := Int.toNat_of_nonneg he
    dsimp only
    rw [zpow_zero, mul_one, Nat.pow_eq, Nat.cast_mul, Nat.cast_pow, Nat.cast_ofNat, ← zpow_natCast, habs]
  · rename_i he
    have hten : (10 : ℚ) ^ b.exponent * 5 ^ (-b.exponent).toNat = 2 ^ b.exponent := by
      have habs : ((-b.exponent).toNat : ℤ) = -b.exponent := Int.toNat_of_nonneg (by omega)
      have hfive : (5 : ℚ) ^ b.exponent ≠ 0 := by positivity
      rw [show (10 : ℚ) = 2 * 5 by norm_num, mul_zpow, ← zpow_natCast, habs, zpow_neg, mul_assoc,
        mul_inv_cancel₀ hfive, mul_one]
    dsimp only
    rw [Nat.pow_eq, Nat.cast_mul, Nat.cast_pow, Nat.cast_ofNat, ← hten]
    ring

/-- The decimal written for a number lies in its interval. -/
theorem roundsTo_shortest (hb : 0 < b.mantissa) : b.RoundsTo (b.shortest.1 * 10 ^ b.shortest.2) := by
  unfold shortest
  cases hfound : (List.range 22).findSome? fun (i : ℕ) =>
      (b.gridPoint? (b.topExponent - i)).map fun d => (d, b.topExponent - i) with
  | none =>
    rw [Option.getD_none, exact_eq_value]
    exact roundsTo_value hb
  | some found =>
    obtain ⟨i, -, hi⟩ := List.exists_of_findSome?_eq_some hfound
    obtain ⟨d, hd, rfl⟩ := Option.map_eq_some_iff.1 hi
    exact roundsTo_of_isInside (isInside_of_gridPoint? hd)

/-! ## Intervals of two numbers -/

/-- What lies in two intervals bounds the end of the one by the end of the other, and apart from them if one of the
mantissas is odd. -/
theorem RoundsTo.low_le_high (hx : b.RoundsTo x) (hy : c.RoundsTo x) {t : ℕ} (ht : b.exponent + t = c.exponent) :
    c.lowQuarters * 2 ^ t ≤ b.highQuarters ∧
      (b.mantissa % 2 = 1 ∨ c.mantissa % 2 = 1 → c.lowQuarters * 2 ^ t < b.highQuarters) := by
  have hpower : (0 : ℚ) < 2 ^ b.exponent := by positivity
  have hscale : (2 : ℚ) ^ c.exponent = 2 ^ t * 2 ^ b.exponent := by
    rw [← ht, zpow_add₀ two_ne_zero, zpow_natCast, mul_comm]
  have hlow := hy.low
  have hstrict := hy.inside
  rw [hscale, ← mul_assoc] at hlow hstrict
  constructor
  · have hle := le_of_mul_le_mul_right (hlow.trans hx.high) hpower
    exact_mod_cast hle
  · rintro (hodd | hodd)
    · have hlt := lt_of_mul_lt_mul_right (hlow.trans_lt (hx.inside hodd).2) hpower.le
      exact_mod_cast hlt
    · have hlt := lt_of_mul_lt_mul_right ((hstrict hodd).1.trans_le hx.high) hpower.le
      exact_mod_cast hlt

theorem isNarrowBelow_iff : b.isNarrowBelow = true ↔ b.mantissa = 2 ^ 52 ∧ b.exponent ≠ -1074 := by
  simp [isNarrowBelow, Nat.pow_eq]

/-- A number of more than the least size is at least a power of two, where its interval is narrow below. -/
theorem Canonical.le_lowQuarters (hc : c.Canonical) (he : -1074 < c.exponent) : 2 ^ 54 - 1 ≤ c.lowQuarters := by
  have hleading : 2 ^ 52 ≤ c.mantissa := hc.leading.resolve_left (by omega)
  unfold lowQuarters
  by_cases hnarrow : c.isNarrowBelow = true
  · rw [if_pos hnarrow]
    omega
  · have hpower : c.mantissa ≠ 2 ^ 52 := fun heq => hnarrow (isNarrowBelow_iff.2 ⟨heq, by omega⟩)
    rw [if_neg hnarrow]
    omega

/-- Numbers whose intervals meet are of the same size. Where the larger size begins the interval is narrow, so it could
meet only that of the greatest number of the smaller size, which is odd. -/
theorem RoundsTo.exponent_le (hb : b.Canonical) (hc : c.Canonical) (hx : b.RoundsTo x) (hy : c.RoundsTo x) :
    c.exponent ≤ b.exponent := by
  by_contra hlt
  obtain ⟨t, ht⟩ := Int.le.dest (show b.exponent + 1 ≤ c.exponent by omega)
  have hsize : b.exponent + ((t + 1 : ℕ) : ℤ) = c.exponent := by
    push_cast
    omega
  obtain ⟨hle, hodd⟩ := hx.low_le_high hy hsize
  have hlow := hc.le_lowQuarters (by have := hb.least; omega)
  have hone : 1 ≤ 2 ^ t := Nat.one_le_two_pow
  have htwice : c.lowQuarters * 2 ≤ c.lowQuarters * 2 ^ (t + 1) := by
    rw [pow_succ]
    exact Nat.mul_le_mul_left _ (by omega)
  have hmantissa := hb.lt
  unfold highQuarters at hle hodd
  omega

/-- Numbers of the same size whose intervals meet are the same: neighbours share the point between them, but one of
them is odd. -/
theorem RoundsTo.mantissa_le (he : b.exponent = c.exponent) (hx : b.RoundsTo x) (hy : c.RoundsTo x) :
    c.mantissa ≤ b.mantissa := by
  have hsize : b.exponent + ((0 : ℕ) : ℤ) = c.exponent := by
    rw [he, Nat.cast_zero, add_zero]
  obtain ⟨hle, hodd⟩ := hx.low_le_high hy hsize
  have hlow : 4 * c.mantissa - 2 ≤ c.lowQuarters := by
    unfold lowQuarters
    split <;> omega
  rw [pow_zero, mul_one] at hle hodd
  unfold highQuarters at hle hodd
  omega

/-- The intervals of different numbers have nothing in common. -/
theorem RoundsTo.unique (hb : b.Canonical) (hc : c.Canonical) (hx : b.RoundsTo x) (hy : c.RoundsTo x) : b = c := by
  have hexponent : b.exponent = c.exponent := le_antisymm (hy.exponent_le hc hb hx) (hx.exponent_le hb hc hy)
  have hmantissa : b.mantissa = c.mantissa :=
    le_antisymm (hy.mantissa_le hexponent.symm hx) (hx.mantissa_le hexponent hy)
  obtain ⟨m, q⟩ := b
  obtain ⟨m', q'⟩ := c
  rw [mk.injEq]
  exact ⟨hmantissa, hexponent⟩

/-! ## Numbers by their bits -/

/-- The bits of a positive number give its size in one way. -/
theorem canonical_ofBits {bits : ℕ} (hpos : 0 < bits) (hlt : bits < 2 ^ 63) : (ofBits bits).Canonical := by
  unfold ofBits
  simp only [Nat.pow_eq]
  split
  · constructor <;> dsimp only <;> omega
  · constructor <;> dsimp only <;> omega

end TokenParsing.Decimal.Binary
