import TokenParsing.Decimal.Nearest
import TokenParsing.Proofs.Decimal.Intervals

/-!
# Rounding to the nearest number

The number that a rational number rounds to, by its bits (`RoundsToBits`): zero for what is at most half the least
positive number, infinity for what is too large, and otherwise the number whose interval it lies in. There is one such
number (`RoundsToBits.unique`), no other is nearer (`RoundsToBits.abs_sub_le`), and it is what `nearestBits` gives for a
quotient (`roundsToBits_nearestBits`).

A quotient is measured in units of a power of two, so chosen that it takes 53 bits (`Fits`), and rounded to a whole
number of units (`NearestTo`). If that carries over into a bit more, the whole number is the least of 53 bits in units
twice as large, and the bits are the same.
-/

namespace TokenParsing.Decimal

variable {n d p : ℕ} {x y : ℚ} {q : ℤ}

/-! ## Whole numbers -/

/-- A whole number is at most half away from a rational number, and less than half if it is odd. -/
structure NearestTo (p : ℕ) (y : ℚ) : Prop where
  low : 2 * (p : ℚ) - 1 ≤ 2 * y
  high : 2 * y ≤ 2 * (p : ℚ) + 1
  inside : p % 2 = 1 → 2 * (p : ℚ) - 1 < 2 * y ∧ 2 * y < 2 * (p : ℚ) + 1

/-- A quotient is rounded to the nearest whole number, and to the even one of two. -/
theorem nearestTo_roundHalfEven (n : ℕ) (hd : 0 < d) : NearestTo (roundHalfEven n d) (n / d) := by
  have hd' : (0 : ℚ) < d := by exact_mod_cast hd
  have hdivision : 2 * ((n : ℚ) / d) = 2 * (n / d : ℕ) + (2 * (n % d) : ℕ) / d := by
    have h := congrArg (Nat.cast (R := ℚ)) (Nat.div_add_mod n d)
    push_cast at h ⊢
    field_simp
    linarith
  have hrest : ((2 * (n % d) : ℕ) : ℚ) / d < 2 := by
    rw [div_lt_iff₀ hd']
    exact_mod_cast Nat.mul_lt_mul_of_pos_left (Nat.mod_lt n hd) two_pos
  have hnonneg : 0 ≤ ((2 * (n % d) : ℕ) : ℚ) / d := by positivity
  unfold roundHalfEven
  dsimp only
  split
  · rename_i hless
    have hhalf : ((2 * (n % d) : ℕ) : ℚ) / d < 1 := (div_lt_one hd').2 (by exact_mod_cast hless)
    constructor
    · linarith
    · linarith
    · exact fun _ => ⟨by linarith, by linarith⟩
  · split
    · rename_i _ hmore
      have hhalf : 1 < ((2 * (n % d) : ℕ) : ℚ) / d := (one_lt_div hd').2 (by exact_mod_cast hmore)
      constructor
      · push_cast
        linarith
      · push_cast
        linarith
      · push_cast
        exact fun _ => ⟨by linarith, by linarith⟩
    · -- half way between two whole numbers, one of which is even
      rename_i hle hge
      have hhalf : ((2 * (n % d) : ℕ) : ℚ) / d = 1 := by
        rw [div_eq_one_iff_eq hd'.ne']
        exact_mod_cast Nat.le_antisymm (Nat.le_of_not_lt hge) (Nat.le_of_not_lt hle)
      split
      · rename_i heven
        exact ⟨by linarith, by linarith, fun hodd => by omega⟩
      · rename_i hodd
        refine ⟨?_, ?_, fun hodd' => by omega⟩
        · push_cast
          linarith
        · push_cast
          linarith

/-! ## Units -/

/-- A number in units of a power of two takes no more than 53 bits, and no less unless the units are the least. -/
structure Fits (y : ℚ) (q : ℤ) : Prop where
  least : -1074 ≤ q
  lt : y < 2 ^ 53
  leading : q = -1074 ∨ 2 ^ 52 ≤ y

/-- Either part of a quotient is scaled to measure it in units of a power of two. -/
theorem scaled_div (n d : ℕ) (q : ℤ) :
    ((n * 2 ^ (-q).toNat : ℕ) : ℚ) / (d * 2 ^ q.toNat : ℕ) = n / d / 2 ^ q := by
  rw [Binary.zpow_eq_div two_ne_zero q]
  push_cast
  rw [mul_div_mul_comm, div_div_eq_mul_div, mul_div_assoc]

/-- A whole number lies between its leading power of two and the next. -/
theorem two_zpow_log2_le_and_lt (hn : 0 < n) : (2 : ℚ) ^ (n.log2 : ℤ) ≤ n ∧ (n : ℚ) < 2 ^ ((n.log2 : ℤ) + 1) := by
  constructor
  · rw [zpow_natCast]
    exact_mod_cast Nat.log2_self_le hn.ne'
  · exact_mod_cast Nat.lt_log2_self (n := n)

/-- Whether a power of two is at most a quotient is decided on whole numbers. -/
theorem scaled_le_scaled_iff (n : ℕ) (hd : 0 < d) (b : ℤ) :
    d * 2 ^ b.toNat ≤ n * 2 ^ (-b).toNat ↔ (2 : ℚ) ^ b ≤ n / d := by
  have hpos : (0 : ℚ) < (d * 2 ^ b.toNat : ℕ) := by
    push_cast
    positivity
  rw [← Nat.cast_le (α := ℚ), ← one_le_div hpos, scaled_div, one_le_div (by positivity)]

/-- The exponent of a quotient is that of the greatest power of two in it. -/
theorem binaryExponent_spec (hn : 0 < n) (hd : 0 < d) :
    (2 : ℚ) ^ binaryExponent n d ≤ n / d ∧ (n : ℚ) / d < 2 ^ (binaryExponent n d + 1) := by
  have hd' : (0 : ℚ) < d := by exact_mod_cast hd
  obtain ⟨hnlow, hnhigh⟩ := two_zpow_log2_le_and_lt hn
  obtain ⟨hdlow, hdhigh⟩ := two_zpow_log2_le_and_lt hd
  have hlow : (2 : ℚ) ^ ((n.log2 : ℤ) - d.log2 - 1) ≤ n / d := by
    rw [le_div_iff₀ hd']
    calc (2 : ℚ) ^ ((n.log2 : ℤ) - d.log2 - 1) * d
        ≤ 2 ^ ((n.log2 : ℤ) - d.log2 - 1) * 2 ^ ((d.log2 : ℤ) + 1) := by gcongr
      _ = 2 ^ (n.log2 : ℤ) := by
          rw [← zpow_add₀ two_ne_zero]
          congr 1
          ring
      _ ≤ n := hnlow
  have hhigh : (n : ℚ) / d < 2 ^ ((n.log2 : ℤ) - d.log2 + 1) := by
    rw [div_lt_iff₀ hd']
    calc (n : ℚ) < 2 ^ ((n.log2 : ℤ) + 1) := hnhigh
      _ = 2 ^ ((n.log2 : ℤ) - d.log2 + 1) * 2 ^ (d.log2 : ℤ) := by
          rw [← zpow_add₀ two_ne_zero]
          congr 1
          ring
      _ ≤ 2 ^ ((n.log2 : ℤ) - d.log2 + 1) * d := by gcongr
  unfold binaryExponent
  simp only [Nat.pow_eq]
  -- the difference of the two exponents is the exponent of the quotient, or one more than it
  split
  · rename_i h
    exact ⟨(scaled_le_scaled_iff n hd _).1 h, hhigh⟩
  · rename_i h
    rw [sub_add_cancel, ← not_le]
    exact ⟨hlow, fun hle => h ((scaled_le_scaled_iff n hd _).2 hle)⟩

/-- A quotient fits in the units that it is rounded in. -/
theorem fits_of_binaryExponent (hn : 0 < n) (hd : 0 < d) (hq : q = max (binaryExponent n d - 52) leastExponent) :
    Fits (n / d / 2 ^ q) q := by
  obtain ⟨hlow, hhigh⟩ := binaryExponent_spec hn hd
  have hpower : (0 : ℚ) < 2 ^ q := by positivity
  unfold leastExponent at hq
  refine ⟨by omega, ?_, ?_⟩
  · rw [div_lt_iff₀ hpower, ← zpow_natCast, ← zpow_add₀ two_ne_zero]
    exact hhigh.trans_le (zpow_le_zpow_right₀ one_le_two (by push_cast; omega))
  · by_cases hleast : q = -1074
    · exact Or.inl hleast
    · refine Or.inr ?_
      rw [le_div_iff₀ hpower, ← zpow_natCast, ← zpow_add₀ two_ne_zero]
      exact (zpow_le_zpow_right₀ one_le_two (by push_cast; omega)).trans hlow

/-- Rounding carries into one more bit at most. -/
theorem NearestTo.le (hp : NearestTo p y) (hy : Fits y q) : p ≤ 2 ^ 53 := by
  have hlt : (2 * p : ℚ) < 2 ^ 54 + 1 := by linarith [hp.low, hy.lt]
  have hlt' : 2 * p < 2 ^ 54 + 1 := by exact_mod_cast hlt
  omega

/-! ## Bits -/

namespace Binary

variable {b c : Binary}

/-- The bits of a number, which count the numbers up to it. -/
def bits (b : Binary) : ℕ :=
  (b.exponent + 1074).toNat * 2 ^ 52 + b.mantissa

/-- The bits of a number give its size. -/
theorem ofBits_bits (hb : b.Canonical) (hlt : b.bits < infinityBits) : ofBits b.bits = b := by
  obtain ⟨hpos, hmantissa, hleast, hleading⟩ := hb
  obtain ⟨m, e⟩ := b
  unfold infinityBits at hlt
  unfold bits at hlt ⊢
  unfold ofBits
  dsimp only at *
  simp only [Nat.pow_eq]
  split
  · rw [mk.injEq]
    omega
  · rw [mk.injEq]
    omega

/-- Below the bits of infinity every size is that of its bits. -/
theorem bits_ofBits {m : ℕ} (hlt : m < infinityBits) : (ofBits m).bits = m := by
  unfold infinityBits at hlt
  unfold ofBits bits
  simp only [Nat.pow_eq]
  split <;> dsimp only <;> omega

/-- The interval of a number, in units of its spacing. -/
theorem roundsTo_units_iff :
    b.RoundsTo (y * 2 ^ b.exponent) ↔
      (b.lowQuarters : ℚ) ≤ 4 * y ∧ 4 * y ≤ b.highQuarters ∧
        (b.mantissa % 2 = 1 → (b.lowQuarters : ℚ) < 4 * y ∧ 4 * y < b.highQuarters) := by
  have hpower : (0 : ℚ) < 2 ^ b.exponent := by positivity
  have hunits : 4 * (y * 2 ^ b.exponent) = 4 * y * 2 ^ b.exponent := (mul_assoc _ _ _).symm
  constructor
  · rintro ⟨hlow, hhigh, hinside⟩
    rw [hunits] at hlow hhigh hinside
    simp only [mul_lt_mul_iff_left₀ hpower] at hinside
    exact ⟨le_of_mul_le_mul_right hlow hpower, le_of_mul_le_mul_right hhigh hpower, hinside⟩
  · rintro ⟨hlow, hhigh, hinside⟩
    constructor
    · rw [hunits]
      exact mul_le_mul_of_nonneg_right hlow hpower.le
    · rw [hunits]
      exact mul_le_mul_of_nonneg_right hhigh hpower.le
    · rw [hunits]
      simp only [mul_lt_mul_iff_left₀ hpower]
      exact hinside

/-- The lower end of an interval as a rational number. -/
theorem cast_lowQuarters (hb : 0 < b.mantissa) :
    (b.lowQuarters : ℚ) = 4 * b.mantissa - if b.isNarrowBelow then 1 else 2 := by
  unfold lowQuarters
  split
  · rw [Nat.cast_sub (by omega)]
    push_cast
    rfl
  · rw [Nat.cast_sub (by omega)]
    push_cast
    rfl

/-- The upper end. -/
theorem cast_highQuarters (b : Binary) : (b.highQuarters : ℚ) = 4 * b.mantissa + 2 := by
  unfold highQuarters
  push_cast
  rfl

/-! ## Numbers by their units -/

/-- A number that fits in its units rounds to the nearest whole number of them. -/
theorem roundsTo_of_nearestTo (hy : Fits y q) (hp : NearestTo p y) (hpos : 0 < p) (hlt : p < 2 ^ 53) :
    Canonical ⟨p, q⟩ ∧ RoundsTo ⟨p, q⟩ (y * 2 ^ q) := by
  have hleading : q = -1074 ∨ 2 ^ 52 ≤ p := by
    refine hy.leading.imp_right fun hle => ?_
    have hp' : (2 ^ 53 : ℚ) ≤ 2 * p + 1 := by linarith [hp.high]
    have hp'' : 2 ^ 53 ≤ 2 * p + 1 := by exact_mod_cast hp'
    omega
  refine ⟨⟨hpos, hlt, hy.least, hleading⟩, roundsTo_units_iff.2 ?_⟩
  rw [cast_lowQuarters hpos, cast_highQuarters]
  dsimp only
  obtain ⟨hlow, hhigh, hinside⟩ := hp
  by_cases hnarrow : isNarrowBelow ⟨p, q⟩ = true
  · -- a power of two, which the number is not below, as it fits in its units
    obtain ⟨hpower, hexponent⟩ := isNarrowBelow_iff.1 hnarrow
    dsimp only at hpower hexponent
    have hle := hy.leading.resolve_left hexponent
    rw [if_pos hnarrow, hpower]
    push_cast
    rw [hpower] at hhigh
    push_cast at hhigh
    exact ⟨by linarith, by linarith, fun hodd => absurd hodd (by decide)⟩
  · rw [if_neg hnarrow]
    refine ⟨by linarith, by linarith, fun hodd => ?_⟩
    obtain ⟨hlow', hhigh'⟩ := hinside hodd
    exact ⟨by linarith, by linarith⟩

/-- A number that rounds to a bit more than fits in its units rounds to a power of two in units twice as large. -/
theorem roundsTo_of_nearestTo_carry (hy : Fits y q) (hp : NearestTo (2 ^ 53) y) :
    Canonical ⟨2 ^ 52, q + 1⟩ ∧ RoundsTo ⟨2 ^ 52, q + 1⟩ (y * 2 ^ q) := by
  have hleast := hy.least
  refine ⟨⟨by norm_num, by norm_num, ?_, Or.inr (Nat.le_refl _)⟩, ?_⟩
  · show -1074 ≤ q + 1
    omega
  · have hunits : y * 2 ^ q = y / 2 * 2 ^ (q + 1) := by
      rw [zpow_add_one₀ two_ne_zero]
      ring
    have hnarrow : isNarrowBelow ⟨2 ^ 52, q + 1⟩ = true :=
      isNarrowBelow_iff.2 ⟨rfl, show q + 1 ≠ -1074 by omega⟩
    have hlow := hp.low
    push_cast at hlow
    rw [hunits]
    refine roundsTo_units_iff.2 ?_
    rw [cast_lowQuarters (by norm_num), cast_highQuarters, if_pos hnarrow]
    dsimp only
    push_cast
    exact ⟨by linarith, by linarith [hy.lt], fun hodd => absurd hodd (by decide)⟩

end Binary

/-! ## The number that a rational number rounds to -/

/-- The bits of the number that a rational number rounds to: zero up to half the least positive number, infinity from
half a spacing above the greatest one, and in between those of the number whose interval it lies in. -/
inductive RoundsToBits (x : ℚ) : ℕ → Prop where
  | zero (h : 2 * x ≤ 2 ^ leastExponent) : RoundsToBits x 0
  | number {b : Binary} (hb : b.Canonical) (hlt : b.bits < infinityBits) (h : b.RoundsTo x) : RoundsToBits x b.bits
  | infinity (h : (2 ^ 54 - 1) * 2 ^ 970 ≤ x) : RoundsToBits x infinityBits

/-- A number too large for its bits is infinity. -/
theorem roundsToBits_of_roundsTo {b : Binary} (hb : b.Canonical) (h : b.RoundsTo x) :
    RoundsToBits x (min b.bits infinityBits) := by
  by_cases hlt : b.bits < infinityBits
  · rw [Nat.min_eq_left hlt.le]
    exact .number hb hlt h
  · rw [Nat.min_eq_right (Nat.le_of_not_lt hlt)]
    refine .infinity ?_
    have hexponent : 972 ≤ b.exponent := by
      have hmantissa := hb.lt
      unfold Binary.bits infinityBits at hlt
      omega
    have hlow : ((2 ^ 54 - 1 : ℕ) : ℚ) ≤ b.lowQuarters := by exact_mod_cast hb.le_lowQuarters (by omega)
    have hpower : (2 : ℚ) ^ 972 ≤ 2 ^ b.exponent := by
      rw [← zpow_natCast]
      exact zpow_le_zpow_right₀ one_le_two hexponent
    have hle : ((2 ^ 54 - 1 : ℕ) : ℚ) * 2 ^ 972 ≤ 4 * x :=
      (mul_le_mul hlow hpower (by positivity) (by positivity)).trans h.low
    have hscale : (2 : ℚ) ^ 972 = 2 ^ 970 * 2 * 2 := by rw [pow_succ, pow_succ]
    rw [hscale] at hle
    push_cast at hle
    generalize (2 : ℚ) ^ 970 = t at hle ⊢
    linarith

/-- A number that fits in its units is rounded, and its bits are counted in them. -/
theorem roundsToBits_of_nearestTo (hy : Fits y q) (hp : NearestTo p y) :
    RoundsToBits (y * 2 ^ q) (min ((q - leastExponent).toNat * 2 ^ 52 + p) infinityBits) := by
  have hleast := hy.least
  rcases Nat.eq_zero_or_pos p with rfl | hpos
  · -- half a unit or less rounds to nothing, which happens in the least units only
    have hhigh := hp.high
    push_cast at hhigh
    have hq : q = leastExponent := hy.leading.resolve_right (by linarith)
    rw [hq, sub_self, Int.toNat_zero, Nat.zero_mul, Nat.add_zero, Nat.zero_min]
    refine .zero ?_
    rw [← mul_assoc]
    exact mul_le_of_le_one_left (by positivity) (by linarith)
  · rcases Nat.lt_or_eq_of_le (hp.le hy) with hlt | hcarry
    · obtain ⟨hb, hrounds⟩ := Binary.roundsTo_of_nearestTo hy hp hpos hlt
      have hbits : (q - leastExponent).toNat * 2 ^ 52 + p = Binary.bits ⟨p, q⟩ := by
        unfold Binary.bits leastExponent
        dsimp only
        omega
      rw [hbits]
      exact roundsToBits_of_roundsTo hb hrounds
    · rw [hcarry] at hp ⊢
      obtain ⟨hb, hrounds⟩ := Binary.roundsTo_of_nearestTo_carry hy hp
      have hbits : (q - leastExponent).toNat * 2 ^ 52 + 2 ^ 53 = Binary.bits ⟨2 ^ 52, q + 1⟩ := by
        unfold Binary.bits leastExponent
        dsimp only
        omega
      rw [hbits]
      exact roundsToBits_of_roundsTo hb hrounds

/-- The bits given for a quotient are those of the number that it rounds to. -/
theorem roundsToBits_nearestBits (hn : 0 < n) (hd : 0 < d) : RoundsToBits (n / d) (nearestBits n d) := by
  unfold nearestBits
  simp only [Nat.pow_eq]
  generalize hq : max (binaryExponent n d - 52) leastExponent = q
  have hnearest : NearestTo (roundHalfEven (n * 2 ^ (-q).toNat) (d * 2 ^ q.toNat)) (n / d / 2 ^ q) := by
    rw [← scaled_div]
    exact nearestTo_roundHalfEven _ (by positivity)
  have hrounds := roundsToBits_of_nearestTo (fits_of_binaryExponent hn hd hq.symm) hnearest
  rwa [div_mul_cancel₀] at hrounds
  positivity

/-! ## There is one such number, and it is the nearest -/

namespace Binary

variable {b c : Binary}

/-- What rounds to a positive number is more than half the least one. -/
theorem RoundsTo.least_lt (hb : b.Canonical) (h : b.RoundsTo x) : (2 : ℚ) ^ leastExponent < 2 * x := by
  have hpower : (2 : ℚ) ^ leastExponent ≤ 2 ^ b.exponent := zpow_le_zpow_right₀ one_le_two hb.least
  have hpos : (0 : ℚ) < 2 ^ leastExponent := by positivity
  have hmantissa := hb.pos
  by_cases hone : b.mantissa = 1
  · obtain ⟨hlow, -⟩ := h.inside (by rw [hone])
    have hquarters : b.lowQuarters = 2 := by
      unfold lowQuarters isNarrowBelow
      rw [hone]
      rfl
    rw [hquarters] at hlow
    push_cast at hlow
    linarith
  · have hquarters : 3 ≤ b.lowQuarters := by
      unfold lowQuarters
      split <;> omega
    have hquarters' : (3 : ℚ) ≤ b.lowQuarters := by exact_mod_cast hquarters
    have hlow : 3 * 2 ^ leastExponent ≤ 4 * x :=
      (mul_le_mul hquarters' hpower hpos.le (by positivity)).trans h.low
    linarith

/-- What rounds to a finite number is less than half a spacing above the greatest one. -/
theorem RoundsTo.lt_greatest (hb : b.Canonical) (hlt : b.bits < infinityBits) (h : b.RoundsTo x) :
    x < (2 ^ 54 - 1) * 2 ^ 970 := by
  have hmantissa := hb.lt
  have hexponent : b.exponent ≤ 971 := by
    have hleading := hb.leading
    unfold bits infinityBits at hlt
    omega
  have hpower : (2 : ℚ) ^ b.exponent ≤ 2 ^ 970 * 2 := by
    rw [← pow_succ, ← zpow_natCast]
    exact zpow_le_zpow_right₀ one_le_two hexponent
  have hpos : (0 : ℚ) < 2 ^ b.exponent := by positivity
  generalize (2 : ℚ) ^ 970 = t at hpower ⊢
  have hend : ∀ {k : ℚ}, (b.mantissa : ℚ) ≤ k → b.highQuarters * 2 ^ b.exponent ≤ (4 * k + 2) * (t * 2) := by
    intro k hk
    have hquarters : (b.highQuarters : ℚ) ≤ 4 * k + 2 := by
      rw [cast_highQuarters]
      linarith
    exact mul_le_mul hquarters hpower hpos.le (by linarith [Nat.cast_nonneg (α := ℚ) b.mantissa])
  by_cases hodd : b.mantissa % 2 = 1
  · have hle := hend (k := 2 ^ 53 - 1) (le_sub_iff_add_le.2 (by exact_mod_cast hmantissa))
    have hhigh := (h.inside hodd).2
    linarith
  · -- an even mantissa is one less still, so the end of the interval may belong to it
    have hle := hend (k := 2 ^ 53 - 2)
      (le_sub_iff_add_le.2 (by exact_mod_cast (show b.mantissa + 2 ≤ 2 ^ 53 by omega)))
    have hhigh := h.high
    linarith

end Binary

/-- A rational number rounds to one number only. -/
theorem RoundsToBits.unique {m m' : ℕ} (h : RoundsToBits x m) (h' : RoundsToBits x m') : m = m' := by
  have hapart : 2 * x ≤ 2 ^ leastExponent → ¬(2 ^ 54 - 1) * 2 ^ 970 ≤ x := by
    have hone : (2 : ℚ) ^ leastExponent ≤ 1 := zpow_le_one_of_nonpos₀ one_le_two (by decide)
    have hlarge : (1 : ℚ) ≤ 2 ^ 970 := one_le_pow₀ one_le_two
    generalize (2 : ℚ) ^ 970 = t at hlarge ⊢
    intro hsmall hge
    linarith
  cases h with
  | zero h =>
    cases h' with
    | zero _ => rfl
    | number hb _ hx => exact absurd (hx.least_lt hb) (not_lt_of_ge h)
    | infinity hx => exact absurd hx (hapart h)
  | number hb hlt hx =>
    cases h' with
    | zero h' => exact absurd (hx.least_lt hb) (not_lt_of_ge h')
    | number hc _ hx' => rw [hx.unique hb hc hx']
    | infinity hx' => exact absurd (hx.lt_greatest hb hlt) (not_lt_of_ge hx')
  | infinity h =>
    cases h' with
    | zero hx => exact absurd h (hapart hx)
    | number hc hlt hx => exact absurd (hx.lt_greatest hc hlt) (not_lt_of_ge h)
    | infinity _ => rfl

namespace Binary

variable {b c : Binary}

/-- A number with a larger spacing is a whole number of smaller spacings. -/
theorem exists_value_eq (h : b.exponent ≤ c.exponent) : ∃ k : ℕ, c.value = k * 2 ^ b.exponent := by
  obtain ⟨t, ht⟩ := Int.le.dest h
  refine ⟨c.mantissa * 2 ^ t, ?_⟩
  rw [value, ← ht, zpow_add₀ two_ne_zero, zpow_natCast]
  push_cast
  ring

/-- A number with a smaller spacing is below all those with a larger one, by half the larger spacing at least. -/
theorem Canonical.value_le (hb : b.Canonical) (hc : c.Canonical) (h : c.exponent < b.exponent) :
    2 ^ 52 ≤ b.mantissa ∧ 2 * c.value ≤ (2 ^ 53 - 1) * 2 ^ b.exponent := by
  have hleast := hc.least
  refine ⟨hb.leading.resolve_left (by omega), ?_⟩
  have hmantissa : (c.mantissa : ℚ) ≤ 2 ^ 53 - 1 := by
    rw [le_sub_iff_add_le]
    exact_mod_cast hc.lt
  have hpower : 2 * (2 : ℚ) ^ c.exponent ≤ 2 ^ b.exponent := by
    rw [mul_comm, ← zpow_add_one₀ two_ne_zero]
    exact zpow_le_zpow_right₀ one_le_two h
  have hpos : (0 : ℚ) < 2 ^ c.exponent := by positivity
  calc 2 * c.value = c.mantissa * (2 * 2 ^ c.exponent) := by rw [value]; ring
    _ ≤ (2 ^ 53 - 1) * 2 ^ b.exponent := mul_le_mul hmantissa hpower (by positivity) (by norm_num)

/-- The interval of a number starts no lower than half way to any number below. -/
theorem Canonical.midpoint_le_low (hb : b.Canonical) (hc : c.Canonical) (h : c.value < b.value) :
    2 * (b.value + c.value) ≤ b.lowQuarters * 2 ^ b.exponent := by
  have hpos : (0 : ℚ) < 2 ^ b.exponent := by positivity
  rw [cast_lowQuarters hb.pos]
  rcases lt_or_ge c.exponent b.exponent with hlt | hge
  · obtain ⟨hleading, hle⟩ := hb.value_le hc hlt
    have hleast := hc.least
    unfold value at hle ⊢
    split
    · rename_i hnarrow
      rw [(isNarrowBelow_iff.1 hnarrow).1]
      push_cast
      linarith
    · rename_i hnarrow
      have hmantissa : b.mantissa ≠ 2 ^ 52 := fun heq => hnarrow (isNarrowBelow_iff.2 ⟨heq, by omega⟩)
      have hnext : (2 ^ 52 + 1 : ℚ) ≤ b.mantissa := by exact_mod_cast (show 2 ^ 52 + 1 ≤ b.mantissa by omega)
      have hscaled := mul_le_mul_of_nonneg_right hnext hpos.le
      linarith
  · obtain ⟨k, hk⟩ := exists_value_eq hge
    rw [hk] at h ⊢
    have hlt : k < b.mantissa := by exact_mod_cast lt_of_mul_lt_mul_right h hpos.le
    have hnext : (k + 1 : ℚ) ≤ b.mantissa := by exact_mod_cast hlt
    have hscaled := mul_le_mul_of_nonneg_right hnext hpos.le
    unfold value
    split
    · linarith
    · linarith

/-- And it ends no higher than half way to any number above. -/
theorem Canonical.high_le_midpoint (hb : b.Canonical) (hc : c.Canonical) (h : b.value < c.value) :
    b.highQuarters * 2 ^ b.exponent ≤ 2 * (b.value + c.value) := by
  have hpos : (0 : ℚ) < 2 ^ b.exponent := by positivity
  rw [cast_highQuarters]
  rcases lt_or_ge c.exponent b.exponent with hlt | hge
  · obtain ⟨hleading, hle⟩ := hb.value_le hc hlt
    have hleading' : (2 ^ 52 : ℚ) ≤ b.mantissa := by exact_mod_cast hleading
    have hscaled := mul_le_mul_of_nonneg_right hleading' hpos.le
    unfold value at h hle
    linarith
  · obtain ⟨k, hk⟩ := exists_value_eq hge
    rw [hk] at h ⊢
    have hlt : b.mantissa < k := by exact_mod_cast lt_of_mul_lt_mul_right h hpos.le
    have hnext : (b.mantissa + 1 : ℚ) ≤ k := by exact_mod_cast hlt
    have hscaled := mul_le_mul_of_nonneg_right hnext hpos.le
    unfold value
    linarith

/-- No number is nearer to a rational number than the one it rounds to. -/
theorem RoundsTo.abs_sub_le (hb : b.Canonical) (hc : c.Canonical) (h : b.RoundsTo x) :
    |x - b.value| ≤ |x - c.value| := by
  rw [← sq_le_sq]
  rcases lt_trichotomy c.value b.value with hlt | heq | hgt
  · have hlow := (hb.midpoint_le_low hc hlt).trans h.low
    nlinarith
  · rw [heq]
  · have hhigh := h.high.trans (hb.high_le_midpoint hc hgt)
    nlinarith

end Binary

/-- No number is nearer to a rational number than the one whose bits it rounds to. -/
theorem RoundsToBits.abs_sub_le {m : ℕ} (h : RoundsToBits x m) (hpos : 0 < m) (hlt : m < infinityBits) {c : Binary}
    (hc : c.Canonical) : |x - (Binary.ofBits m).value| ≤ |x - c.value| := by
  cases h with
  | zero _ => exact absurd hpos (lt_irrefl 0)
  | number hb hlt' hx =>
    rw [Binary.ofBits_bits hb hlt']
    exact hx.abs_sub_le hb hc
  | infinity _ => exact absurd hlt (lt_irrefl _)

end TokenParsing.Decimal
