import TokenParsing.Proofs.Decimal.Reading
import TokenParsing.Proofs.Decimal.Rendered
import TokenParsing.Proofs.Decimal.Rounding

/-!
# Reading what was written

The number read off a decimal is the one that the decimal rounds to (`exists_digits?_whole`, `exists_digits?_pointed`):
digits are a whole number scaled by a power of ten, which `nearest` rounds (`roundsToBits_nearest`). So the text of a
number is read as that number (`read?_render`), and numbers that are written alike are the same (`render_inj`).
-/

namespace TokenParsing.Decimal

/-! ## Numbers and their bits -/

section Bits

open Float.Model Float.Model.UnpackedFloat

/-- The fields of the bits of a number: a sign, eleven bits of exponent and 52 of fraction. -/
theorem unpack_fields (b : BitVec 64) :
    (@unpackSign Format.binary64 b).toNat = b.toNat / 2 ^ 63 % 2 ∧
      (@unpackExponent Format.binary64 b).toNat = b.toNat / 2 ^ 52 % 2 ^ 11 ∧
      (@unpackMantissa Format.binary64 b).toNat = b.toNat % 2 ^ 52 := by
  rw [unpackSign_def, unpackExponent_def, unpackMantissa_def]
  simp [Nat.shiftRight_eq_div_pow]

/-- The bits of not-a-number are those above the bits of infinity. -/
theorem isNaNBits_iff (b : BitVec 64) :
    @isNaNBits Format.binary64 b = true ↔ infinityBits < b.toNat % 2 ^ 63 := by
  obtain ⟨-, hexponent, hmantissa⟩ := unpack_fields b
  unfold isNaNBits infinityBits
  rw [decide_eq_true_iff, Ne, ← BitVec.toNat_inj, ← BitVec.toNat_inj, hexponent, hmantissa]
  simp only [Nat.reducePow, BitVec.reduceNeg, BitVec.toNat_ofNat, Nat.mod_succ, Nat.zero_mod]
  omega

/-- Bits up to those of infinity are kept when they are taken apart and put together again. -/
theorem pack_unpack_of_le {b : BitVec 64} (h : b.toNat % 2 ^ 63 ≤ infinityBits) :
    pack Format.binary64 (unpack Format.binary64 b) = b := by
  rw [pack_unpack, if_neg]
  rw [isNaNBits_iff]
  exact Nat.not_lt.2 h

/-- A number made from bits up to those of infinity has these bits. -/
theorem toNat_toBits_ofBits {m : ℕ} (h : m ≤ infinityBits) : (Float.ofBits m.toUInt64).toBits.toNat = m := by
  have hlt : m < 2 ^ 64 := h.trans_lt (by decide)
  have hm : m.toUInt64.toNat = m := UInt64.toNat_ofNat_of_lt' hlt
  have hbits : (Float.ofBits m.toUInt64).toBits = m.toUInt64 := by
    refine UInt64.toBitVec_inj.1 (pack_unpack_of_le ?_)
    show m.toUInt64.toNat % 2 ^ 63 ≤ infinityBits
    rw [hm]
    exact (Nat.mod_le _ _).trans h
  rw [hbits, hm]

/-- The bits of a number, its sign aside, go up to those of infinity. -/
theorem le_infinityBits {x : Float} (hx : x.isNaN = false) : x.toBits.toNat % 2 ^ 63 ≤ infinityBits := by
  by_contra hlt
  have hnan := (isNaNBits_iff x.toBits.toBitVec).2 (Nat.lt_of_not_le hlt)
  have hunpack : unpack Format.binary64 x.toBits.toBitVec = .notANumber := by
    unfold isNaNBits at hnan
    obtain ⟨hexponent, hmantissa⟩ := of_decide_eq_true hnan
    unfold UnpackedFloat.unpack
    simp only [hexponent, hmantissa, if_true, if_false]
  have htrue : x.isNaN = true := congrArg UnpackedFloat.isNaN hunpack
  rw [htrue] at hx
  cases hx

/-- Bits that differ in the sign alone are taken apart into a number and its negative. -/
theorem neg_unpack {b b' : BitVec 64} (hs : b.toNat < 2 ^ 63) (hb : b'.toNat = b.toNat + 2 ^ 63) :
    (unpack Format.binary64 b).neg = unpack Format.binary64 b' := by
  obtain ⟨hsign, hexponent, hmantissa⟩ := unpack_fields b
  obtain ⟨hsign', hexponent', hmantissa'⟩ := unpack_fields b'
  have hsign : @unpackSign Format.binary64 b = 0#1 := by
    rw [← BitVec.toNat_inj, hsign]
    simp only [Nat.reducePow, BitVec.toNat_ofNat, pow_one, Nat.zero_mod]
    omega
  have hsign' : @unpackSign Format.binary64 b' = 1#1 := by
    rw [← BitVec.toNat_inj, hsign']
    simp only [Nat.reducePow, BitVec.toNat_ofNat, pow_one, Nat.mod_succ]
    omega
  have hexponent : @unpackExponent Format.binary64 b' = @unpackExponent Format.binary64 b := by
    rw [← BitVec.toNat_inj, hexponent, hexponent']
    omega
  have hmantissa : @unpackMantissa Format.binary64 b' = @unpackMantissa Format.binary64 b := by
    rw [← BitVec.toNat_inj, hmantissa, hmantissa']
    omega
  unfold UnpackedFloat.unpack
  simp only [hsign, hsign', hexponent, hmantissa]
  split
  · split <;> rfl
  · split
    · split <;> rfl
    · rfl

/-- Changing the sign of a number changes the bit of its sign. -/
theorem neg_ofBits {x : Float} (hx : x.isNaN = false) (hs : 2 ^ 63 ≤ x.toBits.toNat) :
    Float.neg (Float.ofBits (x.toBits.toNat % 2 ^ 63).toUInt64) = x := by
  have hle := le_infinityBits hx
  have hlt := x.toBits.toNat_lt
  generalize hy : Float.ofBits (x.toBits.toNat % 2 ^ 63).toUInt64 = y
  have hbits : y.toBits.toNat = x.toBits.toNat % 2 ^ 63 := by rw [← hy, toNat_toBits_ofBits hle]
  have hneg : (UnpackedFloat.unpack Format.binary64 y.toBits.toBitVec).neg =
      UnpackedFloat.unpack Format.binary64 x.toBits.toBitVec :=
    neg_unpack (show y.toBits.toNat < 2 ^ 63 by omega) (show x.toBits.toNat = y.toBits.toNat + 2 ^ 63 by omega)
  refine Float.toBits_inj.1 (UInt64.toBitVec_inj.1 ?_)
  show pack Format.binary64 (UnpackedFloat.unpack Format.binary64 y.toBits.toBitVec).neg = x.toBits.toBitVec
  rw [hneg]
  exact pack_unpack_of_le hle

end Bits

/-! ## Decimals -/

/-- Zero has no bits. -/
theorem toNat_toBits_zero : (0.0 : Float).toBits.toNat = 0 := by
  decide

/-- Powers of ten and of two, compared by `8 ≤ 10`. -/
theorem two_pow_le_ten_pow (m : ℕ) : (2 : ℚ) ^ (3 * m) ≤ 10 ^ m := by
  rw [pow_mul]
  exact pow_le_pow_left₀ (by norm_num) (by norm_num) m

/-- Where the power of ten is out of range, a number other than zero is too large. -/
theorem greatest_le_of_exponent {n : ℕ} {e : ℤ} (hn : 0 < n) (he : 400 < e) :
    (2 ^ 54 - 1) * 2 ^ 970 ≤ (n : ℚ) * 10 ^ e := by
  have hone : (1 : ℚ) ≤ n := by exact_mod_cast hn
  have htwo : (2 : ℚ) ^ 970 ≤ 10 ^ 324 :=
    (pow_le_pow_right₀ one_le_two (by decide)).trans (two_pow_le_ten_pow 324)
  have hten : (10 : ℚ) ^ (18 + 324) ≤ 10 ^ e := by
    rw [← zpow_natCast]
    exact zpow_le_zpow_right₀ (by norm_num) (by omega)
  calc (2 ^ 54 - 1) * 2 ^ 970 ≤ (10 ^ 18 * 10 ^ 324 : ℚ) :=
        mul_le_mul (by norm_num) htwo (by positivity) (by positivity)
    _ = 10 ^ (18 + 324) := (pow_add 10 18 324).symm
    _ ≤ 10 ^ e := hten
    _ ≤ n * 10 ^ e := le_mul_of_one_le_left (by positivity) hone

/-- Where it is out of range on the other side, for as many digits as there are, a number is too small. -/
theorem le_least_of_exponent {n k : ℕ} {e : ℤ} (h : n < 10 ^ k) (he : e + k < -400) :
    2 * ((n : ℚ) * 10 ^ e) ≤ 2 ^ leastExponent := by
  have hn : (n : ℚ) ≤ 10 ^ (k : ℤ) := by
    rw [zpow_natCast]
    exact_mod_cast h.le
  have hten : (10 : ℚ) ^ (-(401 : ℕ) : ℤ) ≤ 2 ^ (-(3 * 401 : ℕ) : ℤ) := by
    rw [zpow_neg, zpow_neg, zpow_natCast, zpow_natCast]
    exact inv_anti₀ (by positivity) (two_pow_le_ten_pow 401)
  calc 2 * ((n : ℚ) * 10 ^ e) ≤ 2 * (10 ^ (k : ℤ) * 10 ^ e) := by gcongr
    _ = 2 * 10 ^ (k + e) := by rw [zpow_add₀ (by norm_num)]
    _ ≤ 2 * 10 ^ (-(401 : ℕ) : ℤ) := by
        gcongr
        · norm_num
        · omega
    _ ≤ 2 * 2 ^ (-(3 * 401 : ℕ) : ℤ) := by gcongr
    _ = 2 ^ (-(3 * 401 : ℕ) + 1 : ℤ) := by rw [mul_comm, ← zpow_add_one₀ two_ne_zero]
    _ ≤ 2 ^ leastExponent := zpow_le_zpow_right₀ one_le_two (by decide)

/-- No bits beyond those of infinity are given. -/
theorem nearestBits_le (n d : ℕ) : nearestBits n d ≤ infinityBits :=
  Nat.min_le_right _ _

/-- A scaled whole number is rounded to the number that it rounds to, also where its size alone decides. -/
theorem roundsToBits_nearest {n k : ℕ} {e : ℤ} (h : n < 10 ^ k) :
    RoundsToBits (n * 10 ^ e) (nearest n k e).toBits.toNat := by
  unfold nearest
  split
  · rename_i hzero
    rw [hzero, Nat.cast_zero, zero_mul, toNat_toBits_zero]
    exact .zero (by rw [mul_zero]; positivity)
  · rename_i hzero
    split
    · rename_i hlarge
      rw [toNat_toBits_ofBits le_rfl]
      exact .infinity (greatest_le_of_exponent (Nat.pos_of_ne_zero hzero) hlarge)
    · split
      · rename_i hsmall
        rw [toNat_toBits_zero]
        exact .zero (le_least_of_exponent h hsmall)
      · simp only [Nat.pow_eq]
        rw [toNat_toBits_ofBits (nearestBits_le _ _)]
        have hrounds := roundsToBits_nearestBits (n := n * 10 ^ e.toNat) (d := 10 ^ (-e).toNat) (by positivity)
          (by positivity)
        push_cast at hrounds
        rwa [Binary.zpow_eq_div (by norm_num), ← mul_div_assoc]

/-! ## Texts -/

/-- Digits are read as the number that their value rounds to. -/
theorem exists_digits?_whole {ds : List Char} (hne : ds ≠ []) (h : ∀ c ∈ ds, c.isDigit = true) :
    ∃ v, digits? ds = some v ∧ RoundsToBits (pointedValue ds) v.toBits.toNat := by
  have hrounds := roundsToBits_nearest (e := 0) (ofDigits_lt h)
  rw [zpow_zero, mul_one] at hrounds
  rw [pointedValue_digits h]
  exact ⟨_, digits?_whole hne h, hrounds⟩

/-- So are digits around a point. -/
theorem exists_digits?_pointed {ds fs : List Char} (hne : ds ≠ []) (h : ∀ c ∈ ds, c.isDigit = true)
    (hf : ∀ c ∈ fs, c.isDigit = true) :
    ∃ v, digits? (ds ++ '.' :: fs) = some v ∧ RoundsToBits (pointedValue (ds ++ '.' :: fs)) v.toBits.toNat := by
  have hrounds := roundsToBits_nearest (e := -fs.length) (ofDigits_lt (List.forall_mem_append.2 ⟨h, hf⟩))
  have hvalue : (ofDigits (ds ++ fs) : ℚ) * 10 ^ (-fs.length : ℤ) = ofDigits ds + ofDigits fs / 10 ^ fs.length := by
    rw [ofDigits_append, zpow_neg, zpow_natCast]
    push_cast
    field_simp
  rw [hvalue] at hrounds
  rw [pointedValue_pointed h]
  exact ⟨_, digits?_pointed hne h hf, hrounds⟩

/-- The text of a finite number is read as the number that its value rounds to. -/
theorem exists_digits?_unsignedText {m : ℕ} (hm : m ≠ infinityBits) :
    ∃ v, digits? (unsignedText m) = some v ∧ RoundsToBits (pointedValue (unsignedText m)) v.toBits.toNat := by
  unfold unsignedText
  rw [if_neg hm]
  split
  · exact exists_digits?_whole (List.cons_ne_nil _ _) (List.forall_mem_singleton.2 rfl)
  · unfold positional
    dsimp only
    split
    · exact exists_digits?_whole Nat.toDigits_ne_nil fun c hc => isDigit_of_mem_digits hc
    · exact exists_digits?_pointed Nat.toDigits_ne_nil (fun c hc => isDigit_of_mem_digits hc)
        fun c hc => isDigit_of_mem_fractionDigits hc

/-- The text of a finite number stands for a value that rounds to the number. -/
theorem roundsToBits_unsignedText {m : ℕ} (hm : m < infinityBits) : RoundsToBits (pointedValue (unsignedText m)) m := by
  have hlt : m < 2 ^ 63 := hm.trans (by decide)
  rcases unsignedText_cases hlt with ⟨rfl, -⟩ | ⟨-, ⟨rfl, hvalue⟩ | ⟨hpos, hrounds⟩⟩
  · exact absurd hm (lt_irrefl _)
  · rw [hvalue]
    exact .zero (by rw [mul_zero]; positivity)
  · have hbits := Binary.bits_ofBits hm
    have hresult := RoundsToBits.number (Binary.canonical_ofBits hpos hlt) (hbits.symm ▸ hm) hrounds
    rwa [hbits] at hresult

/-- The text of a number without its sign is read as the number. -/
theorem magnitude?_unsignedText {m : ℕ} (hm : m ≤ infinityBits) :
    magnitude? (unsignedText m) = some (Float.ofBits m.toUInt64) := by
  rcases Nat.lt_or_eq_of_le hm with hlt | rfl
  · obtain ⟨v, hread, hrounds⟩ := exists_digits?_unsignedText hlt.ne
    have hbits : v.toBits.toNat = m := hrounds.unique (roundsToBits_unsignedText hlt)
    have hv : v = Float.ofBits m.toUInt64 := by
      rw [← Float.toBits_inj, ← UInt64.toNat_inj, hbits, toNat_toBits_ofBits hm]
    rcases unsignedText_cases (hlt.trans (by decide)) with ⟨rfl, -⟩ | ⟨⟨c, cs, htext, hc⟩, -⟩
    · exact absurd hlt (lt_irrefl _)
    · rw [htext] at hread ⊢
      rw [magnitude?_of_isDigit hc, hread, hv]
  · rfl

/-- The text of a number is read as that number. -/
theorem read?_render {x : Float} (hx : x.isNaN = false) : read? (render x) = some x := by
  have hle := le_infinityBits hx
  have hread := magnitude?_unsignedText hle
  have htext := toList_render hx
  rw [← String.ofList_toList (s := render x), htext]
  by_cases hnegative : 2 ^ 63 ≤ x.toBits.toNat
  · rw [if_pos hnegative, List.singleton_append, read?_minus, hread, Option.map_some, neg_ofBits hx hnegative]
  · rw [if_neg hnegative, List.nil_append]
    have hsame : Float.ofBits (x.toBits.toNat % 2 ^ 63).toUInt64 = x := by
      rw [← Float.toBits_inj, ← UInt64.toNat_inj, toNat_toBits_ofBits hle]
      omega
    rw [hsame] at hread
    obtain ⟨c, cs, hcons, hminus, hplus⟩ := exists_unsignedText_eq_cons (hle.trans_lt (by decide))
    rw [hcons] at hread ⊢
    rw [read?_of_unsigned hminus hplus, hread]

/-- Numbers that are written alike are the same, signs of zeros included. -/
theorem render_inj {x y : Float} (hx : x.isNaN = false) (hy : y.isNaN = false) (h : render x = render y) : x = y := by
  rw [← Option.some.injEq, ← read?_render hx, h, read?_render hy]

end TokenParsing.Decimal
