import TokenParsing.Decimal.Nearest

/-!
# Decimals as they are read

What is read off the text of a decimal: its digits as a whole number, those behind a point counted for the power of ten
(`digits?_whole`, `digits?_pointed`). A text that starts with a digit is not the name of a number
(`read?_of_isDigit`).
-/

namespace TokenParsing.Decimal

variable {ds fs : List Char}

/-! ## Digits and names -/

/-- A digit has no case. -/
theorem toLower_of_isDigit {c : Char} (h : c.isDigit = true) : c.toLower = c := by
  simp only [Char.isDigit, Bool.and_eq_true, decide_eq_true_eq, UInt32.le_iff_toNat_le] at h
  unfold Char.toLower
  split
  · rename_i hupper
    simp only [UInt32.le_iff_toNat_le] at hupper h
    have h₁ : c.val.toNat ≤ 57 := h.2
    have h₂ : 65 ≤ c.val.toNat := hupper.1
    omega
  · rfl

/-- A text that starts with a digit is not the name of a number. -/
theorem magnitude?_of_isDigit {d : Char} (hd : d.isDigit = true) (cs : List Char) :
    magnitude? (d :: cs) = digits? (d :: cs) := by
  have hname : ∀ (c : Char) (name : List Char), c.isDigit = false →
      String.ofList ((d :: cs).map Char.toLower) ≠ String.ofList (c :: name) := by
    intro c name hc heq
    rw [String.ofList_inj, List.map_cons, toLower_of_isDigit hd] at heq
    cases heq
    nomatch hc.symm.trans hd
  unfold magnitude?
  rw [if_neg, if_neg]
  · exact hname 'n' ['a', 'n'] rfl
  · rintro (hinf | hinfinity)
    · exact hname 'i' ['n', 'f'] rfl hinf
    · exact hname 'i' ['n', 'f', 'i', 'n', 'i', 't', 'y'] rfl hinfinity

/-- A text behind a minus sign is read as a magnitude with the other sign. -/
theorem read?_minus (cs : List Char) : read? (String.ofList ('-' :: cs)) = (magnitude? cs).map Float.neg := by
  unfold read?
  rw [String.toList_ofList]
  rfl

/-- A text without a sign is read as a magnitude. -/
theorem read?_of_unsigned {c : Char} (hminus : c ≠ '-') (hplus : c ≠ '+') (cs : List Char) :
    read? (String.ofList (c :: cs)) = magnitude? (c :: cs) := by
  unfold read?
  rw [String.toList_ofList]
  split
  · rename_i heq
    cases heq
    exact absurd rfl hminus
  · rename_i heq
    cases heq
    exact absurd rfl hplus
  · rfl

/-- A text that starts with a digit is read by its digits. -/
theorem read?_of_isDigit {d : Char} (hd : d.isDigit = true) (cs : List Char) :
    read? (String.ofList (d :: cs)) = digits? (d :: cs) := by
  rw [read?_of_unsigned, magnitude?_of_isDigit hd]
  · rintro rfl
    cases hd
  · rintro rfl
    cases hd

/-! ## Decimals -/

/-- A run of digits is the digits it begins with. -/
theorem takeWhile_isDigit (h : ∀ c ∈ ds, c.isDigit = true) : ds.takeWhile Char.isDigit = ds := by
  rw [← List.append_nil ds, List.takeWhile_append_of_pos h, List.takeWhile_nil]

/-- Nothing follows them in it. -/
theorem dropWhile_isDigit (h : ∀ c ∈ ds, c.isDigit = true) : ds.dropWhile Char.isDigit = [] := by
  rw [← List.append_nil ds, List.dropWhile_append_of_pos h, List.dropWhile_nil]

/-- Digits alone are read as a whole number. -/
theorem digits?_whole (hne : ds ≠ []) (h : ∀ c ∈ ds, c.isDigit = true) :
    digits? ds = some (nearest (ofDigits ds) ds.length 0) := by
  simp [digits?, takeWhile_isDigit h, dropWhile_isDigit h, hne]

/-- Digits around a point are read as a whole number over as many tens as there are digits behind the point. -/
theorem digits?_pointed (hne : ds ≠ []) (h : ∀ c ∈ ds, c.isDigit = true) (hf : ∀ c ∈ fs, c.isDigit = true) :
    digits? (ds ++ '.' :: fs) = some (nearest (ofDigits (ds ++ fs)) (ds ++ fs).length (-fs.length)) := by
  have htake : (ds ++ '.' :: fs).takeWhile Char.isDigit = ds := by
    rw [List.takeWhile_append_of_pos h, List.takeWhile_cons_of_neg (by decide), List.append_nil]
  have hdrop : (ds ++ '.' :: fs).dropWhile Char.isDigit = '.' :: fs := by
    rw [List.dropWhile_append_of_pos h, List.dropWhile_cons_of_neg (by decide)]
  simp [digits?, htake, hdrop, takeWhile_isDigit hf, dropWhile_isDigit hf, hne]

end TokenParsing.Decimal
