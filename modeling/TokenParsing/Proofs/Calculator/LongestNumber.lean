import TokenParsing.Proofs.Calculator.Scanning
import TokenParsing.Proofs.Decimal.RoundTrip

/-!
# The longest number ahead

`leadingNumber` reads off a list of characters the number it starts with: the digits, and a point and the digits after it
if there is one. No number that the list starts with is longer (`Numeral.prefix_leadingNumber`). The parser of numbers
reads these characters, their value is the number they write, and the one way in which it fails is that no digit is next
(`parse_number_leadingNumber`): its last resort, for digits that write no number, is never needed. The value is the
floating-point number that the decimal written rounds to (`roundsToBits_of_parse_number`).
-/

namespace TokenParsing.Calculator

open TokenParsing.Parser TokenParsing.TokenStream

/-- The point and the digits after it that a list of characters starts with, if it starts with a point and a digit. -/
def leadingFraction : List Char → List Char
  | '.' :: d :: cs => if d.isDigit then '.' :: (d :: cs).takeWhile Char.isDigit else []
  | _ => []

/-- The digits that a list of characters starts with, and the point and the digits that follow these. -/
def leadingNumber (cs : List Char) : List Char :=
  cs.takeWhile Char.isDigit ++ leadingFraction (cs.dropWhile Char.isDigit)

/-! ## The number that a list starts with -/

/-- Digits that a list starts with belong to its number. -/
theorem Digits.leadingNumber_append {ds : List Char} (h : Digits ds) (cs : List Char) :
    leadingNumber (ds ++ cs) = ds ++ leadingNumber cs := by
  rw [leadingNumber, List.takeWhile_append_of_pos h.isDigit, List.dropWhile_append_of_pos h.isDigit, List.append_assoc,
    ← leadingNumber]

/-- So do a point and digits. -/
theorem Digits.leadingNumber_point {fs : List Char} (h : Digits fs) (cs : List Char) :
    leadingNumber ('.' :: (fs ++ cs)) = '.' :: (fs ++ cs.takeWhile Char.isDigit) := by
  obtain ⟨f, fs', rfl⟩ := List.exists_cons_of_ne_nil h.ne_nil
  have hf : f.isDigit = true := h.isDigit f List.mem_cons_self
  have hpoint : leadingNumber ('.' :: (f :: fs' ++ cs)) = leadingFraction ('.' :: (f :: fs' ++ cs)) := by
    simp [leadingNumber, isDigit_point]
  rw [hpoint, List.cons_append, leadingFraction, if_pos hf, ← List.cons_append,
    List.takeWhile_append_of_pos h.isDigit]

/-- A list that starts neither with a digit nor with a fraction starts with no number. -/
theorem leadingNumber_eq_nil {cs : List Char} (hdigit : StopsAt Char.isDigit cs) (hfraction : ¬StartsFraction cs) :
    leadingNumber cs = [] := by
  have hfraction' : leadingFraction cs = [] := by
    unfold leadingFraction
    split
    · rename_i d cs'
      rw [if_neg]
      intro hd
      exact hfraction ⟨d, cs', rfl, hd⟩
    · rfl
  have hdrop : ([] ++ cs).dropWhile Char.isDigit = cs := dropWhile_append_of_stopsAt (by simp) hdigit
  rw [List.nil_append] at hdrop
  rw [leadingNumber, stopsAt_iff_takeWhile_eq_nil.1 hdigit, hdrop, hfraction', List.append_nil]

/-- Every number that a list starts with is the first part of its longest one. -/
theorem Numeral.prefix_leadingNumber {cs : List Char} (h : Numeral cs) (rest : List Char) :
    cs <+: leadingNumber (cs ++ rest) := by
  cases h with
  | whole h =>
    rw [h.leadingNumber_append]
    exact List.prefix_append cs _
  | @pointed ds fs h hf =>
    rw [List.append_assoc, h.leadingNumber_append, List.cons_append, hf.leadingNumber_point, ← List.cons_append,
      ← List.append_assoc]
    exact List.prefix_append _ _

/-- A number that ends before the characters after it is the longest one. -/
theorem Numeral.leadingNumber_eq {cs rest : List Char} (h : Numeral cs) (hend : NumeralEnds cs rest) :
    leadingNumber (cs ++ rest) = cs := by
  cases h with
  | whole h =>
    rw [h.leadingNumber_append, leadingNumber_eq_nil hend.digit (hend.fraction h.point_not_mem), List.append_nil]
  | @pointed ds fs h hf =>
    rw [List.append_assoc, h.leadingNumber_append, List.cons_append, hf.leadingNumber_point,
      stopsAt_iff_takeWhile_eq_nil.1 hend.digit, List.append_nil]

example : leadingNumber ['3', '.', '1', '4', '.', '2'] = ['3', '.', '1', '4'] := by
  decide

/-- A list that starts with a digit is its longest number and what ends it. -/
theorem exists_leadingNumber {cs : List Char} (h : ¬StopsAt Char.isDigit cs) :
    ∃ rest, cs = leadingNumber cs ++ rest ∧ Numeral (leadingNumber cs) ∧ NumeralEnds (leadingNumber cs) rest := by
  obtain ⟨d, cs', rfl⟩ : ∃ d cs', cs = d :: cs' := by
    refine List.exists_cons_of_ne_nil ?_
    rintro rfl
    exact h (stopsAt_nil _)
  have hd : d.isDigit = true := by
    rw [← Bool.not_eq_false]
    intro hd
    exact h (stopsAt_cons hd cs')
  obtain ⟨lex, rest, hcs, hn, hend⟩ := exists_numeral hd cs'
  rw [hcs, hn.leadingNumber_eq hend]
  exact ⟨rest, rfl, hn, hend⟩

/-! ## The parser of numbers -/

variable {s : TokenStream Char}

/-- Where no digit is next, the digits are missing. -/
theorem parse_number_of_stopsAt (h : StopsAt Char.isDigit s.rest) :
    number.parse s = .error (.single (.tooFew 1 0) (.single s.position) (some "number")) := by
  have hdigits : (charRun Char.isDigit).parse s = .error (.single (.tooFew 1 0) (.single s.position) none) :=
    parse_charRun_eq_error_iff.2 ⟨h, rfl⟩
  have hparts := parse_both_eq_error_iff (q := (token '.' *> charRun Char.isDigit).optional).2 (Or.inl hdigits)
  rw [number]
  exact parse_withLabel_eq_error_iff.2
    ⟨_, parse_bind_eq_error_iff.2 (Or.inl (parse_spanned_eq_error_iff.2 hparts)), rfl⟩

/-- Where a digit is next, the longest number is read. -/
theorem parse_number_eq_ok_iff_leadingNumber (h : ¬StopsAt Char.isDigit s.rest) {r : Success Char Float} :
    number.parse s = .ok r ↔
      Decimal.read? (String.ofList (leadingNumber s.rest)) = some r.value ∧
        r.remaining = s.advance (leadingNumber s.rest).length := by
  rw [parse_number_eq_ok_iff]
  constructor
  · rintro ⟨cs, hc, hn, hread, hend⟩
    have hcs : leadingNumber s.rest = cs := by
      rw [hc.2]
      exact hn.leadingNumber_eq hend
    rw [hcs]
    exact ⟨hread, hc.1⟩
  · rintro ⟨hread, hremaining⟩
    obtain ⟨rest, hrest, hn, hend⟩ := exists_leadingNumber h
    rw [hremaining]
    refine ⟨_, consumes_of_rest hrest, hn, hread, ?_⟩
    rwa [rest_advance_of_rest hrest]

/-- The value of a number is the floating-point number that the decimal written rounds to. -/
theorem Numeral.exists_read_rounded {cs : List Char} (h : Numeral cs) :
    ∃ v, Decimal.read? (String.ofList cs) = some v ∧
      Decimal.RoundsToBits (Decimal.pointedValue cs) v.toBits.toNat := by
  rw [h.read?_eq]
  cases h with
  | whole h => exact Decimal.exists_digits?_whole h.ne_nil h.isDigit
  | pointed h hf => exact Decimal.exists_digits?_pointed h.ne_nil h.isDigit hf.isDigit

/-- The parser of numbers answers the floating-point number that the decimal ahead rounds to. -/
theorem roundsToBits_of_parse_number {r : Success Char Float} (h : number.parse s = .ok r) :
    Decimal.RoundsToBits (Decimal.pointedValue (leadingNumber s.rest)) r.value.toBits.toNat := by
  by_cases hstop : StopsAt Char.isDigit s.rest
  · rw [parse_number_of_stopsAt hstop] at h
    cases h
  · obtain ⟨hread, -⟩ := (parse_number_eq_ok_iff_leadingNumber hstop).1 h
    obtain ⟨rest, -, hn, -⟩ := exists_leadingNumber hstop
    obtain ⟨v, hv, hrounds⟩ := hn.exists_read_rounded
    rw [hread, Option.some.injEq] at hv
    rwa [hv]

/-- The parser of numbers fails exactly where no digit is next, and then for want of digits. Anywhere else it reads the
longest number ahead: digits, and a point and the digits after it exactly if there are any. The value is the one that the
characters read write. -/
theorem parse_number_leadingNumber (s : TokenStream Char) :
    (∀ e, number.parse s = .error e ↔
      StopsAt Char.isDigit s.rest ∧ e = .single (.tooFew 1 0) (.single s.position) (some "number")) ∧
    (∀ r, number.parse s = .ok r ↔
      ¬StopsAt Char.isDigit s.rest ∧ Decimal.read? (String.ofList (leadingNumber s.rest)) = some r.value ∧
        r.remaining = s.advance (leadingNumber s.rest).length) ∧
    (¬StopsAt Char.isDigit s.rest →
      Numeral (leadingNumber s.rest) ∧ leadingNumber s.rest <+: s.rest ∧
        ∀ cs, Numeral cs → cs <+: s.rest → cs <+: leadingNumber s.rest) ∧
    ∀ cs, Numeral cs → ∃ v, Decimal.read? (String.ofList cs) = some v := by
  refine ⟨fun e => ?_, fun r => ?_, fun hdigit => ?_, fun cs hn => hn.exists_read⟩
  · constructor
    · intro he
      have hstop := parse_number_eq_error_iff.1 ⟨e, he⟩
      rw [parse_number_of_stopsAt hstop, Except.error.injEq] at he
      exact ⟨hstop, he.symm⟩
    · rintro ⟨hstop, rfl⟩
      exact parse_number_of_stopsAt hstop
  · by_cases hstop : StopsAt Char.isDigit s.rest
    · rw [parse_number_of_stopsAt hstop]
      simp [hstop]
    · rw [parse_number_eq_ok_iff_leadingNumber hstop]
      simp only [hstop, not_false_eq_true, true_and]
  · obtain ⟨rest, hrest, hn, -⟩ := exists_leadingNumber hdigit
    refine ⟨hn, ⟨rest, hrest.symm⟩, ?_⟩
    rintro cs hcs ⟨u, hu⟩
    rw [← hu]
    exact hcs.prefix_leadingNumber u

/-- A point without a digit after it is left ahead. -/
theorem parse_number_leadingNumber_of_point :
    let s := ofList ['3', '.']
    leadingNumber s.rest = ['3'] ∧ ∃ v, number.parse s = .ok ⟨v, s.advance 1⟩ := by
  intro s
  obtain ⟨-, hok, hlongest, hread⟩ := parse_number_leadingNumber s
  have hdigit : ¬StopsAt Char.isDigit s.rest := fun hstop => nomatch hstop '3' rfl
  have hthree : leadingNumber s.rest = ['3'] := by decide
  obtain ⟨hn, -⟩ := hlongest hdigit
  obtain ⟨v, hv⟩ := hread _ hn
  refine ⟨hthree, v, (hok ⟨v, s.advance 1⟩).2 ⟨hdigit, hv, ?_⟩⟩
  rw [hthree]
  rfl

end TokenParsing.Calculator
