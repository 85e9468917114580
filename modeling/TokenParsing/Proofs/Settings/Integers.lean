import Mathlib.Data.Nat.Digits.Defs
import TokenParsing.Proofs.Settings.Values

/-!
# Integers in settings

The text of an integer is an optional minus sign and the longest run of digits behind it. It is read as a whole, however
long it is, and tells the integer that it writes in base ten (`written_eq_ofDigits`), leading zeros and a negative zero
included. The integers of 64 bits with a sign are values; what is beyond them is refused, with all of the text as the span
of the failure (`IntegerAnswer`).
-/

namespace TokenParsing.Settings

open TokenParsing.Parser TokenParsing.TokenStream

variable {s s' : TokenStream Char} {negative : Bool} {ds rest : List Char}

/-- The integer that digits write is their value in base ten, the last digit counting for one. -/
theorem written_eq_ofDigits (negative : Bool) (ds : List Char) :
    written negative ds =
      (if negative then -1 else 1) * ((Nat.ofDigits 10 (ds.reverse.map fun c => c.toNat - '0'.toNat) : Nat) : Int) := by
  have hvalue : Decimal.ofDigits ds = Nat.ofDigits 10 (ds.reverse.map fun c => c.toNat - '0'.toNat) := by
    unfold Decimal.ofDigits
    rw [Nat.ofDigits_eq_foldr, List.foldr_map, List.foldr_reverse]
    simp [Nat.add_comm]
  unfold written
  rw [hvalue]
  cases negative <;> simp

/-- What a parser answers that has read the text of an integer: the integer, if it is one of 64 bits with a sign, and
otherwise a failure that points at all of the text. -/
structure IntegerAnswer (z : Int) (s s' : TokenStream Char) (label : Option String) (o : Outcome Char Value) :
    Prop where
  /-- The integers of 64 bits, and no others, are values. -/
  fits : o = .ok ⟨.integer z, s'⟩ ↔ -2 ^ 63 ≤ z ∧ z < 2 ^ 63
  /-- An integer above them is too large. -/
  tooLarge : 2 ^ 63 ≤ z → o = .error (.single
    (.custom "Invalid integer: number too large to fit in target type.") ⟨s.position, s'.position⟩ label)
  /-- An integer below them is too small. -/
  tooSmall : z < -2 ^ 63 → o = .error (.single
    (.custom "Invalid integer: number too small to fit in target type.") ⟨s.position, s'.position⟩ label)

/-- A label changes what a failure says of where it comes from, and nothing else. -/
theorem IntegerAnswer.withLabel {z : Int} {label : Option String} {o : Outcome Char Value}
    (h : IntegerAnswer z s s' label o) (l : String) :
    IntegerAnswer z s s' (some l) (o.mapError (Failure.withLabel l)) := by
  constructor
  · rw [← h.fits]
    cases o with
    | ok r => rw [mapError_ok]
    | error e => simp [mapError_error]
  · intro hz
    rw [h.tooLarge hz]
    rfl
  · intro hz
    rw [h.tooSmall hz]
    rfl

/-- The text of an integer is consumed to its last digit, whether the integer fits or not. -/
theorem parse_integerValue_of_rest (hs : s.rest = signText negative ++ ds ++ rest) (hne : ds ≠ [])
    (hd : ∀ c ∈ ds, c.isDigit = true) (hstop : StopsAt Char.isDigit rest) :
    IntegerAnswer (written negative ds) s (s.advance (signText negative ++ ds).length) none (integerValue.parse s) := by
  have hc := consumes_of_rest hs
  have hread : ((token '-').optional.both (charRun Char.isDigit)).parse s =
      .ok ⟨(signOf negative, String.ofList ds), s.advance (signText negative ++ ds).length⟩ := by
    refine parse_signed_digits_eq_ok_iff.2 ⟨negative, ds, hc, hd, ?_, hne, rfl⟩
    rw [rest_advance_of_rest hs]
    exact hstop
  rw [parse_integerValue_of_digits hread]
  generalize written negative ds = z
  unfold greatestInteger leastInteger
  constructor
  · split
    · simp
      omega
    · split
      · simp
        omega
      · simp
        omega
  · intro hz
    rw [if_pos (by omega)]
  · intro hz
    rw [if_neg (by omega), if_pos (by omega)]

/-- Where no digit is behind the optional sign, one is missing there. -/
theorem parse_integerValue_of_stopsAt (hs : s.rest = signText negative ++ rest)
    (hsign : negative = false → StopsAt (· = '-') rest) (hstop : StopsAt Char.isDigit rest) :
    integerValue.parse s =
      .error (.single (.tooFew 1 0) (.single (s.position + (signText negative).length)) none) := by
  have hc := consumes_of_rest hs
  have hrest := rest_advance_of_rest hs
  have hread : (token '-').optional.parse s = .ok ⟨signOf negative, s.advance (signText negative).length⟩ := by
    refine parse_sign_eq_ok_iff.2 ⟨negative, hc, rfl, ?_⟩
    rw [hrest]
    exact hsign
  have hdigits : (charRun Char.isDigit).parse (s.advance (signText negative).length) =
      .error (.single (.tooFew 1 0) (.single (s.position + (signText negative).length)) none) := by
    refine parse_charRun_eq_error_iff.2 ⟨?_, ?_⟩
    · rw [hrest]
      exact hstop
    · rw [hc.position_eq]
  have hboth : ((token '-').optional.both (charRun Char.isDigit)).parse s =
      .error (.single (.tooFew 1 0) (.single (s.position + (signText negative).length)) none) :=
    parse_both_eq_error_iff.2 (Or.inr ⟨_, hread, hdigits⟩)
  rw [integerValue, bind_eq, parse_bind, parse_spanned, hboth]

/-- An integer is read exactly. After the optional minus sign all the digits are taken, however many there are, and the
integer they write is the value if it is one of 64 bits with a sign; if it is not, the failure covers the sign and the
digits and tells on which side it lies. Without a digit the failure stands right behind the sign. As a value of any kind it
is read in the same way. -/
theorem parse_integerValue_exact (hs : s.rest = signText negative ++ ds ++ rest)
    (hd : ∀ c ∈ ds, c.isDigit = true) (hstop : StopsAt Char.isDigit rest) :
    written negative ds =
        (if negative then -1 else 1) * ((Nat.ofDigits 10 (ds.reverse.map fun c => c.toNat - '0'.toNat) : Nat) : Int) ∧
      (ds ≠ [] → ∃ s', s.Consumes (signText negative ++ ds) s' ∧
        IntegerAnswer (written negative ds) s s' none (integerValue.parse s) ∧
        IntegerAnswer (written negative ds) s s' (some "value") (value.parse s)) ∧
      (ds = [] → (negative = false → StopsAt (· = '-') rest) →
        integerValue.parse s =
            .error (.single (.tooFew 1 0) (.single (s.position + (signText negative).length)) none) ∧
          (negative = true → value.parse s =
            .error (.single (.tooFew 1 0) (.single (s.position + (signText negative).length)) (some "value")))) := by
  refine ⟨written_eq_ofDigits negative ds, ?_, ?_⟩
  · intro hne
    have hanswer := parse_integerValue_of_rest hs hne hd hstop
    have hc := consumes_of_rest hs
    refine ⟨_, hc, hanswer, ?_⟩
    obtain ⟨c, cs, hfirst, hkind⟩ := head?_integer negative hne hd
    have hhead : s.head? = some c := Consumes.head?_eq_some (hfirst ▸ hc)
    rw [parse_value, hhead, valueFrom_integer hkind]
    exact hanswer.withLabel "value"
  · rintro rfl hsign
    rw [List.append_nil] at hs
    have hmissing := parse_integerValue_of_stopsAt hs hsign hstop
    refine ⟨hmissing, ?_⟩
    rintro rfl
    have hhead : s.head? = some '-' := (consumes_of_rest hs).head?_eq_some
    rw [parse_value, hhead, valueFrom_integer (Or.inl rfl), hmissing]
    rfl

/-- The least integer is a value, with zeros before its digits too; its negation is not one, and a sign alone is
nothing. -/
theorem parse_integerValue_exact_at_bounds :
    value.parse (.ofText "-0009223372036854775808 # least") =
        .ok ⟨.integer (-9223372036854775808), (TokenStream.ofText "-0009223372036854775808 # least").advance 23⟩ ∧
      integerValue.parse (.ofText "9223372036854775808") =
        .error (.single (.custom "Invalid integer: number too large to fit in target type.") ⟨0, 19⟩ none) ∧
      value.parse (.ofText "-x") = .error (.single (.tooFew 1 0) (.single 1) (some "value")) := by
  refine ⟨?_, ?_, ?_⟩
  · have hs : (TokenStream.ofText "-0009223372036854775808 # least").rest =
        signText true ++ "0009223372036854775808".toList ++ " # least".toList := by rfl
    have hd : "0009223372036854775808".toList.all Char.isDigit = true := by rfl
    obtain ⟨-, hread, -⟩ := parse_integerValue_exact hs (List.all_eq_true.1 hd) (stopsAt_cons (by decide) _)
    obtain ⟨s', hc, -, hanswer⟩ := hread (by decide)
    have hwritten : written true "0009223372036854775808".toList = -9223372036854775808 := by decide
    obtain ⟨rfl, -⟩ := hc
    rw [hwritten] at hanswer
    exact hanswer.fits.2 (by decide)
  · have hs : (TokenStream.ofText "9223372036854775808").rest =
        signText false ++ "9223372036854775808".toList ++ [] := by rfl
    have hd : "9223372036854775808".toList.all Char.isDigit = true := by rfl
    obtain ⟨-, hread, -⟩ := parse_integerValue_exact hs (List.all_eq_true.1 hd) (stopsAt_nil _)
    obtain ⟨s', hc, hanswer, -⟩ := hread (by decide)
    obtain ⟨rfl, -⟩ := hc
    exact hanswer.tooLarge (by decide)
  · have hs : (TokenStream.ofText "-x").rest = signText true ++ [] ++ ['x'] := by rfl
    obtain ⟨-, -, hmissing⟩ := parse_integerValue_exact hs (by simp) (stopsAt_cons (by decide) _)
    exact (hmissing rfl (by simp)).2 rfl

end TokenParsing.Settings
