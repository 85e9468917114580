import TokenParsing.Proofs.Parser.Words
import TokenParsing.Proofs.Settings.LineGrammar

/-!
# Reading values

`value` reads exactly the values of the line grammar: whatever it reads is written as `ValueText` says, and a value so
written is read wherever no letter or digit follows it. A string needs nothing about what follows; a number and a word
do, because they are read as far as they go.
-/

namespace TokenParsing.Settings

open TokenParsing.Parser TokenParsing.TokenStream

variable {s : TokenStream Char}

/-! ## Strings -/

/-- A string is what stands between two quotes on one line, without a quote in it. -/
theorem parse_stringValue_eq_ok_iff {r : Success Char Value} :
    stringValue.parse s = .ok r ↔
      ∃ cs, s.Consumes ('\x22' :: (cs ++ ['\x22'])) r.remaining ∧ (∀ c ∈ cs, c ≠ '\x22' ∧ c ≠ '\n') ∧
        r.value = .string (String.ofList cs) := by
  rw [stringValue, parse_map_eq_ok_iff]
  refine ⟨fun hleft => ?_, fun h => ?_⟩
  · obtain ⟨r₀, h, rfl⟩ := hleft
    obtain ⟨r₁, r₂, r₃, h₁, h₂, h₃, rfl⟩ := parse_delimitedBy_eq_ok_iff.1 h
    obtain ⟨cs, h₂, hv⟩ := parse_asString_eq_ok_iff.1 h₂
    obtain ⟨hopen, -⟩ := parse_token_eq_ok_iff.1 h₁
    obtain ⟨hbody, hall, -, -⟩ := parse_repeated_accept_eq_ok_iff.1 h₂
    obtain ⟨hclose, -⟩ := parse_token_eq_ok_iff.1 h₃
    refine ⟨cs, hopen.trans (hbody.trans hclose), fun c hc => ?_, ?_⟩
    · simpa using hall c hc
    · rw [Success.map]
      exact congrArg Value.string hv
  · obtain ⟨cs, hc, hall, hv⟩ := h
    obtain ⟨s₁, hopen, hc⟩ := consumes_append_iff.1
      (show s.Consumes (['\x22'] ++ (cs ++ ['\x22'])) r.remaining from hc)
    obtain ⟨s₂, hbody, hclose⟩ := consumes_append_iff.1 hc
    have h₁ : (token '\x22').parse s = .ok ⟨'\x22', s₁⟩ := parse_token_eq_ok_iff.2 ⟨hopen, rfl⟩
    have h₂ : (noneOf ['\x22', '\n']).many.parse s₁ = .ok ⟨cs, s₂⟩ := by
      refine parse_repeated_accept_eq_ok_iff.2 ⟨hbody, fun c hc => ?_, ?_, Nat.zero_le _⟩
      · simpa using hall c hc
      · rw [hclose.2]
        exact stopsAt_cons (by decide) _
    have h₃ : (token '\x22').parse s₂ = .ok ⟨'\x22', r.remaining⟩ := parse_token_eq_ok_iff.2 ⟨hclose, rfl⟩
    refine ⟨⟨String.ofList cs, r.remaining⟩, parse_delimitedBy_eq_ok_iff.2
      ⟨_, ⟨String.ofList cs, s₂⟩, _, h₁, parse_asString_eq_ok_iff.2 ⟨cs, h₂, rfl⟩, h₃, rfl⟩, ?_⟩
    rw [Success.map, ← hv]

/-! ## Whole numbers -/

/-- The sign that a parser of an optional minus gives. -/
def signOf (negative : Bool) : Option Char :=
  if negative then some '-' else none

/-- A minus sign is read if it is next. -/
theorem parse_sign_eq_ok_iff {r : Success Char (Option Char)} :
    (token '-').optional.parse s = .ok r ↔
      ∃ negative, s.Consumes (signText negative) r.remaining ∧ r.value = signOf negative ∧
        (negative = false → StopsAt (· = '-') r.remaining.rest) := by
  rw [parse_optional_eq_ok_iff, parse_token_eq_error_iff]
  refine ⟨fun hleft => ?_, fun h => ?_⟩
  · rcases hleft with ⟨r₁, h, rfl⟩ | ⟨hstop, rfl⟩
    · obtain ⟨hc, hv⟩ := parse_token_eq_ok_iff.1 h
      exact ⟨true, hc, congrArg some hv, fun hn => nomatch hn⟩
    · exact ⟨false, Consumes.refl s, rfl, fun _ => hstop⟩
  · obtain ⟨negative, hc, hv, hstop⟩ := h
    cases negative with
    | true =>
      refine Or.inl ⟨⟨'-', r.remaining⟩, parse_token_eq_ok_iff.2 ⟨hc, rfl⟩, ?_⟩
      rw [Success.map]
      exact congrArg (Success.mk · r.remaining) hv
    | false =>
      obtain ⟨v, s'⟩ := r
      obtain rfl : s' = s := consumes_nil_iff.1 hc
      obtain rfl : v = none := hv
      exact Or.inr ⟨hstop rfl, rfl⟩

/-- A digit is not a minus sign. -/
theorem stopsAt_minus_of_digits {ds rest : List Char} (hne : ds ≠ []) (hd : ∀ c ∈ ds, c.isDigit = true) :
    StopsAt (· = '-') (ds ++ rest) := by
  cases ds with
  | nil => exact absurd rfl hne
  | cons d ds =>
    apply stopsAt_cons
    have := hd d (by simp)
    rw [decide_eq_false_iff_not]
    rintro rfl
    exact absurd this (by decide)

/-- The digits of a whole number after an optional minus sign. -/
theorem parse_signed_digits_eq_ok_iff {r : Success Char (Option Char × String)} :
    ((token '-').optional.both (charRun Char.isDigit)).parse s = .ok r ↔
      ∃ negative ds, s.Consumes (signText negative ++ ds) r.remaining ∧ (∀ c ∈ ds, c.isDigit = true) ∧
        StopsAt Char.isDigit r.remaining.rest ∧ ds ≠ [] ∧ r.value = (signOf negative, String.ofList ds) := by
  rw [parse_both_eq_ok_iff]
  refine ⟨fun h => ?_, fun h => ?_⟩
  · obtain ⟨r₁, r₂, h₁, h₂, rfl⟩ := h
    obtain ⟨negative, hs, hv, -⟩ := parse_sign_eq_ok_iff.1 h₁
    obtain ⟨ds, hc, hd, hstop, hne, hv'⟩ := parse_charRun_eq_ok_iff.1 h₂
    exact ⟨negative, ds, hs.trans hc, hd, hstop, hne, by rw [hv, hv']⟩
  · obtain ⟨negative, ds, hc, hd, hstop, hne, hv⟩ := h
    obtain ⟨s₁, hs, hds⟩ := consumes_append_iff.1 hc
    refine ⟨⟨signOf negative, s₁⟩, ⟨String.ofList ds, r.remaining⟩, ?_, ?_, ?_⟩
    · refine parse_sign_eq_ok_iff.2 ⟨negative, hs, rfl, fun _ => ?_⟩
      rw [hds.2]
      exact stopsAt_minus_of_digits hne hd
    · exact parse_charRun_eq_ok_iff.2 ⟨ds, hds, hd, hstop, hne, rfl⟩
    · rw [← hv]

/-- A whole number is refused as a whole when it does not fit in 64 bits. -/
theorem parse_integerValue_of_digits {negative : Bool} {ds : List Char} {s' : TokenStream Char}
    (h : ((token '-').optional.both (charRun Char.isDigit)).parse s =
      .ok ⟨(signOf negative, String.ofList ds), s'⟩) :
    integerValue.parse s =
      if greatestInteger < written negative ds then
        .error (.single (.custom "Invalid integer: number too large to fit in target type.")
          ⟨s.position, s'.position⟩ none)
      else if written negative ds < leastInteger then
        .error (.single (.custom "Invalid integer: number too small to fit in target type.")
          ⟨s.position, s'.position⟩ none)
      else .ok ⟨.integer (written negative ds), s'⟩ := by
  have hn : (if (signOf negative).isSome then -(Decimal.ofDigits (String.ofList ds).toList : Int)
      else (Decimal.ofDigits (String.ofList ds).toList : Int)) = written negative ds := by
    rw [String.toList_ofList]
    cases negative <;> rfl
  rw [integerValue, bind_eq, parse_bind, parse_spanned, h]
  simp only [hn]
  by_cases hhi : greatestInteger < written negative ds
  · simp only [hhi, if_true]
    rfl
  · by_cases hlo : written negative ds < leastInteger
    · simp only [hhi, hlo, if_true, if_false]
      rfl
    · simp only [hhi, hlo, if_false]
      rfl

/-- An integer is a sign and all the digits behind it, if what they write has 64 bits. -/
theorem parse_integerValue_eq_ok_iff {r : Success Char Value} :
    integerValue.parse s = .ok r ↔
      ∃ negative ds, s.Consumes (signText negative ++ ds) r.remaining ∧ (∀ c ∈ ds, c.isDigit = true) ∧
        StopsAt Char.isDigit r.remaining.rest ∧ ds ≠ [] ∧ -2 ^ 63 ≤ written negative ds ∧
        written negative ds < 2 ^ 63 ∧ r.value = .integer (written negative ds) := by
  refine ⟨fun h => ?_, fun h => ?_⟩
  · have hbind := h
    rw [integerValue, bind_eq, parse_bind_eq_ok_iff] at hbind
    obtain ⟨r₁, hspanned, -⟩ := hbind
    obtain ⟨⟨v, s'⟩, hread, -⟩ := parse_spanned_eq_ok_iff.1 hspanned
    obtain ⟨negative, ds, hc, hd, hstop, hne, rfl⟩ := parse_signed_digits_eq_ok_iff.1 hread
    rw [parse_integerValue_of_digits hread] at h
    by_cases hhi : greatestInteger < written negative ds
    · simp [hhi] at h
    · by_cases hlo : written negative ds < leastInteger
      · simp [hhi, hlo] at h
      · simp only [hhi, hlo, if_false, Except.ok.injEq] at h
        subst h
        simp only [greatestInteger, leastInteger] at hhi hlo
        exact ⟨negative, ds, hc, hd, hstop, hne, by omega, by omega, rfl⟩
  · obtain ⟨negative, ds, hc, hd, hstop, hne, hlo, hhi, hv⟩ := h
    have hread := (parse_signed_digits_eq_ok_iff (r := ⟨(signOf negative, String.ofList ds), r.remaining⟩)).2
      ⟨negative, ds, hc, hd, hstop, hne, rfl⟩
    have hhi' : ¬greatestInteger < written negative ds := by
      rw [greatestInteger]
      omega
    have hlo' : ¬written negative ds < leastInteger := by
      rw [leastInteger]
      omega
    rw [parse_integerValue_of_digits hread, if_neg hhi', if_neg hlo', ← hv]

/-! ## Truth values -/

/-- The word that names a truth value. -/
def word (b : Bool) : List Char :=
  if b then "true".toList else "false".toList

/-- A truth value is a word that names one, and no longer word. -/
theorem parse_booleanValue_eq_ok_iff {r : Success Char Value} :
    booleanValue.parse s = .ok r ↔
      ∃ b, s.Consumes (word b) r.remaining ∧ StopsAt Text.isIdentRest r.remaining.rest ∧ r.value = .boolean b := by
  rw [booleanValue, bind_eq, parse_bind_eq_ok_iff]
  refine ⟨fun h => ?_, fun h => ?_⟩
  · obtain ⟨r₀, hspanned, h₂⟩ := h
    obtain ⟨r₁, hident, rfl⟩ := parse_spanned_eq_ok_iff.1 hspanned
    obtain ⟨c, cs, hc, -, -, hstop, hv⟩ := parse_ident_eq_ok_iff.1 hident
    dsimp only at h₂
    by_cases ht : r₁.value = "true"
    · rw [if_pos ht] at h₂
      obtain rfl := parse_succeed_eq_ok_iff.1 h₂
      have hw : c :: cs = word true := String.ofList_injective (hv.symm.trans ht)
      exact ⟨true, hw ▸ hc, hstop, rfl⟩
    · by_cases hf : r₁.value = "false"
      · rw [if_neg ht, if_pos hf] at h₂
        obtain rfl := parse_succeed_eq_ok_iff.1 h₂
        have hw : c :: cs = word false := String.ofList_injective (hv.symm.trans hf)
        exact ⟨false, hw ▸ hc, hstop, rfl⟩
      · rw [if_neg ht, if_neg hf, parse_reject] at h₂
        nomatch h₂
  · obtain ⟨b, hc, hstop, hv⟩ := h
    have hread : ident.parse s = .ok ⟨String.ofList (word b), r.remaining⟩ := by
      cases b with
      | true =>
        have hrest : ['r', 'u', 'e'].all Text.isIdentRest = true := by decide +kernel
        exact parse_ident_eq_ok_iff.2 ⟨'t', _, hc, by decide +kernel, List.all_eq_true.1 hrest, hstop, rfl⟩
      | false =>
        have hrest : ['a', 'l', 's', 'e'].all Text.isIdentRest = true := by decide +kernel
        exact parse_ident_eq_ok_iff.2 ⟨'f', _, hc, by decide +kernel, List.all_eq_true.1 hrest, hstop, rfl⟩
    refine ⟨_, parse_spanned_eq_ok_iff.2 ⟨_, hread, rfl⟩, ?_⟩
    cases b with
    | true => exact parse_succeed_eq_ok_iff.2 (congrArg (Success.mk · r.remaining) hv)
    | false => exact parse_succeed_eq_ok_iff.2 (congrArg (Success.mk · r.remaining) hv)

/-! ## Values of any kind -/

/-- A value is read by the parser that the next character announces, under a label of its own. -/
theorem parse_value (s : TokenStream Char) :
    value.parse s = ((valueFrom s.head?).parse s).mapError (Failure.withLabel "value") := by
  rw [value, parse_mk]
  cases (valueFrom s.head?).parse s <;> rfl

/-- The label changes no success. -/
theorem parse_value_eq_ok_iff {r : Success Char Value} :
    value.parse s = .ok r ↔ (valueFrom s.head?).parse s = .ok r := by
  rw [parse_value]
  cases (valueFrom s.head?).parse s <;> simp [mapError_ok, mapError_error]

/-- A string that is read is a text of the value. -/
theorem valueText_of_parse_stringValue {r : Success Char Value} (h : stringValue.parse s = .ok r) :
    ∃ cs, s.Consumes cs r.remaining ∧ ValueText cs r.value := by
  obtain ⟨cs, hc, hall, hv⟩ := parse_stringValue_eq_ok_iff.1 h
  rw [hv]
  exact ⟨_, hc, .string hall⟩

/-- So is an integer. -/
theorem valueText_of_parse_integerValue {r : Success Char Value} (h : integerValue.parse s = .ok r) :
    ∃ cs, s.Consumes cs r.remaining ∧ ValueText cs r.value := by
  obtain ⟨negative, ds, hc, hd, -, hne, hlo, hhi, hv⟩ := parse_integerValue_eq_ok_iff.1 h
  rw [hv]
  exact ⟨_, hc, .integer negative hne hd hlo hhi⟩

/-- So is a truth value. -/
theorem valueText_of_parse_booleanValue {r : Success Char Value} (h : booleanValue.parse s = .ok r) :
    ∃ cs, s.Consumes cs r.remaining ∧ ValueText cs r.value := by
  obtain ⟨b, hc, -, hv⟩ := parse_booleanValue_eq_ok_iff.1 h
  rw [hv]
  cases b with
  | true => exact ⟨_, hc, .yes⟩
  | false => exact ⟨_, hc, .no⟩

/-- A value that is read is written as the grammar says, whichever kind its first character told. -/
theorem valueText_of_parse_value {r : Success Char Value} (h : value.parse s = .ok r) :
    ∃ cs, s.Consumes cs r.remaining ∧ ValueText cs r.value := by
  rw [parse_value_eq_ok_iff] at h
  unfold valueFrom at h
  split at h
  · exact valueText_of_parse_booleanValue h
  · split at h
    · exact valueText_of_parse_stringValue h
    · split at h
      · exact valueText_of_parse_integerValue h
      · exact valueText_of_parse_booleanValue h

/-- The first character of an integer: a minus sign or a digit. -/
theorem head?_integer (negative : Bool) {ds : List Char} (hne : ds ≠ []) (hd : ∀ c ∈ ds, c.isDigit = true) :
    ∃ c cs, signText negative ++ ds = c :: cs ∧ (c = '-' ∨ c.isDigit = true) := by
  cases negative with
  | true => exact ⟨'-', ds, rfl, Or.inl rfl⟩
  | false =>
    cases ds with
    | nil => exact absurd rfl hne
    | cons d ds => exact ⟨d, ds, rfl, Or.inr (hd d (by simp))⟩

/-- A value whose first character may start an integer is read as one. -/
theorem valueFrom_integer {c : Char} (h : c = '-' ∨ c.isDigit = true) : valueFrom (some c) = integerValue := by
  have hquote : c ≠ '\x22' := by
    rintro rfl
    revert h
    decide
  unfold valueFrom
  simp [hquote, h]

/-- A value that is written as the grammar says is read, where nothing after it would go on with a word or a number. -/
theorem parse_value_of_valueText {cs : List Char} {v : Value} {s' : TokenStream Char} (h : ValueText cs v)
    (hc : s.Consumes cs s') (hstop : StopsAt Text.isIdentRest s'.rest) : value.parse s = .ok ⟨v, s'⟩ := by
  rw [parse_value_eq_ok_iff]
  have hhead : ∀ c cs', cs = c :: cs' → s.head? = some c := by
    rintro c cs' rfl
    exact hc.head?_eq_some
  cases h with
  | string hall =>
    rw [hhead _ _ rfl]
    exact parse_stringValue_eq_ok_iff.2 ⟨_, hc, hall, rfl⟩
  | integer negative hne hd hlo hhi =>
    obtain ⟨c, cs', he, hfirst⟩ := head?_integer negative hne hd
    rw [hhead c cs' he, valueFrom_integer hfirst]
    have hstop' : StopsAt Char.isDigit s'.rest := by
      intro t ht
      have hn := hstop t ht
      cases hdig : t.isDigit with
      | false => rfl
      | true =>
        rw [Text.isIdentRest, Text.isAlphanumeric, Text.isNumeric_of_isDigit hdig] at hn
        simp at hn
    exact parse_integerValue_eq_ok_iff.2 ⟨negative, _, hc, hd, hstop', hne, hlo, hhi, rfl⟩
  | yes =>
    rw [hhead 't' _ rfl]
    exact parse_booleanValue_eq_ok_iff.2 ⟨true, hc, hstop, rfl⟩
  | no =>
    rw [hhead 'f' _ rfl]
    exact parse_booleanValue_eq_ok_iff.2 ⟨false, hc, hstop, rfl⟩

end TokenParsing.Settings
