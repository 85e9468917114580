import TokenParsing.Proofs.Settings.EntryFailures
import TokenParsing.Proofs.Settings.Recognition

/-!
# The first character of a value

The next character announces the kind of value to read (`Announces`). It announces exactly one (`announces_iff`), and no
value is of a kind that is not announced (`announces_of_parse_stringValue` and its like). So nothing is lost by reading
only the kind announced instead of trying one kind after another, and a value that is missing is reported as that kind
alone reports it.
-/

namespace TokenParsing.Settings

open TokenParsing.Parser TokenParsing.TokenStream

variable {s : TokenStream Char} {first : Option Char} {p : Parser Char Value} {r : Success Char Value}

/-- The next character announces a kind of value: a quote a string, a minus sign or a digit an integer, and anything else,
or nothing, a truth value. -/
inductive Announces : Option Char → Parser Char Value → Prop where
  | string : Announces (some '\x22') stringValue
  | integer {c : Char} (h : c = '-' ∨ c.isDigit = true) : Announces (some c) integerValue
  | boolean {first : Option Char} (hquote : first ≠ some '\x22') (hminus : first ≠ some '-')
      (hdigit : ∀ c, first = some c → c.isDigit = false) : Announces first booleanValue

/-- Every next character announces one kind of value, the one that is chosen. -/
theorem announces_iff : Announces first p ↔ p = valueFrom first := by
  constructor
  · intro h
    cases h with
    | string => rfl
    | integer h => exact (valueFrom_integer h).symm
    | boolean hquote hminus hdigit =>
      unfold valueFrom
      cases first with
      | none => rfl
      | some c => simp_all
  · rintro rfl
    unfold valueFrom
    cases first with
    | none => exact .boolean (by simp) (by simp) (by simp)
    | some c =>
      dsimp only
      split
      · subst c
        exact .string
      · split
        · rename_i h
          exact .integer h
        · exact .boolean (by simp_all) (by simp_all) (by simp_all)

/-- What is announced is one of the three kinds of values. -/
theorem Announces.eq_kind (h : Announces first p) : (p = stringValue ∨ p = integerValue) ∨ p = booleanValue := by
  cases h with
  | string => exact Or.inl (Or.inl rfl)
  | integer _ => exact Or.inl (Or.inr rfl)
  | boolean _ _ _ => exact Or.inr rfl

/-! ## What is announced -/

/-- A string starts with the character that announces it. -/
theorem announces_of_parse_stringValue (h : stringValue.parse s = .ok r) : Announces s.head? stringValue := by
  obtain ⟨cs, hc, -, -⟩ := parse_stringValue_eq_ok_iff.1 h
  rw [hc.head?_eq_some]
  exact .string

/-- So does an integer. -/
theorem announces_of_parse_integerValue (h : integerValue.parse s = .ok r) : Announces s.head? integerValue := by
  obtain ⟨negative, ds, hc, hd, -, hne, -, -, -⟩ := parse_integerValue_eq_ok_iff.1 h
  obtain ⟨c, cs, hfirst, hkind⟩ := head?_integer negative hne hd
  rw [hfirst] at hc
  rw [hc.head?_eq_some]
  exact .integer hkind

/-- A truth value starts with a character that announces neither of the others. -/
theorem announces_of_parse_booleanValue (h : booleanValue.parse s = .ok r) : Announces s.head? booleanValue := by
  obtain ⟨b, hc, -, -⟩ := parse_booleanValue_eq_ok_iff.1 h
  cases b with
  | true =>
    have hhead : s.head? = some 't' := hc.head?_eq_some
    rw [hhead]
    exact .boolean (by simp) (by simp) (by simp)
  | false =>
    have hhead : s.head? = some 'f' := hc.head?_eq_some
    rw [hhead]
    exact .boolean (by simp) (by simp) (by simp)

/-- What is announced is what is read as a value. -/
theorem Announces.parse_value_ok_iff (h : Announces s.head? p) : value.parse s = .ok r ↔ p.parse s = .ok r := by
  rw [parse_value_eq_ok_iff, announces_iff.1 h]

/-! ## Trying one kind after another -/

/-- A value that can be read as one of a kind is read as that, since that kind is the one announced. -/
theorem parse_value_eq_ok_iff_exists_kind :
    value.parse s = .ok r ↔
      (stringValue.parse s = .ok r ∨ integerValue.parse s = .ok r) ∨ booleanValue.parse s = .ok r := by
  constructor
  · intro h
    rw [parse_value_eq_ok_iff] at h
    have hannounced : Announces s.head? (valueFrom s.head?) := announces_iff.2 rfl
    rcases hannounced.eq_kind with (hkind | hkind) | hkind
    · rw [hkind] at h
      exact Or.inl (Or.inl h)
    · rw [hkind] at h
      exact Or.inl (Or.inr h)
    · rw [hkind] at h
      exact Or.inr h
  · rintro ((h | h) | h)
    · exact (announces_of_parse_stringValue h).parse_value_ok_iff.2 h
    · exact (announces_of_parse_integerValue h).parse_value_ok_iff.2 h
    · exact (announces_of_parse_booleanValue h).parse_value_ok_iff.2 h

/-- Reading a value by its first character loses nothing. It succeeds where trying one kind after another does, with the
same outcome. Where it fails, the kind announced fails, with one cause, and the failure has that cause at the same place.
-/
theorem parse_value_refines_orElse (s : TokenStream Char) :
    (∀ r, value.parse s = .ok r ↔ ((stringValue.orElse integerValue).orElse booleanValue).parse s = .ok r) ∧
      ∀ e, value.parse s = .error e → ∃ p c sp l, Announces s.head? p ∧ p.parse s = .error (.single c sp l) ∧
        e = .single c sp (some "value") := by
  have hagree : ∀ r₁ r₂, value.parse s = .ok r₁ → value.parse s = .ok r₂ → r₁ = r₂ := by
    intro r₁ r₂ h₁ h₂
    rw [h₁] at h₂
    exact Except.ok.inj h₂
  constructor
  · intro r
    have hfirst : ∀ r', (stringValue.orElse integerValue).parse s = .ok r' ↔
        stringValue.parse s = .ok r' ∨ integerValue.parse s = .ok r' := by
      intro r'
      refine parse_orElse_eq_ok_iff_of_agree fun r₁ r₂ h₁ h₂ => hagree r₁ r₂ ?_ ?_
      · exact parse_value_eq_ok_iff_exists_kind.2 (Or.inl (Or.inl h₁))
      · exact parse_value_eq_ok_iff_exists_kind.2 (Or.inl (Or.inr h₂))
    rw [parse_orElse_eq_ok_iff_of_agree, hfirst, parse_value_eq_ok_iff_exists_kind]
    intro r₁ r₂ h₁ h₂
    refine hagree r₁ r₂ ?_ ?_
    · exact parse_value_eq_ok_iff_exists_kind.2 (Or.inl ((hfirst r₁).1 h₁))
    · exact parse_value_eq_ok_iff_exists_kind.2 (Or.inr h₂)
  · intro e he
    rw [parse_value, ← parse_mapFailure] at he
    obtain ⟨e₁, he₁, rfl⟩ := parse_mapFailure_eq_error_iff.1 he
    obtain ⟨piece, more, hat⟩ := exists_atLine s
    cases failsOnLine_valueFrom s.head? s piece more hat e₁ he₁ with
    | single _ _ _ => exact ⟨_, _, _, _, announces_iff.2 rfl, he₁, rfl⟩

end TokenParsing.Settings
