import TokenParsing.Proofs.Calculator.Recognition
import TokenParsing.Proofs.Parser.Consuming

/-!
# Committed chains

Operands separated by operators can be read in two ways. The one folds a repetition of an operator and an operand
(`folded`): where an operator is read and its operand is not, the repetition ends before the operator. The other is
committed by every operator it reads (`leftAssoc`), and there it fails. Up to that operator both read the same: what is
ahead of a chain in its loop is what the repetition collects, folded onto the part that has been read
(`exists_chain_eq`).
-/

namespace TokenParsing.Calculator

open TokenParsing.Parser TokenParsing.TokenStream

variable {operand : Rule} {op : Parser Token BinaryOp} {s : TokenStream Token}

/-! ## Rules that read something -/

/-- A token that is next can be read. -/
theorem Next.exists_consumes {k : TokenKind} (h : Next k s) : ∃ t, s.Consumes [t] (s.advance 1) := by
  rw [Next, head?_ahead, Option.map_eq_some_iff] at h
  obtain ⟨t, ht, -⟩ := h
  exact ⟨t, consumes_of_head? ht⟩

theorem consuming_operator (ops : Symbol → Option BinaryOp) : (operator ops).Consuming := by
  refine consuming_of_consumes fun s o ho => ?_
  obtain ⟨sym, hn, -, hremaining⟩ := (parse_operator_eq_ok_iff s o).1 ho
  obtain ⟨t, ht⟩ := hn.exists_consumes
  exact ⟨t, [], hremaining ▸ ht⟩

theorem consuming_numeral : numeral.Consuming := by
  refine consuming_of_consumes fun s r hr => ?_
  obtain ⟨v, hn, rfl⟩ := (parse_numeral_eq_ok_iff s r).1 hr
  obtain ⟨t, ht⟩ := hn.exists_consumes
  exact ⟨t, [], ht⟩

/-! ## Two ways to read a chain -/

/-- An operation and its right operand, taken onto a left operand. -/
def joinOnto (left : Expr Span) (right : BinaryOp × Expr Span) : Expr Span :=
  join right.1 left right.2

/-- Reads operands separated by operators as a first operand and any number of further ones, folded from left to right.
-/
def folded (operand : Rule) (op : Parser Token BinaryOp) : Rule :=
  (operand.both (op.both operand).many).fold joinOnto

/-- A chain goes on over what a repetition of operators and operands collects. After that either no operator is read,
and the chain answers what is collected, folded onto what it started from; or one is and its operand is not, and the
chain fails as the operand does. -/
theorem exists_chain_eq (ho : operand.Onward) (hop : op.Consuming) {budget : Nat}
    (hbudget : s.length ≤ budget) (left : Expr Span) :
    ∃ rights s', (op.both operand).collect false budget 0 s = (rights, s') ∧
      ((∃ e, op.parse s' = .error e) ∧ chain operand op budget left s = .ok ⟨rights.foldl joinOnto left, s'⟩ ∨
        ∃ o e, op.parse s' = .ok o ∧ operand.parse o.remaining = .error e ∧
          chain operand op budget left s = .error e) := by
  induction budget generalizing s left with
  | zero =>
    have hnone := hop.exists_error (Nat.le_zero.1 hbudget)
    exact ⟨[], s, rfl, Or.inl ⟨hnone, rfl⟩⟩
  | succ budget ih =>
    unfold chain
    cases hopen : op.parse s with
    | error e =>
      have hpair : (op.both operand).parse s = .error e := parse_both_eq_error_iff.2 (Or.inl hopen)
      exact ⟨[], s, collect_of_error hpair _ _ _, Or.inl ⟨⟨e, hopen⟩, rfl⟩⟩
    | ok o =>
      cases hr : operand.parse o.remaining with
      | error e =>
        have hpair : (op.both operand).parse s = .error e := parse_both_eq_error_iff.2 (Or.inr ⟨o, hopen, hr⟩)
        exact ⟨[], s, collect_of_error hpair _ _ _, Or.inr ⟨o, e, hopen, hr, by simp only [hr]⟩⟩
      | ok r =>
        have hpair : (op.both operand).parse s = .ok ⟨(o.value, r.value), r.remaining⟩ :=
          parse_both_eq_ok_iff.2 ⟨o, r, hopen, hr, rfl⟩
        have hconsuming : (op.both operand).Consuming := hop.both ho
        have hlt := hconsuming.length_lt hpair
        obtain ⟨-, hforward⟩ := hconsuming s _ hpair
        obtain ⟨rights, s', hcollect, hchain⟩ :=
          ih (s := r.remaining) (by dsimp only at hlt ⊢; omega) (join o.value left r.value)
        refine ⟨(o.value, r.value) :: rights, s', ?_, ?_⟩
        · rw [collect_of_progress hpair hforward, Nat.zero_sub, hcollect]
        · simp only [hr]
          exact hchain

/-- A committed chain and the fold of a repetition fail alike where their first operand fails. Otherwise the fold reads
something, and the chain reads the same if no operator is read after it; if one is, the operand after that operator
fails, and the chain fails as it does. -/
theorem leftAssoc_eq_folded (ho : operand.Onward) (hop : op.Consuming) :
    (∃ e, operand.parse s = .error e ∧ (folded operand op).parse s = .error e ∧
        (leftAssoc operand op).parse s = .error e) ∨
      ∃ first r, operand.parse s = .ok first ∧ (folded operand op).parse s = .ok r ∧
        ((∃ e, op.parse r.remaining = .error e) ∧ (leftAssoc operand op).parse s = .ok r ∨
          ∃ o e, op.parse r.remaining = .ok o ∧ operand.parse o.remaining = .error e ∧
            (leftAssoc operand op).parse s = .error e) := by
  rw [parse_leftAssoc, folded, fold]
  cases hfirst : operand.parse s with
  | error e =>
    refine Or.inl ⟨e, rfl, ?_, rfl⟩
    exact parse_map_eq_error_iff.2 (parse_both_eq_error_iff.2 (Or.inl hfirst))
  | ok first =>
    have hmany := (hop.both ho).parse_repeated_zero (s := first.remaining) none
    obtain ⟨rights, s', hcollect, hchain⟩ := exists_chain_eq ho hop (Nat.le_refl _) first.value
    rw [Option.getD_none, hcollect] at hmany
    refine Or.inr ⟨first, ⟨rights.foldl joinOnto first.value, s'⟩, rfl, ?_, hchain⟩
    exact parse_map_eq_ok_iff.2 ⟨_, parse_both_eq_ok_iff.2 ⟨first, _, hfirst, hmany, rfl⟩, rfl⟩

/-- Of three operands the last one is missing: the fold leaves the operator before it, and the chain fails after it. -/
theorem leftAssoc_eq_folded_of_missing_operand :
    let s := ofList [⟨.number 1, ⟨0, 1⟩⟩, ⟨.symbol .plus, ⟨1, 2⟩⟩, ⟨.number 2, ⟨2, 3⟩⟩, ⟨.symbol .minus, ⟨3, 4⟩⟩]
    let sum := Expr.binary .add (.number 1 ⟨0, 1⟩) (.number 2 ⟨2, 3⟩) ⟨0, 3⟩
    (folded numeral (operator sumOp)).parse s = .ok ⟨sum, s.advance 3⟩ ∧
      (operator sumOp).parse (s.advance 3) = .ok ⟨.subtract, s.advance 4⟩ ∧
      ∃ e, numeral.parse (s.advance 4) = .error e ∧ (leftAssoc numeral (operator sumOp)).parse s = .error e := by
  intro s sum
  have hfolded : (folded numeral (operator sumOp)).parse s = .ok ⟨sum, s.advance 3⟩ := rfl
  have hoperator : (operator sumOp).parse (s.advance 3) = .ok ⟨.subtract, s.advance 4⟩ := rfl
  refine ⟨hfolded, hoperator, ?_⟩
  rcases leftAssoc_eq_folded consuming_numeral.onward (consuming_operator sumOp) (s := s) with
    ⟨e, -, he, -⟩ | ⟨first, r, -, hr, hlast⟩
  · cases hfolded.symm.trans he
  · cases hfolded.symm.trans hr
    rcases hlast with ⟨⟨e, he⟩, -⟩ | ⟨o, e, ho, he, hchain⟩
    · cases hoperator.symm.trans he
    · cases hoperator.symm.trans ho
      exact ⟨e, he, hchain⟩

end TokenParsing.Calculator
