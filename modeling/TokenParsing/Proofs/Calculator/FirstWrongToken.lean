import TokenParsing.Proofs.Calculator.Prefixes
import TokenParsing.Proofs.Calculator.Recognition
import TokenParsing.Proofs.Parser.Outcomes

/-!
# The first wrong token

A failure of the parser of arithmetic points at the first token with which the input stops being the beginning of a
sentence, or past the end of the input when it never does; only a parenthesis left open is reported where it was opened
(`FirstWrong`). What carries the induction over the rules is that a rule is only ever entered where an operand is due
(`Entry`): the tokens before it can be gone on with by any expression.
-/

namespace TokenParsing.Calculator

open TokenParsing.Parser

variable {n : Nat} {expression unary operand : Rule} {s s' : TokenStream Token}

/-! ## The tokens before a stream -/

/-- The kinds of all the tokens of a stream, consumed or not. -/
def allKinds (s : TokenStream Token) : List TokenKind :=
  s.buffer.toList.map Token.kind

/-- The kinds of the tokens before a stream. -/
def behind (s : TokenStream Token) : List TokenKind :=
  (allKinds s).take s.position

/-- The kinds ahead are all but those behind. -/
theorem ahead_eq_drop (s : TokenStream Token) : ahead s = (allKinds s).drop s.position := by
  rw [ahead, TokenStream.rest, allKinds, List.map_drop]

theorem allKinds_advance (s : TokenStream Token) (n : Nat) : allKinds (s.advance n) = allKinds s := rfl

/-- Consuming tokens puts them behind the stream. -/
theorem behind_advance (s : TokenStream Token) (n : Nat) : behind (s.advance n) = behind s ++ (ahead s).take n := by
  rw [behind, allKinds_advance, TokenStream.position_advance, List.take_add, ← ahead_eq_drop, ← length_ahead,
    ← List.take_take, List.take_length, behind]

/-- The next kind is the one put behind. -/
theorem Next.behind_advance {k : TokenKind} (h : Next k s) : behind (s.advance 1) = behind s ++ [k] := by
  rw [Calculator.behind_advance, (next_iff k s).1 h]
  rfl

/-- The kinds of a tree are put behind. -/
theorem Spells.behind_eq {e : Expr Span} (h : Spells e s s') : behind s' = behind s ++ e.kinds := by
  obtain ⟨-, rfl, hk⟩ := h.located
  rw [behind_advance, hk, Expr.width, List.take_left]

/-- All kinds stay what they are while a tree is read. -/
theorem Spells.allKinds_eq {e : Expr Span} (h : Spells e s s') : allKinds s' = allKinds s := by
  obtain ⟨-, rfl, -⟩ := h.located
  rfl

/-- A stream has no more kinds behind than there are. -/
theorem position_le_length_allKinds (s : TokenStream Token) : s.position ≤ (allKinds s).length := by
  rw [allKinds, List.length_map, Array.length_toList]
  exact s.position_le_size

/-- The next token is the one at the position of the stream. -/
theorem getElem?_allKinds (s : TokenStream Token) : (allKinds s)[s.position]? = (ahead s).head? := by
  rw [ahead_eq_drop, List.head?_drop]

/-- A kind that is next is one of all. -/
theorem Next.position_lt {k : TokenKind} (h : Next k s) : s.position < (allKinds s).length := by
  rw [Next, ← getElem?_allKinds] at h
  exact (List.getElem?_eq_some_iff.1 h).1

/-! ## Verdicts -/

/-- What a failure of the parser of arithmetic may say about tokens of the given kinds. -/
inductive FirstWrong (ks : List TokenKind) : Failure → Prop where
  /-- The tokens begin a sentence, and the rest of it is missing. -/
  | endOfInput (label : Option String) (hviable : Viable ks) (hshort : ¬Sentence ks) :
      FirstWrong ks (.single .endOfInput (.single ks.length) label)
  /-- The tokens before token `k` begin a sentence, those up to and with it do not. -/
  | expected (wanted found : String) (label : Option String) {k : Nat} (hk : k < ks.length)
      (hviable : Viable (ks.take k)) (hwrong : ¬Viable (ks.take (k + 1))) :
      FirstWrong ks (.single (.expected wanted found) (.single k) label)
  /-- The tokens before token `k` begin a sentence, those up to and with it do not. -/
  | unexpected (found : String) (label : Option String) {k : Nat} (hk : k < ks.length)
      (hviable : Viable (ks.take k)) (hwrong : ¬Viable (ks.take (k + 1))) :
      FirstWrong ks (.single (.unexpected found) (.single k) label)
  /-- A parenthesis is opened at token `k` and an expression follows it, complete before token `j`: the input ends
  there or a token that neither goes on with the expression nor closes it is next. -/
  | unclosed (delimiter : String) (label : Option String) {k j : Nat} (hopen : ks[k]? = some (.symbol .leftParen))
      (hkj : k < j) (hj : j ≤ ks.length) (hinner : Sentence ((ks.take j).drop (k + 1))) (hviable : Viable (ks.take j))
      (hnext : j = ks.length ∨ (∃ v, ks[j]? = some (.number v)) ∨ ks[j]? = some (.symbol .leftParen)) :
      FirstWrong ks (.single (.unclosed delimiter) (.single k) label)

/-- A place where a rule is entered: fewer than `n` tokens are ahead, and an operand is due. -/
structure Entry (n : Nat) (s : TokenStream Token) : Prop where
  short : s.length < n
  due : ExpectsOperand (behind s)

/-- A rule whose failures, where an operand is due, are about the first wrong token. -/
def Reports (n : Nat) (p : Rule) : Prop :=
  ∀ s e, Entry n s → p.parse s = .error e → FirstWrong (allKinds s) e

/-! ## Entering rules -/

/-- Behind a token one more level of recursion is left than needed, if an operand is due there. -/
theorem Entry.advance (h : Entry (n + 1) s) {k : TokenKind} (hn : Next k s)
    (hdue : ExpectsOperand (behind (s.advance 1))) : Entry n (s.advance 1) where
  short := by
    have := hn.length_pos
    have := h.short
    rw [TokenStream.length_advance]
    omega
  due := hdue

/-- An operand is due behind a parenthesis. -/
theorem Entry.leftParen (h : Entry (n + 1) s) (hn : Next (.symbol .leftParen) s) : Entry n (s.advance 1) :=
  h.advance hn (by rw [hn.behind_advance]; exact h.due.leftParen)

/-- An operand is due behind a sign. -/
theorem Entry.minus (h : Entry (n + 1) s) (hn : Next (.symbol .minus) s) : Entry n (s.advance 1) :=
  h.advance hn (by rw [hn.behind_advance]; exact h.due.minus)

/-- An operand is due after an operand and an operator. -/
theorem Entry.operator (h : Entry (n + 1) s) {e : Expr Span} {s₁ : TokenStream Token} (hspell : Spells e s s₁)
    {op : BinaryOp} (hn : Next (.symbol op.symbol) s₁) : Entry n (s₁.advance 1) where
  short := by
    have := hn.length_pos
    have := hspell.length_le
    have := h.short
    rw [TokenStream.length_advance]
    omega
  due := by
    rw [hn.behind_advance, hspell.behind_eq]
    exact h.due.operator e op

/-- A level of recursion to spare does no harm. -/
theorem Entry.succ (h : Entry n s) : Entry (n + 1) s :=
  ⟨Nat.lt_succ_of_lt h.short, h.due⟩

/-- At the end of the input the next operand is missing. -/
theorem Entry.firstWrong_endOfInput (h : Entry n s) (hs : s.head? = none) (label : Option String) :
    FirstWrong (allKinds s) (.single .endOfInput (.single s.position) label) := by
  have hrest : s.rest = [] := (TokenStream.head?_eq_none_iff s).1 hs
  have hahead : (allKinds s).drop s.position = [] := by
    rw [← ahead_eq_drop, ahead, hrest, List.map_nil]
  have hposition : s.position = (allKinds s).length :=
    Nat.le_antisymm (position_le_length_allKinds s) (List.drop_eq_nil_iff.1 hahead)
  have hall : allKinds s = behind s := by
    rw [behind, hposition, List.take_length]
  rw [hposition]
  refine .endOfInput label ?_ ?_
  · rw [hall]
    exact h.due.viable
  · rw [hall]
    exact h.due.not_sentence

/-- The kinds up to and with the next one. -/
theorem Next.take_succ {k : TokenKind} (h : Next k s) : (allKinds s).take (s.position + 1) = behind s ++ [k] := by
  rw [← h.behind_advance, behind, h.position_advance, allKinds_advance]

/-! ## Atoms, powers and signs -/

/-- A number is missing where an operand is due and the next token starts none. -/
theorem Entry.firstWrong_numeral (h : Entry n s) (hp : ¬Next (.symbol .leftParen) s) (hm : ¬Next (.symbol .minus) s)
    {e : Failure} (he : numeral.parse s = .error e) : FirstWrong (allKinds s) e := by
  rw [parse_numeral] at he
  cases hs : s.head? with
  | none =>
    simp only [hs, Except.error.injEq] at he
    subst he
    exact h.firstWrong_endOfInput hs _
  | some t =>
    have hnext : Next t.kind s := next_of_head? hs
    cases hk : t.kind with
    | number v => simp [hs, hk] at he
    | symbol sym =>
      simp only [hs, hk, Except.error.injEq] at he
      subst he
      rw [hk] at hnext
      refine .expected _ _ _ hnext.position_lt h.due.viable ?_
      rw [hnext.take_succ]
      refine h.due.not_viable_append ?_ ?_
      · rintro rfl
        exact hm hnext
      · rintro rfl
        exact hp hnext

/-- The expression in parentheses is complete, and what follows it neither goes on with it nor closes it. -/
theorem Entry.firstWrong_unclosed (h : Entry (n + 1) s) (hn : Next (.symbol .leftParen) s) {x : Expr Span}
    (hread : Reads .sum (s.advance 1) x s') (hc : ¬Next (.symbol .rightParen) s') (delimiter : String)
    (label : Option String) :
    FirstWrong (allKinds s) (.single (.unclosed delimiter) (.single s.position) label) := by
  obtain ⟨hshape, hspell, hend⟩ := hread
  have hall : allKinds s' = allKinds s := hspell.allKinds_eq
  have htake : (allKinds s).take s'.position = behind (s.advance 1) ++ x.kinds := by
    rw [← hall]
    exact hspell.behind_eq
  have hbefore : (behind (s.advance 1)).length = s.position + 1 := by
    rw [behind, List.length_take, Nat.min_eq_left (position_le_length_allKinds _), hn.position_advance]
  have hle : s.position + 1 ≤ s'.position := hn.position_advance ▸ hspell.position_le
  have hwithin : s'.position ≤ (allKinds s).length := hall ▸ position_le_length_allKinds s'
  refine .unclosed delimiter label (j := s'.position) ?_ hle hwithin ?_ ?_ ?_
  · rw [getElem?_allKinds]
    exact hn
  · rw [htake, ← hbefore, List.drop_left]
    exact sentence_kinds x
  · rw [htake, hn.behind_advance]
    exact h.due.leftParen.viable_append x
  · -- a sum ends before the next token, if there is one, so only an operand or a closing parenthesis can be it
    rw [← hall]
    cases hhead : (ahead s').head? with
    | none =>
      rw [List.head?_eq_none_iff, ahead_eq_drop, List.drop_eq_nil_iff, hall] at hhead
      exact Or.inl (by rw [hall]; omega)
    | some k =>
      rw [getElem?_allKinds, hhead]
      cases k with
      | number v => exact Or.inr (Or.inl ⟨v, rfl⟩)
      | symbol sym =>
        have hsym := hend sym hhead
        cases sym with
        | leftParen => exact Or.inr (Or.inr rfl)
        | rightParen => exact absurd hhead hc
        | _ => simp [Level.continues, termOp, sumOp] at hsym

/-- Behind a token that is no minus sign, an atom reports the first wrong token. -/
theorem Entry.firstWrong_atom (hx : Recognizes .sum n expression) (he : Reports n expression) (h : Entry (n + 1) s)
    (hm : ¬Next (.symbol .minus) s) {e : Failure} (hfail : (atom expression).parse s = .error e) :
    FirstWrong (allKinds s) e := by
  rw [parse_atom] at hfail
  by_cases hp : s.head?.any (Token.is .leftParen) = true
  · have hn := (any_is_iff_next _ s).1 hp
    rw [if_pos hp] at hfail
    cases hr : expression.parse (s.advance 1) with
    | error e₁ =>
      simp only [hr, Except.error.injEq] at hfail
      subst hfail
      exact he (s.advance 1) e₁ (h.leftParen hn) hr
    | ok r =>
      cases hc : (exactly .rightParen).parse r.remaining with
      | ok c => simp [hr, hc] at hfail
      | error e₁ =>
        simp only [hr, hc, Except.error.injEq] at hfail
        subst hfail
        refine h.firstWrong_unclosed hn (hx.sound hr) (fun hclose => ?_) _ _
        obtain ⟨t, ht⟩ := parse_exactly_of_next ((any_is_iff_next _ _).2 hclose)
        nomatch hc.symm.trans ht
  · rw [if_neg hp] at hfail
    exact h.firstWrong_numeral (fun hn => hp ((any_is_iff_next _ s).2 hn)) hm hfail

/-- A power fails in its base or in its exponent, where an operand is due. -/
theorem Entry.firstWrong_power (hx : Recognizes .sum n expression) (he : Reports n expression) (hu : Reports n unary)
    (h : Entry (n + 1) s) (hm : ¬Next (.symbol .minus) s) {e : Failure}
    (hfail : (power expression unary).parse s = .error e) : FirstWrong (allKinds s) e := by
  rw [parse_power] at hfail
  cases hb : (atom expression).parse s with
  | error e₁ =>
    simp only [hb, Except.error.injEq] at hfail
    subst hfail
    exact h.firstWrong_atom hx he hm hb
  | ok b =>
    have hspell := ((recognizes_atom hx).sound hb).spelled
    simp only [hb] at hfail
    by_cases hp : b.remaining.head?.any (Token.is .power) = true
    · have hn := (any_is_iff_next _ _).1 hp
      rw [if_pos hp] at hfail
      cases hr : unary.parse (b.remaining.advance 1) with
      | ok r => simp [hr] at hfail
      | error e₁ =>
        simp only [hr, Except.error.injEq] at hfail
        subst hfail
        have hop : Next (.symbol BinaryOp.power.symbol) b.remaining := hn
        rw [← hspell.allKinds_eq]
        exact hu (b.remaining.advance 1) e₁ (h.operator hspell hop) hr
    · simp [hp] at hfail

/-- A signed power fails behind its sign, or as the power does that it is. -/
theorem reports_signed (hx : Recognizes .sum n expression) (he : Reports n expression) (hu : Reports n unary) :
    Reports (n + 1) (signed expression unary) := by
  intro s e h hfail
  rw [parse_signed] at hfail
  by_cases hm : s.head?.any (Token.is .minus) = true
  · have hn := (any_is_iff_next _ s).1 hm
    rw [if_pos hm] at hfail
    cases hr : unary.parse (s.advance 1) with
    | ok r => simp [hr] at hfail
    | error e₁ =>
      simp only [hr, Except.error.injEq] at hfail
      subst hfail
      exact hu (s.advance 1) e₁ (h.minus hn) hr
  · rw [if_neg hm] at hfail
    exact h.firstWrong_power hx he hu (fun hn => hm ((any_is_iff_next _ s).2 hn)) hfail

/-! ## Chains -/

variable {c : ChainLevel}

/-- A chain that has read operands fails in the operand after an operator, where an operand is due again. -/
theorem Reports.chain (hr : Recognizes c.operands (n + 1) operand) (ho : Reports (n + 1) operand)
    {s₀ : TokenStream Token} (h : Entry (n + 1) s₀) (budget : Nat) :
    ∀ {left s e}, Spells left s₀ s → chain operand (operator c.ops) budget left s = .error e →
      FirstWrong (allKinds s₀) e := by
  -- the entry stays that of the whole chain: each further operand is entered behind all that was read since
  induction budget with
  | zero => exact fun _ hfail => nomatch hfail
  | succ budget ih =>
    intro left s e hspell hfail
    cases hop : (operator c.ops).parse s with
    | error e₁ => simp [Calculator.chain, hop] at hfail
    | ok o =>
      obtain ⟨sym, hn, hsym, hadv⟩ := (parse_operator_eq_ok_iff s o).1 hop
      obtain rfl := ChainLevel.symbol_of_ops hsym
      cases hright : operand.parse o.remaining with
      | error e₁ =>
        simp only [Calculator.chain, hop, hright, Except.error.injEq] at hfail
        subst hfail
        rw [hadv] at hright
        rw [← hspell.allKinds_eq]
        exact ho (s.advance 1) e₁ (h.operator hspell hn).succ hright
      | ok right =>
        rw [chain_succ_of_ok hop hright] at hfail
        have hrspell := (hr.sound hright).spelled
        rw [hadv] at hrspell
        exact ih (spells_join hspell hn hrspell) hfail

/-- A chain fails in its first operand or in a later one. -/
theorem Reports.leftAssoc (hr : Recognizes c.operands (n + 1) operand) (ho : Reports (n + 1) operand) :
    Reports (n + 1) (leftAssoc operand (operator c.ops)) := by
  intro s e h hfail
  rw [parse_leftAssoc] at hfail
  cases hf : operand.parse s with
  | error e₁ =>
    simp only [hf, Except.error.injEq] at hfail
    subst hfail
    exact ho s e₁ h hf
  | ok first =>
    simp only [hf] at hfail
    exact Reports.chain hr ho h _ (hr.sound hf).spelled hfail

/-! ## The recursion -/

/-- Every rule reports the first wrong token, as long as there are levels of recursion left for the tokens ahead. -/
theorem reports_knot (n : Nat) : Reports n (knot n).expression ∧ Reports n (knot n).unary := by
  induction n with
  | zero => exact ⟨fun s e h _ => absurd h.short (Nat.not_lt_zero _), fun s e h _ => absurd h.short (Nat.not_lt_zero _)⟩
  | succ n ih =>
    obtain ⟨hx, hy⟩ := recognizes_knot n
    have hsigned : Reports (n + 1) (signed (knot n).expression (knot n).unary) := reports_signed hx ih.1 ih.2
    have hterm : Reports (n + 1) (term (knot n).expression (knot n).unary) :=
      Reports.leftAssoc (c := .term) (recognizes_signed hx hy) hsigned
    exact ⟨Reports.leftAssoc (c := .sum) (recognizes_term hx hy) hterm, hsigned⟩

/-- At the start of a list of tokens an operand is due. -/
theorem entry_ofList (ts : List Token) : Entry (ts.length + 1) (.ofList ts) where
  short := Nat.lt_succ_of_le (Nat.le_of_eq (TokenStream.length_ofList ts))
  due := expectsOperand_nil

/-- A failure to read tokens as a whole expression is about the first wrong token. -/
theorem firstWrong_of_parse_eq_error {ts : List Token} {e : Failure}
    (h : (Calculator.expression <* endOfInput).parse (.ofList ts) = .error e) : FirstWrong (ts.map Token.kind) e := by
  have hall : allKinds (.ofList ts) = ts.map Token.kind := rfl
  rcases parse_keepLeft_eq_error_iff.1 h with hx | ⟨⟨x, s'⟩, hx, hrest⟩
  · rw [parse_expression, TokenStream.length_ofList] at hx
    exact (reports_knot _).1 _ _ (entry_ofList ts) hx
  · obtain ⟨hshape, hspell, hend⟩ := (parse_expression_eq_ok_iff _ x s').1 hx
    obtain ⟨t, ht, rfl⟩ := parse_endOfInput_eq_error_iff.1 hrest
    have hnext : Next t.kind s' := next_of_head? ht
    have hsentence : Sentence (behind s') := by
      rw [show behind s' = x.kinds from hspell.behind_eq]
      exact sentence_kinds x
    rw [← hall, ← hspell.allKinds_eq]
    refine .unexpected _ _ hnext.position_lt hsentence.viable ?_
    rw [hnext.take_succ]
    exact hsentence.not_viable_append fun sym hsym => hend sym (hnext.trans hsym)

/-- An operand follows the inner parentheses, where an operator or the end of the outer ones is due. -/
theorem firstWrong_of_operand_after_group :
    FirstWrong
      [.symbol .leftParen, .symbol .leftParen, .number 1, .symbol .rightParen, .number 2, .symbol .rightParen]
      (.single (.unclosed (Text.quotedChar '(')) (.single 0) (some "delimited_by")) := by
  have h : (Calculator.expression <* endOfInput).parse (.ofList
      [⟨.symbol .leftParen, ⟨0, 1⟩⟩, ⟨.symbol .leftParen, ⟨1, 2⟩⟩, ⟨.number 1, ⟨2, 3⟩⟩, ⟨.symbol .rightParen, ⟨3, 4⟩⟩,
        ⟨.number 2, ⟨4, 5⟩⟩, ⟨.symbol .rightParen, ⟨5, 6⟩⟩]) =
      .error (.single (.unclosed (Text.quotedChar '(')) (.single 0) (some "delimited_by")) := rfl
  exact firstWrong_of_parse_eq_error h

end TokenParsing.Calculator
