import TokenParsing.Proofs.Calculator.FirstWrongToken
import TokenParsing.Proofs.Calculator.Reparse

/-!
# Only the kinds of the tokens matter

Every token carries the span of its characters, and the rules of arithmetic never look at it: on tokens of the same kinds
they answer the same tree or the same failure, with the same places counted in tokens (`KindsOnly`). The spans come in
only when these places are given in characters. So two texts with tokens of the same kinds are read as the same tree but
for its places, or are refused for the same reason at the same token.
-/

namespace TokenParsing.Calculator

open TokenParsing.Parser TokenParsing.TokenStream

variable {α : Type} {expression unary operand : Rule} {ops : Symbol → Option BinaryOp}

/-! ## Streams of tokens of the same kinds -/

/-- Tokens of the same kinds are ahead of two streams, at the same position. -/
structure SameKinds (s s' : TokenStream Token) : Prop where
  ahead_eq : ahead s' = ahead s
  position_eq : s'.position = s.position

namespace SameKinds

variable {s s' : TokenStream Token}

/-- As many tokens are ahead on both streams. -/
theorem length_eq (h : SameKinds s s') : s'.length = s.length := by
  rw [← length_ahead, ← length_ahead, h.ahead_eq]

theorem advance (h : SameKinds s s') (n : Nat) : SameKinds (s.advance n) (s'.advance n) where
  ahead_eq := by rw [ahead_advance, ahead_advance, h.ahead_eq]
  position_eq := by rw [position_advance, position_advance, h.length_eq, h.position_eq]

/-- Tokens of the same kind are next on both streams. -/
theorem next_iff (h : SameKinds s s') (k : TokenKind) : Next k s' ↔ Next k s := by
  unfold Next
  rw [h.ahead_eq]

/-- Both streams are at their end, or their next tokens have one kind. -/
theorem head? (h : SameKinds s s') :
    (s.head? = none ∧ s'.head? = none) ∨
      ∃ t t', s.head? = some t ∧ s'.head? = some t' ∧ t'.kind = t.kind := by
  have hkind : s'.head?.map Token.kind = s.head?.map Token.kind := by
    rw [← head?_ahead, ← head?_ahead, h.ahead_eq]
  cases hs : s.head? with
  | none =>
    rw [hs, Option.map_none, Option.map_eq_none_iff] at hkind
    exact Or.inl ⟨rfl, hkind⟩
  | some t =>
    rw [hs, Option.map_some, Option.map_eq_some_iff] at hkind
    obtain ⟨t', hs', hkind⟩ := hkind
    exact Or.inr ⟨t, t', rfl, hs', hkind⟩

/-- The rules test the next token alike. -/
theorem any_is (h : SameKinds s s') (sym : Symbol) : s'.head?.any (Token.is sym) = s.head?.any (Token.is sym) := by
  rw [Bool.eq_iff_iff, any_is_iff_next, any_is_iff_next]
  exact h.next_iff _

end SameKinds

/-! ## Rules that look at kinds only -/

/-- Two answers agree: they are the same value, with tokens of the same kinds left, or the same failure. -/
inductive AnswersSame : Outcome Token α → Outcome Token α → Prop where
  | ok {v : α} {s s' : TokenStream Token} (h : SameKinds s s') : AnswersSame (.ok ⟨v, s⟩) (.ok ⟨v, s'⟩)
  | error (e : Failure) : AnswersSame (.error e) (.error e)

/-- A parser that looks at nothing but the kinds of the tokens ahead and their position. -/
def KindsOnly (p : Parser Token α) : Prop :=
  ∀ s s', SameKinds s s' → AnswersSame (p.parse s) (p.parse s')

/-- Two runs on tokens of the same kinds both succeed or both fail. -/
theorem KindsOnly.answers {p : Parser Token α} (hp : KindsOnly p) {s s' : TokenStream Token} (h : SameKinds s s') :
    (∃ v s₁ s₁', p.parse s = .ok ⟨v, s₁⟩ ∧ p.parse s' = .ok ⟨v, s₁'⟩ ∧ SameKinds s₁ s₁') ∨
      ∃ e, p.parse s = .error e ∧ p.parse s' = .error e := by
  have hs := hp s s' h
  generalize p.parse s = o, p.parse s' = o' at hs
  cases hs with
  | ok h₁ => exact Or.inl ⟨_, _, _, rfl, rfl, h₁⟩
  | error e => exact Or.inr ⟨e, rfl, rfl⟩

/-- Tokens are described to a reader by their kinds. -/
theorem describe_of_kind {t t' : Token} (h : t'.kind = t.kind) : describe t' = describe t :=
  congrArg TokenKind.render h

/-- A symbol is read on both streams or on neither. -/
theorem SameKinds.exactly {s s' : TokenStream Token} (h : SameKinds s s') (sym : Symbol) :
    (∃ t t', (exactly sym).parse s = .ok ⟨t, s.advance 1⟩ ∧ (exactly sym).parse s' = .ok ⟨t', s'.advance 1⟩) ∨
      ∃ e e', (exactly sym).parse s = .error e ∧ (exactly sym).parse s' = .error e' := by
  by_cases hn : Next (.symbol sym) s
  · obtain ⟨t, ht⟩ := parse_exactly_of_next ((any_is_iff_next sym s).2 hn)
    obtain ⟨t', ht'⟩ := parse_exactly_of_next ((any_is_iff_next sym s').2 ((h.next_iff _).2 hn))
    exact Or.inl ⟨t, t', ht, ht'⟩
  · have hfails : ∀ {s₁ : TokenStream Token}, ¬Next (.symbol sym) s₁ →
        ∃ e, (Calculator.exactly sym).parse s₁ = .error e := by
      intro s₁ hn₁
      exact exists_parse_eq_error_iff.2 fun r hr => hn₁ (parse_exactly_eq_ok hr).1
    obtain ⟨e, he⟩ := hfails hn
    obtain ⟨e', he'⟩ := hfails (mt (h.next_iff _).1 hn)
    exact Or.inr ⟨e, e', he, he'⟩

/-- An operator looks at the kind of one token, and its failure names that kind. -/
theorem kindsOnly_operator : KindsOnly (operator ops) := by
  intro s s' h
  rw [parse_operator, parse_operator, h.position_eq]
  rcases h.head? with ⟨hs, hs'⟩ | ⟨t, t', hs, hs', hkind⟩
  · rw [hs, hs']
    exact .error _
  · rw [hs, hs']
    dsimp only
    rw [hkind, describe_of_kind hkind]
    cases t.kind.symbol?.bind ops with
    | none => exact .error _
    | some op => exact .ok (h.advance 1)

/-- So does a number. -/
theorem kindsOnly_numeral : KindsOnly numeral := by
  intro s s' h
  rw [parse_numeral, parse_numeral, h.position_eq]
  rcases h.head? with ⟨hs, hs'⟩ | ⟨t, t', hs, hs', hkind⟩
  · rw [hs, hs']
    exact .error _
  · rw [hs, hs']
    dsimp only
    rw [hkind, describe_of_kind hkind]
    cases t.kind with
    | number v => exact .ok (h.advance 1)
    | symbol sym => exact .error _

/-! ## The rules -/

/-- An atom looks at kinds only when the expression between its parentheses does. -/
theorem KindsOnly.atom (hx : KindsOnly expression) : KindsOnly (atom expression) := by
  intro s s' h
  rw [parse_atom, parse_atom, h.any_is, h.position_eq]
  by_cases hp : s.head?.any (Token.is .leftParen) = true
  · rw [if_pos hp, if_pos hp]
    rcases hx.answers (h.advance 1) with ⟨e, s₁, s₁', hs, hs', h₁⟩ | ⟨f, hs, hs'⟩
    · rw [hs, hs']
      dsimp only
      rcases h₁.exactly .rightParen with ⟨t, t', hc, hc'⟩ | ⟨f, f', hc, hc'⟩
      · rw [hc, hc']
        dsimp only
        rw [(h₁.advance 1).position_eq]
        exact .ok (h₁.advance 1)
      · rw [hc, hc']
        exact .error _
    · rw [hs, hs']
      exact .error f
  · rw [if_neg hp, if_neg hp]
    exact kindsOnly_numeral s s' h

/-- A power looks at kinds only when the rules of its parts do. -/
theorem KindsOnly.power (hx : KindsOnly expression) (hu : KindsOnly unary) : KindsOnly (power expression unary) := by
  intro s s' h
  rw [parse_power, parse_power]
  rcases hx.atom.answers h with ⟨b, s₁, s₁', hs, hs', h₁⟩ | ⟨f, hs, hs'⟩
  · rw [hs, hs']
    dsimp only
    rw [h₁.any_is]
    by_cases hp : s₁.head?.any (Token.is .power) = true
    · rw [if_pos hp, if_pos hp]
      rcases hu.answers (h₁.advance 1) with ⟨x, s₂, s₂', hr, hr', h₂⟩ | ⟨f, hr, hr'⟩
      · rw [hr, hr']
        exact .ok h₂
      · rw [hr, hr']
        exact .error f
    · rw [if_neg hp, if_neg hp]
      exact .ok h₁
  · rw [hs, hs']
    exact .error f

/-- So does a signed power. -/
theorem KindsOnly.signed (hx : KindsOnly expression) (hu : KindsOnly unary) : KindsOnly (signed expression unary) := by
  intro s s' h
  rw [parse_signed, parse_signed, h.any_is, h.position_eq]
  by_cases hm : s.head?.any (Token.is .minus) = true
  · rw [if_pos hm, if_pos hm]
    rcases hu.answers (h.advance 1) with ⟨e, s₁, s₁', hs, hs', h₁⟩ | ⟨f, hs, hs'⟩
    · rw [hs, hs']
      dsimp only
      rw [h₁.position_eq]
      exact .ok h₁
    · rw [hs, hs']
      exact .error f
  · rw [if_neg hm, if_neg hm]
    exact hx.power hu s s' h

/-- A chain goes on alike on both streams, from the same tree read so far. -/
theorem KindsOnly.chain (ho : KindsOnly operand) (budget : Nat) (left : Expr Span) {s s' : TokenStream Token}
    (h : SameKinds s s') :
    AnswersSame (chain operand (operator ops) budget left s) (chain operand (operator ops) budget left s') := by
  induction budget generalizing left s s' with
  | zero => exact .ok h
  | succ budget ih =>
    unfold Calculator.chain
    rcases kindsOnly_operator.answers h with ⟨op, s₁, s₁', hs, hs', h₁⟩ | ⟨f, hs, hs'⟩
    · rw [hs, hs']
      dsimp only
      rcases ho.answers h₁ with ⟨right, s₂, s₂', hr, hr', h₂⟩ | ⟨f, hr, hr'⟩
      · rw [hr, hr']
        exact ih _ h₂
      · rw [hr, hr']
        exact .error f
    · rw [hs, hs']
      exact .ok h

/-- A left-associative rule looks at kinds only when its operands do. -/
theorem KindsOnly.leftAssoc (ho : KindsOnly operand) : KindsOnly (leftAssoc operand (operator ops)) := by
  intro s s' h
  rw [parse_leftAssoc, parse_leftAssoc]
  rcases ho.answers h with ⟨first, s₁, s₁', hs, hs', h₁⟩ | ⟨f, hs, hs'⟩
  · rw [hs, hs']
    dsimp only
    -- as many tokens are left on both sides, so both chains have the same budget
    rw [h₁.length_eq]
    exact ho.chain _ first h₁
  · rw [hs, hs']
    exact .error f

/-- Every level of recursion looks at kinds only when the one below it does. -/
theorem kindsOnly_knot (n : Nat) : KindsOnly (knot n).expression ∧ KindsOnly (knot n).unary := by
  induction n with
  | zero =>
    have hzero : KindsOnly (zero : Rule) := by
      intro s s' h
      rw [parse_zero, parse_zero, h.position_eq]
      exact .error _
    exact ⟨hzero, hzero⟩
  | succ n ih =>
    have hsigned : KindsOnly (Calculator.signed (knot n).expression (knot n).unary) := ih.1.signed ih.2
    exact ⟨hsigned.leftAssoc.leftAssoc, hsigned⟩

/-- The expression rule looks at kinds only. -/
theorem kindsOnly_expression : KindsOnly Calculator.expression := by
  intro s s' h
  rw [parse_expression, parse_expression, h.length_eq]
  exact (kindsOnly_knot _).1 s s' h

/-- The check for the end of the input names the kind of the token that it finds, and nothing else of it. -/
theorem kindsOnly_endOfInput : KindsOnly endOfInput := by
  intro s s' h
  rw [parse_endOfInput, parse_endOfInput, h.position_eq]
  rcases h.head? with ⟨hs, hs'⟩ | ⟨t, t', hs, hs', hkind⟩
  · rw [hs, hs']
    exact .ok h
  · rw [hs, hs']
    dsimp only
    rw [describe_of_kind hkind]
    exact .error _

/-- Tokens of the same kinds are read as the same tree or refused for the same reason, at the same token. -/
theorem kindsOnly_whole : KindsOnly (Calculator.expression <* endOfInput) := by
  intro s s' h
  rw [seqLeft_eq, parse_keepLeft, parse_keepLeft]
  rcases kindsOnly_expression.answers h with ⟨e, s₁, s₁', hs, hs', h₁⟩ | ⟨f, hs, hs'⟩
  · rw [hs, hs']
    dsimp only
    rcases kindsOnly_endOfInput.answers h₁ with ⟨v, s₂, s₂', hr, hr', h₂⟩ | ⟨f, hr, hr'⟩
    · rw [hr, hr']
      exact .ok h₂
    · rw [hr, hr']
      exact .error f
  · rw [hs, hs']
    exact .error f

/-! ## Places in texts -/

/-- A failure about the first wrong token has one cause, at one token or just past the last. -/
theorem FirstWrong.exists_single {ks : List TokenKind} {e : Failure} (h : FirstWrong ks e) :
    ∃ c k l, e = .single c (.single k) l ∧ k ≤ ks.length := by
  cases h with
  | endOfInput label _ _ => exact ⟨_, _, _, rfl, Nat.le_refl _⟩
  | expected _ _ _ hk _ _ => exact ⟨_, _, _, rfl, Nat.le_of_lt hk⟩
  | unexpected _ _ hk _ _ => exact ⟨_, _, _, rfl, Nat.le_of_lt hk⟩
  | unclosed _ _ hopen hkj hj _ _ _ => exact ⟨_, _, _, rfl, Nat.le_of_lt (Nat.lt_of_lt_of_le hkj hj)⟩

/-- Just past the last token is the end of the text. -/
theorem textSpan_length (ts : List Token) (n : Nat) : textSpan ts n (.single ts.length) = .single n := by
  simp [textSpan, Span.single]

/-! ## Texts -/

/-- A text is read as its tokens are, with the places in characters. -/
theorem parse_eq_ok_of_tokens {text : String} {r : Success Char (List Token)} {w : Success Token (Expr Span)}
    (h : tokens.parse (.ofText text) = .ok r)
    (hw : (Calculator.expression <* endOfInput).parse (.ofList r.value) = .ok w) :
    parse text = .ok (w.value.map (textSpan r.value text.length)) := by
  unfold parse
  simp only [h, hw]

/-- A text is refused as its tokens are, at the place in characters. -/
theorem parse_eq_error_of_tokens {text : String} {r : Success Char (List Token)} {e : Failure}
    (h : tokens.parse (.ofText text) = .ok r)
    (hw : (Calculator.expression <* endOfInput).parse (.ofList r.value) = .error e) :
    parse text = .error (e.withSpan (textSpan r.value text.length e.span)) := by
  unfold parse
  simp only [h, hw]

/-- Two texts with tokens of the same kinds, whatever the blanks between them and however their numbers are spelled, are
both read, as the same tree but for its places, or both refused, for the same reason: at the end of each, or at the token
with the same number. -/
theorem parse_of_same_kinds {text text' : String} {r r' : Success Char (List Token)}
    (h : tokens.parse (.ofText text) = .ok r) (h' : tokens.parse (.ofText text') = .ok r')
    (hkinds : r'.value.map Token.kind = r.value.map Token.kind) :
    (∃ e e', parse text = .ok e ∧ parse text' = .ok e' ∧ e'.shape = e.shape ∧ e'.evaluate = e.evaluate ∧
        e'.tree = e.tree) ∨
      ∃ c l sp sp', parse text = .error (.single c sp l) ∧ parse text' = .error (.single c sp' l) ∧
        ((sp = .single text.length ∧ sp' = .single text'.length) ∨
          ∃ (k : Nat) (t t' : Token), r.value[k]? = some t ∧ r'.value[k]? = some t' ∧ sp = t.span ∧
            sp' = t'.span) := by
  have hsame : SameKinds (.ofList r.value) (.ofList r'.value) := ⟨hkinds, rfl⟩
  rcases kindsOnly_whole.answers hsame with ⟨e, s₁, s₁', hs, hs', -⟩ | ⟨f, hs, hs'⟩
  · refine Or.inl ⟨_, _, parse_eq_ok_of_tokens h hs, parse_eq_ok_of_tokens h' hs', ?_, ?_, ?_⟩
    · simp only [Expr.shape_map]
    · simp only [Expr.evaluate_map]
    · simp only [Expr.tree, Expr.treeLines_map]
  · obtain ⟨c, k, l, rfl, hk⟩ := (firstWrong_of_parse_eq_error hs).exists_single
    have hlength : r'.value.length = r.value.length := by
      simpa only [List.length_map] using congrArg List.length hkinds
    rw [List.length_map] at hk
    refine Or.inr ⟨c, l, _, _, parse_eq_error_of_tokens h hs, parse_eq_error_of_tokens h' hs', ?_⟩
    unfold Failure.span
    rcases Nat.lt_or_eq_of_le hk with hk | rfl
    · have ht : r.value[k]? = some r.value[k] := List.getElem?_eq_getElem hk
      have hk' : k < r'.value.length := by rwa [hlength]
      have ht' : r'.value[k]? = some r'.value[k] := List.getElem?_eq_getElem hk'
      refine Or.inr ⟨k, _, _, ht, ht', ?_, ?_⟩
      · exact (parse_tokens_eq_ok_iff.1 h).1.textSpan_single ht
      · exact (parse_tokens_eq_ok_iff.1 h').1.textSpan_single ht'
    · refine Or.inl ⟨textSpan_length _ _, ?_⟩
      dsimp only
      rw [← hlength]
      exact textSpan_length _ _

/-- A parenthesis that is not closed, in two texts that differ in blanks and in how a number is spelled. -/
theorem parse_of_same_kinds_of_unclosed :
    ∃ c l, parse "(1 2" = .error (.single c ⟨0, 1⟩ l) ∧ parse " ( 1.0\n2" = .error (.single c ⟨1, 2⟩ l) := by
  have h : tokens.parse (.ofText "(1 2") = .ok
      ⟨[⟨.symbol .leftParen, ⟨0, 1⟩⟩, ⟨.number (Decimal.nearest 1 1 0), ⟨1, 2⟩⟩,
        ⟨.number (Decimal.nearest 2 1 0), ⟨3, 4⟩⟩], (ofText "(1 2").advance 4⟩ := rfl
  have h' : tokens.parse (.ofText " ( 1.0\n2") = .ok
      ⟨[⟨.symbol .leftParen, ⟨1, 2⟩⟩, ⟨.number (Decimal.nearest 1 1 0), ⟨3, 6⟩⟩,
        ⟨.number (Decimal.nearest 2 1 0), ⟨7, 8⟩⟩], (ofText " ( 1.0\n2").advance 8⟩ := rfl
  have hc : parse "(1 2" =
      .error (.single (.unclosed (Text.quotedChar '(')) ⟨0, 1⟩ (some "delimited_by")) := rfl
  rcases parse_of_same_kinds h h' rfl with ⟨e, e', he, -⟩ | ⟨c, l, sp, sp', he, he', hplace⟩
  · cases hc.symm.trans he
  · cases hc.symm.trans he
    refine ⟨_, _, hc, ?_⟩
    rcases hplace with ⟨hsp, -⟩ | ⟨k, t, t', ht, ht', hsp, rfl⟩
    · cases hsp
    · match k with
      | 0 =>
        cases ht'
        exact he'
      | 1 =>
        cases ht
        cases hsp
      | 2 =>
        cases ht
        cases hsp
      | k + 3 => cases ht

end TokenParsing.Calculator
