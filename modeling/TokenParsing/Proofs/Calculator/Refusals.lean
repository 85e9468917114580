import TokenParsing.Proofs.Calculator.KindsOnly
import TokenParsing.Proofs.Calculator.Recursion

/-!
# What a text is refused for

A failure to read a text as arithmetic has one cause, and points at one place: a character with which no token starts, a
token that cannot stand where it does, a parenthesis that is not closed, or the end of the text (`Refusal`). Choices and
repetitions leave no trace in it. The failure of a call is that of a call it makes, or arises in the call itself, where an
operand is due (`refusedAt_of_signed`); as calls are made on ever later streams, it comes from a place where an operand is
due (`exists_refusedAt_of_rules`).
-/

namespace TokenParsing

namespace TokenStream

/-- A stream that tokens of a list lead to stands at a place in the list, or at its end. -/
theorem Consumes.head?_eq {τ : Type} {ts us : List τ} {s : TokenStream τ} (h : (ofList ts).Consumes us s) :
    s.position ≤ ts.length ∧ s.head? = ts[s.position]? := by
  have hposition : s.position = us.length := h.position_eq.trans (Nat.zero_add _)
  have hrest : ts = us ++ s.rest := h.2
  rw [hposition, ← head?_rest, hrest, List.length_append, List.getElem?_append_right (Nat.le_refl _), Nat.sub_self,
    List.head?_eq_getElem?]
  exact ⟨Nat.le_add_right _ _, rfl⟩

end TokenStream

namespace Calculator

open TokenParsing.Parser TokenParsing.TokenStream

variable {k : Knot} {n : Nat} {operand : Rule} {op : Parser Token BinaryOp} {e : Failure}

/-! ## What is said of a token -/

/-- What a failure may say of the token that it points at, or of the end of the tokens: its cause and its label. -/
inductive Blames : Option Token → Cause → String → Prop where
  /-- The tokens end where an operand is due. -/
  | missing : Blames none .endOfInput "number"
  /-- A symbol stands where an operand is due. Those that an operand starts with are read on. -/
  | operand {t : Token} {sym : Symbol} (ht : t.kind = .symbol sym) (hminus : sym ≠ .minus) (hparen : sym ≠ .leftParen) :
      Blames (some t) (.expected "a number" (describe t)) "number"
  /-- A parenthesis is opened, and not closed behind the expression that follows it. -/
  | unclosed {t : Token} (ht : t.kind = .symbol .leftParen) : Blames (some t) (.unclosed "'('") "delimited_by"
  /-- A token stands behind a whole expression and is no operator. -/
  | trailing {t : Token}
      (ht : (∃ v, t.kind = .number v) ∨ t.kind = .symbol .leftParen ∨ t.kind = .symbol .rightParen) :
      Blames (some t) (.unexpected (describe t)) "end_of_input"

/-- A failure that points at the next token of a stream, or past the last one. -/
def RefusedAt (s : TokenStream Token) (e : Failure) : Prop :=
  ∃ cause label, Blames s.head? cause label ∧ e = .single cause (.single s.position) (some label)

set_option maxRecDepth 4000 in
theorem quotedChar_leftParen : Text.quotedChar '(' = "'('" := by
  decide

/-! ## Where failures come from -/

/-- A chain behind an operand fails in a later operand. -/
theorem exists_operandAt_of_chain {s s₁ : TokenStream Token} {r : Success Token (Expr Span)}
    (hat : OperandAt operand op s s₁) (hr : operand.parse s₁ = .ok r) {budget : Nat} {left : Expr Span}
    (h : chain operand op budget left r.remaining = .error e) :
    ∃ s₂, OperandAt operand op s s₂ ∧ operand.parse s₂ = .error e := by
  induction budget generalizing s₁ r left with
  | zero => cases h
  | succ budget ih =>
    unfold chain at h
    cases ho : op.parse r.remaining with
    | error e₁ =>
      rw [ho] at h
      cases h
    | ok o =>
      rw [ho] at h
      dsimp only at h
      cases hright : operand.parse o.remaining with
      | error e₁ =>
        rw [hright] at h
        cases h
        exact ⟨o.remaining, hat.behind hr ho, hright⟩
      | ok right =>
        rw [hright] at h
        exact ih (hat.behind hr ho) hright h

/-- A left-associative rule fails in an operand. -/
theorem exists_operandAt_of_leftAssoc {s : TokenStream Token} (h : (leftAssoc operand op).parse s = .error e) :
    ∃ s₁, OperandAt operand op s s₁ ∧ operand.parse s₁ = .error e := by
  rw [parse_leftAssoc] at h
  cases hfirst : operand.parse s with
  | error e₁ =>
    rw [hfirst] at h
    cases h
    exact ⟨s, .first, hfirst⟩
  | ok first =>
    rw [hfirst] at h
    exact exists_operandAt_of_chain .first hfirst h

theorem refusedAt_of_numeral {s : TokenStream Token} (hm : ¬Next (.symbol .minus) s)
    (hp : ¬Next (.symbol .leftParen) s) (h : numeral.parse s = .error e) : RefusedAt s e := by
  rw [parse_numeral] at h
  cases hs : s.head? with
  | none =>
    rw [hs] at h
    cases h
    refine ⟨_, _, ?_, rfl⟩
    rw [hs]
    exact .missing
  | some t =>
    have hnext := next_of_head? hs
    rw [hs] at h
    dsimp only at h
    cases hk : t.kind with
    | number v =>
      rw [hk] at h
      cases h
    | symbol sym =>
      rw [hk] at h hnext
      cases h
      refine ⟨_, _, ?_, rfl⟩
      rw [hs]
      refine .operand hk ?_ ?_
      · rintro rfl
        exact hm hnext
      · rintro rfl
        exact hp hnext

/-- An atom fails as the expression in its parentheses does, or where it starts. -/
theorem refusedAt_of_atom {s : TokenStream Token} (hm : ¬Next (.symbol .minus) s)
    (h : (atom k.expression).parse s = .error e) :
    (∃ c, Reenters k ⟨.unary, s⟩ c ∧ k.answer c = .error e) ∨ RefusedAt s e := by
  rw [parse_atom] at h
  by_cases hp : s.head?.any (Token.is .leftParen) = true
  · have hnext := (any_is_iff_next _ s).1 hp
    rw [if_pos hp] at h
    cases hx : k.expression.parse (s.advance 1) with
    | error e₁ =>
      rw [hx] at h
      cases h
      exact Or.inl ⟨_, .grouped hm hnext, hx⟩
    | ok r =>
      rw [hx] at h
      dsimp only at h
      cases hc : (exactly .rightParen).parse r.remaining with
      | ok r' =>
        rw [hc] at h
        cases h
      | error e₁ =>
        rw [hc] at h
        cases h
        rw [Next, head?_ahead, Option.map_eq_some_iff] at hnext
        obtain ⟨t, ht, hk⟩ := hnext
        refine Or.inr ⟨_, _, ?_, rfl⟩
        rw [ht, quotedChar_leftParen]
        exact .unclosed hk
  · rw [if_neg hp] at h
    exact Or.inr (refusedAt_of_numeral hm (fun hn => hp ((any_is_iff_next _ s).2 hn)) h)

/-- A signed power fails as a call that it makes does, or where its atom starts. -/
theorem refusedAt_of_signed {s : TokenStream Token} (h : (signed k.expression k.unary).parse s = .error e) :
    (∃ c, Reenters k ⟨.unary, s⟩ c ∧ k.answer c = .error e) ∨ RefusedAt s e := by
  rw [parse_signed] at h
  by_cases hm : s.head?.any (Token.is .minus) = true
  · rw [if_pos hm] at h
    cases hx : k.unary.parse (s.advance 1) with
    | ok r =>
      rw [hx] at h
      cases h
    | error e₁ =>
      rw [hx] at h
      cases h
      exact Or.inl ⟨_, .negated ((any_is_iff_next _ s).1 hm), hx⟩
  · have hnot : ¬Next (.symbol .minus) s := fun hn => hm ((any_is_iff_next _ s).2 hn)
    rw [if_neg hm, parse_power] at h
    cases hb : (atom k.expression).parse s with
    | error e₁ =>
      rw [hb] at h
      cases h
      exact refusedAt_of_atom hnot hb
    | ok b =>
      rw [hb] at h
      dsimp only at h
      by_cases hp : b.remaining.head?.any (Token.is .power) = true
      · rw [if_pos hp] at h
        cases hx : k.unary.parse (b.remaining.advance 1) with
        | ok r =>
          rw [hx] at h
          cases h
        | error e₁ =>
          rw [hx] at h
          cases h
          exact Or.inl ⟨_, .raised hnot hb ((any_is_iff_next _ _).1 hp), hx⟩
      · rw [if_neg hp] at h
        cases h

/-- A call fails as a call that it makes does, or at a place of its own where an operand is due. -/
theorem refusedAt_of_next (hx : Recognizes .sum n k.expression) (hu : Recognizes .signed n k.unary) {c : Call}
    (h : k.next.answer c = .error e) :
    (∃ c', Reenters k c c' ∧ k.answer c' = .error e) ∨ ∃ ts s, c.stream.Consumes ts s ∧ RefusedAt s e := by
  obtain ⟨rule, s⟩ := c
  cases rule with
  | unary =>
    rcases refusedAt_of_signed h with hcall | hat
    · exact Or.inl hcall
    · exact Or.inr ⟨[], s, .refl s, hat⟩
  | expression =>
    obtain ⟨s₁, hterm, h₁⟩ := exists_operandAt_of_leftAssoc h
    obtain ⟨s₂, hsigned, h₂⟩ := exists_operandAt_of_leftAssoc h₁
    rcases refusedAt_of_signed h₂ with ⟨c, hc, hanswer⟩ | hat
    · exact Or.inl ⟨c, .operand hterm hsigned hc, hanswer⟩
    · obtain ⟨ts, hts⟩ := hterm.exists_consumes fun _ _ hr => (recognizes_term hx hu).later hr
      obtain ⟨us, hus⟩ := hsigned.exists_consumes fun _ _ hr => (recognizes_signed hx hu).later hr
      exact Or.inr ⟨_, s₂, hts.trans hus, hat⟩

/-- The rules fail at a place where an operand is due. -/
theorem exists_refusedAt_of_rules {c : Call} (h : rules.answer c = .error e) :
    ∃ ts s, c.stream.Consumes ts s ∧ RefusedAt s e := by
  -- Calls handed on end, as each has fewer tokens ahead.
  induction hlength : c.stream.length using Nat.strong_induction_on generalizing c with
  | h length ih =>
    obtain ⟨hx, hu⟩ := recognizes_rules 0
    rw [← answer_next_rules c] at h
    rcases refusedAt_of_next hx hu h with ⟨c', hc', hanswer⟩ | hplace
    · obtain ⟨ts, -, hts⟩ := hc'.later hx hu
      obtain ⟨us, s, hus, hat⟩ := ih _ (hlength ▸ hc'.length_lt) hanswer rfl
      exact ⟨_, s, hts.trans hus, hat⟩
    · exact hplace

/-! ## Tokens -/

/-- A list of tokens that is no whole expression is refused for one of its tokens or for its end. -/
theorem exists_blames_of_whole {ts : List Token}
    (h : (Calculator.expression <* endOfInput).parse (.ofList ts) = .error e) :
    ∃ i cause label, i ≤ ts.length ∧ Blames ts[i]? cause label ∧ e = .single cause (.single i) (some label) := by
  rcases parse_keepLeft_eq_error_iff.1 h with hx | ⟨⟨x, s⟩, hx, hend⟩
  · obtain ⟨us, s, hus, cause, label, hblames, rfl⟩ := exists_refusedAt_of_rules (c := ⟨.expression, ofList ts⟩) hx
    obtain ⟨hle, hhead⟩ := hus.head?_eq
    exact ⟨s.position, cause, label, hle, hhead ▸ hblames, rfl⟩
  · -- Behind a whole expression no operator follows, so what stands there is trailing.
    obtain ⟨-, hspell, hends⟩ := (parse_expression_eq_ok_iff _ x s).1 hx
    obtain ⟨us, -, hus⟩ := hspell.later
    obtain ⟨hle, hhead⟩ := hus.head?_eq
    obtain ⟨t, ht, rfl⟩ := parse_endOfInput_eq_error_iff.1 hend
    have hfollow : MayFollowSum s.rest := (endsBefore_sum_iff_mayFollowSum s.rest).1 hends
    rw [(head?_eq_some_iff s t).1 ht] at hfollow
    refine ⟨s.position, _, _, hle, ?_, rfl⟩
    rw [← hhead, ht]
    exact .trailing hfollow

/-! ## Texts -/

/-- What a text may be refused for. -/
inductive Refusal (text : String) : Failure → Prop where
  /-- No blank and no token starts with a character, and the text before it has tokens. -/
  | character {i : Nat} {c : Char} (hi : text.toList[i]? = some c)
      (hbefore : ∃ r, tokens.parse (.ofText (String.ofList (text.toList.take i))) = .ok r) (hblank : c ∉ Text.blanks)
      (hdigit : c.isDigit = false) (hsymbol : Symbol.ofChar? c = none) :
      Refusal text (.single (.unexpected (describe c)) (.single i) (some "end_of_input"))
  /-- A token cannot stand where it does; the failure covers its characters. -/
  | token {r : Success Char (List Token)} {t : Token} {cause : Cause} {label : String}
      (hr : tokens.parse (.ofText text) = .ok r) (ht : t ∈ r.value) (h : Blames (some t) cause label) :
      Refusal text (.single cause t.span (some label))
  /-- The text ends where an operand is due. -/
  | endOfText {r : Success Char (List Token)} (hr : tokens.parse (.ofText text) = .ok r) :
      Refusal text (.single .endOfInput (.single text.length) (some "number"))

/-- A text without tokens is refused for the first character with which none starts. -/
theorem refusal_of_tokens {text : String} (h : tokens.parse (.ofText text) = .error e) : Refusal text e := by
  obtain ⟨ts, s, cs, hc, hscans, hstuck, hparse⟩ := exists_parse_tokens (.ofText text)
  have hcs : text.toList = cs ++ s.rest := hc.2
  have hposition : s.position = cs.length := hc.position_eq.trans (Nat.zero_add _)
  have hend : endOfInput.parse s = .error e := by
    rw [h] at hparse
    cases hend : endOfInput.parse s <;> rw [hend] at hparse <;> cases hparse
    rfl
  obtain ⟨c, hhead, rfl⟩ := parse_endOfInput_eq_error_iff.1 hend
  rw [← head?_rest] at hhead
  obtain ⟨hblank, hdigit, hsymbol⟩ := hstuck c hhead
  rw [hposition]
  refine .character ?_ ?_ hblank hdigit hsymbol
  · rw [hcs, List.getElem?_append_right (Nat.le_refl _), Nat.sub_self, ← List.head?_eq_getElem?, hhead]
  · rw [hcs, List.take_left, ofText, String.toList_ofList]
    exact ⟨⟨ts, _⟩, parse_tokens_eq_ok_iff.2 ⟨hscans.of_rest, rfl⟩⟩

/-- A text with tokens is refused for one of them or for its end. -/
theorem refusal_of_whole {text : String} {r : Success Char (List Token)} (hr : tokens.parse (.ofText text) = .ok r)
    (h : (Calculator.expression <* endOfInput).parse (.ofList r.value) = .error e) :
    Refusal text (e.withSpan (textSpan r.value text.length e.span)) := by
  obtain ⟨i, cause, label, hi, hblames, rfl⟩ := exists_blames_of_whole h
  unfold Failure.withSpan Failure.span
  rcases Nat.lt_or_eq_of_le hi with hi | rfl
  · have ht := List.getElem?_eq_getElem hi
    have hspan := (parse_tokens_eq_ok_iff.1 hr).1.textSpan_single (n := text.length) ht
    rw [ht] at hblames
    dsimp only
    rw [hspan]
    exact .token hr (List.mem_of_getElem? ht) hblames
  · rw [List.getElem?_eq_none (Nat.le_refl _)] at hblames
    cases hblames
    dsimp only
    rw [textSpan_length]
    exact .endOfText hr

/-- What a text is refused for is at a place in it, or at its end. -/
theorem Refusal.bounds {text : String} (h : Refusal text e) :
    e.span.start < e.span.stop ∧ e.span.stop ≤ text.length + 1 := by
  cases h with
  | @character i c hi =>
    have hlt : i < text.toList.length := (List.getElem?_eq_some_iff.1 hi).1
    rw [String.length_toList] at hlt
    exact ⟨Nat.lt_succ_self i, Nat.le_succ_of_le hlt⟩
  | @token r t _ _ hr ht =>
    obtain ⟨-, hnonempty, hwithin⟩ := (parse_tokens_eq_ok_iff.1 hr).1.bounds ht
    rw [String.length_toList, Nat.zero_add] at hwithin
    exact ⟨hnonempty, Nat.le_succ_of_le hwithin⟩
  | endOfText _ => exact ⟨Nat.lt_succ_self _, Nat.le_refl _⟩

/-- A text that is not read is refused for a character with which no token starts, for one of its tokens, or for its end;
the failure is at a place in the text or at its end. -/
theorem refusal_of_parse_eq_error {text : String} (h : parse text = .error e) :
    Refusal text e ∧ e.span.start < e.span.stop ∧ e.span.stop ≤ text.length + 1 := by
  have hrefusal : Refusal text e := by
    unfold parse at h
    cases hr : tokens.parse (.ofText text) with
    | error e₁ =>
      rw [hr] at h
      cases h
      exact refusal_of_tokens hr
    | ok r =>
      rw [hr] at h
      dsimp only at h
      cases hw : (Calculator.expression <* endOfInput).parse (.ofList r.value) with
      | ok w =>
        rw [hw] at h
        cases h
      | error e₁ =>
        rw [hw] at h
        cases h
        exact refusal_of_whole hr hw
  exact ⟨hrefusal, hrefusal.bounds⟩

/-- A product with an open group is refused for the parenthesis that opens it. -/
theorem refusal_of_parse_eq_error_of_unclosed :
    parse "2*(3" = .error (.single (.unclosed "'('") ⟨2, 3⟩ (some "delimited_by")) ∧
      Refusal "2*(3" (.single (.unclosed "'('") ⟨2, 3⟩ (some "delimited_by")) := by
  have h : parse "2*(3" = .error (.single (.unclosed (Text.quotedChar '(')) ⟨2, 3⟩ (some "delimited_by")) := rfl
  rw [quotedChar_leftParen] at h
  exact ⟨h, (refusal_of_parse_eq_error h).1⟩

end Calculator

end TokenParsing
