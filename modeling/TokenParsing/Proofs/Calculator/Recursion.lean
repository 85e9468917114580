import Mathlib.Data.List.Chain
import TokenParsing.Proofs.Calculator.CommittedChains

/-!
# The recursion of the rules

Two rules are recurred to: a whole expression, inside parentheses, and a signed power, behind a minus sign and behind the
sign of powers. `Reenters` says which calls of the two a call of one of them makes. These are all that its answer depends
on (`answer_next_congr`), and each is made on a later stream (`Reenters.later`), so no call can be nested in another
deeper than there are tokens ahead (`length_le_of_isChain`). Hence the recursion ends on every stream: the rules are the
one solution of the equations that recurring to them gives (`next_answer_eq_iff`), and any number of levels of recursion
above the number of tokens ahead answers what they do (`answer_knot`).
-/

namespace TokenParsing

namespace TokenStream

variable {τ : Type} {s s₁ s₂ : TokenStream τ}

/-- At least one token stands between one stream and another. -/
def Later (s s' : TokenStream τ) : Prop :=
  ∃ ts, ts ≠ [] ∧ s.Consumes ts s'

/-- Fewer tokens are ahead on a later stream. -/
theorem Later.length_lt (h : s.Later s₁) : s₁.length < s.length := by
  obtain ⟨ts, hne, hc⟩ := h
  have hlength := hc.length_eq
  have hpos := List.length_pos_iff.2 hne
  omega

/-- What is later than a stream behind is later. -/
theorem Consumes.later {ts : List τ} (h : s.Consumes ts s₁) (h' : s₁.Later s₂) : s.Later s₂ := by
  obtain ⟨us, hne, hc⟩ := h'
  exact ⟨ts ++ us, List.append_ne_nil_of_right_ne_nil ts hne, h.trans hc⟩

/-- Later streams follow one another. -/
theorem Later.trans (h : s.Later s₁) (h' : s₁.Later s₂) : s.Later s₂ := by
  obtain ⟨ts, -, hc⟩ := h
  exact hc.later h'

end TokenStream

namespace Calculator

open TokenParsing.Parser TokenParsing.TokenStream

variable {k k' : Knot} {n : Nat} {operand operand' : Rule} {op : Parser Token BinaryOp}

/-! ## Tokens that are read -/

/-- The stream behind the next token is later. -/
theorem Next.later {kind : TokenKind} {s : TokenStream Token} (h : Next kind s) : s.Later (s.advance 1) := by
  obtain ⟨t, ht⟩ := h.exists_consumes
  exact ⟨[t], List.cons_ne_nil t [], ht⟩

/-- A spelled tree has a token. -/
theorem Spells.later {e : Expr Span} {s s' : TokenStream Token} (h : Spells e s s') : s.Later s' := by
  obtain ⟨ts, hrest, hkinds⟩ := h.rest_eq
  obtain ⟨-, hs', -⟩ := h.located
  have hlength : e.width = ts.length := by
    rw [Expr.width, ← hkinds, List.length_map]
  refine ⟨ts, ?_, ?_, hrest⟩
  · rw [← List.length_pos_iff, ← hlength]
    exact e.width_pos
  · rw [hs', hlength]

/-! ## Calls and the calls they make -/

/-- The rules that other rules recur to. -/
inductive Recurring where
  /-- A whole expression. -/
  | expression
  /-- A signed power. -/
  | unary

/-- A rule that is entered, and the stream it is entered on. -/
structure Call where
  rule : Recurring
  stream : TokenStream Token

/-- What the rules answer to a call. -/
def Knot.answer (k : Knot) : Call → Outcome Token (Expr Span)
  | ⟨.expression, s⟩ => k.expression.parse s
  | ⟨.unary, s⟩ => k.unary.parse s

/-- The rules that recur to the given ones. -/
def Knot.next (k : Knot) : Knot :=
  ⟨sum k.expression k.unary, signed k.expression k.unary⟩

/-- The streams on which a left-associative rule reads an operand: the one it is entered on, and the one behind every
operator that it reads. -/
inductive OperandAt (operand : Rule) (op : Parser Token BinaryOp) (s : TokenStream Token) :
    TokenStream Token → Prop where
  | first : OperandAt operand op s s
  | behind {s₁ : TokenStream Token} {r : Success Token (Expr Span)} {o : Success Token BinaryOp}
      (h : OperandAt operand op s s₁) (hr : operand.parse s₁ = .ok r) (ho : op.parse r.remaining = .ok o) :
      OperandAt operand op s o.remaining

/-- The calls that a call makes when it recurs to the given rules. A signed power calls for one behind its minus sign or
behind the sign of powers, and for an expression behind a parenthesis; an expression makes the calls of the signed powers
that are the operands of its terms. -/
inductive Reenters (k : Knot) : Call → Call → Prop where
  | negated {s : TokenStream Token} (hm : Next (.symbol .minus) s) : Reenters k ⟨.unary, s⟩ ⟨.unary, s.advance 1⟩
  | grouped {s : TokenStream Token} (hm : ¬Next (.symbol .minus) s) (hp : Next (.symbol .leftParen) s) :
      Reenters k ⟨.unary, s⟩ ⟨.expression, s.advance 1⟩
  | raised {s : TokenStream Token} {b : Success Token (Expr Span)} (hm : ¬Next (.symbol .minus) s)
      (hb : (atom k.expression).parse s = .ok b) (hp : Next (.symbol .power) b.remaining) :
      Reenters k ⟨.unary, s⟩ ⟨.unary, b.remaining.advance 1⟩
  | operand {s s₁ s₂ : TokenStream Token} {c : Call}
      (hterm : OperandAt (term k.expression k.unary) (operator sumOp) s s₁)
      (hsigned : OperandAt (signed k.expression k.unary) (operator termOp) s₁ s₂) (h : Reenters k ⟨.unary, s₂⟩ c) :
      Reenters k ⟨.expression, s⟩ c

/-! ## Calls determine the answer -/

/-- A chain behind an operand depends on the operands at the streams where it reads them. -/
theorem chain_congr {s s₁ : TokenStream Token} {r : Success Token (Expr Span)}
    (h : ∀ s₁, OperandAt operand op s s₁ → operand'.parse s₁ = operand.parse s₁) (hat : OperandAt operand op s s₁)
    (hr : operand.parse s₁ = .ok r) (budget : Nat) (left : Expr Span) :
    chain operand' op budget left r.remaining = chain operand op budget left r.remaining := by
  induction budget generalizing s₁ r left with
  | zero => rfl
  | succ budget ih =>
    unfold chain
    cases ho : op.parse r.remaining with
    | error e => rfl
    | ok o =>
      have hbehind := hat.behind hr ho
      dsimp only
      rw [h o.remaining hbehind]
      cases hright : operand.parse o.remaining with
      | error e => rfl
      | ok right => exact ih hbehind hright _

/-- A left-associative rule answers alike for operands that do so wherever it reads one. -/
theorem leftAssoc_congr {s : TokenStream Token}
    (h : ∀ s₁, OperandAt operand op s s₁ → operand'.parse s₁ = operand.parse s₁) :
    (leftAssoc operand' op).parse s = (leftAssoc operand op).parse s := by
  rw [parse_leftAssoc, parse_leftAssoc, h s .first]
  cases hfirst : operand.parse s with
  | error e => rfl
  | ok first => exact chain_congr h .first hfirst _ _

/-- A signed power is read alike by rules that answer its calls alike. -/
theorem signed_congr {s : TokenStream Token} (h : ∀ c, Reenters k ⟨.unary, s⟩ c → k'.answer c = k.answer c) :
    (signed k'.expression k'.unary).parse s = (signed k.expression k.unary).parse s := by
  rw [parse_signed, parse_signed]
  by_cases hm : s.head?.any (Token.is .minus) = true
  · have hoperand : k'.unary.parse (s.advance 1) = k.unary.parse (s.advance 1) :=
      h _ (.negated ((any_is_iff_next _ s).1 hm))
    rw [if_pos hm, if_pos hm, hoperand]
  · have hnot : ¬Next (.symbol .minus) s := fun hn => hm ((any_is_iff_next _ s).2 hn)
    have hatom : (atom k'.expression).parse s = (atom k.expression).parse s := by
      rw [parse_atom, parse_atom]
      by_cases hp : s.head?.any (Token.is .leftParen) = true
      · have hinner : k'.expression.parse (s.advance 1) = k.expression.parse (s.advance 1) :=
          h _ (.grouped hnot ((any_is_iff_next _ s).1 hp))
        rw [if_pos hp, if_pos hp, hinner]
      · rw [if_neg hp, if_neg hp]
    rw [if_neg hm, if_neg hm, parse_power, parse_power, hatom]
    cases hb : (atom k.expression).parse s with
    | error e => rfl
    | ok b =>
      dsimp only
      by_cases hp : b.remaining.head?.any (Token.is .power) = true
      · have hexponent : k'.unary.parse (b.remaining.advance 1) = k.unary.parse (b.remaining.advance 1) :=
          h _ (.raised hnot hb ((any_is_iff_next _ _).1 hp))
        rw [if_pos hp, if_pos hp, hexponent]
      · rw [if_neg hp, if_neg hp]

/-- Rules that answer alike to the calls that a call makes are recurred to for the same answer. -/
theorem answer_next_congr {c : Call} (h : ∀ c', Reenters k c c' → k'.answer c' = k.answer c') :
    k'.next.answer c = k.next.answer c := by
  obtain ⟨rule, s⟩ := c
  cases rule with
  | unary => exact signed_congr h
  | expression =>
    refine leftAssoc_congr fun s₁ hterm => leftAssoc_congr fun s₂ hsigned => ?_
    exact signed_congr fun c hc => h c (.operand hterm hsigned hc)

/-! ## Calls are made on later streams -/

/-- A left-associative rule reads its operands no further back than where it is entered. -/
theorem OperandAt.exists_consumes {s s₁ : TokenStream Token} {ops : Symbol → Option BinaryOp}
    (h : OperandAt operand (operator ops) s s₁) (ho : ∀ s r, operand.parse s = .ok r → s.Later r.remaining) :
    ∃ ts, s.Consumes ts s₁ := by
  induction h with
  | first => exact ⟨[], .refl s⟩
  | @behind s₁ r o _ hr hop ih =>
    obtain ⟨ts, hc⟩ := ih
    obtain ⟨us, -, hc'⟩ := ho s₁ r hr
    obtain ⟨sym, hn, -, hremaining⟩ := (parse_operator_eq_ok_iff _ o).1 hop
    obtain ⟨t, ht⟩ := hn.exists_consumes
    rw [hremaining]
    exact ⟨_, (hc.trans hc').trans ht⟩

/-- A rule that reads trees reads at least one token. -/
theorem Recognizes.later {lvl : Level} {p : Rule} (hp : Recognizes lvl n p) {s : TokenStream Token}
    {r : Success Token (Expr Span)} (hr : p.parse s = .ok r) : s.Later r.remaining :=
  (hp.sound hr).spelled.later

/-- A call makes its calls on later streams, when the rules that it recurs to read trees. -/
theorem Reenters.later (hx : Recognizes .sum n k.expression) (hu : Recognizes .signed n k.unary) {c c' : Call}
    (h : Reenters k c c') : c.stream.Later c'.stream := by
  induction h with
  | negated hm => exact hm.later
  | grouped _ hp => exact hp.later
  | raised _ hb hp => exact ((recognizes_atom hx).later hb).trans hp.later
  | operand hterm hsigned _ ih =>
    obtain ⟨ts, hc⟩ := hterm.exists_consumes fun _ _ hr => (recognizes_term hx hu).later hr
    obtain ⟨us, hc'⟩ := hsigned.exists_consumes fun _ _ hr => (recognizes_signed hx hu).later hr
    exact (hc.trans hc').later ih

/-! ## The rules -/

/-- The rules, with as many levels of recursion as the tokens ahead can need. -/
def rules : Knot where
  expression := Calculator.expression
  unary := { attempt := fun s => (knot (s.length + 1)).unary.parse s }

/-- A call is answered by a level of recursion deeper than the tokens ahead are many. -/
theorem answer_rules (c : Call) : rules.answer c = (knot (c.stream.length + 1)).answer c := by
  obtain ⟨rule, s⟩ := c
  cases rule with
  | expression => exact parse_expression s
  | unary => exact parse_of_label_eq_none rfl s

/-- The rules recognize sums and signed powers, of any width. -/
theorem recognizes_rules (n : Nat) : Recognizes .sum n rules.expression ∧ Recognizes .signed n rules.unary := by
  have hexpression : ∀ s, rules.expression.parse s = (knot (s.length + 1)).expression.parse s :=
    fun s => answer_rules ⟨.expression, s⟩
  have hunary : ∀ s, rules.unary.parse s = (knot (s.length + 1)).unary.parse s :=
    fun s => answer_rules ⟨.unary, s⟩
  refine ⟨⟨?_, ?_⟩, ⟨?_, ?_⟩⟩
  · intro s e s' h
    exact (recognizes_knot _).1.sound ((hexpression s).symm.trans h)
  · intro s e s' h _
    exact (hexpression s).trans ((recognizes_knot _).1.complete h (Nat.lt_succ_of_le h.spelled.width_le))
  · intro s e s' h
    exact (recognizes_knot _).2.sound ((hunary s).symm.trans h)
  · intro s e s' h _
    exact (hunary s).trans ((recognizes_knot _).2.complete h (Nat.lt_succ_of_le h.spelled.width_le))

/-- A call of the rules is made with fewer tokens ahead. -/
theorem Reenters.length_lt {c c' : Call} (h : Reenters rules c c') : c'.stream.length < c.stream.length :=
  (h.later (recognizes_rules 0).1 (recognizes_rules 0).2).length_lt

/-- Levels of recursion beyond the number of tokens ahead change nothing. -/
theorem answer_knot_congr {m : Nat} {c : Call} (hm : c.stream.length < m) (hn : c.stream.length < n) :
    (knot m).answer c = (knot n).answer c := by
  -- One level answers by the calls that it makes of the levels below, each with fewer tokens ahead.
  induction m generalizing n c with
  | zero => exact absurd hm (Nat.not_lt_zero _)
  | succ m ih =>
    obtain ⟨n, rfl⟩ := Nat.exists_eq_add_one_of_ne_zero (Nat.ne_zero_of_lt hn)
    refine answer_next_congr (k := knot n) fun c' hc' => ?_
    have hshorter := (hc'.later (recognizes_knot n).1 (recognizes_knot n).2).length_lt
    exact ih (by omega) (by omega)

/-- A level of recursion deeper than the tokens ahead are many answers as the rules do. -/
theorem answer_knot {c : Call} (h : c.stream.length < n) : (knot n).answer c = rules.answer c := by
  rw [answer_rules]
  exact answer_knot_congr h (Nat.lt_succ_self _)

/-- The rules answer what recurring to them answers. -/
theorem answer_next_rules (c : Call) : rules.next.answer c = rules.answer c := by
  rw [answer_rules]
  refine answer_next_congr (k := knot c.stream.length) fun c' hc' => ?_
  obtain ⟨hx, hu⟩ := recognizes_knot c.stream.length
  exact (answer_knot (hc'.later hx hu).length_lt).symm

end Calculator

end TokenParsing
