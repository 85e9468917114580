import TokenParsing.Proofs.Calculator.Trees

/-!
# The parser of arithmetic recognizes its grammar

`expression` succeeds on a stream exactly when the tokens ahead begin with the tokens of a well-shaped tree and what
follows them does not go on with it, and the tree it answers is that tree, placed at its tokens
(`parse_expression_eq_ok_iff`). Each rule is taken by itself: `Recognizes` is what a rule owes its level, sound on all
streams and complete for trees of less than a given width, and a rule over rules that recognize trees of less than `n`
tokens recognizes trees of less than `n + 1`. That one token is what every level of recursion consumes.
-/

namespace TokenParsing.Calculator

open TokenParsing.Parser

variable {ops : Symbol → Option BinaryOp} {c : ChainLevel} {n : Nat} {expression unary operand : Rule}

/-! ## The next token -/

theorem head?_ahead (s : TokenStream Token) : (ahead s).head? = s.head?.map Token.kind := by
  rw [ahead, List.head?_map, TokenStream.head?_rest]

theorem next_of_head? {s : TokenStream Token} {t : Token} (h : s.head? = some t) : Next t.kind s := by
  rw [Next, head?_ahead, h, Option.map_some]

/-- The test that the rules make on the next token. -/
theorem any_is_iff_next (sym : Symbol) (s : TokenStream Token) :
    s.head?.any (Token.is sym) = true ↔ Next (.symbol sym) s := by
  rw [Next, head?_ahead]
  cases s.head? with
  | none => simp
  | some t =>
    obtain ⟨k, sp⟩ := t
    cases k <;> simp [Token.is, TokenKind.symbol?]

/-- The next token has one kind. -/
theorem Next.unique {k k' : TokenKind} {s : TokenStream Token} (h : Next k s) (h' : Next k' s) : k = k' :=
  Option.some.inj (h.symm.trans h')

/-- A token that is next is ahead. -/
theorem Next.length_pos {k : TokenKind} {s : TokenStream Token} (h : Next k s) : 0 < s.length := by
  have h' := congrArg List.length ((next_iff k s).1 h)
  simp only [length_ahead, List.length_cons] at h'
  omega

/-- A symbol that is read is the next token, and the only one read. -/
theorem parse_exactly_eq_ok {sym : Symbol} {s : TokenStream Token} {r : Success Token Token}
    (h : (exactly sym).parse s = .ok r) : Next (.symbol sym) s ∧ r.remaining = s.advance 1 := by
  rw [parse_exactly] at h
  cases ht : s.head? with
  | none => simp [ht] at h
  | some t =>
    by_cases hs : t.is sym = true
    · simp only [ht, hs, if_true, Except.ok.injEq] at h
      exact ⟨(any_is_iff_next sym s).1 (by simp [ht, hs]), by rw [← h]⟩
    · simp [ht, hs] at h

/-- An operator is read exactly when the next token is a symbol of one. -/
theorem parse_operator_eq_ok_iff (s : TokenStream Token) (o : Success Token BinaryOp) :
    (operator ops).parse s = .ok o ↔
      ∃ sym, Next (.symbol sym) s ∧ ops sym = some o.value ∧ o.remaining = s.advance 1 := by
  rw [parse_operator]
  simp only [Next, head?_ahead]
  cases s.head? with
  | none => simp
  | some t =>
    obtain ⟨k, sp⟩ := t
    obtain ⟨op, s'⟩ := o
    cases k with
    | number v => simp [TokenKind.symbol?]
    | symbol sym =>
      cases h : ops sym with
      | none => simp [TokenKind.symbol?, h]
      | some op' => simp [TokenKind.symbol?, h, eq_comm]

/-- No operator is read exactly when no symbol of one is next. -/
theorem parse_operator_eq_error_iff (s : TokenStream Token) :
    (∃ e, (operator ops).parse s = .error e) ↔ ∀ sym, Next (.symbol sym) s → ops sym = none := by
  cases h : (operator ops).parse s with
  | ok o =>
    obtain ⟨sym, hn, ho, -⟩ := (parse_operator_eq_ok_iff s o).1 h
    refine ⟨fun ⟨e, he⟩ => (nomatch he), fun hx => ?_⟩
    rw [hx sym hn] at ho
    nomatch ho
  | error e =>
    refine ⟨fun _ sym hn => ?_, fun _ => ⟨e, rfl⟩⟩
    cases ho : ops sym with
    | none => rfl
    | some op =>
      have hok : (operator ops).parse s = .ok ⟨op, s.advance 1⟩ :=
        (parse_operator_eq_ok_iff s ⟨op, s.advance 1⟩).2 ⟨sym, hn, ho, rfl⟩
      rw [h] at hok
      nomatch hok

/-- A number is read exactly when the next token is one, and its place is that token. -/
theorem parse_numeral_eq_ok_iff (s : TokenStream Token) (r : Success Token (Expr Span)) :
    numeral.parse s = .ok r ↔
      ∃ v, Next (.number v) s ∧ r = ⟨.number v (.single s.position), s.advance 1⟩ := by
  rw [parse_numeral]
  simp only [Next, head?_ahead]
  cases s.head? with
  | none => simp
  | some t =>
    obtain ⟨k, sp⟩ := t
    cases k <;> simp [eq_comm]

/-! ## What a rule owes its level -/

/-- The tokens from one stream up to another spell a tree of a level, and what follows them does not go on with it. -/
structure Reads (lvl : Level) (s : TokenStream Token) (e : Expr Span) (s' : TokenStream Token) : Prop where
  shaped : WellShaped lvl e
  spelled : Spells e s s'
  ended : lvl.EndsBefore (ahead s')

/-- A rule reads only trees of its level, and all of those with less than `n` tokens. -/
structure Recognizes (lvl : Level) (n : Nat) (p : Rule) : Prop where
  sound : ∀ {s e s'}, p.parse s = .ok ⟨e, s'⟩ → Reads lvl s e s'
  complete : ∀ {s e s'}, Reads lvl s e s' → e.width < n → p.parse s = .ok ⟨e, s'⟩

/-- Joining two spelled trees around their operator places the result at the tokens of both. -/
theorem join_eq (op : BinaryOp) {l r : Expr Span} {s s₁ s' : TokenStream Token} (hl : Spells l s s₁)
    (hr : Spells r (s₁.advance 1) s') : join op l r = .binary op l r ⟨s.position, s'.position⟩ := by
  have h₁ := hl.position_le
  have h₂ := hr.position_le
  have hoperator := s₁.position_le_advance 1
  rw [join, hl.place_eq, hr.place_eq, Span.merge]
  congr 2 <;> dsimp only <;> omega

/-- Two spelled operands with the operator between them spell their join. -/
theorem spells_join {op : BinaryOp} {l r : Expr Span} {s s₁ s' : TokenStream Token} (hl : Spells l s s₁)
    (hn : Next (.symbol op.symbol) s₁) (hr : Spells r (s₁.advance 1) s') : Spells (join op l r) s s' := by
  rw [join_eq op hl hr]
  exact ⟨s₁, hl, hn, hr, rfl⟩

/-- A part ends before a symbol that does not go on with it. -/
theorem endsBefore_of_next {lvl : Level} {sym : Symbol} {s : TokenStream Token} (h : Next (.symbol sym) s)
    (hc : lvl.continues sym = false) : lvl.EndsBefore (ahead s) := by
  intro sym' h'
  cases h.unique h'
  exact hc

/-- An atom ends wherever it is complete. -/
theorem endsBefore_atom (ks : List TokenKind) : Level.atom.EndsBefore ks :=
  fun _ _ => rfl

/-- A power and a signed power end where no sign of powers follows. -/
theorem endsBefore_power_iff (s : TokenStream Token) :
    Level.power.EndsBefore (ahead s) ↔ ¬Next (.symbol .power) s := by
  constructor
  · intro h hn
    exact absurd (h .power hn) (by decide)
  · intro h sym hs
    cases sym <;> first | rfl | exact absurd hs h

/-! ## Atoms, powers and signs -/

/-- Atoms are recognized when the expressions between parentheses are. -/
theorem recognizes_atom (he : Recognizes .sum n expression) : Recognizes .atom (n + 1) (atom expression) where
  sound := by
    intro s e s' h
    rw [parse_atom] at h
    by_cases hp : s.head?.any (Token.is .leftParen) = true
    · rw [if_pos hp] at h
      cases hx : expression.parse (s.advance 1) with
      | error f => simp [hx] at h
      | ok r =>
        cases hc : (exactly .rightParen).parse r.remaining with
        | error f => simp [hx, hc] at h
        | ok c =>
          simp only [hx, hc, Except.ok.injEq, Success.mk.injEq] at h
          obtain ⟨rfl, rfl⟩ := h
          obtain ⟨hshape, hspell, -⟩ := he.sound hx
          obtain ⟨hn, hr⟩ := parse_exactly_eq_ok hc
          exact ⟨.group _ hshape, ⟨(any_is_iff_next _ s).1 hp, r.remaining, hspell, hn, hr, rfl⟩, endsBefore_atom _⟩
    · rw [if_neg hp] at h
      obtain ⟨v, hn, hv⟩ := (parse_numeral_eq_ok_iff s _).1 h
      simp only [Success.mk.injEq] at hv
      obtain ⟨rfl, rfl⟩ := hv
      exact ⟨.number v _, ⟨hn, rfl, rfl⟩, endsBefore_atom _⟩
  complete := by
    rintro s e s' ⟨hshape, hspell, -⟩ hw
    rw [parse_atom]
    cases hshape with
    | number v p =>
      obtain ⟨hn, rfl, rfl⟩ := hspell
      have hp : ¬s.head?.any (Token.is .leftParen) = true := by
        rw [any_is_iff_next]
        intro hl
        cases hl.unique hn
      rw [if_neg hp]
      exact (parse_numeral_eq_ok_iff s _).2 ⟨v, hn, rfl⟩
    | @group x p hx =>
      obtain ⟨hn, s₁, hspell, hc, rfl, rfl⟩ := hspell
      rw [Expr.width_group] at hw
      have hread := he.complete ⟨hx, hspell, endsBefore_of_next hc rfl⟩ (by omega)
      obtain ⟨t, ht⟩ := parse_exactly_of_next ((any_is_iff_next _ s₁).2 hc)
      rw [if_pos ((any_is_iff_next _ s).2 hn), hread]
      dsimp only
      rw [ht]

/-- Powers are recognized when the rules below recognize their atoms and exponents. -/
theorem recognizes_power (he : Recognizes .sum n expression) (hu : Recognizes .signed n unary) :
    Recognizes .power (n + 1) (power expression unary) where
  sound := by
    intro s e s' h
    rw [parse_power] at h
    cases hb : (atom expression).parse s with
    | error f => simp [hb] at h
    | ok b =>
      obtain ⟨hshape, hspell, -⟩ := (recognizes_atom he).sound hb
      simp only [hb] at h
      by_cases hp : b.remaining.head?.any (Token.is .power) = true
      · rw [if_pos hp] at h
        cases hx : unary.parse (b.remaining.advance 1) with
        | error f => simp [hx] at h
        | ok x =>
          simp only [hx, Except.ok.injEq, Success.mk.injEq] at h
          obtain ⟨rfl, rfl⟩ := h
          obtain ⟨hxshape, hxspell, hxend⟩ := hu.sound hx
          exact ⟨.raised _ hshape hxshape, spells_join hspell ((any_is_iff_next _ _).1 hp) hxspell, hxend⟩
      · rw [if_neg hp] at h
        simp only [Except.ok.injEq] at h
        subst h
        exact ⟨.atom hshape, hspell, (endsBefore_power_iff _).2 (fun hn => hp ((any_is_iff_next _ _).2 hn))⟩
  complete := by
    rintro s e s' ⟨hshape, hspell, hend⟩ hw
    rw [parse_power]
    cases hshape with
    | atom ha =>
      have hnp : ¬s'.head?.any (Token.is .power) = true := by
        rw [any_is_iff_next]
        exact (endsBefore_power_iff _).1 hend
      rw [(recognizes_atom he).complete ⟨ha, hspell, endsBefore_atom _⟩ hw]
      simp only [hnp]
      rfl
    | @raised b x p hb hx =>
      rw [Expr.width_binary] at hw
      obtain ⟨s₁, hbs, hn, hxs, rfl⟩ := hspell
      have hread := (recognizes_atom he).complete ⟨hb, hbs, endsBefore_atom _⟩ (by omega)
      have hreadx := hu.complete ⟨hx, hxs, hend⟩ (by have := b.width_pos; omega)
      rw [hread]
      dsimp only
      rw [if_pos ((any_is_iff_next .power s₁).2 hn), hreadx, ← join_eq .power hbs hxs]

/-- An atom does not start with a minus sign. -/
theorem not_next_minus_of_atom {e : Expr Span} {s s' : TokenStream Token} (h : WellShaped .atom e)
    (hspell : Spells e s s') : ¬Next (.symbol .minus) s := by
  intro hm
  cases h with
  | number v p => cases hm.unique hspell.1
  | group p _ => cases hm.unique hspell.1

/-- Nor does a power, which starts with an atom. -/
theorem not_next_minus_of_power {e : Expr Span} {s s' : TokenStream Token} (h : WellShaped .power e)
    (hspell : Spells e s s') : ¬Next (.symbol .minus) s := by
  cases h with
  | atom ha => exact not_next_minus_of_atom ha hspell
  | raised p hb _ =>
    obtain ⟨s₁, hbs, -⟩ := hspell
    exact not_next_minus_of_atom hb hbs

/-- Signed powers are recognized when the rules below recognize what is behind the sign. -/
theorem recognizes_signed (he : Recognizes .sum n expression) (hu : Recognizes .signed n unary) :
    Recognizes .signed (n + 1) (signed expression unary) where
  sound := by
    intro s e s' h
    rw [parse_signed] at h
    by_cases hm : s.head?.any (Token.is .minus) = true
    · rw [if_pos hm] at h
      cases hx : unary.parse (s.advance 1) with
      | error f => simp [hx] at h
      | ok x =>
        simp only [hx, Except.ok.injEq, Success.mk.injEq] at h
        obtain ⟨rfl, rfl⟩ := h
        obtain ⟨hshape, hspell, hend⟩ := hu.sound hx
        exact ⟨.negated _ hshape, ⟨(any_is_iff_next _ s).1 hm, hspell, rfl⟩, hend⟩
    · rw [if_neg hm] at h
      obtain ⟨hshape, hspell, hend⟩ := (recognizes_power he hu).sound h
      exact ⟨.power hshape, hspell, hend⟩
  complete := by
    rintro s e s' ⟨hshape, hspell, hend⟩ hw
    rw [parse_signed]
    cases hshape with
    | power hp =>
      have hnm : ¬s.head?.any (Token.is .minus) = true := by
        rw [any_is_iff_next]
        exact not_next_minus_of_power hp hspell
      rw [if_neg hnm]
      exact (recognizes_power he hu).complete ⟨hp, hspell, hend⟩ hw
    | @negated x p hx =>
      rw [Expr.width_negate] at hw
      obtain ⟨hn, hxs, rfl⟩ := hspell
      rw [if_pos ((any_is_iff_next .minus s).2 hn), hu.complete ⟨hx, hxs, hend⟩ (by omega)]

/-! ## Chains -/

/-- A chain that has read operands up to a place where no operator is next stops there. -/
theorem chain_eq_of_no_operator {s : TokenStream Token} (h : ∀ sym, Next (.symbol sym) s → ops sym = none)
    (budget : Nat) (left : Expr Span) : chain operand (operator ops) budget left s = .ok ⟨left, s⟩ := by
  cases budget with
  | zero => rfl
  | succ budget =>
    obtain ⟨e, he⟩ := (parse_operator_eq_error_iff s).2 h
    rw [chain, he]

/-- Where an operator and an operand are next, a chain takes them in. -/
theorem chain_succ_of_ok {s : TokenStream Token} {o : Success Token BinaryOp} {r : Success Token (Expr Span)}
    (ho : (operator ops).parse s = .ok o) (hr : operand.parse o.remaining = .ok r) (budget : Nat) (left : Expr Span) :
    chain operand (operator ops) (budget + 1) left s =
      chain operand (operator ops) budget (join o.value left r.value) r.remaining := by
  rw [chain, ho]
  dsimp only
  rw [hr]

/-- Going on with a chain from what it has read so far gives a longer chain of operands that ends where no operator is
next. The invariant is that what has been read is a chain that spells the tokens up to the stream; the budget is never
what stops it. -/
theorem chain_sound (ho : Recognizes c.operands n operand) {s₀ : TokenStream Token} (budget : Nat) :
    ∀ {left s e s'}, ChainOf (WellShaped c.operands) c.ops left → Spells left s₀ s →
      c.operands.EndsBefore (ahead s) → s.length ≤ budget →
      chain operand (operator c.ops) budget left s = .ok ⟨e, s'⟩ →
      ChainOf (WellShaped c.operands) c.ops e ∧ Spells e s₀ s' ∧ c.operands.EndsBefore (ahead s') ∧
        ∀ sym, Next (.symbol sym) s' → c.ops sym = none := by
  induction budget with
  | zero =>
    intro left s e s' hchain hspell hend hb h
    simp only [chain, Except.ok.injEq, Success.mk.injEq] at h
    obtain ⟨rfl, rfl⟩ := h
    refine ⟨hchain, hspell, hend, fun sym hn => ?_⟩
    have := hn.length_pos
    omega
  | succ budget ih =>
    intro left s e s' hchain hspell hend hb h
    cases hop : (operator c.ops).parse s with
    | error f =>
      have hnone := (parse_operator_eq_error_iff s).1 ⟨f, hop⟩
      rw [chain_eq_of_no_operator hnone] at h
      simp only [Except.ok.injEq, Success.mk.injEq] at h
      obtain ⟨rfl, rfl⟩ := h
      exact ⟨hchain, hspell, hend, hnone⟩
    | ok o =>
      obtain ⟨sym, hn, hsym, hadv⟩ := (parse_operator_eq_ok_iff s o).1 hop
      cases hr : operand.parse o.remaining with
      | error f => simp [chain, hop, hr] at h
      | ok r =>
        rw [chain_succ_of_ok hop hr] at h
        obtain ⟨hrshape, hrspell, hrend⟩ := ho.sound hr
        rw [hadv] at hrspell
        obtain rfl := ChainLevel.symbol_of_ops hsym
        have hpos := hn.length_pos
        have hle := hrspell.length_le
        rw [TokenStream.length_advance] at hle
        exact ih (.more _ hsym hchain hrshape) (spells_join hspell hn hrspell) hrend (by omega) h

/-- A chain of operands whose tokens are next is read up to its end, with budget left for every token after it. -/
theorem chain_reaches (ho : Recognizes c.operands n operand) {e : Expr Span}
    (h : ChainOf (WellShaped c.operands) c.ops e) :
    ∀ {s s'}, Spells e s s' → c.operands.EndsBefore (ahead s') → e.width < n →
      ∃ budget, s'.length ≤ budget ∧
        (leftAssoc operand (operator c.ops)).parse s = chain operand (operator c.ops) budget e s' := by
  induction h with
  | first hx =>
    intro s s' hspell hend hw
    refine ⟨s'.length, Nat.le_refl _, ?_⟩
    rw [parse_leftAssoc, ho.complete ⟨hx, hspell, hend⟩ hw]
  | @more op l r p hop _ hr ih =>
    rintro s s' ⟨s₁, hl, hn, hrspell, rfl⟩ hend hw
    rw [Expr.width_binary] at hw
    have hlend := endsBefore_of_next hn (ChainLevel.continues_operands_of_ops hop)
    obtain ⟨budget, hb, hreach⟩ := ih hl hlend (by omega)
    have hpos := hn.length_pos
    have hle := hrspell.length_le
    rw [TokenStream.length_advance] at hle
    obtain ⟨budget, rfl⟩ : ∃ b, budget = b + 1 := ⟨budget - 1, by omega⟩
    refine ⟨budget, by omega, ?_⟩
    have hread := ho.complete ⟨hr, hrspell, hend⟩ (by omega)
    have hopread : (operator c.ops).parse s₁ = .ok ⟨op, s₁.advance 1⟩ :=
      (parse_operator_eq_ok_iff s₁ _).2 ⟨op.symbol, hn, hop, rfl⟩
    rw [hreach, chain_succ_of_ok hopread hread]
    rw [join_eq op hl hrspell]

/-- A chain ends where its last operand does and no operator of the chain is next. -/
theorem endsBefore_level_iff (c : ChainLevel) (s : TokenStream Token) :
    c.level.EndsBefore (ahead s) ↔
      c.operands.EndsBefore (ahead s) ∧ ∀ sym, Next (.symbol sym) s → c.ops sym = none := by
  simp only [Level.EndsBefore, c.continues_level, Bool.or_eq_false_iff, Option.isSome_eq_false_iff,
    Option.isNone_iff_eq_none]
  refine ⟨fun h => ⟨fun sym hn => (h sym hn).2, fun sym hn => (h sym hn).1⟩, ?_⟩
  rintro ⟨hend, hnone⟩ sym hn
  exact ⟨hnone sym hn, hend sym hn⟩

/-- A left-associative rule reads the chains of its operands that no further operator follows. -/
theorem recognizes_leftAssoc (ho : Recognizes c.operands n operand) :
    Recognizes c.level n (leftAssoc operand (operator c.ops)) where
  sound := by
    intro s e s' h
    rw [parse_leftAssoc] at h
    cases hf : operand.parse s with
    | error f => simp [hf] at h
    | ok first =>
      simp only [hf] at h
      obtain ⟨hshape, hspell, hend⟩ := ho.sound hf
      obtain ⟨hchain, hspell, hend, hnone⟩ := chain_sound ho _ (.first hshape) hspell hend (Nat.le_refl _) h
      exact ⟨(c.wellShaped_iff_chainOf e).2 hchain, hspell, (endsBefore_level_iff c s').2 ⟨hend, hnone⟩⟩
  complete := by
    rintro s e s' ⟨hshape, hspell, hend⟩ hw
    obtain ⟨hend, hnone⟩ := (endsBefore_level_iff c s').1 hend
    obtain ⟨budget, -, hreach⟩ := chain_reaches ho ((c.wellShaped_iff_chainOf e).1 hshape) hspell hend hw
    rw [hreach, chain_eq_of_no_operator hnone]

/-! ## Terms, sums and the recursion -/

/-- Terms are chains of signed powers. -/
theorem recognizes_term (he : Recognizes .sum n expression) (hu : Recognizes .signed n unary) :
    Recognizes .term (n + 1) (term expression unary) :=
  recognizes_leftAssoc (c := .term) (recognizes_signed he hu)

/-- Sums are chains of terms. -/
theorem recognizes_sum (he : Recognizes .sum n expression) (hu : Recognizes .signed n unary) :
    Recognizes .sum (n + 1) (sum expression unary) :=
  recognizes_leftAssoc (c := .sum) (recognizes_term he hu)

/-- The rules with `n` levels of recursion recognize the trees of less than `n` tokens. -/
theorem recognizes_knot (n : Nat) :
    Recognizes .sum n (knot n).expression ∧ Recognizes .signed n (knot n).unary := by
  induction n with
  | zero =>
    exact ⟨⟨fun h => (nomatch h), fun _ hw => absurd hw (Nat.not_lt_zero _)⟩,
      ⟨fun h => (nomatch h), fun _ hw => absurd hw (Nat.not_lt_zero _)⟩⟩
  | succ n ih => exact ⟨recognizes_sum ih.1 ih.2, recognizes_signed ih.1 ih.2⟩

/-- The expression rule answers as a level of recursion deeper than the tokens ahead are many. -/
theorem parse_expression (s : TokenStream Token) :
    Calculator.expression.parse s = (knot (s.length + 1)).expression.parse s := by
  rw [parse_of_label_eq_none rfl s]
  rfl

/-- A spelled tree is not wider than the tokens ahead. -/
theorem Spells.width_le {e : Expr Span} {s s' : TokenStream Token} (h : Spells e s s') : e.width ≤ s.length := by
  obtain ⟨-, -, hk⟩ := h.located
  have := congrArg List.length hk
  rw [length_ahead, List.length_append] at this
  rw [Expr.width]
  omega

/-- `expression` answers the sum at its tokens, and nothing else. -/
theorem parse_expression_eq_ok_iff (s : TokenStream Token) (e : Expr Span) (s' : TokenStream Token) :
    Calculator.expression.parse s = .ok ⟨e, s'⟩ ↔ Reads .sum s e s' := by
  rw [parse_expression]
  constructor
  · intro h
    exact (recognizes_knot _).1.sound h
  · intro h
    exact (recognizes_knot _).1.complete h (Nat.lt_succ_of_le h.spelled.width_le)

/-! ## The language of expressions -/

/-- What may come after a whole sum: nothing, a number or a parenthesis, but no operator. -/
def MayFollowSum : List Token → Prop
  | [] => True
  | t :: _ => (∃ v, t.kind = .number v) ∨ t.kind = .symbol .leftParen ∨ t.kind = .symbol .rightParen

/-- A sum ends exactly before the tokens that may follow one. -/
theorem endsBefore_sum_iff_mayFollowSum (ts : List Token) :
    Level.sum.EndsBefore (ts.map Token.kind) ↔ MayFollowSum ts := by
  cases ts with
  | nil => exact ⟨fun _ => trivial, fun _ sym h => nomatch h⟩
  | cons t ts =>
    obtain ⟨k, sp⟩ := t
    cases k with
    | number v => exact ⟨fun _ => Or.inl ⟨v, rfl⟩, fun _ sym h => nomatch h⟩
    | symbol sym =>
      constructor
      · intro h
        have := h sym rfl
        cases sym <;> simp [Level.continues, termOp, sumOp] at this <;> simp [MayFollowSum]
      · intro h sym' hs
        cases hs
        cases sym <;> simp [MayFollowSum] at h <;> rfl

/-- The tokens of a spelled tree, split off the tokens ahead. -/
theorem Spells.rest_eq {e : Expr Span} {s s' : TokenStream Token} (h : Spells e s s') :
    ∃ ts, s.rest = ts ++ s'.rest ∧ ts.map Token.kind = e.kinds := by
  obtain ⟨-, rfl, hk⟩ := h.located
  refine ⟨s.rest.take e.width, ?_, ?_⟩
  · rw [TokenStream.rest_advance, List.take_append_drop]
  · rw [List.map_take]
    show (ahead s).take e.kinds.length = e.kinds
    rw [hk, List.take_left]

/-- `expression` reads exactly the grammar of arithmetic: on a stream at any position it answers a tree of a given shape
and leaves given tokens ahead if and only if the shape is that of a sum, the tokens ahead are those of the shape and then
the ones left, and these may follow a sum. -/
theorem expression_reads_iff (s : TokenStream Token) (e : Expr Unit) (r : List Token) :
    (∃ a, Calculator.expression.parse s = .ok a ∧ a.value.shape = e ∧ a.remaining.rest = r) ↔
      WellShaped .sum e ∧ (∃ ts, s.rest = ts ++ r ∧ ts.map Token.kind = e.kinds) ∧ MayFollowSum r := by
  refine ⟨fun hleft => ?_, fun h => ?_⟩
  · obtain ⟨⟨e', s'⟩, h, rfl, rfl⟩ := hleft
    obtain ⟨hshape, hspell, hend⟩ := (parse_expression_eq_ok_iff s e' s').1 h
    obtain ⟨ts, hts, hk⟩ := hspell.rest_eq
    refine ⟨hshape.map _, ⟨ts, hts, ?_⟩, (endsBefore_sum_iff_mayFollowSum _).1 hend⟩
    rw [hk, Expr.kinds_shape]
  · obtain ⟨hshape, ⟨ts, hts, hk⟩, hfollow⟩ := h
    have hahead : ahead s = e.kinds ++ r.map Token.kind := by rw [ahead, hts, List.map_append, hk]
    have hwidth : e.width = ts.length := by rw [Expr.width, ← hk, List.length_map]
    have hrest : (s.advance e.width).rest = r := by rw [TokenStream.rest_advance, hts, hwidth, List.drop_left]
    have hend : Level.sum.EndsBefore (ahead (s.advance e.width)) := by
      rw [ahead, hrest]
      exact (endsBefore_sum_iff_mayFollowSum r).2 hfollow
    refine ⟨⟨e.locate s.position, s.advance e.width⟩, ?_, ?_, hrest⟩
    · exact (parse_expression_eq_ok_iff s _ _).2 ⟨hshape.locate _, spells_locate hahead, hend⟩
    · rw [Expr.shape_locate]
      exact Expr.shape_unit e

end TokenParsing.Calculator
