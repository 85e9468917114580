import TokenParsing.Calculator.Grammar

/-!
# Trees and the tokens that spell them

The grammar of arithmetic as a statement about trees: which trees the rules describe (`WellShaped`), the kinds of the
tokens a tree is written with (`Expr.kinds`), and what it is for the tokens between two streams to spell a tree, its
places included (`Spells`). Nothing here runs a parser.

The places of a tree carry no information of their own: they are determined by where the tree starts and by its shape
(`Expr.locate`). To spell a tree is to be located and to have the right kinds ahead (`Spells.located`,
`spells_locate`).
-/

namespace TokenParsing.Calculator

variable {σ τ : Type}

/-! ## The symbols of a tree -/

/-- The symbol that writes an operation. -/
def BinaryOp.symbol : BinaryOp → Symbol
  | .add => .plus
  | .subtract => .minus
  | .multiply => .times
  | .divide => .divide
  | .power => .power

namespace Expr

/-- The kinds of the tokens that write an expression, in order. -/
def kinds : Expr σ → List TokenKind
  | number v _ => [.number v]
  | binary op l r _ => l.kinds ++ .symbol op.symbol :: r.kinds
  | negate e _ => .symbol .minus :: e.kinds
  | group e _ => .symbol .leftParen :: (e.kinds ++ [.symbol .rightParen])

/-- The number of tokens that write an expression. -/
def width (e : Expr σ) : Nat :=
  e.kinds.length

/-- The expression with the places it has when its first token is token `i`. -/
def locate (i : Nat) : Expr σ → Expr Span
  | number v _ => number v (.single i)
  | binary op l r _ => binary op (l.locate i) (r.locate (i + l.width + 1)) ⟨i, i + l.width + 1 + r.width⟩
  | negate e _ => negate (e.locate (i + 1)) ⟨i, i + 1 + e.width⟩
  | group e _ => group (e.locate (i + 1)) ⟨i, i + 1 + e.width + 1⟩

@[simp] theorem width_number (v : Float) (p : σ) : (number v p).width = 1 := rfl

@[simp] theorem width_binary (op : BinaryOp) (l r : Expr σ) (p : σ) :
    (binary op l r p).width = l.width + 1 + r.width := by
  simp only [width, kinds, List.length_append, List.length_cons]
  omega

@[simp] theorem width_negate (e : Expr σ) (p : σ) : (negate e p).width = 1 + e.width := by
  simp only [width, kinds, List.length_cons]
  omega

@[simp] theorem width_group (e : Expr σ) (p : σ) : (group e p).width = 1 + e.width + 1 := by
  simp only [width, kinds, List.length_append, List.length_cons, List.length_nil]
  omega

/-- Every expression is written with at least one token. -/
theorem width_pos (e : Expr σ) : 0 < e.width := by
  cases e with
  | number v p => exact Nat.one_pos
  | binary op l r p =>
    rw [width_binary]
    omega
  | negate e p =>
    rw [width_negate]
    omega
  | group e p =>
    rw [width_group]
    omega

/-- The tokens of an expression do not depend on the places. -/
@[simp] theorem kinds_map (f : σ → τ) (e : Expr σ) : (e.map f).kinds = e.kinds := by
  induction e with
  | number v p => rfl
  | binary op l r p hl hr => rw [map, kinds, kinds, hl, hr]
  | negate e p h => rw [map, kinds, kinds, h]
  | group e p h => rw [map, kinds, kinds, h]

@[simp] theorem kinds_shape (e : Expr σ) : e.shape.kinds = e.kinds :=
  kinds_map _ e

@[simp] theorem kinds_locate (i : Nat) (e : Expr σ) : (e.locate i).kinds = e.kinds := by
  induction e generalizing i with
  | number v p => rfl
  | binary op l r p hl hr => rw [locate, kinds, kinds, hl, hr]
  | negate e p h => rw [locate, kinds, kinds, h]
  | group e p h => rw [locate, kinds, kinds, h]

@[simp] theorem width_locate (i : Nat) (e : Expr σ) : (e.locate i).width = e.width := by
  rw [width, kinds_locate, width]

@[simp] theorem shape_locate (i : Nat) (e : Expr σ) : (e.locate i).shape = e.shape := by
  induction e generalizing i with
  | number v p => rfl
  | binary op l r p hl hr =>
    simp only [shape, locate, map] at hl hr ⊢
    rw [hl, hr]
  | negate e p h =>
    simp only [shape, locate, map] at h ⊢
    rw [h]
  | group e p h =>
    simp only [shape, locate, map] at h ⊢
    rw [h]

@[simp] theorem width_map (f : σ → τ) (e : Expr σ) : (e.map f).width = e.width := by
  rw [width, kinds_map, width]

/-- Where an expression is placed does not depend on the places it had. -/
@[simp] theorem locate_map (f : σ → τ) (i : Nat) (e : Expr σ) : (e.map f).locate i = e.locate i := by
  induction e generalizing i with
  | number v p => rfl
  | binary op l r p hl hr => rw [map, locate, locate, hl, hr, width_map, width_map]
  | negate e p h => rw [map, locate, locate, h, width_map]
  | group e p h => rw [map, locate, locate, h, width_map]

/-- An expression without places is its own shape. -/
theorem shape_unit (e : Expr Unit) : e.shape = e := by
  induction e with
  | number v p => rfl
  | binary op l r p hl hr =>
    simp only [shape, map] at hl hr ⊢
    rw [hl, hr]
  | negate e p h =>
    simp only [shape, map] at h ⊢
    rw [h]
  | group e p h =>
    simp only [shape, map] at h ⊢
    rw [h]

/-- Placing an expression, in tokens and then anywhere, leaves it as it is but for the places. -/
theorem shape_map_locate (f : Span → τ) (i : Nat) (e : Expr Unit) : ((e.locate i).map f).shape = e := by
  rw [shape_map, shape_locate, shape_unit]

/-- A located expression covers its tokens. -/
theorem place_locate (i : Nat) (e : Expr σ) : (e.locate i).place = ⟨i, i + e.width⟩ := by
  cases e <;> simp [locate, place, Span.single, Nat.add_assoc]

end Expr

/-! ## The grammar -/

/-- The rules of the grammar, from the loosest to the tightest. -/
inductive Level where
  | sum
  | term
  | signed
  | power
  | atom
  deriving DecidableEq, Repr

/-- The trees that the rules of the grammar describe: sums and terms are chains that associate to the left, a power
associates to the right through its exponent, and only parentheses lead from an atom back to a sum. -/
inductive WellShaped : Level → Expr σ → Prop where
  | number (v : Float) (p : σ) : WellShaped .atom (.number v p)
  | group {e : Expr σ} (p : σ) : WellShaped .sum e → WellShaped .atom (.group e p)
  | atom {e : Expr σ} : WellShaped .atom e → WellShaped .power e
  | raised {b x : Expr σ} (p : σ) :
      WellShaped .atom b → WellShaped .signed x → WellShaped .power (.binary .power b x p)
  | power {e : Expr σ} : WellShaped .power e → WellShaped .signed e
  | negated {e : Expr σ} (p : σ) : WellShaped .signed e → WellShaped .signed (.negate e p)
  | signed {e : Expr σ} : WellShaped .signed e → WellShaped .term e
  | product {op : BinaryOp} {l r : Expr σ} (p : σ) (h : op = .multiply ∨ op = .divide) :
      WellShaped .term l → WellShaped .signed r → WellShaped .term (.binary op l r p)
  | term {e : Expr σ} : WellShaped .term e → WellShaped .sum e
  | total {op : BinaryOp} {l r : Expr σ} (p : σ) (h : op = .add ∨ op = .subtract) :
      WellShaped .sum l → WellShaped .term r → WellShaped .sum (.binary op l r p)

/-- The symbols that go on with a part of an expression when they follow it. -/
def Level.continues : Level → Symbol → Bool
  | .sum, s => (sumOp s).isSome || (termOp s).isSome || s == .power
  | .term, s => (termOp s).isSome || s == .power
  | .signed, s => s == .power
  | .power, s => s == .power
  | .atom, _ => false

/-- Whether a part of an expression ends before tokens of the given kinds: the first of them does not go on with it. -/
def Level.EndsBefore (lvl : Level) (ks : List TokenKind) : Prop :=
  ∀ s, ks.head? = some (.symbol s) → lvl.continues s = false

/-- The grammar does not look at the places. -/
theorem WellShaped.map {lvl : Level} {e : Expr σ} (h : WellShaped lvl e) (f : σ → τ) : WellShaped lvl (e.map f) := by
  induction h with
  | number v p => exact .number v (f p)
  | group p _ ih => exact .group (f p) ih
  | atom _ ih => exact .atom ih
  | raised p _ _ ihb ihx => exact .raised (f p) ihb ihx
  | power _ ih => exact .power ih
  | negated p _ ih => exact .negated (f p) ih
  | signed _ ih => exact .signed ih
  | product p ho _ _ ihl ihr => exact .product (f p) ho ihl ihr
  | term _ ih => exact .term ih
  | total p ho _ _ ihl ihr => exact .total (f p) ho ihl ihr

/-- Places do not change the shape of a tree. -/
theorem WellShaped.locate {lvl : Level} {e : Expr σ} (h : WellShaped lvl e) (i : Nat) :
    WellShaped lvl (e.locate i) := by
  induction h generalizing i with
  | number v p => exact .number v _
  | group p _ ih => exact .group _ (ih _)
  | atom _ ih => exact .atom (ih i)
  | raised p _ _ ihb ihx => exact .raised _ (ihb _) (ihx _)
  | power _ ih => exact .power (ih i)
  | negated p _ ih => exact .negated _ (ih _)
  | signed _ ih => exact .signed (ih i)
  | product p ho _ _ ihl ihr => exact .product _ ho (ihl _) (ihr _)
  | term _ ih => exact .term (ih i)
  | total p ho _ _ ihl ihr => exact .total _ ho (ihl _) (ihr _)

/-! ## Chains -/

/-- The trees of operands that satisfy `P`, joined by operators of `ops` from left to right. -/
inductive ChainOf (P : Expr σ → Prop) (ops : Symbol → Option BinaryOp) : Expr σ → Prop where
  | first {e : Expr σ} : P e → ChainOf P ops e
  | more {op : BinaryOp} {l r : Expr σ} (p : σ) (h : ops op.symbol = some op) :
      ChainOf P ops l → P r → ChainOf P ops (.binary op l r p)

/-- The levels whose trees are chains of the level below. -/
inductive ChainLevel where
  | term
  | sum
  deriving DecidableEq, Repr

namespace ChainLevel

/-- The level of the chains. -/
def level : ChainLevel → Level
  | term => .term
  | sum => .sum

/-- The level of the operands. -/
def operands : ChainLevel → Level
  | term => .signed
  | sum => .term

/-- The operations between the operands, by their symbols. -/
def ops : ChainLevel → Symbol → Option BinaryOp
  | term => termOp
  | sum => sumOp

/-- An operation stands between the operands of a level. -/
def Joins : ChainLevel → BinaryOp → Prop
  | term, op => op = .multiply ∨ op = .divide
  | sum, op => op = .add ∨ op = .subtract

variable {c : ChainLevel}

/-- The symbol of an operation is an operator of the chain exactly when the operation joins its operands. -/
theorem ops_symbol_eq_iff (c : ChainLevel) (op : BinaryOp) : c.ops op.symbol = some op ↔ c.Joins op := by
  cases c <;> cases op <;> simp [ops, Joins, BinaryOp.symbol, termOp, sumOp]

/-- An operation is written with the symbol it was read from. -/
theorem symbol_of_ops {s : Symbol} {op : BinaryOp} (h : c.ops s = some op) : op.symbol = s := by
  cases c <;> cases s <;> cases h <;> rfl

/-- An operand ends where an operation of its chain follows. -/
theorem continues_operands_of_ops {s : Symbol} {op : BinaryOp} (h : c.ops s = some op) :
    c.operands.continues s = false := by
  cases c <;> cases s <;> cases h <;> rfl

/-- What goes on with a chain goes on with its last operand, or it is an operation of the chain. -/
theorem continues_level (c : ChainLevel) (s : Symbol) :
    c.level.continues s = ((c.ops s).isSome || c.operands.continues s) := by
  cases c <;> cases s <;> rfl

/-- A tree of a chain's level is an operand, or it joins a shorter chain and an operand. -/
theorem wellShaped_level_iff (e : Expr σ) :
    WellShaped c.level e ↔
      WellShaped c.operands e ∨
        ∃ op l r p, e = .binary op l r p ∧ c.Joins op ∧ WellShaped c.level l ∧ WellShaped c.operands r := by
  cases c with
  | term =>
    constructor
    · intro h
      cases h with
      | signed h => exact Or.inl h
      | product p ho hl hr => exact Or.inr ⟨_, _, _, p, rfl, ho, hl, hr⟩
    · rintro (h | ⟨op, l, r, p, rfl, ho, hl, hr⟩)
      · exact .signed h
      · exact .product p ho hl hr
  | sum =>
    constructor
    · intro h
      cases h with
      | term h => exact Or.inl h
      | total p ho hl hr => exact Or.inr ⟨_, _, _, p, rfl, ho, hl, hr⟩
    · rintro (h | ⟨op, l, r, p, rfl, ho, hl, hr⟩)
      · exact .term h
      · exact .total p ho hl hr

/-- The trees of a chain's level are the chains of its operands. -/
theorem wellShaped_iff_chainOf (c : ChainLevel) (e : Expr σ) :
    WellShaped c.level e ↔ ChainOf (WellShaped c.operands) c.ops e := by
  constructor
  · intro h
    -- By induction on the tree: the left part of a chain is a chain of the same level.
    induction e with
    | binary op l r p ihl _ =>
      rcases c.wellShaped_level_iff _ |>.1 h with h | ⟨_, _, _, _, ⟨⟩, ho, hl, hr⟩
      · exact .first h
      · exact .more p ((c.ops_symbol_eq_iff op).2 ho) (ihl hl) hr
    | number _ _ | negate _ _ _ | group _ _ _ =>
      rcases c.wellShaped_level_iff _ |>.1 h with h | ⟨_, _, _, _, ⟨⟩, _⟩
      exact .first h
  · intro h
    induction h with
    | first h => exact c.wellShaped_level_iff _ |>.2 (Or.inl h)
    | more p ho _ hr ih =>
      exact c.wellShaped_level_iff _ |>.2 (Or.inr ⟨_, _, _, p, rfl, (c.ops_symbol_eq_iff _).1 ho, ih, hr⟩)

end ChainLevel

/-! ## Spelling -/

/-- The kinds of the tokens ahead. -/
def ahead (s : TokenStream Token) : List TokenKind :=
  s.rest.map Token.kind

/-- The kind of the next token is the given one. -/
def Next (k : TokenKind) (s : TokenStream Token) : Prop :=
  (ahead s).head? = some k

/-- The tokens from one stream up to another spell a tree, and its places are those of the tokens. -/
def Spells : Expr Span → TokenStream Token → TokenStream Token → Prop
  | .number v p, s, s' => Next (.number v) s ∧ s' = s.advance 1 ∧ p = .single s.position
  | .binary op l r p, s, s' =>
    ∃ s₁, Spells l s s₁ ∧ Next (.symbol op.symbol) s₁ ∧ Spells r (s₁.advance 1) s' ∧ p = ⟨s.position, s'.position⟩
  | .negate e p, s, s' =>
    Next (.symbol .minus) s ∧ Spells e (s.advance 1) s' ∧ p = ⟨s.position, s'.position⟩
  | .group e p, s, s' =>
    Next (.symbol .leftParen) s ∧ ∃ s₁, Spells e (s.advance 1) s₁ ∧ Next (.symbol .rightParen) s₁ ∧
      s' = s₁.advance 1 ∧ p = ⟨s.position, s'.position⟩

@[simp] theorem length_ahead (s : TokenStream Token) : (ahead s).length = s.length := by
  simp [ahead]

@[simp] theorem ahead_advance (s : TokenStream Token) (n : Nat) : ahead (s.advance n) = (ahead s).drop n := by
  simp [ahead, List.map_drop]

/-- The next kind is the first one ahead. -/
theorem next_iff (k : TokenKind) (s : TokenStream Token) : Next k s ↔ ahead s = k :: ahead (s.advance 1) := by
  rw [Next, ahead_advance]
  cases ahead s with
  | nil => simp
  | cons k' ks => simp

/-- The kinds ahead after as many tokens as a list has, when the list is ahead. -/
theorem ahead_advance_of_eq {s : TokenStream Token} {ks rest : List TokenKind} (h : ahead s = ks ++ rest) :
    ahead (s.advance ks.length) = rest := by
  rw [ahead_advance, h, List.drop_left]

/-- The position after as many tokens as a list has, when the list is ahead. -/
theorem position_advance_of_ahead {s : TokenStream Token} {ks rest : List TokenKind} (h : ahead s = ks ++ rest) :
    (s.advance ks.length).position = s.position + ks.length := by
  refine TokenStream.position_advance_of_le ?_
  rw [← length_ahead, h, List.length_append]
  exact Nat.le_add_right _ _

/-- Stepping over the next token moves the position by one. -/
theorem Next.position_advance {k : TokenKind} {s : TokenStream Token} (h : Next k s) :
    (s.advance 1).position = s.position + 1 := by
  have hahead : ahead s = [k] ++ ahead (s.advance 1) := (next_iff k s).1 h
  exact position_advance_of_ahead hahead

/-- The position after a tree that is ahead is further by its width. -/
theorem position_advance_width {e : Expr σ} {s : TokenStream Token} {rest : List TokenKind}
    (h : ahead s = e.kinds ++ rest) : (s.advance e.width).position = s.position + e.width :=
  position_advance_of_ahead h

/-- A spelled tree is located at the position where its tokens start, it leaves the stream after as many tokens as it
is wide, and the kinds ahead begin with its own. -/
theorem Spells.located {e : Expr Span} {s s' : TokenStream Token} (h : Spells e s s') :
    e = e.locate s.position ∧ s' = s.advance e.width ∧ ahead s = e.kinds ++ ahead s' := by
  induction e generalizing s s' with
  | number v p =>
    obtain ⟨hn, rfl, rfl⟩ := h
    exact ⟨rfl, rfl, (next_iff _ _).1 hn⟩
  | binary op l r p ihl ihr =>
    obtain ⟨s₁, hl, hn, hr, rfl⟩ := h
    obtain ⟨el, rfl, kl⟩ := ihl hl
    obtain ⟨er, rfl, kr⟩ := ihr hr
    have hright := position_advance_width kr
    rw [hn.position_advance, position_advance_width kl] at er hright
    rw [next_iff] at hn
    refine ⟨?_, ?_, ?_⟩
    · rw [Expr.locate, ← el, ← er, hright]
    · simp only [TokenStream.advance_advance, Expr.width_binary]
    · rw [kl, hn, kr, Expr.kinds, List.append_assoc, List.cons_append]
  | negate e p ih =>
    obtain ⟨hn, he, rfl⟩ := h
    obtain ⟨ee, rfl, ke⟩ := ih he
    have hinner := position_advance_width ke
    rw [hn.position_advance] at ee hinner
    rw [next_iff] at hn
    refine ⟨?_, ?_, ?_⟩
    · rw [Expr.locate, ← ee, hinner]
    · simp only [TokenStream.advance_advance, Expr.width_negate]
    · rw [hn, ke, Expr.kinds, List.cons_append]
  | group e p ih =>
    obtain ⟨hn, s₁, he, hc, rfl, rfl⟩ := h
    obtain ⟨ee, rfl, ke⟩ := ih he
    have hinner := position_advance_width ke
    rw [hn.position_advance] at ee hinner
    have hclosing := hc.position_advance
    rw [next_iff] at hn hc
    refine ⟨?_, ?_, ?_⟩
    · rw [Expr.locate, ← ee, hclosing, hinner]
    · simp only [TokenStream.advance_advance, Expr.width_group, Nat.add_assoc]
    · rw [hn, ke, hc, Expr.kinds, List.cons_append, List.append_assoc, List.singleton_append]

/-- The tokens ahead spell the tree located at them when their kinds begin with its own. -/
theorem spells_locate {e : Expr σ} {s : TokenStream Token} {rest : List TokenKind} (h : ahead s = e.kinds ++ rest) :
    Spells (e.locate s.position) s (s.advance e.width) := by
  induction e generalizing s rest with
  | number v p => exact ⟨by rw [Next, h]; rfl, rfl, rfl⟩
  | binary op l r p ihl ihr =>
    have hposition := position_advance_width h
    rw [Expr.kinds, List.append_assoc, List.cons_append] at h
    have hm : ahead (s.advance l.width) = .symbol op.symbol :: (r.kinds ++ rest) := ahead_advance_of_eq h
    have hn : Next (.symbol op.symbol) (s.advance l.width) := by
      rw [Next, hm]
      rfl
    have hr : ahead ((s.advance l.width).advance 1) = r.kinds ++ rest := by
      rw [ahead_advance, hm, List.drop_one, List.tail_cons]
    have hspell := ihr hr
    rw [hn.position_advance, position_advance_width h] at hspell
    refine ⟨s.advance l.width, ihl h, hn, ?_, ?_⟩
    · simpa [Nat.add_assoc] using hspell
    · rw [hposition, Expr.width_binary]
      simp only [Nat.add_assoc]
  | negate e p ih =>
    have hposition := position_advance_width h
    rw [Expr.kinds, List.cons_append] at h
    have hn : Next (.symbol .minus) s := by
      rw [Next, h]
      rfl
    have he : ahead (s.advance 1) = e.kinds ++ rest := by
      rw [ahead_advance, h, List.drop_one, List.tail_cons]
    have hspell := ih he
    rw [hn.position_advance] at hspell
    refine ⟨hn, ?_, ?_⟩
    · simpa using hspell
    · rw [hposition, Expr.width_negate, Nat.add_assoc]
  | group e p ih =>
    have hposition := position_advance_width h
    rw [Expr.kinds, List.cons_append, List.append_assoc] at h
    have hn : Next (.symbol .leftParen) s := by
      rw [Next, h]
      rfl
    have he : ahead (s.advance 1) = e.kinds ++ (.symbol .rightParen :: rest) := by
      rw [ahead_advance, h, List.drop_one, List.tail_cons]
      rfl
    have hspell := ih he
    rw [hn.position_advance] at hspell
    refine ⟨hn, (s.advance 1).advance e.width, hspell, ?_, ?_, ?_⟩
    · rw [Next, Expr.width, ahead_advance_of_eq he]
      rfl
    · simp [Nat.add_assoc]
    · rw [hposition, Expr.width_group]
      simp only [Nat.add_assoc]

/-- The tokens of a spelled tree are consumed. -/
theorem Spells.position_eq {e : Expr Span} {s s' : TokenStream Token} (h : Spells e s s') :
    s'.position = s.position + e.width := by
  obtain ⟨-, rfl, hk⟩ := h.located
  exact position_advance_width hk

/-- A tree is spelled forward. -/
theorem Spells.position_le {e : Expr Span} {s s' : TokenStream Token} (h : Spells e s s') :
    s.position ≤ s'.position :=
  Nat.le.intro h.position_eq.symm

/-- A spelled tree covers the tokens between its streams. -/
theorem Spells.place_eq {e : Expr Span} {s s' : TokenStream Token} (h : Spells e s s') :
    e.place = ⟨s.position, s'.position⟩ := by
  rw [h.position_eq, h.located.1, Expr.place_locate, Expr.width_locate]

/-- Not more tokens are ahead behind a tree than before it. -/
theorem Spells.length_le {e : Expr Span} {s s' : TokenStream Token} (h : Spells e s s') : s'.length ≤ s.length := by
  obtain ⟨-, rfl, -⟩ := h.located
  rw [TokenStream.length_advance]
  exact Nat.sub_le _ _

end TokenParsing.Calculator
