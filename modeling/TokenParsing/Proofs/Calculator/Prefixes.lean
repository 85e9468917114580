import TokenParsing.Proofs.Calculator.Trees

/-!
# Sentences and their beginnings

A sentence is what the tokens of a whole expression spell (`Sentence`); a list of kinds is viable when it begins one
(`Viable`). The levels of the grammar decide which tree a sentence has, not whether it is one: the tokens of every tree,
well-shaped or not, are those of a well-shaped one (`sentence_kinds`). So it is enough to know, token by token, whether
an operand or an operator is due and how many parentheses are open (`Due`): a list that leads nowhere from the start is
not viable.
-/

namespace TokenParsing.Calculator

variable {σ : Type}

/-! ## Regrouping -/

/-- The trees of a level can take a minus sign in front, the whole being the tokens of such a tree again. -/
def Negatable (lvl : Level) : Prop :=
  ∀ {e : Expr Unit}, WellShaped lvl e → ∃ e' : Expr Unit, WellShaped lvl e' ∧ e'.kinds = .symbol .minus :: e.kinds

/-- A minus sign before a chain belongs to its first operand. -/
theorem Negatable.chain {c : ChainLevel} (hc : Negatable c.operands) : Negatable c.level := by
  intro e h
  rw [c.wellShaped_iff_chainOf] at h
  induction h with
  | first hx =>
    obtain ⟨x', hx', hk⟩ := hc hx
    exact ⟨x', (c.wellShaped_level_iff x').2 (Or.inl hx'), hk⟩
  | @more op l r p hop _ hr ih =>
    obtain ⟨l', hl', hk⟩ := ih
    refine ⟨.binary op l' r p, ?_, ?_⟩
    · exact (c.wellShaped_level_iff _).2 (Or.inr ⟨_, _, _, p, rfl, (c.ops_symbol_eq_iff op).1 hop, hl', hr⟩)
    · rw [Expr.kinds, hk, Expr.kinds, List.cons_append]

/-- A minus sign before a signed power makes a signed power. -/
theorem negatable_signed : Negatable .signed :=
  fun {e} h => ⟨.negate e (), .negated () h, rfl⟩

/-- A minus sign before a sum belongs to the first signed power in it. -/
theorem negatable_sum : Negatable .sum :=
  Negatable.chain (c := .sum) (Negatable.chain (c := .term) negatable_signed)

/-- The level of a tree once a sign of powers and an exponent follow it. -/
def Level.raised : Level → Level
  | .atom => .power
  | lvl => lvl

/-- An exponent after a tree belongs to the last atom in it. -/
theorem WellShaped.exists_raised {lvl : Level} {e x : Expr Unit} (h : WellShaped lvl e) (hx : WellShaped .signed x) :
    ∃ e' : Expr Unit, WellShaped lvl.raised e' ∧ e'.kinds = e.kinds ++ .symbol .power :: x.kinds := by
  induction h with
  | number v p => exact ⟨_, .raised () (.number v p) hx, rfl⟩
  | group p hi _ => exact ⟨_, .raised () (.group p hi) hx, rfl⟩
  | atom _ ih => exact ih
  | raised p hb _ _ ih =>
    -- powers associate to the right: the exponent is raised, not the whole
    obtain ⟨y', hy', hk⟩ := ih
    refine ⟨_, .raised p hb hy', ?_⟩
    rw [Expr.kinds, hk, Expr.kinds, List.append_assoc, List.cons_append]
  | power _ ih =>
    obtain ⟨e', he', hk⟩ := ih
    exact ⟨e', .power he', hk⟩
  | negated p _ ih =>
    obtain ⟨y', hy', hk⟩ := ih
    refine ⟨_, .negated p hy', ?_⟩
    rw [Expr.kinds, hk, Expr.kinds, List.cons_append]
  | signed _ ih =>
    obtain ⟨e', he', hk⟩ := ih
    exact ⟨e', .signed he', hk⟩
  | product p ho hl _ _ ih =>
    obtain ⟨r', hr', hk⟩ := ih
    refine ⟨_, .product p ho hl hr', ?_⟩
    rw [Expr.kinds, hk, Expr.kinds, List.append_assoc, List.cons_append]
  | term _ ih =>
    obtain ⟨e', he', hk⟩ := ih
    exact ⟨e', .term he', hk⟩
  | total p ho hl _ _ ih =>
    obtain ⟨r', hr', hk⟩ := ih
    refine ⟨_, .total p ho hl hr', ?_⟩
    rw [Expr.kinds, hk, Expr.kinds, List.append_assoc, List.cons_append]

/-- The trees that can follow any sum and any operation, the whole being the tokens of a sum again. -/
def Appendable (P : Expr Unit → Prop) : Prop :=
  ∀ (op : BinaryOp) {l x : Expr Unit}, WellShaped .sum l → P x →
    ∃ e : Expr Unit, WellShaped .sum e ∧ e.kinds = l.kinds ++ .symbol op.symbol :: x.kinds

/-- A factor joins the last term of a sum. -/
theorem WellShaped.exists_product {op : BinaryOp} (hop : op = .multiply ∨ op = .divide) {l x : Expr Unit}
    (hl : WellShaped .sum l) (hx : WellShaped .signed x) :
    ∃ e : Expr Unit, WellShaped .sum e ∧ e.kinds = l.kinds ++ .symbol op.symbol :: x.kinds := by
  cases hl with
  | term ht => exact ⟨_, .term (.product () hop ht hx), rfl⟩
  | total p ho hs ht =>
    refine ⟨_, .total p ho hs (.product () hop ht hx), ?_⟩
    rw [Expr.kinds, Expr.kinds, Expr.kinds, List.append_assoc, List.cons_append]

/-- A signed power behind an operator joins the part of the sum on its left that the operator binds. -/
theorem appendable_signed : Appendable (WellShaped .signed) := by
  intro op l x hl hx
  cases op with
  | add => exact ⟨_, .total () (Or.inl rfl) hl (.signed hx), rfl⟩
  | subtract => exact ⟨_, .total () (Or.inr rfl) hl (.signed hx), rfl⟩
  | multiply => exact WellShaped.exists_product (Or.inl rfl) hl hx
  | divide => exact WellShaped.exists_product (Or.inr rfl) hl hx
  | power => exact hl.exists_raised hx

/-- A chain is appended operand by operand. -/
theorem Appendable.chain {c : ChainLevel} (hc : Appendable (WellShaped c.operands)) :
    Appendable (WellShaped c.level) := by
  intro op l x hl hx
  rw [c.wellShaped_iff_chainOf] at hx
  induction hx with
  | first hx => exact hc op hl hx
  | more p _ _ hr ih =>
    obtain ⟨e, he, hk⟩ := ih
    obtain ⟨e', he', hk'⟩ := hc _ he hr
    refine ⟨e', he', ?_⟩
    rw [hk', hk, Expr.kinds, List.append_assoc, List.cons_append]

/-- A sum behind an operator follows any sum, term by term and factor by factor. -/
theorem appendable_sum : Appendable (WellShaped .sum) :=
  Appendable.chain (c := .sum) (Appendable.chain (c := .term) appendable_signed)

/-! ## Sentences -/

/-- The kinds of the tokens of a whole expression. -/
def Sentence (ks : List TokenKind) : Prop :=
  ∃ e : Expr Unit, WellShaped .sum e ∧ e.kinds = ks

/-- A list of kinds with which a sentence begins. -/
def Viable (ks : List TokenKind) : Prop :=
  ∃ more, Sentence (ks ++ more)

/-- Levels decide how a sentence is read, not what is one. -/
theorem sentence_kinds (e : Expr σ) : Sentence e.kinds := by
  induction e with
  | number v p => exact ⟨.number v (), .term (.signed (.power (.atom (.number v ())))), rfl⟩
  | binary op l r p ihl ihr =>
    obtain ⟨l', hl, hkl⟩ := ihl
    obtain ⟨r', hr, hkr⟩ := ihr
    obtain ⟨e', he, hk⟩ := appendable_sum op hl hr
    exact ⟨e', he, by rw [hk, hkl, hkr, Expr.kinds]⟩
  | negate e p ih =>
    obtain ⟨x, hx, hkx⟩ := ih
    obtain ⟨e', he, hk⟩ := negatable_sum hx
    exact ⟨e', he, by rw [hk, hkx, Expr.kinds]⟩
  | group e p ih =>
    obtain ⟨x, hx, hkx⟩ := ih
    exact ⟨.group x (), .term (.signed (.power (.atom (.group () hx)))), by rw [Expr.kinds, hkx, Expr.kinds]⟩

/-- A sentence is viable: nothing more is needed behind it. -/
theorem Sentence.viable {ks : List TokenKind} (h : Sentence ks) : Viable ks :=
  ⟨[], by rwa [List.append_nil]⟩

/-! ## What is due next -/

/-- What may come next inside a number of open parentheses: the start of an operand, or what follows an operand. -/
inductive Due where
  | operand (depth : Nat)
  | operator (depth : Nat)
  deriving DecidableEq, Repr

/-- What is due after a token, unless it is out of place. -/
def Due.next : Due → TokenKind → Option Due
  | operand d, .number _ => some (operator d)
  | operand d, .symbol .leftParen => some (operand (d + 1))
  | operand d, .symbol .minus => some (operand d)
  | operand _, .symbol _ => none
  | operator (d + 1), .symbol .rightParen => some (operator d)
  | operator 0, .symbol .rightParen => none
  | operator _, .symbol .leftParen => none
  | operator d, .symbol _ => some (operand d)
  | operator _, .number _ => none

/-- What is due after tokens of the given kinds, when an operand is due before them. -/
def dueAfter (ks : List TokenKind) : Option Due :=
  ks.foldlM Due.next (.operand 0)

theorem Due.next_operator_number (d : Nat) (v : Float) : (Due.operator d).next (.number v) = none := by
  cases d <;> rfl

theorem Due.next_operator_op (d : Nat) (op : BinaryOp) :
    (Due.operator d).next (.symbol op.symbol) = some (.operand d) := by
  cases d <;> cases op <;> rfl

/-- The tokens of a tree make up one operand. -/
theorem foldlM_next_kinds (e : Expr σ) (d : Nat) : e.kinds.foldlM Due.next (.operand d) = some (.operator d) := by
  induction e generalizing d with
  | number v p => rfl
  | binary op l r p ihl ihr =>
    rw [Expr.kinds, List.foldlM_append, ihl, Option.bind_eq_bind, Option.bind_some, List.foldlM_cons,
      Due.next_operator_op, Option.bind_eq_bind, Option.bind_some, ihr]
  | negate e p ih => exact ih d
  | group e p ih =>
    rw [Expr.kinds, List.foldlM_cons]
    show (e.kinds ++ [TokenKind.symbol .rightParen]).foldlM Due.next (.operand (d + 1)) = some (.operator d)
    rw [List.foldlM_append, ih]
    rfl

/-- What is due after two parts is found by reading on after the first. -/
theorem dueAfter_append (ks ks' : List TokenKind) :
    dueAfter (ks ++ ks') = (dueAfter ks).bind fun due => ks'.foldlM Due.next due :=
  List.foldlM_append

/-- After a sentence an operator is due, outside of all parentheses. -/
theorem Sentence.dueAfter_eq {ks : List TokenKind} (h : Sentence ks) : dueAfter ks = some (.operator 0) := by
  obtain ⟨e, -, rfl⟩ := h
  exact foldlM_next_kinds e 0

/-- Where a token is out of place, no sentence goes on. -/
theorem not_viable_of_next_eq_none {ks : List TokenKind} {due : Due} {k : TokenKind} (h : dueAfter ks = some due)
    (hk : due.next k = none) : ¬Viable (ks ++ [k]) := by
  rintro ⟨more, hmore⟩
  have hdue := hmore.dueAfter_eq
  rw [dueAfter_append, dueAfter_append, h, Option.bind_some, List.foldlM_cons, hk] at hdue
  nomatch hdue

/-! ## Where an operand is due -/

/-- Any expression may follow tokens of the given kinds: with some tokens after it, the whole is a sentence. -/
def ExpectsOperand (ks : List TokenKind) : Prop :=
  ∃ closing, ∀ e : Expr Unit, Sentence (ks ++ e.kinds ++ closing)

theorem expectsOperand_nil : ExpectsOperand [] := by
  refine ⟨[], fun e => ?_⟩
  rw [List.nil_append, List.append_nil]
  exact sentence_kinds e

namespace ExpectsOperand

variable {ks : List TokenKind}

/-- An operand is still due after a minus sign. -/
theorem minus (h : ExpectsOperand ks) : ExpectsOperand (ks ++ [.symbol .minus]) := by
  obtain ⟨closing, hall⟩ := h
  refine ⟨closing, fun e => ?_⟩
  have := hall (.negate e ())
  rwa [Expr.kinds, List.append_cons] at this

/-- An operand is due after an opening parenthesis, which the rest of the sentence closes. -/
theorem leftParen (h : ExpectsOperand ks) : ExpectsOperand (ks ++ [.symbol .leftParen]) := by
  obtain ⟨closing, hall⟩ := h
  refine ⟨.symbol .rightParen :: closing, fun e => ?_⟩
  have := hall (.group e ())
  rwa [Expr.kinds, List.append_cons, ← List.append_assoc, List.append_assoc, List.singleton_append] at this

/-- An operand is due after an operator behind an expression. -/
theorem operator (h : ExpectsOperand ks) (l : Expr σ) (op : BinaryOp) :
    ExpectsOperand (ks ++ l.kinds ++ [.symbol op.symbol]) := by
  obtain ⟨closing, hall⟩ := h
  refine ⟨closing, fun e => ?_⟩
  have := hall (.binary op l.shape e ())
  rwa [Expr.kinds, Expr.kinds_shape, ← List.append_assoc, List.append_cons] at this

/-- The tokens of an expression may follow where an operand is due. -/
theorem viable_append (h : ExpectsOperand ks) (e : Expr σ) : Viable (ks ++ e.kinds) := by
  obtain ⟨closing, hall⟩ := h
  refine ⟨closing, ?_⟩
  rw [← e.kinds_shape]
  exact hall e.shape

/-- Tokens after which an operand is due begin a sentence. -/
theorem viable (h : ExpectsOperand ks) : Viable ks := by
  obtain ⟨closing, hall⟩ := h
  refine ⟨(Expr.number 0 ()).kinds ++ closing, ?_⟩
  rw [← List.append_assoc]
  exact hall (.number 0 ())

/-- Read token by token, such a beginning leaves an operand due. -/
theorem dueAfter_eq (h : ExpectsOperand ks) : ∃ d, dueAfter ks = some (.operand d) := by
  obtain ⟨closing, hall⟩ := h
  have hdue := (hall (.number 0 ())).dueAfter_eq
  rw [List.append_assoc, dueAfter_append] at hdue
  cases hks : dueAfter ks with
  | none =>
    rw [hks] at hdue
    cases hdue
  | some due =>
    cases due with
    | operand d => exact ⟨d, rfl⟩
    | operator d =>
      rw [hks, Option.bind_some, Expr.kinds, List.cons_append, List.foldlM_cons, Due.next_operator_number] at hdue
      cases hdue

/-- Where an operand is due, the expression is not complete. -/
theorem not_sentence (h : ExpectsOperand ks) : ¬Sentence ks := by
  intro hs
  obtain ⟨d, hd⟩ := h.dueAfter_eq
  cases hd.symm.trans hs.dueAfter_eq

/-- An operand starts with no symbol but a minus sign or an opening parenthesis. -/
theorem not_viable_append {sym : Symbol} (h : ExpectsOperand ks) (hm : sym ≠ .minus) (hp : sym ≠ .leftParen) :
    ¬Viable (ks ++ [.symbol sym]) := by
  obtain ⟨d, hd⟩ := h.dueAfter_eq
  refine not_viable_of_next_eq_none hd ?_
  cases sym <;> first | rfl | contradiction

end ExpectsOperand

/-- What does not go on with a sentence, and cannot close a parenthesis, must not follow it. -/
theorem Sentence.not_viable_append {ks : List TokenKind} {k : TokenKind} (h : Sentence ks)
    (hend : Level.sum.EndsBefore [k]) : ¬Viable (ks ++ [k]) := by
  refine not_viable_of_next_eq_none h.dueAfter_eq ?_
  cases k with
  | number v => rfl
  | symbol sym =>
    have hsym := hend sym rfl
    cases sym <;> first | rfl | simp [Level.continues, termOp, sumOp] at hsym

end TokenParsing.Calculator
