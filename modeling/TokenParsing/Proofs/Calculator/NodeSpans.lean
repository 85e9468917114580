import TokenParsing.Proofs.Calculator.FirstWrongToken
import TokenParsing.Proofs.Calculator.Reparse

/-!
# The places of nodes

Every node of an expression that is read has as its place exactly the tokens it is made of (`Expr.Exact`): its own
symbols, the places of its parts, and nothing else. It follows that parts lie within their node and operands stand one
after the other (`Expr.BuiltFrom.nested`). Places in characters go from the first character of the first token to the
last of the last one (`Scans.exists_textSpan`), and as the tokens of a text are in order, what is nested in tokens is
nested in characters.
-/

namespace TokenParsing

theorem Span.contains_iff {s t : Span} : s.contains t = true ↔ s.start ≤ t.start ∧ t.stop ≤ s.stop := by
  rw [contains, Bool.and_eq_true, decide_eq_true_eq, decide_eq_true_eq]

namespace Calculator

open TokenParsing.Parser TokenParsing.TokenStream

variable {σ τ : Type} {x : Expr Span} {ks : List TokenKind} {s s' : TokenStream Token}

/-! ## Places in tokens -/

/-- A node stands at its own symbols, among tokens of the given kinds, and at the places of its parts next to them: a
number at its own token, an operation from its left operand over its symbol to its right operand, a negative from its
sign to its operand, and a group from the one parenthesis to the other. -/
def Expr.BuiltFrom (ks : List TokenKind) : Expr Span → Prop
  | number v p => ∃ i, p = .single i ∧ ks[i]? = some (.number v)
  | binary op l r p =>
    p = ⟨l.place.start, r.place.stop⟩ ∧ ks[l.place.stop]? = some (.symbol op.symbol) ∧
      r.place.start = l.place.stop + 1
  | negate e p => ks[p.start]? = some (.symbol .minus) ∧ e.place = ⟨p.start + 1, p.stop⟩
  | group e p =>
    ks[p.start]? = some (.symbol .leftParen) ∧ e.place.start = p.start + 1 ∧
      ks[e.place.stop]? = some (.symbol .rightParen) ∧ p.stop = e.place.stop + 1

/-- The place of a node is exactly the tokens, among those of the given kinds, that the node is made of. -/
structure Expr.Exact (ks : List TokenKind) (x : Expr Span) : Prop where
  /-- The node stands at its own symbols and around its parts. -/
  builtFrom : x.BuiltFrom ks
  /-- There is a token at the place. -/
  nonempty : x.place.start < x.place.stop
  /-- The place has tokens up to its end. -/
  within : x.place.stop ≤ ks.length
  /-- The tokens at the place are those that write the node. -/
  kinds : (ks.drop x.place.start).take x.place.length = x.kinds

/-- The parts of a node lie within it, and one after the other. -/
structure Expr.Nested (x : Expr Span) : Prop where
  within : ∀ y ∈ x.parts, x.place.contains y.place = true
  ordered : x.parts.Pairwise fun y z => y.place.stop ≤ z.place.start

theorem Next.getElem?_allKinds {k : TokenKind} (h : Next k s) : (allKinds s)[s.position]? = some k := by
  rw [Calculator.getElem?_allKinds]
  exact h

/-- A spelled node is built from the tokens that spell it. -/
theorem Spells.builtFrom (h : Spells x s s') : x.BuiltFrom (allKinds s) := by
  cases x with
  | number v p =>
    obtain ⟨hn, -, rfl⟩ := h
    exact ⟨s.position, rfl, hn.getElem?_allKinds⟩
  | binary op l r p =>
    obtain ⟨s₁, hl, hn, hr, rfl⟩ := h
    rw [Expr.BuiltFrom, hl.place_eq, hr.place_eq, ← hl.allKinds_eq]
    exact ⟨rfl, hn.getElem?_allKinds, hn.position_advance⟩
  | negate e p =>
    obtain ⟨hn, he, rfl⟩ := h
    rw [Expr.BuiltFrom, he.place_eq]
    exact ⟨hn.getElem?_allKinds, by rw [hn.position_advance]⟩
  | group e p =>
    obtain ⟨hn, s₁, he, hc, rfl, rfl⟩ := h
    have hclosed : (allKinds s)[s₁.position]? = some (.symbol .rightParen) := by
      rw [← allKinds_advance s 1, ← he.allKinds_eq]
      exact hc.getElem?_allKinds
    rw [Expr.BuiltFrom, he.place_eq]
    exact ⟨hn.getElem?_allKinds, hn.position_advance, hclosed, hc.position_advance⟩

/-- A spelled node has exactly its tokens. -/
theorem Spells.exact (h : Spells x s s') : x.Exact (allKinds s) := by
  have hplace := h.place_eq
  have hlength : x.place.length = x.width := by
    rw [hplace, h.position_eq, Span.length, Nat.add_sub_cancel_left]
  obtain ⟨-, -, hkinds⟩ := h.located
  refine ⟨h.builtFrom, ?_, ?_, ?_⟩
  · rw [hplace, h.position_eq]
    exact Nat.lt_add_of_pos_right x.width_pos
  · rw [hplace, ← h.allKinds_eq]
    exact position_le_length_allKinds s'
  · rw [hlength, hplace, ← ahead_eq_drop, hkinds]
    exact List.take_left

/-- A node spelled in a buffer has exactly its tokens of all that are in the buffer. -/
theorem Spells.exact_of_buffer_eq {s₁ s₂ : TokenStream Token} (h : Spells x s₁ s₂) (hbuffer : s₁.buffer = s.buffer) :
    x.Exact (allKinds s) := by
  rw [allKinds, ← hbuffer]
  exact h.exact

/-- The parts of a node lie within it and one after the other, as long as each of them has a token. -/
theorem Expr.BuiltFrom.nested (h : x.BuiltFrom ks) (hparts : ∀ y ∈ x.parts, y.place.start < y.place.stop) :
    x.Nested := by
  cases x with
  | number v p =>
    refine ⟨fun y hy => ?_, .nil⟩
    cases hy
  | binary op l r p =>
    obtain ⟨rfl, -, hright⟩ := h
    have hl := hparts l List.mem_cons_self
    have hr := hparts r (List.mem_cons_of_mem l List.mem_cons_self)
    refine ⟨fun y hy => ?_, ?_⟩
    · rw [Span.contains_iff, place]
      rcases List.mem_cons.1 hy with rfl | hy
      · exact ⟨Nat.le_refl _, by dsimp only; omega⟩
      · rw [List.mem_singleton.1 hy]
        exact ⟨by dsimp only; omega, Nat.le_refl _⟩
    · refine List.pairwise_pair.2 ?_
      omega
  | negate e p =>
    obtain ⟨-, hplace⟩ := h
    refine ⟨fun y hy => ?_, List.pairwise_singleton _ _⟩
    rw [List.mem_singleton.1 hy, hplace, Span.contains_iff, place]
    exact ⟨Nat.le_succ _, Nat.le_refl _⟩
  | group e p =>
    obtain ⟨-, hstart, -, hstop⟩ := h
    refine ⟨fun y hy => ?_, List.pairwise_singleton _ _⟩
    rw [List.mem_singleton.1 hy, Span.contains_iff, place]
    omega

/-- The parts of a spelled node are nested in it. -/
theorem Spells.nested (h : Spells x s s') : x.Nested := by
  refine h.builtFrom.nested fun y hy => ?_
  obtain ⟨s₁, s₂, hspell, -⟩ := h.of_mem_parts hy
  exact hspell.exact.nonempty

/-! ## Places in characters -/

variable {i : Nat} {cs : List Char} {ts : List Token}

/-- A node has the characters from the first of its first token to the last of its last one. -/
theorem Scans.exists_textSpan (h : Scans [] i cs ts) (hx : x.Exact (allKinds (.ofList ts))) (n : Nat) :
    ∃ first last, ts[x.place.start]? = some first ∧ ts[x.place.stop - 1]? = some last ∧
      textSpan ts n x.place = ⟨first.span.start, last.span.stop⟩ := by
  obtain ⟨-, hnonempty, hwithin, -⟩ := hx
  rw [allKinds, List.length_map] at hwithin
  generalize x.place = sp at hnonempty hwithin ⊢
  obtain ⟨a, b⟩ := sp
  obtain ⟨b, rfl⟩ := Nat.exists_eq_add_one_of_ne_zero (Nat.ne_zero_of_lt hnonempty)
  have hb : b < ts.length := hwithin
  have hab : a ≤ b := Nat.le_of_lt_succ hnonempty
  have hfirst := List.getElem?_eq_getElem (Nat.lt_of_le_of_lt hab hb)
  have hlast := List.getElem?_eq_getElem hb
  exact ⟨_, _, hfirst, hlast, h.textSpan_eq hfirst hlast hab⟩

theorem Expr.parts_map (f : σ → τ) (e : Expr σ) : (e.map f).parts = e.parts.map (Expr.map f) := by
  cases e <;> rfl

/-- What is nested in tokens is nested in characters. -/
theorem Expr.Nested.map (h : x.Nested) (hscans : Scans [] i cs ts) (hx : x.Exact (allKinds (.ofList ts)))
    (hparts : ∀ y ∈ x.parts, y.Exact (allKinds (.ofList ts))) (n : Nat) : (x.map (textSpan ts n)).Nested where
  within := by
    intro y' hy'
    rw [parts_map, List.mem_map] at hy'
    obtain ⟨y, hy, rfl⟩ := hy'
    obtain ⟨first, last, hfirst, hlast, hplace⟩ := hscans.exists_textSpan hx n
    obtain ⟨first', last', hfirst', hlast', hplace'⟩ := hscans.exists_textSpan (hparts y hy) n
    obtain ⟨hstart, hstop⟩ := Span.contains_iff.1 (h.within y hy)
    rw [place_map, place_map, hplace, hplace', Span.contains_iff]
    exact ⟨(hscans.span_le hfirst hfirst' hstart).1, (hscans.span_le hlast' hlast (Nat.sub_le_sub_right hstop 1)).2⟩
  ordered := by
    rw [parts_map, List.pairwise_map]
    refine h.ordered.imp_of_mem fun {y z} hy hz hle => ?_
    obtain ⟨first, last, hfirst, hlast, hplace⟩ := hscans.exists_textSpan (hparts y hy) n
    obtain ⟨first', last', hfirst', hlast', hplace'⟩ := hscans.exists_textSpan (hparts z hz) n
    have hnonempty := (hparts y hy).nonempty
    rw [place_map, place_map, hplace, hplace']
    exact hscans.stop_le_start hlast hfirst' (by omega)

/-! ## Every node -/

/-- Every node of an expression that is read off a stream has as its place exactly the tokens it is made of, counted
from the start of the buffer, with its parts nested in it; and the whole expression has all the tokens from where it was
read to where reading stopped. In the expression of a text, every node has the characters from the first of its first
token to the last of its last one, and its parts are nested in it too. -/
theorem exact_of_mem_preorder :
    (∀ s r, Calculator.expression.parse s = .ok r →
      r.value.place = ⟨s.position, r.remaining.position⟩ ∧
        ∀ d x, (d, x) ∈ r.value.preorder 0 → x.Exact (allKinds s) ∧ x.Nested) ∧
      ∀ text tree, parse text = .ok tree →
        ∃ scanned r, tokens.parse (.ofText text) = .ok scanned ∧
          Calculator.expression.parse (.ofList scanned.value) = .ok r ∧
          tree = r.value.map (textSpan scanned.value text.length) ∧
          (∀ d x, (d, x) ∈ r.value.preorder 0 →
            ∃ first last, scanned.value[x.place.start]? = some first ∧ scanned.value[x.place.stop - 1]? = some last ∧
              textSpan scanned.value text.length x.place = ⟨first.span.start, last.span.stop⟩) ∧
          ∀ d x, (d, x) ∈ tree.preorder 0 → x.Nested := by
  constructor
  · rintro s ⟨e, s'⟩ hr
    have hspell := ((parse_expression_eq_ok_iff s e s').1 hr).spelled
    refine ⟨hspell.place_eq, fun d x hx => ?_⟩
    obtain ⟨s₁, s₂, hspell', hbuffer⟩ := hspell.of_mem_preorder hx
    exact ⟨hspell'.exact_of_buffer_eq hbuffer, hspell'.nested⟩
  · intro text tree h
    obtain ⟨ts, e, s', hscans, hshape, hspell, hnil, rfl⟩ := parse_eq_ok_iff.1 h
    have htokens : tokens.parse (.ofText text) = .ok ⟨ts, (ofText text).advance text.toList.length⟩ :=
      parse_tokens_eq_ok_iff.2 ⟨hscans, rfl⟩
    obtain ⟨r, r₂, hr, -, heq⟩ := parse_keepLeft_eq_ok_iff.1 (parse_whole_eq_ok_iff.2 ⟨hshape, hspell, hnil⟩)
    obtain ⟨rfl, -⟩ := Success.mk.inj heq
    refine ⟨_, r, htokens, hr, rfl, fun d x hx => ?_, fun d x hx => ?_⟩
    · obtain ⟨s₁, s₂, hspell', hbuffer⟩ := hspell.of_mem_preorder hx
      exact hscans.exists_textSpan (hspell'.exact_of_buffer_eq hbuffer) text.length
    · rw [Expr.preorder_map, List.mem_map] at hx
      obtain ⟨⟨d', x'⟩, hx', heq'⟩ := hx
      cases heq'
      obtain ⟨s₁, s₂, hspell', hbuffer⟩ := hspell.of_mem_preorder hx'
      refine hspell'.nested.map hscans (hspell'.exact_of_buffer_eq hbuffer) (fun y hy => ?_) text.length
      obtain ⟨s₃, s₄, hspell'', hbuffer'⟩ := hspell'.of_mem_parts hy
      exact hspell''.exact_of_buffer_eq (hbuffer'.trans hbuffer)

/-- A group under a sign: among tokens that do not start with it, and in a text that does not. -/
theorem exact_of_mem_preorder_of_negated_group :
    (Expr.group (.number 2 ⟨3, 4⟩) ⟨2, 5⟩).Exact
        [.symbol .rightParen, .symbol .minus, .symbol .leftParen, .number 2, .symbol .rightParen] ∧
      (Expr.negate (.group (.number (Decimal.nearest 2 1 0) ⟨6, 7⟩) ⟨5, 8⟩) ⟨4, 8⟩).Nested := by
  obtain ⟨hexact, hnested⟩ := exact_of_mem_preorder
  constructor
  · let s : TokenStream Token := ⟨#[⟨.symbol .rightParen, ⟨0, 1⟩⟩, ⟨.symbol .minus, ⟨1, 2⟩⟩,
      ⟨.symbol .leftParen, ⟨2, 3⟩⟩, ⟨.number 2, ⟨3, 4⟩⟩, ⟨.symbol .rightParen, ⟨4, 5⟩⟩], 1, by decide⟩
    have h : Calculator.expression.parse s =
        .ok ⟨.negate (.group (.number 2 ⟨3, 4⟩) ⟨2, 5⟩) ⟨1, 5⟩, s.advance 4⟩ := rfl
    exact ((hexact _ _ h).2 1 _ (.tail _ (.head _))).1
  · have h : parse "1 + -(2)" =
        .ok (.binary .add (.number (Decimal.nearest 1 1 0) ⟨0, 1⟩)
          (.negate (.group (.number (Decimal.nearest 2 1 0) ⟨6, 7⟩) ⟨5, 8⟩) ⟨4, 8⟩) ⟨0, 8⟩) := rfl
    obtain ⟨scanned, r, -, -, -, -, hall⟩ := hnested _ _ h
    exact hall 1 _ (.tail _ (.tail _ (.head _)))

end Calculator

end TokenParsing
