import TokenParsing.Proofs.Calculator.Reparse

/-!
# Putting an expression in the place of a number

When a number in a text is replaced by another text in parentheses, what is read is the first tree with the number
replaced by the group of the second, and so its value is that of the first tree with the value of the second put in for
the number. Three things make this so: parentheses break a text between any two words (`Scans.exists_parenthesized`), the
grammar admits a group wherever it admits a number (`WellShaped.substitute`), and the tokens of a tree are those of its
numbers with symbols between them, so that replacing a number replaces its token (`Expr.kinds_substitute`). Which of the
numbers of a tree a token wrote is told by its place (`Expr.spell_locate`).
-/

namespace TokenParsing.Calculator

open TokenParsing.Parser TokenParsing.TokenStream

variable {σ β : Type}

/-! ## Replacing the numbers of a tree -/

namespace Expr

/-- The tree with other trees in the place of its numbers, chosen by their values and places. -/
def substitute (f : Float → σ → Expr Unit) : Expr σ → Expr Unit
  | number v p => f v p
  | binary op l r _ => binary op (l.substitute f) (r.substitute f) ()
  | negate e _ => negate (e.substitute f) ()
  | group e _ => group (e.substitute f) ()

/-- The value of a tree with other values in the place of its numbers, chosen by their values and places. -/
def evaluateWith (f : Float → σ → Float) : Expr σ → Float
  | number v p => f v p
  | binary op l r _ => op.apply (l.evaluateWith f) (r.evaluateWith f)
  | negate e _ => -e.evaluateWith f
  | group e _ => e.evaluateWith f

/-- What is made of the numbers and symbols that write a tree, in order. -/
def spell (f : Float → σ → List β) (g : Symbol → List β) : Expr σ → List β
  | number v p => f v p
  | binary op l r _ => l.spell f g ++ (g op.symbol ++ r.spell f g)
  | negate e _ => g .minus ++ e.spell f g
  | group e _ => g .leftParen ++ (e.spell f g ++ g .rightParen)

/-- The numbers of a tree with their places, in order. -/
def numbers (e : Expr σ) : List (Float × σ) :=
  e.spell (fun v p => [(v, p)]) fun _ => []

theorem numbers_number (v : Float) (p : σ) : (number v p).numbers = [(v, p)] := rfl

theorem numbers_binary (op : BinaryOp) (l r : Expr σ) (p : σ) :
    (binary op l r p).numbers = l.numbers ++ r.numbers := rfl

theorem numbers_negate (e : Expr σ) (p : σ) : (negate e p).numbers = e.numbers := rfl

theorem numbers_group (e : Expr σ) (p : σ) : (group e p).numbers = e.numbers ++ [] := rfl

/-- The tree with another one in the place of the number at `p`. -/
def replace [DecidableEq σ] (e : Expr σ) (p : σ) (x : Expr Unit) : Expr Unit :=
  e.substitute fun v q => if q = p then x else number v ()

/-- The value of a tree with another value in the place of the number at `p`. -/
def evaluateAt [DecidableEq σ] (e : Expr σ) (p : σ) (y : Float) : Float :=
  e.evaluateWith fun v q => if q = p then y else v

/-- The value of a tree whose numbers are replaced is found from the values of what replaces them. -/
theorem evaluate_substitute (f : Float → σ → Expr Unit) (e : Expr σ) :
    (e.substitute f).evaluate = e.evaluateWith fun v p => (f v p).evaluate := by
  induction e with
  | number v p => rfl
  | binary op l r p hl hr => rw [substitute, evaluate, evaluateWith, hl, hr]
  | negate e p h => rw [substitute, evaluate, evaluateWith, h]
  | group e p h => rw [substitute, evaluate, evaluateWith, h]

/-- Replacing numbers replaces the tokens that write them, and no others. -/
theorem kinds_substitute (f : Float → σ → Expr Unit) (e : Expr σ) :
    (e.substitute f).kinds = e.spell (fun v p => (f v p).kinds) fun s => [.symbol s] := by
  induction e with
  | number v p => rfl
  | binary op l r p hl hr =>
    rw [substitute, kinds, spell, hl, hr]
    rfl
  | negate e p h =>
    rw [substitute, kinds, spell, h]
    rfl
  | group e p h =>
    rw [substitute, kinds, spell, h]
    rfl

@[simp] theorem evaluate_shape (e : Expr σ) : e.shape.evaluate = e.evaluate :=
  evaluate_map _ e

/-- Putting a tree in the place of a number evaluates as the number with the value of the tree. -/
theorem evaluate_replace [DecidableEq σ] (e : Expr σ) (p : σ) (x : Expr Unit) :
    (e.replace p x).evaluate = e.evaluateAt p x.evaluate := by
  have hvalue : (fun v q => (if q = p then x else number v ()).evaluate) =
      fun v q => if q = p then x.evaluate else v := by
    funext v q
    split
    · rfl
    · rfl
  unfold replace evaluateAt
  rw [evaluate_substitute, hvalue]

/-- The tokens of a tree with a number replaced are its own, with those of the replacement at the number. -/
theorem kinds_replace [DecidableEq σ] (e : Expr σ) (p : σ) (x : Expr Unit) :
    (e.replace p x).kinds = e.spell (fun v q => if q = p then x.kinds else [.number v]) fun s => [.symbol s] := by
  have hkinds : (fun v q => (if q = p then x else number v ()).kinds) =
      fun v q => if q = p then x.kinds else [.number v] := by
    funext v q
    split
    · rfl
    · rfl
  unfold replace
  rw [kinds_substitute, hkinds]

end Expr

/-- The grammar admits every atom where it admits a number. -/
theorem WellShaped.substitute {lvl : Level} {e : Expr σ} (h : WellShaped lvl e) {f : Float → σ → Expr Unit}
    (hf : ∀ v p, WellShaped .atom (f v p)) : WellShaped lvl (e.substitute f) := by
  induction h with
  | number v p => exact hf v p
  | group p _ ih => exact .group () ih
  | atom _ ih => exact .atom ih
  | raised p _ _ ihb ihx => exact .raised () ihb ihx
  | power _ ih => exact .power ih
  | negated p _ ih => exact .negated () ih
  | signed _ ih => exact .signed ih
  | product p ho _ _ ihl ihr => exact .product () ho ihl ihr
  | term _ ih => exact .term ih
  | total p ho _ _ ihl ihr => exact .total () ho ihl ihr

/-- An atom may stand wherever a number stands, at every level. -/
theorem WellShaped.replace [DecidableEq σ] {lvl : Level} {e : Expr σ} (h : WellShaped lvl e) (p : σ) {x : Expr Unit}
    (hx : WellShaped .atom x) : WellShaped lvl (e.replace p x) := by
  refine h.substitute ?_
  intro v q
  split
  · exact hx
  · exact .number v ()

/-! ## The numbers of a tree and the tokens that write them -/

/-- What is made of a token, by its kind, and its place if it is a number. -/
def Token.spell (f : Float → Span → List β) (g : Symbol → List β) (t : Token) : List β :=
  match t.kind with
  | .number v => f v t.span
  | .symbol s => g s

/-- A symbol is spelled as a symbol. -/
theorem Token.spell_symbol (f : Float → Span → List β) (g : Symbol → List β) {t : Token} {s : Symbol}
    (h : t.kind = .symbol s) : t.spell f g = g s := by
  unfold Token.spell
  rw [h]

/-- A function of places gives tokens, the first of which is token `i`, the spans that they have. -/
def Places (place : Span → Span) (i : Nat) (ts : List Token) : Prop :=
  ∀ j t, ts[j]? = some t → place (.single (i + j)) = t.span

section Places

variable {place : Span → Span} {i : Nat} {us ws : List Token} {t : Token}

/-- The places of a list are those of its beginning. -/
theorem Places.left (h : Places place i (us ++ ws)) : Places place i us := by
  intro j u hu
  refine h j u ?_
  rw [List.getElem?_append_left (List.getElem?_eq_some_iff.1 hu).1, hu]

/-- The places of its end are counted from behind the beginning. -/
theorem Places.right (h : Places place i (us ++ ws)) : Places place (i + us.length) ws := by
  intro j u hu
  rw [Nat.add_assoc]
  refine h (us.length + j) u ?_
  rw [List.getElem?_append_right (Nat.le_add_right _ _), Nat.add_sub_cancel_left, hu]

/-- The places behind the first token are counted from the second. -/
theorem Places.tail (h : Places place i (t :: ws)) : Places place (i + 1) ws := by
  have h' : Places place i ([t] ++ ws) := h
  exact h'.right

/-- The places of tokens in the text they are read from are their spans. -/
theorem Scans.places {i : Nat} {cs : List Char} {ts : List Token} (h : Scans [] i cs ts) (n : Nat) :
    Places (textSpan ts n) 0 ts := by
  intro j t ht
  rw [Nat.zero_add]
  exact h.textSpan_single ht

end Places

/-- What is made of the numbers and symbols of a tree is made of the tokens that write it, if the places of the tree are
given by the spans of these tokens. -/
theorem Expr.spell_locate (f : Float → Span → List β) (g : Symbol → List β) {place : Span → Span} {e : Expr σ}
    {window : List Token} {i : Nat} (hkinds : window.map Token.kind = e.kinds) (hplace : Places place i window) :
    ((e.locate i).map place).spell f g = window.flatMap (Token.spell f g) := by
  induction e generalizing window i with
  | number v p =>
    obtain ⟨t, rfl, hk⟩ := List.map_eq_singleton_iff.1 hkinds
    have hspan : place (.single i) = t.span := hplace 0 t rfl
    rw [locate, map, spell, hspan, List.flatMap_singleton, Token.spell, hk]
  | binary op l r p ihl ihr =>
    obtain ⟨wl, rest, rfl, hl, hrest⟩ := List.map_eq_append_iff.1 hkinds
    obtain ⟨t, wr, rfl, hk, hr⟩ := List.map_eq_cons_iff.1 hrest
    have hwidth : l.width = wl.length := width_eq_of_kinds hl
    rw [locate, map, spell, hwidth, ihl hl hplace.left, ihr hr hplace.right.tail, List.flatMap_append,
      List.flatMap_cons, Token.spell_symbol f g hk]
  | negate e p ih =>
    obtain ⟨t, we, rfl, hk, he⟩ := List.map_eq_cons_iff.1 hkinds
    rw [locate, map, spell, ih he hplace.tail, List.flatMap_cons, Token.spell_symbol f g hk]
  | group e p ih =>
    obtain ⟨t, rest, rfl, hk, hrest⟩ := List.map_eq_cons_iff.1 hkinds
    obtain ⟨we, last, rfl, he, hlast⟩ := List.map_eq_append_iff.1 hrest
    obtain ⟨u, rfl, hu⟩ := List.map_eq_singleton_iff.1 hlast
    rw [locate, map, spell, ih he hplace.tail.left, List.flatMap_cons, List.flatMap_append, List.flatMap_singleton,
      Token.spell_symbol f g hk, Token.spell_symbol f g hu]

/-! ## The number that a token wrote -/

section Alone

variable {us ws : List Token} {t : Token} {v : Float} {place : Span → Span} {e : Expr σ}

/-- A token that stands elsewhere is not replaced. -/
theorem Token.spell_of_span_ne {p : Span} {u : Token} (h : u.span ≠ p) (ks : List TokenKind) :
    u.spell (fun v q => if q = p then ks else [.number v]) (fun s => [.symbol s]) = [u.kind] := by
  obtain ⟨k, sp⟩ := u
  cases k with
  | number v => exact if_neg h
  | symbol s => rfl

/-- Tokens that all stand elsewhere are not replaced. -/
theorem flatMap_spell_of_span_ne {p : Span} {us : List Token} (h : ∀ u ∈ us, u.span ≠ p) (ks : List TokenKind) :
    us.flatMap (Token.spell (fun v q => if q = p then ks else [.number v]) fun s => [.symbol s]) =
      us.map Token.kind := by
  induction us with
  | nil => rfl
  | cons u us ih =>
    rw [List.flatMap_cons, List.map_cons, Token.spell_of_span_ne (h u List.mem_cons_self),
      ih fun w hw => h w (List.mem_cons_of_mem u hw)]
    rfl

/-- To replace the number that a token wrote is to replace this token, if no other token has its place. -/
theorem Expr.kinds_replace_locate (hkinds : (us ++ t :: ws).map Token.kind = e.kinds)
    (hplace : Places place 0 (us ++ t :: ws)) (ht : t.kind = .number v)
    (hother : ∀ u ∈ us ++ ws, u.span ≠ t.span) (x : Expr Unit) :
    (((e.locate 0).map place).replace t.span x).kinds = us.map Token.kind ++ (x.kinds ++ ws.map Token.kind) := by
  have hspell : t.spell (fun v q => if q = t.span then x.kinds else [.number v]) (fun s => [.symbol s]) = x.kinds := by
    unfold Token.spell
    rw [ht]
    exact if_pos rfl
  rw [kinds_replace, spell_locate _ _ hkinds hplace, List.flatMap_append, List.flatMap_cons, hspell,
    flatMap_spell_of_span_ne fun u hu => hother u (List.mem_append_left ws hu),
    flatMap_spell_of_span_ne fun u hu => hother u (List.mem_append_right us hu)]

/-- One number of a tree has the place of the token that wrote it, if no other token has this place. -/
theorem Expr.filter_numbers_locate (hkinds : (us ++ t :: ws).map Token.kind = e.kinds)
    (hplace : Places place 0 (us ++ t :: ws)) (ht : t.kind = .number v)
    (hother : ∀ u ∈ us ++ ws, u.span ≠ t.span) :
    (((e.locate 0).map place).numbers.filter fun n => n.2 = t.span) = [(v, t.span)] := by
  have hnone : ∀ {us : List Token}, (∀ u ∈ us, u.span ≠ t.span) →
      (us.flatMap (Token.spell (fun v p => [(v, p)]) fun _ => [])).filter (fun n => n.2 = t.span) = [] := by
    intro us hus
    rw [List.filter_eq_nil_iff]
    intro n hn
    obtain ⟨u, hu, hn⟩ := List.mem_flatMap.1 hn
    have hspan : n.2 = u.span := by
      obtain ⟨k, sp⟩ := u
      cases k with
      | number v => rw [List.mem_singleton.1 hn]
      | symbol s => nomatch hn
    simpa [hspan] using hus u hu
  have hspell : t.spell (fun v p => [(v, p)]) (fun _ => []) = [(v, t.span)] := by
    unfold Token.spell
    rw [ht]
  unfold numbers
  rw [spell_locate _ _ hkinds hplace, List.flatMap_append, List.flatMap_cons, hspell, List.filter_append,
    List.filter_append, hnone fun u hu => hother u (List.mem_append_left ws hu),
    hnone fun u hu => hother u (List.mem_append_right us hu)]
  simp

end Alone

/-! ## Parentheses in the place of a word -/

section Words

variable {rest a d b cs : List Char} {i : Nat} {us ws xs : List Token} {t : Token}

/-- A text has the tokens before one of its words from the characters before it, and those after it from the characters
after it. -/
theorem Scans.exists_around {ts : List Token} (h : Scans [] 0 (a ++ (d ++ b)) ts) (ht : t ∈ ts)
    (hspan : t.span = ⟨a.length, a.length + d.length⟩) :
    ∃ us ws, ts = us ++ t :: ws ∧ d ≠ [] ∧ Scans (d ++ b) 0 a us ∧ Scans [] (a.length + d.length) b ws := by
  obtain ⟨us, ws, rfl⟩ := List.append_of_mem ht
  obtain ⟨before, lex, after, hcs, hsplit, hk, hus, hws⟩ := h.exists_split
  rw [hspan, Nat.zero_add, Span.mk.injEq] at hsplit
  obtain ⟨hbefore, hlex⟩ := hsplit
  obtain ⟨rfl, hrest⟩ := List.append_inj hcs hbefore
  obtain ⟨rfl, rfl⟩ := List.append_inj hrest (by omega)
  rw [Nat.zero_add] at hws
  rw [List.append_nil] at hus
  exact ⟨us, ws, rfl, List.ne_nil_of_length_pos hk.length_pos, hus, hws⟩

/-- The tokens around a word stand elsewhere. -/
theorem Scans.span_ne (hus : Scans rest 0 a us) (hws : Scans [] (a.length + d.length) b ws) (hd : d ≠ []) :
    ∀ u ∈ us ++ ws, u.span ≠ ⟨a.length, a.length + d.length⟩ := by
  have hpos := List.length_pos_iff.2 hd
  intro u hu heq
  rcases List.mem_append.1 hu with hu | hu
  · have hbounds := hus.bounds hu
    rw [heq] at hbounds
    dsimp only at hbounds
    omega
  · have hbounds := hws.bounds hu
    rw [heq] at hbounds
    dsimp only at hbounds
    omega

/-- A text in parentheses between two others, whatever followed the first of these before, has the tokens of all three
and the parentheses. -/
theorem Scans.exists_parenthesized (hus : Scans rest 0 a us) (hxs : Scans [] 0 cs xs) (hws : Scans [] i b ws) :
    ∃ ts, Scans [] 0 (a ++ ('(' :: (cs ++ (')' :: b)))) ts ∧
      ts.map Token.kind = us.map Token.kind ++
        ((.symbol .leftParen :: (xs.map Token.kind ++ [.symbol .rightParen])) ++ ws.map Token.kind) := by
  obtain ⟨xs', hxs', hxmap⟩ := hxs.exists_at (0 + a.length + 1)
  obtain ⟨ws', hws', hwmap⟩ := hws.exists_at (0 + a.length + 1 + cs.length + 1)
  have hclose := Scans.token (.symbol .rightParen (b ++ [])) hws'
  have hinner := (hxs'.before (breaks_symbol .rightParen b)).append hclose
  have hopen := Scans.token (.symbol .leftParen (cs ++ (')' :: b) ++ [])) hinner
  refine ⟨_, (hus.of_rest.before (breaks_symbol .leftParen _)).append hopen, ?_⟩
  simp only [List.map_append, List.map_cons, hxmap, hwmap, List.append_assoc, List.cons_append, List.nil_append]

end Words

/-! ## Texts -/

/-- A number in a text can be replaced by any other text in parentheses, wherever it stands. The text is then read as the
first tree with the group of the second in the place of this number, which is one number of the tree and no other; so its
value is that of the first tree with the value of the second in the place of this number. -/
theorem parse_replace {a d b t : String} {tree inner : Expr Span} {v : Float} {r : Success Char (List Token)}
    (h : parse (a ++ d ++ b) = .ok tree) (htokens : tokens.parse (.ofText (a ++ d ++ b)) = .ok r)
    (hd : ⟨.number v, ⟨a.length, a.length + d.length⟩⟩ ∈ r.value) (ht : parse t = .ok inner) :
    (tree.numbers.filter fun n => n.2 = ⟨a.length, a.length + d.length⟩) =
        [(v, ⟨a.length, a.length + d.length⟩)] ∧
      ∃ whole, parse (a ++ "(" ++ t ++ ")" ++ b) = .ok whole ∧
        whole.shape = tree.replace ⟨a.length, a.length + d.length⟩ (.group inner.shape ()) ∧
        whole.evaluate = tree.evaluateAt ⟨a.length, a.length + d.length⟩ inner.evaluate := by
  obtain ⟨ts, e, hscans, hshape, hkinds, htree⟩ := parse_eq_ok_iff_kinds.1 h
  obtain ⟨xs, x, hxs, hxshape, hxkinds, rfl⟩ := parse_eq_ok_iff_kinds.1 ht
  have hts : tokens.parse (.ofText (a ++ d ++ b)) = .ok ⟨ts, (ofText (a ++ d ++ b)).advance _⟩ :=
    parse_tokens_eq_ok_iff.2 ⟨hscans, rfl⟩
  cases htokens.symm.trans hts
  have hplace := hscans.places (a ++ d ++ b).length
  -- from here on only this matters of how places in tokens become places in the text
  generalize textSpan ts (a ++ d ++ b).length = place at hplace htree
  subst htree
  have hlist : (a ++ d ++ b).toList = a.toList ++ (d.toList ++ b.toList) := by
    simp
  have hlist' : (a ++ "(" ++ t ++ ")" ++ b).toList = a.toList ++ '(' :: (t.toList ++ ')' :: b.toList) := by
    simp
  rw [hlist] at hscans
  obtain ⟨us, ws, rfl, hne, hus, hws⟩ := hscans.exists_around hd (by simp only [String.length_toList])
  have hother := hus.span_ne hws hne
  simp only [String.length_toList] at hother
  obtain ⟨ts', hts', hkinds'⟩ := hus.exists_parenthesized hxs hws
  rw [← hlist'] at hts'
  have hsum := ((hshape.locate 0).map place).replace ⟨a.length, a.length + d.length⟩ (.group () hxshape)
  have hreplaced : ts'.map Token.kind =
      (((e.locate 0).map place).replace ⟨a.length, a.length + d.length⟩ (.group x ())).kinds := by
    rw [hkinds', Expr.kinds_replace_locate hkinds hplace rfl hother, Expr.kinds, hxkinds]
  obtain ⟨whole, hwhole, hwholeShape⟩ := exists_parse_of_kinds hts' hsum hreplaced
  rw [← x.shape_map_locate (textSpan xs t.length) 0] at hwholeShape
  refine ⟨Expr.filter_numbers_locate hkinds hplace rfl hother, whole, hwhole, hwholeShape, ?_⟩
  rw [← Expr.evaluate_shape whole, hwholeShape, Expr.evaluate_replace, Expr.evaluate, Expr.evaluate_shape]

/-- An exponent is replaced by a sum, which in parentheses is still the exponent. -/
theorem parse_replace_of_exponent :
    ∃ whole, parse ("2 ^ " ++ "(" ++ "-(4) + 1" ++ ")" ++ " - 1") = .ok whole ∧
      whole.shape = .binary .subtract
        (.binary .power (.number (Decimal.nearest 2 1 0) ())
          (.group (.binary .add (.negate (.group (.number (Decimal.nearest 4 1 0) ()) ()) ())
            (.number (Decimal.nearest 1 1 0) ()) ()) ()) ())
        (.number (Decimal.nearest 1 1 0) ()) () ∧
      whole.evaluate =
        (Decimal.nearest 2 1 0).pow (-Decimal.nearest 4 1 0 + Decimal.nearest 1 1 0) - Decimal.nearest 1 1 0 := by
  have h : parse ("2 ^ " ++ "3" ++ " - 1") =
      .ok (.binary .subtract
        (.binary .power (.number (Decimal.nearest 2 1 0) ⟨0, 1⟩) (.number (Decimal.nearest 3 1 0) ⟨4, 5⟩) ⟨0, 5⟩)
        (.number (Decimal.nearest 1 1 0) ⟨8, 9⟩) ⟨0, 9⟩) := rfl
  have htokens : tokens.parse (.ofText ("2 ^ " ++ "3" ++ " - 1")) =
      .ok ⟨[⟨.number (Decimal.nearest 2 1 0), ⟨0, 1⟩⟩, ⟨.symbol .power, ⟨2, 3⟩⟩,
        ⟨.number (Decimal.nearest 3 1 0), ⟨4, 5⟩⟩, ⟨.symbol .minus, ⟨6, 7⟩⟩,
        ⟨.number (Decimal.nearest 1 1 0), ⟨8, 9⟩⟩], (ofText "2 ^ 3 - 1").advance 9⟩ := rfl
  have ht : parse "-(4) + 1" =
      .ok (.binary .add (.negate (.group (.number (Decimal.nearest 4 1 0) ⟨2, 3⟩) ⟨1, 4⟩) ⟨0, 4⟩)
        (.number (Decimal.nearest 1 1 0) ⟨7, 8⟩) ⟨0, 8⟩) := rfl
  obtain ⟨-, whole, hwhole, hshape, hvalue⟩ := parse_replace h htokens (.tail _ (.tail _ (.head _))) ht
  exact ⟨whole, hwhole, hshape, hvalue⟩

end TokenParsing.Calculator
