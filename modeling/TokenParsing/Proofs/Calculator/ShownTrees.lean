import TokenParsing.Proofs.Calculator.Substitution
import TokenParsing.Proofs.Decimal.RoundTrip

/-!
# Shown trees

The tree shown of an expression has a line for every node, in preorder, indented by its depth (`splitOn_tree`). It tells
the expression but for the places: a line tells what its node is and so how many parts it has, and where the lines of the
first part end, those of the second begin (`shape_eq_of_lines`). Different numbers have different texts.
-/

namespace TokenParsing.Calculator

variable {σ τ : Type}

/-- Every operation has a character of its own. -/
theorem BinaryOp.char_inj {op op' : BinaryOp} (h : op.char = op'.char) : op = op' := by
  cases op <;> cases op' <;> first | rfl | cases h

namespace Expr

/-! ## Lines -/

/-- The line that shows a node at a depth. -/
def shownLine (n : Nat × Expr σ) : List Char :=
  List.replicate (2 * n.1) ' ' ++ n.2.title

theorem title_number (v : Float) (p : σ) :
    (number v p).title = ['N', 'u', 'm', 'b', 'e', 'r', '('] ++ ((Decimal.render v).toList ++ [')']) := rfl

theorem title_binary (op : BinaryOp) (l r : Expr σ) (p : σ) :
    (binary op l r p).title = ['B', 'i', 'n', 'a', 'r', 'y', '('] ++ [op.char, ')'] := rfl

theorem title_negate (e : Expr σ) (p : σ) : (negate e p).title = ['U', 'n', 'a', 'r', 'y', '(', '-', ')'] := rfl

theorem title_group (e : Expr σ) (p : σ) : (group e p).title = ['G', 'r', 'o', 'u', 'p'] := rfl

/-- The first letter of the name of a node. -/
def initial : Expr σ → Char
  | number _ _ => 'N'
  | binary _ _ _ _ => 'B'
  | negate _ _ => 'U'
  | group _ _ => 'G'

/-- The name of a node starts with the letter of its kind. -/
theorem head?_title (e : Expr σ) : e.title.head? = some e.initial := by
  cases e <;> rfl

/-- The lines of a shown tree are those of its nodes. -/
theorem treeLines_eq (depth : Nat) (e : Expr σ) :
    e.treeLines depth = ((e.preorder depth).map shownLine).map (· ++ ['\n']) := by
  induction e generalizing depth with
  | number v p => rfl
  | binary op l r p hl hr =>
    rw [treeLines, preorder, hl, hr, List.map_cons, List.map_cons, List.map_append, List.map_append]
    rfl
  | negate e p h =>
    rw [treeLines, preorder, h, List.map_cons, List.map_cons]
    rfl
  | group e p h =>
    rw [treeLines, preorder, h, List.map_cons, List.map_cons]
    rfl

/-- A name has no newline in it. -/
theorem newline_not_mem_title (e : Expr σ) : '\n' ∉ e.title := by
  cases e with
  | number v p =>
    have hnumber := Decimal.newline_not_mem_render v
    simp [title_number, hnumber]
  | binary op l r p => cases op <;> simp [title_binary, BinaryOp.char]
  | negate e p => simp [title_negate]
  | group e p => simp [title_group]

/-- Nor has a line. -/
theorem newline_not_mem_shownLine (n : Nat × Expr σ) : '\n' ∉ shownLine n := by
  rw [shownLine, List.mem_append]
  rintro (hspace | htitle)
  · cases List.eq_of_mem_replicate hspace
  · exact newline_not_mem_title n.2 htitle

/-- The spaces before the name of a node are all of its indentation: no name starts with one. -/
theorem takeWhile_shownLine (n : Nat × Expr σ) :
    (shownLine n).takeWhile (· = ' ') = List.replicate (2 * n.1) ' ' := by
  have hstop : StopsAt (· = ' ') n.2.title := by
    intro c hc
    rw [head?_title, Option.some.injEq] at hc
    subst hc
    cases n.2 <;> rfl
  refine takeWhile_append_of_stopsAt ?_ hstop
  intro c hc
  rw [List.eq_of_mem_replicate hc]
  rfl

end Expr

/-- Lines ended by newlines are the pieces of their text between the newlines, but for the empty one at the end. -/
theorem splitOn_flatten_lines {ls : List (List Char)} (h : ∀ l ∈ ls, '\n' ∉ l) :
    (ls.map (· ++ ['\n'])).flatten.splitOn '\n' = ls ++ [[]] := by
  induction ls with
  | nil => rw [List.map_nil, List.flatten_nil, List.splitOn_nil, List.nil_append]
  | cons l ls ih =>
    have hrest := ih fun l' hl' => h l' (List.mem_cons_of_mem l hl')
    rw [List.map_cons, List.flatten_cons, List.append_assoc, List.singleton_append,
      List.splitOn_append_cons_self_of_not_mem (h l List.mem_cons_self), hrest, List.cons_append]

namespace Expr

/-- The text of a tree is one line for each node, in preorder. -/
theorem splitOn_tree (e : Expr σ) : e.tree.toList.splitOn '\n' = (e.preorder 0).map shownLine ++ [[]] := by
  rw [tree, String.toList_ofList, treeLines_eq, splitOn_flatten_lines]
  intro l hl
  obtain ⟨n, -, rfl⟩ := List.mem_map.1 hl
  exact newline_not_mem_shownLine n

/-! ## Reading the lines back -/

theorem shape_binary (op : BinaryOp) (l r : Expr σ) (p : σ) :
    (binary op l r p).shape = binary op l.shape r.shape () := rfl

theorem shape_negate (e : Expr σ) (p : σ) : (negate e p).shape = negate e.shape () := rfl

theorem shape_group (e : Expr σ) (p : σ) : (group e p).shape = group e.shape () := rfl

/-- The lines of an expression are its own and those of its parts. -/
theorem preorder_eq_cons (depth : Nat) (e : Expr σ) :
    e.preorder depth = (depth, e) :: e.parts.flatMap (preorder (depth + 1)) := by
  cases e <;> simp [preorder, parts]

/-- Lines that are the same start with the same name, behind which come the lines of the parts. -/
theorem title_eq_of_lines {depth : Nat} {e : Expr σ} {e' : Expr τ} {rest rest' : List (List Char)}
    (h : (e.preorder depth).map shownLine ++ rest = (e'.preorder depth).map shownLine ++ rest') :
    e.title = e'.title ∧
      (e.parts.flatMap (preorder (depth + 1))).map shownLine ++ rest =
        (e'.parts.flatMap (preorder (depth + 1))).map shownLine ++ rest' := by
  rw [preorder_eq_cons, preorder_eq_cons depth e', List.map_cons, List.map_cons, List.cons_append, List.cons_append]
    at h
  obtain ⟨hline, hrest⟩ := List.cons.inj h
  exact ⟨List.append_cancel_left hline, hrest⟩

/-- Nodes of the same name are of the same kind. -/
theorem initial_eq_of_title {e : Expr σ} {e' : Expr τ} (h : e.title = e'.title) : e.initial = e'.initial := by
  rw [← Option.some.injEq, ← head?_title, h, head?_title]

/-- Numbers of the same name are the same, unless they are not-a-number. -/
theorem title_number_inj {v w : Float} {p : σ} {q : τ} (hv : v.isNaN = false) (hw : w.isNaN = false)
    (h : (number v p).title = (number w q).title) : v = w := by
  rw [title_number, title_number] at h
  have htext := List.append_cancel_right (List.append_cancel_left h)
  exact Decimal.render_inj hv hw (String.toList_inj.1 htext)

/-- Operations of the same name are the same. -/
theorem title_binary_inj {op op' : BinaryOp} {l r : Expr σ} {l' r' : Expr τ} {p : σ} {q : τ}
    (h : (binary op l r p).title = (binary op' l' r' q).title) : op = op' := by
  rw [title_binary, title_binary] at h
  exact BinaryOp.char_inj (List.cons.inj (List.append_cancel_left h)).1

/-- The lines of two trees, whatever follows them, tell the trees. -/
theorem shape_eq_of_lines {e : Expr σ} {e' : Expr τ} (he : ∀ n ∈ e.numbers, n.1.isNaN = false)
    (he' : ∀ n ∈ e'.numbers, n.1.isNaN = false) {depth : Nat} {rest rest' : List (List Char)}
    (h : (e.preorder depth).map shownLine ++ rest = (e'.preorder depth).map shownLine ++ rest') :
    e.shape = e'.shape ∧ rest = rest' := by
  induction e generalizing e' depth rest rest' with
  | number v p =>
    obtain ⟨htitle, hparts⟩ := title_eq_of_lines h
    have hinitial := initial_eq_of_title htitle
    cases e' with
    | number w q =>
      rw [numbers_number, List.forall_mem_singleton] at he he'
      have hvalue : v = w := title_number_inj he he' htitle
      rw [hvalue]
      exact ⟨rfl, hparts⟩
    | binary | negate | group => cases hinitial
  | binary op l r p ihl ihr =>
    obtain ⟨htitle, hparts⟩ := title_eq_of_lines h
    have hinitial := initial_eq_of_title htitle
    cases e' with
    | binary op' l' r' q =>
      simp only [parts, List.flatMap_cons, List.flatMap_nil, List.append_nil, List.map_append, List.append_assoc]
        at hparts
      rw [numbers_binary, List.forall_mem_append] at he he'
      -- the lines of the right parts follow those of the left parts
      obtain ⟨hl, hright⟩ := ihl he.1 he'.1 hparts
      obtain ⟨hr, hrest⟩ := ihr he.2 he'.2 hright
      rw [shape_binary, shape_binary, title_binary_inj htitle, hl, hr]
      exact ⟨rfl, hrest⟩
    | number | negate | group => cases hinitial
  | negate e p ih =>
    obtain ⟨htitle, hparts⟩ := title_eq_of_lines h
    have hinitial := initial_eq_of_title htitle
    cases e' with
    | negate e' q =>
      simp only [parts, List.flatMap_cons, List.flatMap_nil, List.append_nil] at hparts
      rw [numbers_negate] at he he'
      obtain ⟨hoperand, hrest⟩ := ih he he' hparts
      rw [shape_negate, shape_negate, hoperand]
      exact ⟨rfl, hrest⟩
    | number | binary | group => cases hinitial
  | group e p ih =>
    obtain ⟨htitle, hparts⟩ := title_eq_of_lines h
    have hinitial := initial_eq_of_title htitle
    cases e' with
    | group e' q =>
      simp only [parts, List.flatMap_cons, List.flatMap_nil, List.append_nil] at hparts
      rw [numbers_group, List.append_nil] at he he'
      obtain ⟨hinner, hrest⟩ := ih he he' hparts
      rw [shape_group, shape_group, hinner]
      exact ⟨rfl, hrest⟩
    | number | binary | negate => cases hinitial

/-- The shown tree of an expression is one line for each node, in preorder, each behind two spaces for every level of
depth and ended by a newline. Where no number is not-a-number, expressions are shown alike exactly when they differ in
their places only. -/
theorem tree_faithful (e : Expr σ) :
    e.tree.toList.splitOn '\n' = (e.preorder 0).map shownLine ++ [[]] ∧
    (∀ n ∈ e.preorder 0, (shownLine n).takeWhile (· = ' ') = List.replicate (2 * n.1) ' ') ∧
    ∀ e' : Expr τ, (∀ n ∈ e.numbers, n.1.isNaN = false) → (∀ n ∈ e'.numbers, n.1.isNaN = false) →
      (e.tree = e'.tree ↔ e.shape = e'.shape) := by
  refine ⟨splitOn_tree e, fun n _ => takeWhile_shownLine n, fun e' he he' => ?_⟩
  constructor
  · intro htree
    have hlines : (e.preorder 0).map shownLine ++ [[]] = (e'.preorder 0).map shownLine ++ [[]] := by
      rw [← splitOn_tree, ← splitOn_tree, htree]
    exact (shape_eq_of_lines he he' hlines).1
  · intro hshape
    have hlines : e.shape.treeLines 0 = e'.shape.treeLines 0 := by rw [hshape]
    rw [shape, shape, treeLines_map, treeLines_map] at hlines
    rw [tree, tree, hlines]

/-- The negative of a group is not shown as the group of a negative number, but as it is anywhere else. -/
theorem tree_faithful_of_negated_group :
    let e : Expr Span := negate (group (number 2 ⟨2, 3⟩) ⟨1, 4⟩) ⟨0, 4⟩
    let e' : Expr Span := group (negate (number 2 ⟨2, 3⟩) ⟨1, 3⟩) ⟨0, 4⟩
    e.tree ≠ e'.tree ∧ e.tree = e.shape.tree := by
  intro e e'
  have hnumber : (2 : Float).isNaN = false := by rfl
  have he : ∀ n ∈ e.numbers, n.1.isNaN = false := by
    intro n hn
    have htwo : n = (2, ⟨2, 3⟩) := List.mem_singleton.1 hn
    rw [htwo]
    exact hnumber
  have he' : ∀ n ∈ e'.numbers, n.1.isNaN = false := he
  have hshape : ∀ n ∈ e.shape.numbers, n.1.isNaN = false := by
    intro n hn
    have htwo : n = (2, ()) := List.mem_singleton.1 hn
    rw [htwo]
    exact hnumber
  obtain ⟨-, -, hdifferent⟩ := tree_faithful (τ := Span) e
  obtain ⟨-, -, halike⟩ := tree_faithful (τ := Unit) e
  refine ⟨fun htree => ?_, (halike e.shape he hshape).2 (shape_map _ e).symm⟩
  have hsame := (hdifferent e' he he').1 htree
  cases hsame

end Expr

end TokenParsing.Calculator
