import TokenParsing.Decimal.Shortest

/-!
# Arithmetic expressions

The tree of an arithmetic expression. Every node carries a place: the span of its tokens while they are being read,
the span of its characters in the text afterwards. What an expression means and how its tree is shown do not depend on
the places.
-/

namespace TokenParsing.Calculator

/-- The operations on two numbers. -/
inductive BinaryOp where
  | add
  | subtract
  | multiply
  | divide
  | power
  deriving DecidableEq, Repr

namespace BinaryOp

/-- The character that writes an operation. -/
def char : BinaryOp → Char
  | add => '+'
  | subtract => '-'
  | multiply => '*'
  | divide => '/'
  | power => '^'

/-- The result of an operation. -/
def apply : BinaryOp → Float → Float → Float
  | add, x, y => x + y
  | subtract, x, y => x - y
  | multiply, x, y => x * y
  | divide, x, y => x / y
  | power, x, y => x.pow y

end BinaryOp

/-- An arithmetic expression with a place of type `σ` at every node. -/
inductive Expr (σ : Type) where
  /-- A number. -/
  | number (value : Float) (place : σ)
  /-- An operation on two expressions. -/
  | binary (op : BinaryOp) (left right : Expr σ) (place : σ)
  /-- The negative of an expression. -/
  | negate (operand : Expr σ) (place : σ)
  /-- An expression in parentheses. -/
  | group (inner : Expr σ) (place : σ)
  deriving Repr

namespace Expr

variable {σ τ : Type}

/-- The place of an expression. -/
def place : Expr σ → σ
  | number _ p => p
  | binary _ _ _ p => p
  | negate _ p => p
  | group _ p => p

/-- The expression with other places. -/
def map (f : σ → τ) : Expr σ → Expr τ
  | number v p => number v (f p)
  | binary op l r p => binary op (l.map f) (r.map f) (f p)
  | negate e p => negate (e.map f) (f p)
  | group e p => group (e.map f) (f p)

/-- The expression without places. -/
def shape (e : Expr σ) : Expr Unit :=
  e.map fun _ => ()

/-- The value of an expression. -/
def evaluate : Expr σ → Float
  | number v _ => v
  | binary op l r _ => op.apply l.evaluate r.evaluate
  | negate e _ => -e.evaluate
  | group e _ => e.evaluate

/-- The nodes of an expression, each before its parts, with their depths below a given one. -/
def preorder (depth : Nat) : Expr σ → List (Nat × Expr σ)
  | number v p => [(depth, number v p)]
  | binary op l r p => (depth, binary op l r p) :: (l.preorder (depth + 1) ++ r.preorder (depth + 1))
  | negate e p => (depth, negate e p) :: e.preorder (depth + 1)
  | group e p => (depth, group e p) :: e.preorder (depth + 1)

/-- The name of a node in a shown tree. -/
def title : Expr σ → List Char
  | number v _ => "Number(".toList ++ (Decimal.render v).toList ++ [')']
  | binary op _ _ _ => "Binary(".toList ++ [op.char, ')']
  | negate _ _ => "Unary(-)".toList
  | group _ _ => "Group".toList

/-- A line of a shown tree, indented by two spaces for every level of depth. -/
def treeLine (depth : Nat) (title : List Char) : List Char :=
  List.replicate (2 * depth) ' ' ++ title ++ ['\n']

/-- The lines of a shown tree whose root has the given depth. -/
def treeLines (depth : Nat) : Expr σ → List (List Char)
  | number v p => [treeLine depth (number v p).title]
  | binary op l r p =>
    treeLine depth (binary op l r p).title :: (l.treeLines (depth + 1) ++ r.treeLines (depth + 1))
  | negate e p => treeLine depth (negate e p).title :: e.treeLines (depth + 1)
  | group e p => treeLine depth (group e p).title :: e.treeLines (depth + 1)

/-- The tree of an expression for a reader, one node to a line. -/
def tree (e : Expr σ) : String :=
  String.ofList (e.treeLines 0).flatten

@[simp] theorem place_map (f : σ → τ) (e : Expr σ) : (e.map f).place = f e.place := by
  cases e <;> rfl

theorem map_map {υ : Type} (f : σ → τ) (g : τ → υ) (e : Expr σ) : (e.map f).map g = e.map (g ∘ f) := by
  induction e with
  | number v p => rfl
  | binary op l r p hl hr => rw [map, map, hl, hr, map, Function.comp]
  | negate e p h => rw [map, map, h, map, Function.comp]
  | group e p h => rw [map, map, h, map, Function.comp]

@[simp] theorem shape_map (f : σ → τ) (e : Expr σ) : (e.map f).shape = e.shape := by
  induction e with
  | number v p => rfl
  | binary op l r p hl hr =>
    simp only [shape, map] at hl hr ⊢
    rw [hl, hr]
  | negate e p h =>
    simp only [shape, map] at h ⊢
    rw [h]
  | group e p h =>
    simp only [shape, map] at h ⊢
    rw [h]

/-- The value of an expression does not depend on the places. -/
@[simp] theorem evaluate_map (f : σ → τ) (e : Expr σ) : (e.map f).evaluate = e.evaluate := by
  induction e with
  | number v p => rfl
  | binary op l r p hl hr => simp [map, evaluate, hl, hr]
  | negate e p h => simp [map, evaluate, h]
  | group e p h => simp [map, evaluate, h]

/-- The shown tree of an expression does not depend on the places. -/
@[simp] theorem treeLines_map (f : σ → τ) (depth : Nat) (e : Expr σ) :
    (e.map f).treeLines depth = e.treeLines depth := by
  induction e generalizing depth with
  | number v p => rfl
  | binary op l r p hl hr =>
    simp only [map, treeLines, hl, hr]
    rfl
  | negate e p h =>
    simp only [map, treeLines, h]
    rfl
  | group e p h =>
    simp only [map, treeLines, h]
    rfl

end Expr

end TokenParsing.Calculator
