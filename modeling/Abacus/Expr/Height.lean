import Abacus.Expr.Basic
/-!
# The height of a tree

`height` is the number of nodes on the longest path down.  `depth` computes it with a stack of nodes still
to visit, each with its level, and no recursion on the tree: the stack holds as much as the tree, whatever
its shape.
-/
namespace Abacus.Expr

mutual
def height : Expr → Nat
  | .signed _ x   => x.height + 1
  | .binary _ l r => max l.height r.height + 1
  | .call _ args  => heights args + 1
  | _             => 1

def heights : List Expr → Nat
  | []      => 0
  | x :: xs => max x.height (heights xs)
end

mutual
def size : Expr → Nat
  | .signed _ x   => x.size + 1
  | .binary _ l r => l.size + r.size + 1
  | .call _ args  => sizes args + 1
  | _             => 1

def sizes : List Expr → Nat
  | []      => 0
  | x :: xs => x.size + sizes xs
end

theorem sizes_append (xs ys : List Expr) : sizes (xs ++ ys) = sizes xs + sizes ys := by
  induction xs with
  | nil => simp [sizes]
  | cons x xs ih => simp [sizes, ih, Nat.add_assoc]

theorem size_eq_sizes_children (e : Expr) : e.size = sizes e.children + 1 := by
  cases e <;> simp [size, children, sizes]

/-- Visits the nodes on the stack, keeping the deepest level met. -/
def deepest : List (Expr × Nat) → Nat → Nat
  | [], best                  => best
  | (e, level) :: stack, best =>
    deepest ((e.children.map fun child => (child, level + 1)) ++ stack) (max best level)
termination_by stack => sizes (stack.map Prod.fst)
decreasing_by
  simp [sizes_append, sizes, size_eq_sizes_children e]
  simp [Function.comp_def]

def depth (e : Expr) : Nat := deepest [(e, 1)] 0

end Abacus.Expr
