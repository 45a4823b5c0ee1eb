import Abacus.Expr.Basic
/-!
# The free names of a formula

The names of its variables, each once, in the order in which they are first met from left to right.
Constants and functions are not among them.
-/
namespace Abacus.Expr

mutual
def addNames (seen : List (List Char)) : Expr → List (List Char)
  | .var name     => if name ∈ seen then seen else seen ++ [name]
  | .signed _ x   => addNames seen x
  | .binary _ l r => addNames (addNames seen l) r
  | .call _ args  => addAllNames seen args
  | _             => seen

def addAllNames (seen : List (List Char)) : List Expr → List (List Char)
  | []      => seen
  | x :: xs => addAllNames (addNames seen x) xs
end

def names (e : Expr) : List (List Char) := addNames [] e

end Abacus.Expr
