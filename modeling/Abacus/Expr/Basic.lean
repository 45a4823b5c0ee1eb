/-!
# Expressions

The tree of a formula.  Calls keep the function's name as written; which function that is, if any, is
decided when the tree is evaluated.  Two constants have reserved names.
-/
namespace Abacus

inductive Constant
  | pi | e
  deriving DecidableEq, Repr

def Constant.name : Constant → List Char
  | .pi => ['p', 'i']
  | .e  => ['e']

def Constant.value : Constant → Float
  | .pi => 3.141592653589793
  | .e  => 2.718281828459045

def Constant.ofName? (name : List Char) : Option Constant :=
  if name = Constant.pi.name then some .pi
  else if name = Constant.e.name then some .e
  else none

inductive Sign
  | plus | minus
  deriving DecidableEq, Repr

def Sign.symbol : Sign → Char
  | .plus  => '+'
  | .minus => '-'

inductive Operator
  | add | sub | mul | div | pow
  deriving DecidableEq, Repr

def Operator.symbol : Operator → Char
  | .add => '+'
  | .sub => '-'
  | .mul => '*'
  | .div => '/'
  | .pow => '^'

inductive Expr
  | number (value : Float)
  | constant (which : Constant)
  | var (name : List Char)
  | signed (sign : Sign) (operand : Expr)
  | binary (op : Operator) (left right : Expr)
  | call (name : List Char) (args : List Expr)

namespace Expr

def children : Expr → List Expr
  | .signed _ x   => [x]
  | .binary _ l r => [l, r]
  | .call _ args  => args
  | _             => []

mutual
/-- Equality of trees, numbers compared as numbers: zeros are equal whatever their sign. -/
def same : Expr → Expr → Bool
  | .number x, .number y         => x == y
  | .constant a, .constant b     => a == b
  | .var a, .var b               => a == b
  | .signed s x, .signed t y     => s == t && same x y
  | .binary p a b, .binary q c d => p == q && same a c && same b d
  | .call f xs, .call g ys       => f == g && sameAll xs ys
  | _, _                         => false

def sameAll : List Expr → List Expr → Bool
  | [], []           => true
  | x :: xs, y :: ys => same x y && sameAll xs ys
  | _, _             => false
end

/-- Induction on trees, with a hypothesis for every argument of a call. -/
theorem inductionOn {P : Expr → Prop} (e : Expr)
    (number : ∀ x, P (.number x)) (constant : ∀ c, P (.constant c)) (var : ∀ n, P (.var n))
    (signed : ∀ s x, P x → P (.signed s x))
    (binary : ∀ op l r, P l → P r → P (.binary op l r))
    (call : ∀ name args, (∀ a ∈ args, P a) → P (.call name args)) : P e :=
  Expr.rec (motive_1 := P) (motive_2 := fun args => ∀ a ∈ args, P a)
    number constant var signed binary call
    (by simp) (fun a args ha hargs b hb => by
      rcases List.mem_cons.1 hb with h | h
      · exact h ▸ ha
      · exact hargs b h) e

end Expr

end Abacus
