import Abacus.Expr.Basic
import Abacus.Registry.Standard
/-!
# The value of a formula

Evaluation goes from left to right and ends at the first failure.  The arguments of a call come before the
question whether there is such a function.
-/
namespace Abacus

abbrev Context := List (List Char × Float)

def Sign.apply : Sign → Float → Float
  | .plus, x  => x
  | .minus, x => -x

def Operator.apply : Operator → Float → Float → Except Fault Float
  | .add, x, y => .ok (x + y)
  | .sub, x, y => .ok (x - y)
  | .mul, x, y => .ok (x * y)
  | .div, x, y => quotient x y
  | .pow, x, y => power x y

namespace Expr

mutual
def evaluate (r : Registry) (c : Context) : Expr → Except EvalFailure Float
  | .number x   => .ok x
  | .constant k => .ok k.value
  | .var name   =>
    match c.lookup name with
    | some x => .ok x
    | none   => .error (.refused (.unknownVariable name))
  | .signed s x => do
    let x ← evaluate r c x
    .ok (s.apply x)
  | .binary op l r' => do
    let x ← evaluate r c l
    let y ← evaluate r c r'
    liftFault (op.apply x y)
  | .call name args => do
    let xs ← evaluateAll r c args
    r.call name xs

def evaluateAll (r : Registry) (c : Context) : List Expr → Except EvalFailure (List Float)
  | []      => .ok []
  | e :: es => do
    let x ← evaluate r c e
    let xs ← evaluateAll r c es
    .ok (x :: xs)
end

end Expr

end Abacus
