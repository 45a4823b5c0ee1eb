import Abacus.Expr.Basic
import Abacus.Decimal.Shortest
/-!
# The canonical text of a formula

Every sign and every operation stands in parentheses of its own, so the text reads back without rules of
precedence.  A signed base of a power gets a second pair.  Whole numbers below `10 ^ 16` are written without a
point.
-/
namespace Abacus

/-- Whole doubles from here on keep their exponent. -/
def wholeLimit : Nat := 10000000000000000

def numberText (x : Float) : List Char :=
  match truncated? x with
  | some n => if isWhole x && n.natAbs < wholeLimit then intText n else doubleText x
  | none   => doubleText x

namespace Expr

def isSigned : Expr → Bool
  | .signed _ _ => true
  | _           => false

def inParens (text : List Char) : List Char := '(' :: text ++ [')']

def commaSeparated : List (List Char) → List Char
  | []           => []
  | [text]       => text
  | text :: more => text ++ ',' :: ' ' :: commaSeparated more

mutual
def text : Expr → List Char
  | .number x      => numberText x
  | .constant c    => c.name
  | .var name      => name
  | .signed s x    => inParens (s.symbol :: x.text)
  | .binary op l r =>
    let left := if op = .pow ∧ l.isSigned then inParens l.text else l.text
    inParens (left ++ ' ' :: op.symbol :: ' ' :: r.text)
  | .call name args => name ++ inParens (commaSeparated (texts args))

def texts : List Expr → List (List Char)
  | []      => []
  | x :: xs => x.text :: texts xs
end

end Expr

end Abacus
