import Abacus.Decimal.Binary64
/-!
# Arithmetic on doubles

The operations a processor refuses are the checked ones: they answer a fault where IEEE arithmetic has a
conventional result.  `quotient`, `power` and the trigonometric functions put that result back, reading it
off the operands alone, so that they never fault.
-/
namespace Abacus

inductive Fault
  | zeroDivisor | rangeExceeded | outsideDomain
  deriving DecidableEq, Repr

namespace Checked

def divide (x y : Float) : Except Fault Float :=
  if y == 0 then .error .zeroDivisor else .ok (x / y)

/-- A zero base has no negative power, and a negative one no fractional power; a finite power that is
infinite is out of range. -/
def pow (x y : Float) : Except Fault Float :=
  if x == 0 && y < 0 then .error .outsideDomain
  else
    let z := Float.pow x y
    if x.isFinite && y.isFinite then
      if z.isNaN then .error .outsideDomain
      else if z.isInf then .error .rangeExceeded
      else .ok z
    else .ok z

def sin (x : Float) : Except Fault Float := if x.isInf then .error .outsideDomain else .ok (Float.sin x)

def cos (x : Float) : Except Fault Float := if x.isInf then .error .outsideDomain else .ok (Float.cos x)

def tan (x : Float) : Except Fault Float := if x.isInf then .error .outsideDomain else .ok (Float.tan x)

def sqrt (x : Float) : Except Fault Float := if x < 0 then .error .outsideDomain else .ok (Float.sqrt x)

def log (x : Float) : Except Fault Float := if x ≤ 0 then .error .outsideDomain else .ok (Float.log x)

end Checked

def quotient (x y : Float) : Except Fault Float :=
  if y == 0 then
    .ok (if x == 0 || x.isNaN then notANumber else infinity (!(x > 0)))
  else Checked.divide x y

/-- What a power is where the checked one answered `answer`. -/
def recoverPower (x y : Float) (answer : Except Fault Float) : Except Fault Float :=
  match answer with
  | .error .rangeExceeded => .ok (infinity (x < 0 && isOddWhole y))
  | .error .outsideDomain =>
    .ok (if x == 0 then infinity (isNegative x && isOddWhole y) else notANumber)
  | other                 => other

def power (x y : Float) : Except Fault Float := recoverPower x y (Checked.pow x y)

/-- A trigonometric function, not a number at the infinities. -/
def circular (f : Float → Except Fault Float) (x : Float) : Except Fault Float :=
  if x.isInf then .ok notANumber else f x

end Abacus
