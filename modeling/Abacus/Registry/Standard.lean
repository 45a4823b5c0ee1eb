import Abacus.Registry.Basic
/-!
# The standard functions

Sine, cosine and tangent of radians, square root, natural logarithm, absolute value, and clamping into an
interval.
-/
namespace Abacus

def liftFault (answer : Except Fault Float) : Except EvalFailure Float :=
  answer.mapError .fault

def ofOne (f : Float → Except EvalFailure Float) : List Float → Except EvalFailure Float
  | [x] => f x
  | _   => .error .misapplied

namespace Standard

def sin (x : Float) : Except EvalFailure Float := liftFault (circular Checked.sin x)

def cos (x : Float) : Except EvalFailure Float := liftFault (circular Checked.cos x)

def tan (x : Float) : Except EvalFailure Float := liftFault (circular Checked.tan x)

def sqrt (x : Float) : Except EvalFailure Float :=
  if x < 0 then .error (.refused (.domain (.negativeRoot x))) else liftFault (Checked.sqrt x)

def log (x : Float) : Except EvalFailure Float :=
  if x ≤ 0 then .error (.refused (.domain (.nonPositiveLog x))) else liftFault (Checked.log x)

/-- The lesser of two numbers, the first when neither is less. -/
def lesser (x y : Float) : Float := if y < x then y else x

/-- The greater of two numbers, the first when neither is greater. -/
def greater (x y : Float) : Float := if x < y then y else x

def clamp : List Float → Except EvalFailure Float
  | [x, low, high] =>
    if low > high then .error (.refused (.domain (.emptyInterval low high)))
    else if x.isNaN || low.isNaN || high.isNaN then .ok notANumber
    else .ok (greater low (lesser high x))
  | _ => .error .misapplied

end Standard

def Registry.standard : Registry where
  builtins :=
    [⟨"sin".toList, 1, ofOne Standard.sin⟩,
     ⟨"cos".toList, 1, ofOne Standard.cos⟩,
     ⟨"tan".toList, 1, ofOne Standard.tan⟩,
     ⟨"sqrt".toList, 1, ofOne Standard.sqrt⟩,
     ⟨"log".toList, 1, ofOne Standard.log⟩,
     ⟨"abs".toList, 1, ofOne fun x => .ok x.abs⟩,
     ⟨"clamp".toList, 3, Standard.clamp⟩]

end Abacus
