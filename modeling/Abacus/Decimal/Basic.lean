import Abacus.Decimal.Rounding
/-!
# Decimals

`digits · 10 ^ exponent`.  Its nearest double is found in exact arithmetic; powers of ten far outside the
range of doubles are recognised by the number of digits and never computed.
-/
namespace Abacus

structure Decimal where
  digits : Nat
  exponent : Int
  deriving DecidableEq, Repr

def natText (n : Nat) : List Char := Nat.toDigits 10 n

def paddedText (width n : Nat) : List Char := List.replicate (width - (natText n).length) '0' ++ natText n

def natOfDigits (ds : List Char) : Nat := Nat.ofDigitChars 10 ds 0

def intText (n : Int) : List Char := if n < 0 then '-' :: natText n.natAbs else natText n.natAbs

namespace Decimal

/-- Numerator and denominator. -/
def quotient (d : Decimal) : Nat × Nat :=
  if 0 ≤ d.exponent then (d.digits * Nat.pow 10 d.exponent.toNat, 1)
  else (d.digits, Nat.pow 10 (-d.exponent).toNat)

/-- The exponent of the power of ten just above the number. -/
def order (d : Decimal) : Int := d.exponent + (natText d.digits).length

/-- The magnitude bits of the nearest double.  From `10 ^ 309` on a number is beyond the finite ones, and
below `10 ^ -324` it is under half of the least subnormal. -/
def nearestBits (d : Decimal) : Nat :=
  if d.digits = 0 then 0
  else if 310 ≤ d.order then infinityBits
  else if d.order ≤ -324 then 0
  else Abacus.nearestBits d.quotient.1 d.quotient.2

def toDouble (negative : Bool) (d : Decimal) : Float := ofMagnitude negative d.nearestBits

end Decimal

end Abacus
