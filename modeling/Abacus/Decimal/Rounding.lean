import Abacus.Decimal.Binary64
/-!
# Rounding a quotient to a double

`nearestBits num den` holds the magnitude bits of the double nearest to `num / den`, a tie going to the
even mantissa.  The unit in the last place is `2 ^ unitExponent num den`: fifty-two places below the
leading bit of the quotient, and never below the least subnormal.  Counting units and adding
`leadingBit` for each step of the exponent gives the bits of normal and subnormal numbers alike, and a carry
out of the mantissa lands in the next exponent by itself.
-/
namespace Abacus

/-- The quotient to the nearest integer, a tie to the even one. -/
def roundQuotient (num den : Nat) : Nat :=
  let q := num / den
  let r := num % den
  if 2 * r < den then q else if den < 2 * r then q + 1 else q + q % 2

def reachesPower (num den : Nat) (e : Int) : Bool :=
  if 0 ≤ e then den * Nat.pow 2 e.toNat ≤ num else den ≤ num * Nat.pow 2 (-e).toNat

def leadingExponent (num den : Nat) : Int :=
  let guess : Int := (num.log2 : Int) - den.log2
  if reachesPower num den guess then guess else guess - 1

def unitExponent (num den : Nat) : Int := max (leadingExponent num den - 52) (-1074)

/-- `num / den` in units of `2 ^ e`, rounded. -/
def roundedUnits (num den : Nat) (e : Int) : Nat :=
  if 0 ≤ e then roundQuotient num (den * Nat.pow 2 e.toNat)
  else roundQuotient (num * Nat.pow 2 (-e).toNat) den

def nearestBits (num den : Nat) : Nat :=
  if num = 0 then 0
  else
    let e := unitExponent num den
    min infinityBits ((e + 1074).toNat * leadingBit + roundedUnits num den e)

/-- The double nearest to an integer; infinite when that is beyond all finite ones. -/
def ofInt (n : Int) : Float := ofMagnitude (n < 0) (nearestBits n.natAbs 1)

end Abacus
