/-!
# Doubles as exact numbers

A finite double is `mantissa · 2 ^ exponent` under a sign.  `exact` reads that off the bits, and
`ofMagnitude` puts bits below the sign back together.  All text of numbers is written and read
through these two, in exact arithmetic.
-/
namespace Abacus

inductive Exact
  | finite (negative : Bool) (mantissa : Nat) (exponent : Int)
  | infinite (negative : Bool)
  | nan
  deriving DecidableEq, Repr

def signBit : Nat := 0x8000000000000000

/-- A step of the exponent field, `2 ^ 52`, which is the leading bit of a normal mantissa as well. -/
def leadingBit : Nat := 0x10000000000000

/-- The magnitude bits of infinity: all finite magnitudes are below. -/
def infinityBits : Nat := 2047 * leadingBit

def magnitudeBits (x : Float) : Nat := x.toBits.toNat % signBit

def isNegative (x : Float) : Bool := signBit ≤ x.toBits.toNat

def exact (x : Float) : Exact :=
  let field : Nat := magnitudeBits x / leadingBit
  let fraction : Nat := magnitudeBits x % leadingBit
  if field = 2047 then if fraction = 0 then .infinite (isNegative x) else .nan
  else if field = 0 then .finite (isNegative x) fraction (-1074)
  else .finite (isNegative x) (leadingBit + fraction) ((field : Int) - 1075)

/-- The double with these magnitude bits (below the sign bit) and this sign. -/
def ofMagnitude (negative : Bool) (magnitude : Nat) : Float :=
  Float.ofBits (UInt64.ofNat (if negative then signBit + magnitude else magnitude))

def infinity (negative : Bool) : Float := ofMagnitude negative infinityBits

def notANumber : Float := ofMagnitude false (infinityBits + leadingBit / 2)

/-- `mantissa · 2 ^ exponent` cut toward zero. -/
def wholePart (mantissa : Nat) (exponent : Int) : Nat :=
  if 0 ≤ exponent then mantissa * Nat.pow 2 exponent.toNat else mantissa / Nat.pow 2 (-exponent).toNat

def truncated? (x : Float) : Option Int :=
  match exact x with
  | .finite negative m e => some (if negative then -(wholePart m e : Int) else wholePart m e)
  | _                    => none

def isWhole (x : Float) : Bool :=
  match exact x with
  | .finite _ m e => 0 ≤ e || m % Nat.pow 2 (-e).toNat == 0
  | _             => false

/-- Whether a double is a whole odd number; exact for all, large and negative ones too. -/
def isOddWhole (x : Float) : Bool :=
  isWhole x && match truncated? x with
    | some n => n % 2 == 1
    | none   => false

end Abacus
