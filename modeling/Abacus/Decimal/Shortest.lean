import Abacus.Decimal.Basic
/-!
# The shortest text of a double

Of all decimals that read back as a double, `shortest` takes those on the coarsest grid of powers of ten
that has any, which are those with the fewest digits, and of them the nearest to the double, a tie going
to the even digit.  Only the two neighbours of the double on a grid can be that.  Seventeen digits always
suffice; the double's own exact expansion closes the search, so the result reads back by construction.
-/
namespace Abacus

/-- `mantissa · 2 ^ exponent` in units of `10 ^ grid`, as numerator and denominator. -/
def onGrid (mantissa : Nat) (exponent grid : Int) : Nat × Nat :=
  let num := mantissa * Nat.pow 2 exponent.toNat * Nat.pow 10 (-grid).toNat
  let den := Nat.pow 2 (-exponent).toNat * Nat.pow 10 grid.toNat
  (num, den)

def neighbours (mantissa : Nat) (exponent grid : Int) : List Decimal :=
  let (num, den) := onGrid mantissa exponent grid
  let low := num / den
  let first := roundQuotient num den
  [⟨first, grid⟩, ⟨if first = low then low + 1 else low, grid⟩]

def expansion (mantissa : Nat) (exponent : Int) : Decimal :=
  if 0 ≤ exponent then ⟨mantissa * Nat.pow 2 exponent.toNat, 0⟩
  else ⟨mantissa * Nat.pow 5 (-exponent).toNat, exponent⟩

def coarsestGrid (exponent : Int) : Int := (exponent + 53) * 30103 / 100000 + 1

def gridsFrom (top : Int) : Nat → List Int
  | 0     => []
  | n + 1 => top :: gridsFrom (top - 1) n

/-- The grids of up to seventeen digits of every double with this exponent, subnormal ones included. -/
def candidateGrids (exponent : Int) : List Int := gridsFrom (coarsestGrid exponent) 36

def shortest (mantissa : Nat) (exponent : Int) (bits : Nat) : Decimal :=
  ((candidateGrids exponent).findSome? fun grid =>
    (neighbours mantissa exponent grid).find? fun d => d.nearestBits == bits).getD
      (expansion mantissa exponent)

/-- How a decimal is written: with which orders the point stands among the digits, and how many digits the
exponent has at least. -/
structure DecimalStyle where
  positionalFrom : Int
  positionalBelow : Int
  exponentDigits : Nat

/-- Positional from `10 ^ -4` up to `10 ^ 16`, exponents of two digits and more. -/
def plainStyle : DecimalStyle := ⟨-4, 16, 2⟩

def exponentText (style : DecimalStyle) (e : Int) : List Char :=
  (if e < 0 then '-' else '+') :: paddedText style.exponentDigits e.natAbs

def withPoint (ds : List Char) (whole : Int) : List Char :=
  if whole ≤ 0 then '0' :: '.' :: List.replicate (-whole).toNat '0' ++ ds
  else if ds.length ≤ whole.toNat then
    ds ++ List.replicate (whole.toNat - ds.length) '0' ++ ['.', '0']
  else ds.take whole.toNat ++ '.' :: ds.drop whole.toNat

def decimalText (style : DecimalStyle) (d : Decimal) : List Char :=
  let ds := natText d.digits
  let lead := d.order - 1
  if style.positionalFrom ≤ lead ∧ lead < style.positionalBelow then withPoint ds d.order
  else
    (match ds with
      | [only]        => [only]
      | first :: more => first :: '.' :: more
      | []            => []) ++ 'e' :: exponentText style lead

def signed (negative : Bool) (text : List Char) : List Char := if negative then '-' :: text else text

/-- The text of a double: the shortest that reads back. -/
def doubleText (x : Float) : List Char :=
  match exact x with
  | .nan                 => "nan".toList
  | .infinite negative   => signed negative "inf".toList
  | .finite negative m e =>
    signed negative
      (if m = 0 then "0.0".toList else decimalText plainStyle (shortest m e (magnitudeBits x)))

end Abacus
