import Abacus.Decimal.Shortest
/-!
# Fixed places

A double with a given number of places after the point: its exact value, a tie going to the even digit.
A double has at most 1074 places of its own, so all further ones are zeros.
-/
namespace Abacus

/-- The places beyond which every double is zero. -/
def ownPlaces : Nat := 1074

/-- `n` units of `10 ^ -places`. -/
def placesText (places n : Nat) : List Char :=
  let ds := paddedText (places + 1) n
  let whole := ds.length - places
  if places = 0 then ds else ds.take whole ++ '.' :: ds.drop whole

def fixedText (places : Nat) (x : Float) : List Char :=
  match exact x with
  | .nan                 => "nan".toList
  | .infinite negative   => signed negative "inf".toList
  | .finite negative m e =>
    let own := min places ownPlaces
    let (num, den) := onGrid m e (-own)
    signed negative (placesText own (roundQuotient num den) ++ List.replicate (places - own) '0')

end Abacus
