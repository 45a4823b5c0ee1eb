import Std.Time.DateTime
import Abacus.Decimal.Basic
/-!
# Stamps

The date and time as events record them: universal time down to the microsecond, with every part in a fixed number
of digits.
-/
namespace Abacus

def stampOf (t : Std.Time.PlainDateTime) : List Char :=
  let part (width : Nat) (n : Int) : List Char := paddedText width n.toNat
  part 4 t.date.year ++ '-' :: part 2 t.date.month.val ++ '-' :: part 2 t.date.day.val ++
    'T' :: part 2 t.time.hour.val ++ ':' :: part 2 t.time.minute.val ++ ':' :: part 2 t.time.second.val ++
    '.' :: part 6 (t.time.nanosecond.val / 1000) ++ ['Z']

end Abacus
