/-!
# Ranges of code points

A property of characters is written as the sorted list of the inclusive ranges of code points that
have it.  `covers` looks a code point up and gives up at the first range that starts beyond it.
-/
namespace Abacus

def covers : List (Nat × Nat) → Nat → Bool
  | [], _ => false
  | (low, high) :: rest, n => if n < low then false else n ≤ high || covers rest n

end Abacus
