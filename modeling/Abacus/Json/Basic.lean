import Abacus.Text.Order
/-!
# JSON values

Whole numbers are kept exactly, whatever their size, and apart from the numbers written with a point or an
exponent.  The fields of an object are in the order in which their keys were first set; a key that is set again
keeps its place.
-/
namespace Abacus

inductive Json
  | null
  | bool (b : Bool)
  | int (n : Int)
  | double (x : Float)
  | str (text : List Char)
  | arr (items : List Json)
  | obj (fields : List (List Char × Json))

abbrev Fields := List (List Char × Json)

namespace Fields

def keys (fields : Fields) : List (List Char) := fields.map Prod.fst

def byKey (fields : Fields) : Fields := fields.mergeSort fun a b => textLe a.1 b.1

end Fields

namespace Json

mutual
def sorted : Json → Json
  | .arr items  => .arr (sortedAll items)
  | .obj fields => .obj (Fields.byKey (sortedFields fields))
  | value       => value

def sortedAll : List Json → List Json
  | []      => []
  | v :: vs => v.sorted :: sortedAll vs

def sortedFields : List (List Char × Json) → List (List Char × Json)
  | []             => []
  | (k, v) :: rest => (k, v.sorted) :: sortedFields rest
end

mutual
/-- The value with `null` for every number in it that is infinite or not a number. -/
def strict : Json → Json
  | .double x   => if x.isFinite then .double x else .null
  | .arr items  => .arr (strictAll items)
  | .obj fields => .obj (strictFields fields)
  | value       => value

def strictAll : List Json → List Json
  | []      => []
  | v :: vs => v.strict :: strictAll vs

def strictFields : List (List Char × Json) → List (List Char × Json)
  | []             => []
  | (k, v) :: rest => (k, v.strict) :: strictFields rest
end

mutual
def height : Json → Nat
  | .arr items  => heightAll items + 1
  | .obj fields => heightFields fields + 1
  | _           => 1

def heightAll : List Json → Nat
  | []      => 0
  | v :: vs => max v.height (heightAll vs)

def heightFields : List (List Char × Json) → Nat
  | []             => 0
  | (_, v) :: rest => max v.height (heightFields rest)
end

end Json

end Abacus
