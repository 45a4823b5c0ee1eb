import Abacus.Decimal.Numeral
import Abacus.Text.Quoted
/-!
# Settings documents as values

What a YAML document holds.  Keys of a mapping are values too, though the known settings are looked up by
text; numbers are one key when they are equal, whichever way they are written.  A value has a truth, and it may
convert to a whole number or to a double; a conversion that fails says why.
-/
namespace Abacus

inductive Yaml
  | null
  | bool (b : Bool)
  | int (n : Int)
  | double (x : Float)
  | str (text : List Char)
  | list (items : List Yaml)
  | map (entries : List (Yaml × Yaml))

abbrev Mapping := List (Yaml × Yaml)

/-- What is there and goes beyond what there is room for. -/
inductive Overflow
  | intOfInfinity
  /-- a whole number beyond the finite doubles -/
  | doubleOfHuge
  /-- a code of a character beyond thirty-one bits -/
  | hugeCode
  /-- lists and mappings in one another to more levels than are read -/
  | levels
  deriving DecidableEq, Repr

def Overflow.message : Overflow → List Char
  | .intOfInfinity => "cannot convert float infinity to integer".toList
  | .doubleOfHuge  => "int too large to convert to float".toList
  | .hugeCode      => "Python int too large to convert to C int".toList
  | .levels        => "maximum recursion depth exceeded".toList

inductive ConversionError
  | intOfKind (kind : List Char)
  | doubleOfKind (kind : List Char)
  | notAnInt (text : List Char)
  | notADouble (text : List Char)
  | tooManyDigits (count : Nat)
  | intOfNaN
  | overflow (o : Overflow)
  deriving DecidableEq, Repr

namespace ConversionError

/-- How much is shown of a text that is no whole number, quotes and escapes included. -/
def maxShown : Nat := 200

def message : ConversionError → List Char
  | .intOfKind kind =>
    "int() argument must be a string, a bytes-like object or a real number, not '".toList ++ kind ++ ['\'']
  | .doubleOfKind kind =>
    "float() argument must be a string or a real number, not '".toList ++ kind ++ ['\'']
  | .notAnInt text => "invalid literal for int() with base 10: ".toList ++ (quoted text).take maxShown
  | .notADouble text => "could not convert string to float: ".toList ++ quoted text
  | .tooManyDigits count => digitLimitMessage (some count)
  | .intOfNaN => "cannot convert float NaN to integer".toList
  | .overflow o => o.message

end ConversionError

namespace Yaml

def truthy : Yaml → Bool
  | .null        => false
  | .bool b      => b
  | .int n       => n != 0
  | .double x    => x != 0
  | .str text    => !text.isEmpty
  | .list items  => !items.isEmpty
  | .map entries => !entries.isEmpty

def toInt : Yaml → Except ConversionError Int
  | .null     => .error (.intOfKind "NoneType".toList)
  | .bool b   => .ok (if b then 1 else 0)
  | .int n    => .ok n
  | .double x =>
    match exact x with
    | .nan          => .error .intOfNaN
    | .infinite _   => .error (.overflow .intOfInfinity)
    | .finite s m e => .ok (if s then -(wholePart m e : Int) else wholePart m e)
  | .str text =>
    match readInt text with
    | .ok n                      => .ok n
    | .error .notANumeral        => .error (.notAnInt text)
    | .error (.tooManyDigits n)  => .error (.tooManyDigits n)
  | .list _   => .error (.intOfKind "list".toList)
  | .map _    => .error (.intOfKind "dict".toList)

def doubleOfInt (n : Int) : Except Overflow Float :=
  if (ofInt n).isInf then .error .doubleOfHuge else .ok (ofInt n)

def toDouble : Yaml → Except ConversionError Float
  | .null     => .error (.doubleOfKind "NoneType".toList)
  | .bool b   => .ok (if b then 1 else 0)
  | .int n    => (doubleOfInt n).mapError .overflow
  | .double x => .ok x
  | .str text =>
    match readDouble? text with
    | some x => .ok x
    | none   => .error (.notADouble text)
  | .list _   => .error (.doubleOfKind "list".toList)
  | .map _    => .error (.doubleOfKind "dict".toList)

/-! ## Keys -/

def isKey : Yaml → Bool
  | .list _ | .map _ => false
  | _                => true

/-- A number that a key is, a truth value being one or zero; its other readings have the same. -/
inductive KeyNumber
  | whole (n : Int)
  | double (e : Exact)
  deriving DecidableEq

def keyNumberOf (x : Float) : KeyNumber :=
  match isWhole x, truncated? x with
  | true, some n => .whole n
  | _, _         => .double (exact x)

def keyNumber? : Yaml → Option KeyNumber
  | .bool b   => some (.whole (if b then 1 else 0))
  | .int n    => some (.whole n)
  | .double x => some (keyNumberOf x)
  | _         => none

/-- Whether two keys are one: equal texts, equal numbers, or nothing twice. -/
def sameKey : Yaml → Yaml → Bool
  | .null, .null   => true
  | .str a, .str b => a == b
  | a, b           =>
    match a.keyNumber?, b.keyNumber? with
    | some m, some n => m == n
    | _, _           => false

end Yaml

namespace Mapping

/-- What a mapping has under a key. -/
def get? (m : Mapping) (key : Yaml) : Option Yaml := (List.find? (fun entry => entry.1.sameKey key) m).map Prod.snd

def find? (m : Mapping) (key : List Char) : Option Yaml := m.get? (.str key)

/-- Sets the value of a key.  One that is there stays as it is written. -/
def set (key value : Yaml) : Mapping → Mapping
  | []             => [(key, value)]
  | (k, v) :: rest => if k.sameKey key then (k, value) :: rest else (k, v) :: set key value rest

def update (m more : Mapping) : Mapping := more.foldl (fun m (k, v) => Mapping.set k v m) m

end Mapping

end Abacus
