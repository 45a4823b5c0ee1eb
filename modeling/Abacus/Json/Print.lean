import Abacus.Json.Basic
import Abacus.Decimal.Numeral
import Abacus.Decimal.Shortest
import Abacus.Text.Quoted
/-!
# JSON as text

The text is ASCII without controls: every other character is escaped, beyond the basic plane as a pair of
surrogates.  So a value is one line, whatever strings it holds.  Numbers without a decimal spelling have the
names `NaN`, `Infinity` and `-Infinity`.  A value with a whole number of too many digits is not to be written.
-/
namespace Abacus.Json

def unitEscape (n : Nat) : List Char := '\\' :: 'u' :: hexDigits 4 n

def escaped (c : Char) : List Char :=
  if c == '"' then ['\\', '"']
  else if c == '\\' then ['\\', '\\']
  else if c == '\n' then ['\\', 'n']
  else if c == '\r' then ['\\', 'r']
  else if c == '\t' then ['\\', 't']
  else if c.toNat = 8 then ['\\', 'b']
  else if c.toNat = 12 then ['\\', 'f']
  else if 0x20 ≤ c.toNat ∧ c.toNat ≤ 0x7E then [c]
  else if c.toNat ≤ 0xFFFF then unitEscape c.toNat
  else
    unitEscape (0xD800 + (c.toNat - 0x10000) / 0x400) ++
      unitEscape (0xDC00 + (c.toNat - 0x10000) % 0x400)

def stringText (text : List Char) : List Char := '"' :: text.flatMap escaped ++ ['"']

def doubleName (x : Float) : List Char :=
  match exact x with
  | .nan            => "NaN".toList
  | .infinite false => "Infinity".toList
  | .infinite true  => "-Infinity".toList
  | .finite _ _ _   => doubleText x

def boolText (b : Bool) : List Char := if b then "true".toList else "false".toList

mutual
def text : Json → List Char
  | .null       => "null".toList
  | .bool b     => boolText b
  | .int n      => intText n
  | .double x   => doubleName x
  | .str s      => stringText s
  | .arr items  => '[' :: itemsText items ++ [']']
  | .obj fields => '{' :: fieldsText fields ++ ['}']

def itemsText : List Json → List Char
  | []      => []
  | v :: vs => v.text ++ moreItemsText vs

def moreItemsText : List Json → List Char
  | []      => []
  | v :: vs => ',' :: ' ' :: v.text ++ moreItemsText vs

def fieldsText : List (List Char × Json) → List Char
  | []             => []
  | (k, v) :: rest => stringText k ++ ':' :: ' ' :: v.text ++ moreFieldsText rest

def moreFieldsText : List (List Char × Json) → List Char
  | []             => []
  | (k, v) :: rest => ',' :: ' ' :: stringText k ++ ':' :: ' ' :: v.text ++ moreFieldsText rest
end

def sortedText (value : Json) : List Char := value.sorted.text

mutual
/-- Whether the value may be written: no whole number in it has more digits than are written. -/
def isWritable : Json → Bool
  | .int n      => !isUnwritable n
  | .arr items  => areWritable items
  | .obj fields => areFieldsWritable fields
  | _           => true

def areWritable : List Json → Bool
  | []      => true
  | v :: vs => v.isWritable && areWritable vs

def areFieldsWritable : List (List Char × Json) → Bool
  | []             => true
  | (_, v) :: rest => v.isWritable && areFieldsWritable rest
end

/-- An object with one field to a line, indented by two. -/
def listing (fields : Fields) : List Char :=
  if fields.isEmpty then ['{', '}']
  else
    let lines := fields.map fun (k, v) => ' ' :: ' ' :: stringText k ++ ':' :: ' ' :: v.text
    '{' :: '\n' :: List.intercalate [',', '\n'] lines ++ ['\n', '}']

end Abacus.Json
