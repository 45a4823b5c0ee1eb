import Abacus.Text.Pieces
import Abacus.Yaml.Basic
/-!
# Plain scalars

What an unquoted word of a document means by itself: nothing, a truth value, a whole number (binary, octal, decimal,
hexadecimal or sexagesimal), a double (decimal or sexagesimal, infinite or not a number), and otherwise its own
text.  Underscores may stand among digits.
-/
namespace Abacus.Yaml

inductive ScalarError
  | noDigits (base : Nat)
  | tooManyDigits (count : Nat)
  | overflow (o : Overflow)
  deriving DecidableEq, Repr

def ScalarError.message : ScalarError → List Char
  | .noDigits base => "invalid literal for int() with base ".toList ++ natText base ++ ": ''".toList
  | .tooManyDigits count => digitLimitMessage (some count)
  | .overflow o => o.message

def nullWords : List (List Char) := ["".toList, "~".toList, "null".toList, "Null".toList, "NULL".toList]

def trueWords : List (List Char) :=
  ["yes".toList, "Yes".toList, "YES".toList, "true".toList, "True".toList, "TRUE".toList, "on".toList,
   "On".toList, "ON".toList]

def falseWords : List (List Char) :=
  ["no".toList, "No".toList, "NO".toList, "false".toList, "False".toList, "FALSE".toList, "off".toList,
   "Off".toList, "OFF".toList]

def infinityWords : List (List Char) := [".inf".toList, ".Inf".toList, ".INF".toList]

def nanWords : List (List Char) := [".nan".toList, ".NaN".toList, ".NAN".toList]

def orUnderscore (p : Char → Bool) (c : Char) : Bool := c == '_' || p c

def isBinary (c : Char) : Bool := c == '0' || c == '1'

def isOctal (c : Char) : Bool := '0' ≤ c && c ≤ '7'

def isHex (c : Char) : Bool := c.isDigit || ('a' ≤ c && c ≤ 'f') || ('A' ≤ c && c ≤ 'F')

def hexOf (c : Char) : Nat :=
  if c.isDigit then c.toNat - 48 else if 'a' ≤ c then c.toNat - 87 else c.toNat - 55

def inBase (base : Nat) (ds : List Char) : Nat := ds.foldl (fun n c => n * base + hexOf c) 0

def withoutUnderscores (cs : List Char) : List Char := cs.filter (· != '_')

def colonParts (cs : List Char) : List (List Char) := splitAtAll (· == ':') cs

/-- A place of a sexagesimal number after the first: one digit, or two below sixty. -/
def isSixtieth : List Char → Bool
  | [d]    => d.isDigit
  | [t, d] => '0' ≤ t && t ≤ '5' && d.isDigit
  | _      => false

def isDigitRun : List Char → Bool
  | []      => false
  | c :: cs => c.isDigit && cs.all (orUnderscore Char.isDigit)

def wholeNumber? (cs : List Char) : Option (Except ScalarError Nat) :=
  match cs with
  | '0' :: 'b' :: ds =>
    if !ds.isEmpty && ds.all (orUnderscore isBinary) then
      let ds := withoutUnderscores ds
      some (if ds.isEmpty then .error (.noDigits 2) else .ok (inBase 2 ds))
    else none
  | '0' :: 'x' :: ds =>
    if !ds.isEmpty && ds.all (orUnderscore isHex) then
      let ds := withoutUnderscores ds
      some (if ds.isEmpty then .error (.noDigits 16) else .ok (inBase 16 ds))
    else none
  | '0' :: ds => if ds.all (orUnderscore isOctal) then some (.ok (inBase 8 (withoutUnderscores ds))) else none
  | cs =>
    match colonParts cs with
    | first :: places =>
      if isDigitRun first && places.all isSixtieth then
        let ds := withoutUnderscores first
        some (if maxDigits < ds.length then .error (.tooManyDigits ds.length)
          else .ok (places.foldl (fun n ds => n * 60 + inBase 10 ds) (inBase 10 ds)))
      else none
    | [] => none

def isExponent : List Char → Bool
  | []             => true
  | mark :: s :: ds =>
    (mark == 'e' || mark == 'E') && (s == '+' || s == '-') && !ds.isEmpty && ds.all Char.isDigit
  | _              => false

def isPlaces (cs : List Char) : Bool := isExponent (cs.dropWhile (orUnderscore Char.isDigit))

/-- The value of places in base sixty, the last place first, under a power of sixty.  The power has to be in the
range of doubles. -/
def sexagesimalFrom (sum : Float) (power : Nat) : List Float → Except ScalarError Float
  | []      => .ok sum
  | d :: ds =>
    match doubleOfInt power with
    | .ok x    => sexagesimalFrom (sum + d * x) (power * 60) ds
    | .error o => .error (.overflow o)

def sexagesimal? (parts : List (List Char)) : Option (Except ScalarError Float) :=
  (parts.reverse.mapM readDouble?).map (sexagesimalFrom 0 1)

/-- The magnitude of a double; `signed` when a sign stood before it. -/
def double? (signed : Bool) (cs : List Char) : Option (Except ScalarError Float) :=
  if infinityWords.contains cs then some (.ok (infinity false))
  else if nanWords.contains cs && !signed then some (.ok notANumber)
  else
    let run := cs.takeWhile (orUnderscore Char.isDigit)
    let rest := cs.dropWhile (orUnderscore Char.isDigit)
    match run, rest with
    | [], '.' :: places =>
      if !signed && isDigitRun (places.takeWhile (orUnderscore Char.isDigit)) && isPlaces places then
        (readDouble? (withoutUnderscores cs)).map .ok
      else none
    | _, '.' :: places =>
      if isDigitRun run && isPlaces places then (readDouble? (withoutUnderscores cs)).map .ok else none
    | _, ':' :: _ =>
      match (colonParts cs).reverse with
      | last :: before =>
        let places := before.reverse.drop 1
        let lastWhole := last.takeWhile Char.isDigit
        let isLast := match last.dropWhile Char.isDigit with
          | '.' :: ds => ds.all (orUnderscore Char.isDigit)
          | _         => false
        if isDigitRun run && places.all isSixtieth && isSixtieth lastWhole && isLast then
          sexagesimal? (colonParts (withoutUnderscores cs))
        else none
      | [] => none
    | _, _ => none

def ofPlain (cs : List Char) : Except ScalarError Yaml :=
  if nullWords.contains cs then .ok .null
  else if trueWords.contains cs then .ok (.bool true)
  else if falseWords.contains cs then .ok (.bool false)
  else
    let (negative, digits) := splitSign cs
    let signed := digits.length < cs.length
    match double? signed digits with
    | some (.ok x)    => .ok (.double (if negative then -x else x))
    | some (.error e) => .error e
    | none            =>
      match wholeNumber? digits with
      | some (.ok n)    => .ok (.int (if negative then -(n : Int) else n))
      | some (.error e) => .error e
      | none            => .ok (.str cs)

end Abacus.Yaml
