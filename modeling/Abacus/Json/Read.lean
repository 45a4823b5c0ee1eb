import Abacus.Assoc
import Abacus.Json.Basic
import Abacus.Decimal.Numeral
import Abacus.Text.Surrogates
/-!
# Reading JSON

The grammar of JSON with the numbers `NaN`, `Infinity` and `-Infinity`.  Strings hold no raw controls.  A number
with a point or an exponent is a double, any other is exact, but may not have too many digits.  Half of a surrogate
pair that stands alone reads as the replacement character.  Of equal keys the last one counts.

Lists and objects may be in one another, but not to any depth, so the reader of a value is a recursion on the levels
that are left.
-/
namespace Abacus.Json

def isSpace (c : Char) : Bool := c == ' ' || c == '\t' || c == '\n' || c == '\r'

def skipSpace (cs : List Char) : List Char := cs.dropWhile isSpace

inductive ReadError
  | malformed
  | tooManyDigits (count : Nat)
  | tooDeep
  deriving DecidableEq, Repr

abbrev Reader (α : Type) := List Char → Except ReadError (α × List Char)

/-! ## Strings -/

def hexValue? (c : Char) : Option Nat :=
  if c.isDigit then some (c.toNat - 48)
  else if 'a' ≤ c && c ≤ 'f' then some (c.toNat - 87)
  else if 'A' ≤ c && c ≤ 'F' then some (c.toNat - 55)
  else none

def codeUnit? : List Char → Option Nat
  | [a, b, c, d] => do
    let a ← hexValue? a
    let b ← hexValue? b
    let c ← hexValue? c
    let d ← hexValue? d
    return ((a * 16 + b) * 16 + c) * 16 + d
  | _ => none

def letterEscape? : Char → Option Char
  | '"'  => some '"'
  | '\\' => some '\\'
  | '/'  => some '/'
  | 'b'  => some (Char.ofNat 8)
  | 'f'  => some (Char.ofNat 12)
  | 'n'  => some '\n'
  | 'r'  => some '\r'
  | 't'  => some '\t'
  | _    => none

/-- What a string is made of: characters, and code units written as escapes. -/
inductive Piece
  | char (c : Char)
  | unit (n : Nat)

def pieces : List Char → Option (List Piece × List Char)
  | [] => none
  | '"' :: rest => some ([], rest)
  | '\\' :: 'u' :: a :: b :: c :: d :: rest => do
    let n ← codeUnit? [a, b, c, d]
    let (more, rest) ← pieces rest
    return (.unit n :: more, rest)
  | '\\' :: e :: rest => do
    let c ← letterEscape? e
    let (more, rest) ← pieces rest
    return (.char c :: more, rest)
  | c :: rest =>
    if c.toNat < 0x20 || c == '\\' then none
    else do
      let (more, rest) ← pieces rest
      return (.char c :: more, rest)

/-- What the first half of a surrogate pair stands for when the second does not follow. -/
def alone : Option Nat → List Char
  | some _ => [surrogateReplacement]
  | none   => []

/-- The characters that pieces spell; `high` is the first half of a pair, if one is just before them. -/
def joined : Option Nat → List Piece → List Char
  | high, []              => alone high
  | high, .char c :: rest => alone high ++ c :: joined none rest
  | high, .unit n :: rest =>
    if isHighSurrogate n then alone high ++ joined (some n) rest
    else
      match high, isLowSurrogate n with
      | some h, true => charOfPair h n :: joined none rest
      | _, _         => alone high ++ charOfUnit n :: joined none rest

def string : Reader (List Char) := fun cs =>
  match pieces cs with
  | some (ps, rest) => .ok (joined none ps, rest)
  | none            => .error .malformed

/-! ## Numbers -/

/-- Digits without a needless zero in front. -/
def wholeDigits : List Char → List Char × List Char
  | '0' :: rest => (['0'], rest)
  | cs          => (cs.takeWhile Char.isDigit, cs.dropWhile Char.isDigit)

def fraction : List Char → Option (List Char) × List Char
  | '.' :: rest =>
    let ds := rest.takeWhile Char.isDigit
    if ds.isEmpty then (none, '.' :: rest) else (some ds, rest.dropWhile Char.isDigit)
  | cs => (none, cs)

def exponent : List Char → Option Int × List Char
  | c :: rest =>
    let (negative, after) := splitSign rest
    let ds := after.takeWhile Char.isDigit
    if (c == 'e' || c == 'E') && !ds.isEmpty then
      (some (if negative then -(natOfDigits ds : Int) else natOfDigits ds), after.dropWhile Char.isDigit)
    else (none, c :: rest)
  | [] => (none, [])

def wholeNumber (negative : Bool) (ds : List Char) : Except ReadError Json :=
  match numberOfDigits ds with
  | .ok n    => .ok (.int (if negative then -(n : Int) else n))
  | .error _ => .error (.tooManyDigits ds.length)

def number : Reader Json := fun cs =>
  let (negative, cs) := match cs with
    | '-' :: rest => (true, rest)
    | cs          => (false, cs)
  let (whole, rest) := wholeDigits cs
  let (places, rest) := fraction rest
  let (e, rest) := exponent rest
  if whole.isEmpty then .error .malformed
  else
    match places, e with
    | none, none => (wholeNumber negative whole).map fun v => (v, rest)
    | _, _       =>
      let places := places.getD []
      let d : Decimal := ⟨natOfDigits (whole ++ places), e.getD 0 - places.length⟩
      .ok (.double (d.toDouble negative), rest)

/-! ## Values -/

def moreItems (value : Reader Json) : Nat → Reader (List Json)
  | 0, _           => .error .malformed
  | rounds + 1, cs =>
    match skipSpace cs with
    | ']' :: rest => .ok ([], rest)
    | ',' :: rest => do
      let (v, rest) ← value (skipSpace rest)
      let (vs, rest) ← moreItems value rounds rest
      .ok (v :: vs, rest)
    | _ => .error .malformed

def array (value : Reader Json) : Reader (List Json) := fun cs =>
  match skipSpace cs with
  | ']' :: rest => .ok ([], rest)
  | start       => do
    let (v, rest) ← value start
    let (vs, rest) ← moreItems value start.length rest
    .ok (v :: vs, rest)

def field (value : Reader Json) : Reader (List Char × Json)
  | '"' :: cs => do
    let (key, rest) ← string cs
    match skipSpace rest with
    | ':' :: rest =>
      let (v, rest) ← value (skipSpace rest)
      .ok ((key, v), rest)
    | _ => .error .malformed
  | _ => .error .malformed

def moreFields (value : Reader Json) : Nat → Reader Fields
  | 0, _           => .error .malformed
  | rounds + 1, cs =>
    match skipSpace cs with
    | '}' :: rest => .ok ([], rest)
    | ',' :: rest => do
      let (f, rest) ← field value (skipSpace rest)
      let (fs, rest) ← moreFields value rounds rest
      .ok (f :: fs, rest)
    | _ => .error .malformed

def fields (value : Reader Json) : Reader Fields := fun cs =>
  match skipSpace cs with
  | '}' :: rest => .ok ([], rest)
  | start       => do
    let (f, rest) ← field value start
    let (fs, rest) ← moreFields value start.length rest
    .ok (f :: fs, rest)

def words : List (List Char × Json) :=
  [("null".toList, .null), ("true".toList, .bool true), ("false".toList, .bool false),
   ("NaN".toList, .double notANumber), ("Infinity".toList, .double (infinity false)),
   ("-Infinity".toList, .double (infinity true))]

def word? (cs : List Char) : Option (Json × List Char) :=
  words.findSome? fun (name, v) => (name.isPrefixOf? cs).map fun rest => (v, rest)

/-- A value in which lists and objects are in one another to so many levels at most. -/
def value : Nat → Reader Json
  | _, '"' :: rest          => (string rest).map fun (s, rest) => (.str s, rest)
  | depth + 1, '[' :: rest  => (array (value depth) rest).map fun (vs, rest) => (.arr vs, rest)
  | depth + 1, '{' :: rest  =>
    (fields (value depth) rest).map fun (fs, rest) => (.obj (Assoc.update [] fs), rest)
  | 0, '[' :: _             => .error .tooDeep
  | 0, '{' :: _             => .error .tooDeep
  | _, cs =>
    match word? cs with
    | some found => .ok found
    | none       => number cs

def maxDepth : Nat := 990

def read (cs : List Char) : Except ReadError Json :=
  match value maxDepth (skipSpace cs) with
  | .ok (v, rest) => if (skipSpace rest).isEmpty then .ok v else .error .malformed
  | .error e      => .error e

end Abacus.Json
