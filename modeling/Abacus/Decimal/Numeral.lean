import Abacus.Text.Blank
import Abacus.Text.Digit
import Abacus.Decimal.Basic
/-!
# Numerals

Texts that spell a number.  Both readers strip blanks (but not the four ASCII information separators, which
are blanks elsewhere), take the digits of every script, a sign in front, and single underscores between
digits.  `readDouble?` takes a decimal with an optional point and exponent,
or infinity or not-a-number by name, and rounds correctly; `readInt` takes digits only, and not too many of them.
-/
namespace Abacus

def isNumeralBlank (c : Char) : Bool := isBlank c && !(0x1C ≤ c.toNat && c.toNat ≤ 0x1F)

def numeralOf (text : List Char) : List Char := (trim isNumeralBlank text).map toAsciiDigit

/-- Removes the underscores, each of which must stand between two digits. -/
def dropUnderscores (previous : Char) : List Char → Option (List Char)
  | []      => some []
  | c :: cs =>
    if c == '_' then
      if previous.isDigit && (match cs with | next :: _ => next.isDigit | [] => false) then
        dropUnderscores c cs
      else none
    else (dropUnderscores c cs).map (c :: ·)

def splitSign : List Char → Bool × List Char
  | '+' :: cs => (false, cs)
  | '-' :: cs => (true, cs)
  | cs        => (false, cs)

def readExponent? : List Char → Option Int
  | []      => some 0
  | c :: cs =>
    if c == 'e' || c == 'E' then
      let (negative, ds) := splitSign cs
      if !ds.isEmpty && ds.all Char.isDigit then
        some (if negative then -(natOfDigits ds : Int) else natOfDigits ds)
      else none
    else none

/-- An unsigned decimal literal: digits with an optional point among or around them, then an optional
exponent. -/
def readDecimal? (cs : List Char) : Option Decimal :=
  let whole := cs.takeWhile Char.isDigit
  let rest := cs.dropWhile Char.isDigit
  let (places, rest) := match rest with
    | '.' :: more => (more.takeWhile Char.isDigit, more.dropWhile Char.isDigit)
    | other       => ([], other)
  if whole.isEmpty && places.isEmpty then none
  else (readExponent? rest).map fun e => ⟨natOfDigits (whole ++ places), e - places.length⟩

def readNamed? (negative : Bool) (cs : List Char) : Option Float :=
  let name := cs.map Char.toLower
  if name == "inf".toList || name == "infinity".toList then some (infinity negative)
  else if name == "nan".toList then some notANumber
  else none

def readUnsigned? (negative : Bool) (cs : List Char) : Option Float :=
  match readNamed? negative cs with
  | some x => some x
  | none   =>
    ((dropUnderscores ' ' cs).bind readDecimal?).map (Decimal.toDouble negative)

def readDouble? (text : List Char) : Option Float :=
  let (negative, cs) := splitSign (numeralOf text)
  readUnsigned? negative cs

/-! ## Whole numbers -/

/-- The digits that a whole number may have where it is read or written in base ten. -/
def maxDigits : Nat := 4300

inductive IntError
  | notANumeral
  | tooManyDigits (count : Nat)
  deriving DecidableEq, Repr

def digitLimitMessage (count : Option Nat) : List Char :=
  "Exceeds the limit (".toList ++ natText maxDigits ++ " digits) for integer string conversion".toList ++
    (match count with
      | some n => ": value has ".toList ++ natText n ++ " digits".toList
      | none   => []) ++
    "; use sys.set_int_max_str_digits() to increase the limit".toList

def numberOfDigits (ds : List Char) : Except IntError Nat :=
  if maxDigits < ds.length then .error (.tooManyDigits ds.length) else .ok (natOfDigits ds)

def isUnwritable (n : Int) : Bool := Nat.pow 10 maxDigits ≤ n.natAbs

/-- The whole number that a text spells.  Its digits are counted before anything after them is looked at. -/
def readInt (text : List Char) : Except IntError Int :=
  let (negative, cs) := splitSign (numeralOf text)
  match dropUnderscores ' ' (cs.takeWhile fun c => c.isDigit || c == '_') with
  | none    => .error .notANumeral
  | some ds => do
    if ds.isEmpty then .error .notANumeral
    let n ← numberOfDigits ds
    if (cs.dropWhile fun c => c.isDigit || c == '_').isEmpty then .ok (if negative then -(n : Int) else n)
    else .error .notANumeral

def readInt? (text : List Char) : Option Int := (readInt text).toOption

end Abacus
