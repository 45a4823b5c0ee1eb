import Abacus.Token.Basic
import Abacus.Text.Numeric
import Abacus.Decimal.Numeral
/-!
# Scanning a formula into tokens

Blanks separate tokens and belong to none.  A digit or a point starts a number, which goes on through
digits, points, exponent marks and a sign right after such a mark, and only then has to be a numeral.  A
letter starts a name, which goes on through alphanumeric characters.  Eight characters are tokens by
themselves; any other is an error.
-/
namespace Abacus

inductive ScanFault
  | unknownChar (c : Char)
  | invalidNumber (text : List Char)
  deriving DecidableEq, Repr

structure ScanError where
  fault : ScanFault
  position : Nat
  deriving DecidableEq, Repr

def ScanError.message (e : ScanError) : List Char :=
  match e.fault with
  | .unknownChar c =>
    "unknown token '".toList ++ c :: "' at position ".toList ++ natText e.position
  | .invalidNumber text => "invalid number: ".toList ++ text

def startsNumber (c : Char) : Bool := c.isDigit || c == '.'

def isExponentMark (c : Char) : Bool := c == 'e' || c == 'E'

/-- Whether a character goes on a number that `previous` is the last character of. -/
def extendsNumber (previous c : Char) : Bool :=
  c.isDigit || c == '.' || isExponentMark c || ((c == '+' || c == '-') && isExponentMark previous)

/-- The rest of a number whose last character so far is `previous`, and what follows the number. -/
def numberTail (previous : Char) : List Char → List Char × List Char
  | []      => ([], [])
  | c :: cs =>
    if extendsNumber previous c then
      let (more, rest) := numberTail c cs
      (c :: more, rest)
    else ([], c :: cs)

theorem numberTail_append (previous : Char) (cs : List Char) :
    (numberTail previous cs).1 ++ (numberTail previous cs).2 = cs := by
  induction cs generalizing previous with
  | nil => rfl
  | cons c cs ih =>
    unfold numberTail
    split
    · simp [ih c]
    · rfl

theorem length_numberTail_le (previous : Char) (cs : List Char) :
    (numberTail previous cs).2.length ≤ cs.length := by
  have h := congrArg List.length (numberTail_append previous cs)
  rw [List.length_append] at h
  omega

/-- Scans the characters after the first `position` that are not blank. -/
def scanFrom (position : Nat) : List Char → Except ScanError (List Token)
  | []      => .ok []
  | c :: cs =>
    if isBlank c then scanFrom position cs
    else if startsNumber c then
      let text := c :: (numberTail c cs).1
      if (readDouble? text).isSome then
        have := length_numberTail_le c cs
        (scanFrom (position + text.length) (numberTail c cs).2).map (⟨.number, text, position⟩ :: ·)
      else .error ⟨.invalidNumber text, position⟩
    else if isLetter c then
      let text := c :: cs.takeWhile isAlphanumeric
      have : (cs.dropWhile isAlphanumeric).length ≤ cs.length := (List.dropWhile_sublist _).length_le
      (scanFrom (position + text.length) (cs.dropWhile isAlphanumeric)).map
        (⟨.name, text, position⟩ :: ·)
    else
      match TokenKind.ofChar? c with
      | some kind => (scanFrom (position + 1) cs).map (⟨kind, [c], position⟩ :: ·)
      | none      => .error ⟨.unknownChar c, position⟩
termination_by cs => cs.length
decreasing_by all_goals simp only [List.length_cons]; omega

def scan (text : List Char) : Except ScanError (List Token) := scanFrom 0 text

end Abacus
