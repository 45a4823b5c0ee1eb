import Abacus.Assoc
import Abacus.Expr.Value
import Abacus.Decimal.Numeral
import Abacus.Text.Pieces
import Abacus.Text.Quoted
/-!
# Values given on the command line

An item is a name and a numeral with an equals sign between them; blanks around the name do not count.  The
last value of a name holds, in the place of the first.
-/
namespace Abacus

inductive OverrideError
  | noEquals (item : List Char)
  | notANumeral (name value : List Char)
  deriving DecidableEq, Repr

def OverrideError.message : OverrideError → List Char
  | .noEquals item =>
    "Invalid --set format: ".toList ++ quoted item ++ ". Use name=value.".toList
  | .notANumeral name value =>
    "Incorrect value for the variable '".toList ++ name ++ "': ".toList ++ quoted value

def readOverride (item : List Char) : Except OverrideError (List Char × Float) :=
  match splitAtFirst '=' item with
  | none => .error (.noEquals item)
  | some (name, value) =>
    match readDouble? value with
    | some x => .ok (strip name, x)
    | none   => .error (.notANumeral (strip name) value)

def readOverrides (c : Context) : List (List Char) → Except OverrideError Context
  | []            => .ok c
  | item :: items => do
    let (name, x) ← readOverride item
    readOverrides (Assoc.set name x c) items

end Abacus
