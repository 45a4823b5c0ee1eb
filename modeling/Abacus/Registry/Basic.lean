import Abacus.Arithmetic
import Abacus.Decimal.Shortest
import Abacus.Text.Lower
import Abacus.Text.Order
/-!
# Functions by name

A registry maps lower-case names to functions; registering a name again replaces what it stood for.  A
function declares how many arguments it takes, which calls are held to, and applies to a list of them.
-/
namespace Abacus

inductive DomainError
  | negativeRoot (x : Float)
  | nonPositiveLog (x : Float)
  | emptyInterval (low high : Float)

namespace DomainError

def function : DomainError → List Char
  | .negativeRoot _    => "sqrt".toList
  | .nonPositiveLog _  => "log".toList
  | .emptyInterval _ _ => "clamp".toList

def message : DomainError → List Char
  | .negativeRoot x   => "sqrt of a negative number: ".toList ++ doubleText x
  | .nonPositiveLog x => "log of a non-positive number: ".toList ++ doubleText x
  | .emptyInterval low high =>
    "clamp lower bound ".toList ++ doubleText low ++ " is greater than upper bound ".toList ++
      doubleText high

end DomainError

inductive EvalError
  | unknownVariable (name : List Char)
  | unknownFunction (name : List Char)
  | arityMismatch (name : List Char) (expected : Int) (actual : Nat)
  | domain (e : DomainError)

inductive EvalErrorKind
  | unknownVariable | unknownFunction | arityMismatch | domainViolation
  deriving DecidableEq, Repr

namespace EvalErrorKind

def label : EvalErrorKind → List Char
  | .unknownVariable => "unknown_variable".toList
  | .unknownFunction => "unknown_function".toList
  | .arityMismatch   => "arity_mismatch".toList
  | .domainViolation => "domain_violation".toList

end EvalErrorKind

namespace EvalError

def kind : EvalError → EvalErrorKind
  | .unknownVariable _   => .unknownVariable
  | .unknownFunction _   => .unknownFunction
  | .arityMismatch _ _ _ => .arityMismatch
  | .domain _            => .domainViolation

def name : EvalError → List Char
  | .unknownVariable name   => name
  | .unknownFunction name   => name
  | .arityMismatch name _ _ => name
  | .domain e               => e.function

def message : EvalError → List Char
  | .unknownVariable name => "Unknown variable: ".toList ++ name
  | .unknownFunction name => "Unknown function: ".toList ++ name
  | .arityMismatch name expected actual =>
    "Function '".toList ++ name ++ "' expects ".toList ++ intText expected ++ " argument".toList ++
      (if expected = 1 then [] else ['s']) ++ ", but received ".toList ++ natText actual
  | .domain e => e.message

end EvalError

/-- Why an evaluation ends without a value: the formula is refused, an operation faulted, or a function was
registered for a number of arguments that it does not take. -/
inductive EvalFailure
  | refused (e : EvalError)
  | fault (f : Fault)
  | misapplied

structure Builtin where
  name : List Char
  arity : Int
  apply : List Float → Except EvalFailure Float

/-- Functions, at most one to a name, in the order in which the names were first registered. -/
structure Registry where
  builtins : List Builtin

namespace Registry

def find? (r : Registry) (name : List Char) : Option Builtin :=
  r.builtins.find? fun b => b.name == lower name

def put (b : Builtin) : List Builtin → List Builtin
  | []      => [b]
  | c :: cs => if c.name = b.name then b :: cs else c :: put b cs

theorem find?_put (b : Builtin) (bs : List Builtin) (name : List Char) :
    (put b bs).find? (fun c => c.name == name) =
      if b.name = name then some b else bs.find? fun c => c.name == name := by
  induction bs with
  | nil => by_cases h : b.name = name <;> simp [put, h]
  | cons c bs ih =>
    rw [put]
    by_cases hc : c.name = b.name
    · rw [if_pos hc]
      by_cases h : b.name = name <;> simp [hc, h]
    · rw [if_neg hc]
      by_cases h : c.name = name
      · have hb : b.name ≠ name := fun hb => hc (h.trans hb.symm)
        simp [h, hb]
      · simpa [h] using ih

def register (r : Registry) (name : List Char) (arity : Int)
    (apply : List Float → Except EvalFailure Float) : Registry :=
  ⟨put ⟨lower name, arity, apply⟩ r.builtins⟩

def names (r : Registry) : List (List Char) :=
  (r.builtins.map Builtin.name).mergeSort textLe

/-- Calls a function by name: it has to be there and to take that many arguments. -/
def call (r : Registry) (name : List Char) (args : List Float) : Except EvalFailure Float :=
  match r.find? name with
  | none   => .error (.refused (.unknownFunction name))
  | some b =>
    if (args.length : Int) = b.arity then b.apply args
    else .error (.refused (.arityMismatch name b.arity args.length))

end Registry

end Abacus
