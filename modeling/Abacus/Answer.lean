import Abacus.Decimal.Fixed
import Abacus.Decimal.Numeral
/-!
# Answers

How a result is presented: whether it is ordinary, the warning it deserves otherwise, and its text with a
fixed number of places.  Evaluation never fails on infinite or undefined results; they are flagged here.
-/
namespace Abacus

inductive Status
  | ok | nan | infinite | large
  deriving DecidableEq, Repr

namespace Status

def label : Status → List Char
  | .ok       => "ok".toList
  | .nan      => "nan".toList
  | .infinite => "infinite".toList
  | .large    => "large".toList

def warning? : Status → Option (List Char)
  | .ok       => none
  | .nan      => some "Answer is not a number!".toList
  | .infinite => some "Answer is infinity!".toList
  | .large    => some "Answer is really large, possible singularity".toList

def defaultThreshold : Float := 1e12

def classify (threshold x : Float) : Status :=
  if x.isNaN then .nan
  else if x.isInf then .infinite
  else if x.abs > threshold then .large
  else .ok

end Status

def defaultPlaces : Int := 10

/-- Numbers of places that no text can have. -/
inductive PlacesError
  | negative | tooBig | unreadable | unwritable
  deriving DecidableEq, Repr

def PlacesError.message : PlacesError → List Char
  | .negative   => "Format specifier missing precision".toList
  | .tooBig     => "precision too big".toList
  | .unreadable => "Too many decimal digits in format string".toList
  | .unwritable => digitLimitMessage none

def answerText (places : Int) (x : Float) : Except PlacesError (List Char) :=
  if isUnwritable places then .error .unwritable
  else if places < 0 then .error .negative
  else if 0x8000000000000000 ≤ places then .error .unreadable
  else if 0x80000000 ≤ places then .error .tooBig
  else .ok (fixedText places.toNat x)

end Abacus
