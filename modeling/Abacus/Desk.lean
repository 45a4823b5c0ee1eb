import Abacus.Journal
import Abacus.Settings
import Abacus.Text.Controls
/-!
# The desk

Everything a command works with: the store of files, the journal that is attached, if one is, the clocks, and
what has been written to the two output streams, in which no control sequences are.  Recording an event never fails:
when the journal cannot be written, the desk warns, and it warns at most once a minute.

The clock that times the warnings may show any numbers that tell whether a minute has passed.  A running program
counts seconds in doubles.
-/
namespace Abacus

/-- Instants of a clock that only goes forward. -/
class Instant (τ : Type) where
  /-- whether less than a minute passes from the one to the other -/
  withinMinute (earlier later : τ) : Bool

instance : Instant Float := ⟨fun earlier later => later - earlier < 60⟩

instance : Instant Rat := ⟨fun earlier later => later - earlier < 60⟩

structure Desk (τ : Type) where
  files : Files
  journal : Option Journal
  /-- when the last warning was given, on the clock that only goes forward -/
  lastWarned : Option τ
  now : τ
  stamp : List Char
  sessions : Nat
  out : List Char
  err : List Char

inductive AttachError
  | file (e : FileError)
  | conversion (e : ConversionError)
  deriving DecidableEq, Repr

namespace Desk

variable {τ : Type}

def print (d : Desk τ) (text : List Char) : Desk τ := { d with out := d.out ++ withoutControls text }

def printLine (d : Desk τ) (text : List Char) : Desk τ := d.print (text ++ ['\n'])

def complainLine (d : Desk τ) (text : List Char) : Desk τ :=
  { d with err := d.err ++ withoutControls text ++ ['\n'] }

/-! ## Warnings -/

/-- Whether the last warning is too recent for another. -/
def isQuiet [Instant τ] (d : Desk τ) : Bool :=
  match d.lastWarned with
  | some t => Instant.withinMinute t d.now
  | none   => false

/-- Gives a warning; its text is written as it is. -/
def warn [Instant τ] (d : Desk τ) (text : List Char) : Desk τ :=
  if d.isQuiet then d
  else { d with err := d.err ++ "[exprcalc] ".toList ++ text ++ ['\n'], lastWarned := some d.now }

/-! ## The journal -/

def emit [Instant τ] (d : Desk τ) (e : Event) (session : Option (List Char)) : Desk τ :=
  match d.journal with
  | none   => d
  | some j =>
    let (files, failure) := j.write d.files e.truncated.attributed session
    let d := { d with files := files }
    match failure with
    | none   => d
    | some _ => d.warn "logging failed".toList

def eventOf (d : Desk τ) (level : Level) (kind : EventKind) (message : List Char) (context : Fields)
    (code : Option (List Char)) : Event :=
  ⟨Event.currentVersion, d.stamp, level, kind, context, message, code⟩

def detach (d : Desk τ) : Desk τ := { d with journal := none }

def attachAs (d : Desk τ) (project : Path) (s : Settings) : Desk τ × Except AttachError Unit :=
  if !s.logs then (d.detach, .ok ())
  else
    match s.tailBytes with
    | .error e      => (d, .error (.conversion e))
    | .ok tailBytes =>
      match Journal.start d.files project s.syncs tailBytes with
      | (fs, .error e) => ({ d with files := fs }, .error (.file e))
      | (fs, .ok j)    => ({ d with files := fs, journal := some j }, .ok ())

/-- Attaches the journal of a project, whose path is given as it is written.  Settings that cannot be read count as
the defaults, with a warning.  On an error the journal stays as it was. -/
def attach [Instant τ] (d : Desk τ) (dir : List Char) : Desk τ × Except AttachError Unit :=
  let project := Path.ofText dir
  match Settings.load d.files project with
  | .ok s    => d.attachAs project s
  | .error e =>
    match e.overflow? with
    | some o => (d, .error (.conversion (.overflow o)))
    | none   =>
      (d.warn ("could not read config in ".toList ++ dir ++ "; using defaults".toList)).attachAs
        project Settings.default

def sessionName (n : Nat) : List Char := paddedText 12 n

def newSession (d : Desk τ) : Desk τ × List Char :=
  let d := { d with sessions := d.sessions + 1 }
  (d, sessionName d.sessions)

end Desk

end Abacus
