import Abacus.Event
import Abacus.Files
import Abacus.Json.Read
import Abacus.Text.Blank
import Abacus.Text.Lines
import Abacus.Text.Utf8
/-!
# The journal of a project

Events are kept as lines of JSON, appended to one log of the project and, for an event of a session whose name is
accepted, to the log of that session.  Reading looks at no more than a number of bytes at the end of a log, and
skips the lines that are not JSON.  The log of all events is answered latest first and the log of a session oldest
first.

What makes directories or adds to a log returns the store also when it fails, with what has been done until then.
-/
namespace Abacus

structure Journal where
  project : Path
  syncs : Bool
  tailBytes : Int

inductive ReadFailure
  | file (e : FileError)
  | tooManyDigits (count : Nat)
  | tooDeep
  /-- the window would have to start at an offset beyond those that a file can have -/
  | offsetTooLarge
  | notAnObject
  deriving DecidableEq, Repr

def ReadFailure.message? : ReadFailure → Option (List Char)
  | .file e          => e.message?
  | .tooManyDigits n => some (digitLimitMessage (some n))
  | .offsetTooLarge  => some "Python int too large to convert to C long".toList
  | .tooDeep         => none
  | .notAnObject     => none

inductive WriteFailure
  | file (e : FileError)
  /-- the event nests too deep to be recorded, or has a number with too many digits -/
  | unrecordable
  deriving DecidableEq, Repr

/-- What is said of a write of the event that has failed.  Its depth is looked at before its numbers. -/
def WriteFailure.message? (e : Event) : WriteFailure → Option (List Char)
  | .file e       => e.message?
  | .unrecordable =>
    some (if Event.maxHeight < Json.heightFields e.context then unrecordableMessage else digitLimitMessage none)

namespace Journal

def defaultTailBytes : Int := 2 * 1024 * 1024

def maxEvents : Int := 2000

def logsDir (project : Path) : Path := project.child "logs".toList

def sessionsDir (project : Path) : Path := (logsDir project).child "sessions".toList

def globalLog (project : Path) : Path := (logsDir project).child "events.ndjson".toList

def sessionLog (project : Path) (session : List Char) : Path :=
  (sessionsDir project).child (session ++ ".ndjson".toList)

def isNameChar (c : Char) : Bool := c.isAlphanum || c == '_' || c == '-'

/-- Whether a session may have a log of its own: its name has letters, digits, underscores and hyphens only, and
perhaps a newline at its end. -/
def accepts (session : List Char) : Bool :=
  let name := if session.getLast? = some '\n' then session.dropLast else session
  !name.isEmpty && name.all isNameChar

def start (fs : Files) (project : Path) (syncs : Bool) (tailBytes : Option Int) :
    Files × Except FileError Journal :=
  match fs.makeDirs (logsDir project) with
  | (fs, some e) => (fs, .error e)
  | (fs, none)   =>
    match fs.makeDir (sessionsDir project) with
    | .error e => (fs, .error e)
    | .ok fs   => (fs, .ok ⟨project, syncs, tailBytes.getD defaultTailBytes⟩)

/-! ## Writing -/

/-- Appends a line to a log, whose directory is made again if it is gone.  The store comes back even if that
fails. -/
def append (fs : Files) (log : Path) (line : List Char) : Files × Option FileError :=
  match fs.makeDirs log.parent with
  | (fs, some e) => (fs, some e)
  | (fs, none)   =>
    match fs.append log (Utf8.encode line) with
    | .error e => (fs, some e)
    | .ok fs   => (fs, none)

def write (j : Journal) (fs : Files) (e : Event) (session : Option (List Char)) :
    Files × Option WriteFailure :=
  if !e.isRecordable then (fs, some .unrecordable)
  else
    match append fs (globalLog j.project) e.line with
    | (fs, some e) => (fs, some (.file e))
    | (fs, none)   =>
      match session with
      | none      => (fs, none)
      | some name =>
        if accepts name then
          let (fs, failure) := append fs (sessionLog j.project name) e.line
          (fs, failure.map .file)
        else (fs, none)

/-! ## Reading -/

/-- The last `window` bytes; when that cuts bytes off, also the line that the cut may have torn goes. -/
def tail (window : Nat) (bytes : List UInt8) : List UInt8 :=
  if bytes.length ≤ window then bytes
  else
    let kept := bytes.drop (bytes.length - window)
    match kept.dropWhile (· != 10) with
    | []        => kept
    | _ :: rest => rest

/-- The values on lines; a line that is blank or no JSON does not count. -/
def valuesOn : List (List Char) → Except ReadFailure (List Json)
  | []            => .ok []
  | line :: lines =>
    match Json.read (strip line) with
    | .ok v                     => (valuesOn lines).map (v :: ·)
    | .error .malformed         => valuesOn lines
    | .error (.tooManyDigits n) => .error (.tooManyDigits n)
    | .error .tooDeep           => .error .tooDeep

def maxOffset : Int := 9223372036854775807

/-- The values in a log, oldest first; none if there is no such log.  A window of less than nothing would start after
the end of the log. -/
def readLog (j : Journal) (fs : Files) (log : Path) : Except ReadFailure (List Json) :=
  match fs.exists? log with
  | .error e  => .error (.file e)
  | .ok false => .ok []
  | .ok true  =>
    if j.tailBytes < 0 then
      .error (if maxOffset < (fs.size log : Int) - j.tailBytes then .offsetTooLarge else .file .invalidArgument)
    else
      match fs.read log with
      | .error e  => .error (.file e)
      | .ok bytes => valuesOn (logLines (Utf8.decode (tail j.tailBytes.toNat bytes)))

def fieldOf (key : List Char) : Json → Except ReadFailure (Option Json)
  | .obj fields => .ok (List.lookup key fields)
  | _           => .error .notAnObject

def isText (text : List Char) : Option Json → Bool
  | some (.str s) => s == text
  | _             => false

/-- The values whose field has a text.  No text, or an empty one, filters nothing. -/
def filterBy (key : List Char) (text : Option (List Char)) (vs : List Json) :
    Except ReadFailure (List Json) :=
  match text with
  | none      => .ok vs
  | some text =>
    if text.isEmpty then .ok vs
    else vs.filterM fun v => (fieldOf key v).map (isText text)

/-- The first `limit` of a list; a negative limit takes so many from its end instead. -/
def takeLimit (limit : Int) (vs : List Json) : List Json :=
  if 0 ≤ limit then vs.take limit.toNat else vs.take (vs.length - limit.natAbs)

def readGlobal (j : Journal) (fs : Files) (level kind : Option (List Char)) (limit : Int) :
    Except ReadFailure (List Json) := do
  let vs ← j.readLog fs (globalLog j.project)
  let vs ← filterBy "level".toList level vs
  let vs ← filterBy "event_type".toList kind vs
  .ok (takeLimit (min limit maxEvents) vs.reverse)

def readSession (j : Journal) (fs : Files) (session : List Char) : Except ReadFailure (List Json) :=
  if accepts session then j.readLog fs (sessionLog j.project session) else .ok []

end Journal

end Abacus
