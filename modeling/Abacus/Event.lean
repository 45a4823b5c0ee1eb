import Abacus.Assoc
import Abacus.Json.Print
/-!
# Events

What the log records: a level, a kind, a message and a context of named values.  Before an event is logged, the
long strings of its context are cut, and an event whose context lacks a key that its kind requires becomes a
warning that names the missing keys.
-/
namespace Abacus

inductive Level
  | info | warning | error
  deriving DecidableEq, Repr

namespace Level

def all : List Level := [.info, .warning, .error]

def label : Level → List Char
  | .info    => "info".toList
  | .warning => "warning".toList
  | .error   => "error".toList

def ofLabel? (text : List Char) : Option Level := all.find? fun l => l.label == text

end Level

inductive EventKind
  | sessionStarted | sessionEnded | parseCompleted | parseFailed | evalCompleted | evalFailed | resultWarning
  deriving DecidableEq, Repr

namespace EventKind

def all : List EventKind :=
  [.sessionStarted, .sessionEnded, .parseCompleted, .parseFailed, .evalCompleted, .evalFailed, .resultWarning]

def label : EventKind → List Char
  | .sessionStarted => "session_started".toList
  | .sessionEnded   => "session_ended".toList
  | .parseCompleted => "parse_completed".toList
  | .parseFailed    => "parse_failed".toList
  | .evalCompleted  => "eval_completed".toList
  | .evalFailed     => "eval_failed".toList
  | .resultWarning  => "result_warning".toList

def ofLabel? (text : List Char) : Option EventKind := all.find? fun k => k.label == text

/-- The keys that the context of such an event has to have, in order.  An evaluation may fail while values are
still being read, so its failure requires none. -/
def required : EventKind → List (List Char)
  | .parseCompleted | .parseFailed | .evalCompleted => ["expression".toList]
  | .resultWarning                                  => ["status".toList]
  | _                                               => []

end EventKind

/-- What is wrong with an event whose context nests too deep. -/
def unrecordableMessage : List Char := "Maximum serialization depth exceeded".toList

structure Event where
  version : Int
  stamp : List Char
  level : Level
  kind : EventKind
  context : Fields
  message : List Char
  code : Option (List Char)

namespace Event

def currentVersion : Int := 1

/-- The event as it is recorded; its context keeps to the numbers that JSON has. -/
def toJson (e : Event) : Json :=
  .obj
    [("schema_version".toList, .int e.version), ("ts".toList, .str e.stamp),
     ("level".toList, .str e.level.label), ("event_type".toList, .str e.kind.label),
     ("context".toList, .obj (Json.strictFields e.context)), ("message".toList, .str e.message),
     ("error_code".toList, match e.code with | some code => .str code | none => .null)]

def maxHeight : Nat := 255

/-- Whether the event can be recorded: its context must not nest too deep, and no number in it may have too many
digits. -/
def isRecordable (e : Event) : Bool := Json.heightFields e.context ≤ maxHeight && e.toJson.isWritable

def line (e : Event) : List Char := e.toJson.sortedText ++ ['\n']

/-- An event about a formula; `extra` may set any key of the context. -/
def aboutFormula (stamp : List Char) (kind : EventKind) (level : Level) (message formula : List Char)
    (canonical : Option (List Char)) (names : Option (List (List Char))) (code : Option (List Char))
    (extra : Fields) : Event :=
  let context : Fields := [("expression".toList, .str formula)]
  let context := match canonical with
    | some text => Assoc.set "ast".toList (.str text) context
    | none      => context
  let context := match names with
    | some names => Assoc.set "variables".toList (.arr (names.map .str)) context
    | none       => context
  ⟨currentVersion, stamp, level, kind, Assoc.update context extra, message, code⟩

/-! ## Long strings -/

def maxLength : Nat := 256

def truncationMark : List Char := "...[truncated]".toList

def truncatedText (text : List Char) : List Char :=
  if maxLength < text.length then text.take maxLength ++ truncationMark else text

mutual
def truncatedValue : Json → Json
  | .str text   => .str (truncatedText text)
  | .obj fields => .obj (truncatedFields fields)
  | value       => value

/-- The fields with every long string in them cut, in the objects within them too but not in lists. -/
def truncatedFields : List (List Char × Json) → List (List Char × Json)
  | []             => []
  | (k, v) :: rest => (k, truncatedValue v) :: truncatedFields rest
end

/-- **Cutting strings keeps the keys.** -/
theorem keys_truncatedFields (fs : Fields) : Fields.keys (truncatedFields fs) = Fields.keys fs := by
  induction fs with
  | nil => simp [truncatedFields, Fields.keys]
  | cons field fs ih =>
    obtain ⟨k, v⟩ := field
    simpa [truncatedFields, Fields.keys] using ih

def truncated (e : Event) : Event := { e with context := truncatedFields e.context }

/-! ## Required keys -/

def missing (kind : EventKind) (context : Fields) : List (List Char) :=
  kind.required.filter fun key => !(Fields.keys context).contains key

def missingKey : List Char := "_missing_attribution".toList

/-- The event, or the warning that it lacks required keys. -/
def attributed (e : Event) : Event :=
  match missing e.kind e.context with
  | []   => e
  | keys =>
    { e with level := .warning, context := Assoc.set missingKey (.arr (keys.map .str)) e.context }

end Event

end Abacus
