import Abacus.Console.Arguments
import Abacus.Decimal.Numeral
import Abacus.Event
import Abacus.Files
/-!
# Commands

What a command line asks for.  The options of the whole program come before the name of the command, those of the
command anywhere after it.  An argument that names a directory must not lead to a file.
-/
namespace Abacus.Console

inductive Command
  | eval (formula : List Char) (values : List (List Char)) (asJson : Bool)
  | canonical (formula : List Char)
  | names (formula : List Char)
  | init (dir : List Char)
  | events (level kind : Option (List Char)) (limit : Int)
  | prompt

inductive Request
  | version
  | command (project : Option (List Char)) (name : List Char) (args : List (List Char))

/-- Why a command line asks for nothing. -/
inductive ArgumentError
  | malformed
  | path (e : FileError)
  deriving DecidableEq, Repr

def defaultLimit : Int := 50

def wellFormed {α : Type} : Option α → Except ArgumentError α
  | some a => .ok a
  | none   => .error .malformed

/-! ## Directories -/

/-- Whether a path, as written, leads to a file.  One that ends in a slash does not, nor does one that is too
long. -/
def leadsToFile (fs : Files) (path : List Char) : Except FileError Bool :=
  match Files.textError? path with
  | some .nullCharacter => .error .nullCharacter
  | some _              => .ok false
  | none                =>
    let last := (Path.pieces path).getLast?
    if last == some [] || last == some Path.hereName then .ok false
    else
      match fs.stat (Path.ofText path) with
      | .ok (.file _) => .ok true
      | _             => .ok false

/-- An argument that names a directory, where there need be nothing yet. -/
def readDirectory (fs : Files) (path : List Char) : Except ArgumentError (List Char) :=
  match leadsToFile fs path with
  | .error e  => .error (.path e)
  | .ok true  => .error .malformed
  | .ok false => .ok path

namespace Request

def specs : List OptionSpec := [⟨"--project".toList, true⟩, ⟨"--version".toList, false⟩]

def commandNames : List (List Char) :=
  ["eval".toList, "ast".toList, "vars".toList, "init".toList, "events".toList, "repl".toList]

/-- The project that the options in front of a command name, and the words after them; nothing if they ask for the
version. -/
def front (fs : Files) (args : List (List Char)) :
    Except ArgumentError (Option (Option (List Char) × List (List Char))) :=
  match Arguments.scan? specs false args with
  | none   => .error .malformed
  | some a =>
    if a.has "--version".toList then .ok none
    else
      match a.value? "--project".toList with
      | none     => .ok (some (none, a.words))
      | some dir => (readDirectory fs dir).map fun dir => some (some dir, a.words)

/-- The request of a command line.  When two hyphens have put an option in the place of the name of a command, the
words are looked at as options once more, and may ask for the version. -/
def read (fs : Files) (args : List (List Char)) : Except ArgumentError Request :=
  match front fs args with
  | .error e                           => .error e
  | .ok none                           => .ok .version
  | .ok (some (_, []))                 => .error .malformed
  | .ok (some (project, name :: rest)) =>
    if commandNames.contains name then .ok (.command project name rest)
    else if Arguments.isOptionLike name then
      match front fs (name :: rest) with
      | .error e     => .error e
      | .ok none     => .ok .version
      | .ok (some _) => .error .malformed
    else .error .malformed

end Request

namespace Command

def evalSpecs : List OptionSpec := [⟨"--set".toList, true⟩, ⟨"--json".toList, false⟩]

def eventsSpecs : List OptionSpec :=
  [⟨"--level".toList, true⟩, ⟨"--type".toList, true⟩, ⟨"--limit".toList, true⟩]

def words? (args : List (List Char)) : Option (List (List Char)) := (Arguments.scan? [] true args).map (·.words)

def onlyWord? (args : List (List Char)) : Option (List Char) :=
  match words? args with
  | some [word] => some word
  | _           => none

def readEval? (args : List (List Char)) : Option Command :=
  match Arguments.scan? evalSpecs true args with
  | some a =>
    match a.words with
    | [formula] => some (.eval formula (a.values "--set".toList) (a.has "--json".toList))
    | _         => none
  | none => none

/-- The directory of settings to be written; it is looked at before the words after it. -/
def readInit (fs : Files) (args : List (List Char)) : Except ArgumentError Command :=
  match words? args with
  | some (dir :: more) =>
    match readDirectory fs dir with
    | .error e => .error e
    | .ok dir  => if more.isEmpty then .ok (.init dir) else .error .malformed
  | _ => .error .malformed

def readEvents? (args : List (List Char)) : Option Command :=
  match Arguments.scan? eventsSpecs true args with
  | some a =>
    let level := a.value? "--level".toList
    let limit := match a.value? "--limit".toList with
      | some text => readInt? text
      | none      => some defaultLimit
    if a.words.isEmpty && level.all fun l => (Level.ofLabel? l).isSome then
      limit.map (.events level (a.value? "--type".toList))
    else none
  | none => none

def read (fs : Files) (name : List Char) (args : List (List Char)) : Except ArgumentError Command :=
  if name = "eval".toList then wellFormed (readEval? args)
  else if name = "ast".toList then wellFormed ((onlyWord? args).map .canonical)
  else if name = "vars".toList then wellFormed ((onlyWord? args).map .names)
  else if name = "init".toList then readInit fs args
  else if name = "events".toList then wellFormed (readEvents? args)
  else if name = "repl".toList && (words? args).any (·.isEmpty) then .ok .prompt
  else .error .malformed

end Command

end Abacus.Console
