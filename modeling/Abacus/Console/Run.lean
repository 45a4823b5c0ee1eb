import Abacus.Console.Command
import Abacus.Console.Overrides
import Abacus.Console.Prompt
/-!
# Running a command line

A run changes the desk and ends well, or because the command line is malformed, or because a command is refused
with a message, or in a crash.  Refusals are printed after what was printed before them.
-/
namespace Abacus.Console

inductive Stop
  | usage
  | refused (message : List Char)
  | crashed (c : Crash)

def Stop.ofArgumentError : ArgumentError → Stop
  | .malformed => .usage
  | .path e    => .crashed (.file e)

abbrev Run (τ : Type) := Desk τ × Except Stop Unit

variable {τ : Type} [Instant τ]

def done (d : Desk τ) : Run τ := (d, .ok ())

def refuse (d : Desk τ) (message : List Char) : Run τ := (d, .error (.refused message))

def crash (d : Desk τ) (c : Crash) : Run τ := (d, .error (.crashed c))

def versionText : List Char := "exprcalc, version 0.1.0".toList

def runEval (r : Registry) (s : Settings) (d : Desk τ) (formula : List Char) (values : List (List Char))
    (asJson : Bool) : Run τ :=
  match readOverrides [] values with
  | .error e    => refuse d e.message
  | .ok context =>
    match Expr.parse formula with
    | .error e =>
      refuse (d.emit (Event.aboutFormula d.stamp .parseFailed .error e.message formula none none
        (some (errorCode e)) []) none) e.message
    | .ok tree =>
      match tree.evaluate r context with
      | .error (.refused e) =>
        refuse (d.emit (Event.aboutFormula d.stamp .evalFailed .error e.message formula none none
          (some evalCode) []) none) e.message
      | .error (.fault f)  => crash d (.fault f)
      | .error .misapplied => crash d .misapplied
      | .ok x =>
        let status := Status.classify s.threshold x
        let d := d.emit (Event.aboutFormula d.stamp .evalCompleted .info "evaluated".toList formula
          (some tree.text) none none
          [("result".toList, resultJson x), ("status".toList, .str status.label)]) none
        if asJson then
          done (d.printLine (Json.listing
            [("expression".toList, .str formula), ("ast".toList, .str tree.text),
             ("result".toList, resultJson x), ("status".toList, .str status.label)]))
        else
          match report d s formula x none with
          | (d, .ok _)    => done d
          | (d, .error e) => crash d (.places e)

def runCanonical (d : Desk τ) (formula : List Char) : Run τ :=
  match Expr.parse formula with
  | .ok tree => done (d.printLine tree.text)
  | .error e => refuse d e.message

def runNames (d : Desk τ) (formula : List Char) : Run τ :=
  match Expr.parse formula with
  | .ok tree => done (tree.names.foldl Desk.printLine d)
  | .error e => refuse d e.message

def runInit (d : Desk τ) (dir : List Char) : Run τ :=
  match Settings.create d.files (Path.ofText dir) with
  | (fs, .ok path)                      => done ({ d with files := fs }.printLine ("Created ".toList ++ path.text))
  | (fs, .error (.present path))        => refuse { d with files := fs } (TemplateError.present path).message
  | (fs, .error (.file .alreadyExists)) =>
    refuse { d with files := fs }
      ("[Errno 17] File exists: ".toList ++ quoted (fs.upToFile (Path.ofText dir)).text)
  | (fs, .error (.file e))            => crash { d with files := fs } (.file e)

def runEvents (d : Desk τ) (project : Option Path) (level kind : Option (List Char)) (limit : Int) : Run τ :=
  match project with
  | none         => refuse d "events requires --project".toList
  | some project =>
    match Journal.start d.files project false none with
    | (fs, .error e) => crash { d with files := fs } (.file e)
    | (fs, .ok j)    =>
      let d := { d with files := fs }
      match j.readGlobal fs level kind limit with
      | .ok events => done (events.foldl (fun d e => d.printLine e.sortedText) d)
      | .error e   => crash d (.log e)

def runPrompt (r : Registry) (s : Settings) (d : Desk τ) (input : List Char) : Run τ :=
  match Sitting.run r s d (inputLines input) with
  | (d, .ok _)    => done d
  | (d, .error c) => crash d c

def runCommand (r : Registry) (s : Settings) (d : Desk τ) (project : Option Path) (input : List Char) :
    Command → Run τ
  | .eval formula values asJson => runEval r s d formula values asJson
  | .canonical formula          => runCanonical d formula
  | .names formula              => runNames d formula
  | .init dir                   => runInit d dir
  | .events level kind limit    => runEvents d project level kind limit
  | .prompt                     => runPrompt r s d input

/-- Reads the settings of a project and attaches its journal; without a project, no journal is attached. -/
def enter (d : Desk τ) (project : Option Path) : Desk τ × Except Stop Settings :=
  match project with
  | none         => (d.detach, .ok Settings.default)
  | some project =>
    match Settings.load d.files project with
    | .error e =>
      match e with
      | .file e => (d, .error (.crashed (.file e)))
      | e       =>
        match e.overflow? with
        | some o => (d, .error (.crashed (.conversion (.overflow o))))
        | none   => (d, .error (.refused (e.message (project.child settingsName))))
    | .ok s =>
      match d.attach project.text with
      | (d, .ok _)                   => (d, .ok s)
      | (d, .error (.file e))        => (d, .error (.crashed (.file e)))
      | (d, .error (.conversion e))  => (d, .error (.crashed (.conversion e)))

/-- Enters the project that a command line names and reads its command.  The name of the command has to be known
before the project is entered, and its arguments are looked at after.  A command line that only asks for the version
has no command. -/
def prepare (d : Desk τ) (args : List (List Char)) :
    Desk τ × Except Stop (Option (Settings × Option Path × Command)) :=
  match Request.read d.files args with
  | .error e     => (d, .error (.ofArgumentError e))
  | .ok .version => (d, .ok none)
  | .ok (.command project name rest) =>
    let project := project.map Path.ofText
    match enter d project with
    | (d, .error stop) => (d, .error stop)
    | (d, .ok s)       =>
      match Command.read d.files name rest with
      | .error e    => (d, .error (.ofArgumentError e))
      | .ok command => (d, .ok (some (s, project, command)))

def start (r : Registry) (d : Desk τ) (args : List (List Char)) (input : List Char) : Run τ :=
  match prepare d args with
  | (d, .error stop)                       => (d, .error stop)
  | (d, .ok none)                          => done (d.printLine versionText)
  | (d, .ok (some (s, project, command)))  => runCommand r s d project input command

def run (r : Registry) (d : Desk τ) (args : List (List Char)) (input : List Char) : Run τ :=
  match start r d args input with
  | (d, .error (.refused message)) =>
    (d.complainLine ("Error: ".toList ++ message), .error (.refused message))
  | other => other

def exitStatus : Except Stop Unit → Nat
  | .ok _         => 0
  | .error .usage => 2
  | .error _      => 1

end Abacus.Console
