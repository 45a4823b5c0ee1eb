import Abacus.Assoc
import Abacus.Desk
import Abacus.Expr.Canonical
import Abacus.Expr.Names
import Abacus.Expr.Parse
import Abacus.Expr.Value
/-!
# The interactive prompt

The prompt asks for a formula, then for the value of each of its names, and then answers.  It is a machine that
takes a line of input at a time: between lines it waits for a formula or for a value, or it is done.  Every line
goes through `feed`, and a whole run is a fold over the lines.
-/
namespace Abacus

/-- What ends a run that nobody ended. -/
inductive Crash
  | file (e : FileError)
  | conversion (e : ConversionError)
  | places (e : PlacesError)
  | log (e : ReadFailure)
  | fault (f : Fault)
  | misapplied

namespace Console

structure Pending where
  formula : List Char
  tree : Expr
  context : Context
  name : List Char
  /-- the names still to come after that one -/
  more : List (List Char)

inductive Waiting
  | formula
  | value (p : Pending)
  | finished
  | crashed (c : Crash)

structure Sitting (τ : Type) where
  desk : Desk τ
  waiting : Waiting

variable {τ : Type} [Instant τ]

def scanCode : List Char := "lex_error".toList

def parseCode : List Char := "parse_error".toList

def evalCode : List Char := "eval_error".toList

def inputCode : List Char := "input_error".toList

def errorCode : FormulaError → List Char
  | .scan _  => scanCode
  | .parse _ => parseCode

/-- A result in an event: a number where JSON has one, and its text otherwise. -/
def resultJson (x : Float) : Json := if x.isFinite then .double x else .str (doubleText x)

/-- Prints an answer, and a warning that it deserves before it. -/
def report (d : Desk τ) (s : Settings) (formula : List Char) (x : Float) (session : Option (List Char)) :
    Desk τ × Except PlacesError Unit :=
  let status := Status.classify s.threshold x
  let d := match status.warning? with
    | none      => d
    | some text =>
      let d := d.complainLine text
      d.emit (d.eventOf .warning .resultWarning text
        [("expression".toList, .str formula), ("status".toList, .str status.label)] none) session
  match answerText s.places x with
  | .ok text => (d.printLine ("Answer: ".toList ++ text), .ok ())
  | .error e => (d, .error e)

namespace Sitting

def formulaPrompt : List Char := "Expression: ".toList

def valuePrompt (name : List Char) : List Char :=
  "Enter value for the variable '".toList ++ name ++ "': ".toList

def askFormula (d : Desk τ) : Sitting τ := ⟨d.print formulaPrompt, .formula⟩

def excuse (d : Desk τ) (message : List Char) : Sitting τ :=
  askFormula (d.complainLine ("Error! ".toList ++ message ++ ['\n']))

def evaluate (r : Registry) (s : Settings) (session : List Char) (d : Desk τ) (formula : List Char) (tree : Expr)
    (context : Context) : Sitting τ :=
  match tree.evaluate r context with
  | .error (.refused e) =>
    let event := Event.aboutFormula d.stamp .evalFailed .error e.message formula (some tree.text) none
      (some evalCode) [("kind".toList, .str e.kind.label)]
    excuse (d.emit event (some session)) e.message
  | .error (.fault f)   => ⟨d, .crashed (.fault f)⟩
  | .error .misapplied  => ⟨d, .crashed .misapplied⟩
  | .ok x =>
    let event := Event.aboutFormula d.stamp .evalCompleted .info "evaluated".toList formula (some tree.text) none
      none [("result".toList, resultJson x)]
    match report (d.emit event (some session)) s formula x (some session) with
    | (d, .ok _)    => askFormula (d.print ['\n'])
    | (d, .error e) => ⟨d, .crashed (.places e)⟩

/-- Asks for the next value, or evaluates if there is none to ask for. -/
def proceed (r : Registry) (s : Settings) (session : List Char) (d : Desk τ) (formula : List Char) (tree : Expr)
    (context : Context) : List (List Char) → Sitting τ
  | []           => evaluate r s session d formula tree context
  | name :: more => ⟨d.print (valuePrompt name), .value ⟨formula, tree, context, name, more⟩⟩

def takeFormula (r : Registry) (s : Settings) (session : List Char) (d : Desk τ) (formula : List Char) : Sitting τ :=
  match Expr.parse formula with
  | .error e =>
    let event := Event.aboutFormula d.stamp .parseFailed .error e.message formula none none
      (some (errorCode e)) []
    excuse (d.emit event (some session)) e.message
  | .ok tree =>
    let event := Event.aboutFormula d.stamp .parseCompleted .info "parsed".toList formula (some tree.text)
      (some tree.names) none []
    let d := (d.emit event (some session)).printLine ("AST: ".toList ++ tree.text)
    proceed r s session d formula tree [] tree.names

def takeValue (r : Registry) (s : Settings) (session : List Char) (d : Desk τ) (p : Pending) (text : List Char) :
    Sitting τ :=
  match readDouble? text with
  | some x => proceed r s session d p.formula p.tree (Assoc.set p.name x p.context) p.more
  | none   =>
    let message := "Incorrect value for the variable '".toList ++ p.name ++ ['\'']
    let event := Event.aboutFormula d.stamp .evalFailed .error message p.formula none none (some inputCode) []
    excuse (d.emit event (some session)) message

def feed (r : Registry) (s : Settings) (session : List Char) (sitting : Sitting τ) (line : List Char) : Sitting τ :=
  let d := sitting.desk
  match sitting.waiting with
  | .formula =>
    let line := strip line
    if lower line = "exit".toList then ⟨d.printLine "Goodbye!".toList, .finished⟩
    else if line.isEmpty then askFormula (d.complainLine "Error! Empty input. Try again!".toList)
    else takeFormula r s session d line
  | .value p => takeValue r s session d p (strip line)
  | _        => sitting

def started (d : Desk τ) (session : List Char) : Desk τ :=
  d.emit (d.eventOf .info .sessionStarted "session started".toList [] none) (some session)

def ended (d : Desk τ) (session : List Char) : Desk τ :=
  d.emit (d.eventOf .info .sessionEnded "session ended".toList [] none) (some session)

def greeting (r : Registry) : List Char :=
  "Expression evaluator with functions(".toList ++ List.intercalate [',', ' '] r.names ++
    "), constants(pi, e) and variables\nEnter 'exit' to finish\n\n".toList

def opened (r : Registry) (session : List Char) (d : Desk τ) : Sitting τ :=
  askFormula ((started d session).print (greeting r))

def isOver (sitting : Sitting τ) : Bool :=
  match sitting.waiting with
  | .finished | .crashed _ => true
  | _                      => false

def close (session : List Char) (sitting : Sitting τ) : Desk τ × Except Crash Unit :=
  match sitting.waiting with
  | .crashed c => (sitting.desk, .error c)
  | .finished  => (ended sitting.desk session, .ok ())
  | _          => (ended (sitting.desk.print ['\n']) session, .ok ())

def run (r : Registry) (s : Settings) (d : Desk τ) (lines : List (List Char)) : Desk τ × Except Crash Unit :=
  let (d, session) := d.newSession
  close session (lines.foldl (feed r s session) (opened r session d))

end Sitting

end Console

end Abacus
