import Abacus.Console.Run
import Abacus.Registry.Standard
import Abacus.Stamp
/-!
# The program

The outer layer: it copies the files that a command line may touch into a store, runs the command there, and writes
back what has changed.  At the prompt it does so line by line.
-/
namespace Abacus
namespace Program

open Console

/-! ## Files of the system -/

def systemName (p : Place) : String := String.ofList (Path.mk p).text

def copyIn (fs : Files) (p : Place) : IO Files := do
  try
    let bytes ← IO.FS.readBinFile (systemName p)
    return fs.set p (.file bytes.toList)
  catch
    | .noFileOrDirectory .. => return fs
    | _                     => return fs.set p .dir

/-- Copies what the system has on the way that names lead from a place, until something is missing. -/
def copyWay (fs : Files) (base : Place) : List (List Char) → IO Files
  | []           => return fs
  | name :: more => do
    if name = Path.upName then copyWay fs (Files.above base) more
    else
      let here := base ++ [name]
      let fs ← copyIn fs here
      match fs.node? here with
      | some .dir => copyWay fs here more
      | _         => return fs

/-- Writes back what has changed at one place.  A file that has only grown is appended to. -/
def copyOut (old : Files) (p : Place) : Node → IO Unit
  | .dir        => if old.node? p = some .dir then return else IO.FS.createDirAll (systemName p)
  | .file bytes => do
    let before := match old.node? p with
      | some (.file bytes) => bytes
      | _                  => []
    if old.node? p = some (.file bytes) then return
    else if before.isPrefixOf bytes then
      let file ← IO.FS.Handle.mk (systemName p) .append
      file.write ⟨(bytes.drop before.length).toArray⟩
    else IO.FS.writeBinFile (systemName p) ⟨bytes.toArray⟩

def copyChanges (old new : Files) : IO Unit :=
  new.nodes.forM fun (p, n) => copyOut old p n

def pathsOf (args : List (List Char)) : List Path :=
  match Request.read .empty args with
  | .ok (.command project name rest) =>
    let ofProject := match project with
      | none     => []
      | some dir =>
        let dir := Path.ofText dir
        [dir.child settingsName, Journal.globalLog dir, Journal.sessionsDir dir]
    match Command.read .empty name rest with
    | .ok (.init dir) => ofProject ++ [(Path.ofText dir).child settingsName]
    | _               => ofProject
  | _ => []

/-! ## Running -/

def deliver (old : Files) (d : Desk Float) : IO (Desk Float) := do
  copyChanges old d.files
  let err ← IO.getStderr
  err.putStr (String.ofList d.err)
  err.flush
  let out ← IO.getStdout
  out.putStr (String.ofList d.out)
  out.flush
  return { d with out := [], err := [] }

def refreshed (d : Desk Float) : IO (Desk Float) := do
  let now ← Std.Time.Timestamp.now
  return { d with now := (← IO.monoMsNow).toFloat / 1000, stamp := stampOf (.ofWallTime (now.toWallTime .zero)) }

def newDesk (args : List (List Char)) : IO (Desk Float) := do
  let files ← (pathsOf args).foldlM (fun fs p => copyWay fs [] p.names) .empty
  let sessions ← IO.rand 0 999999999998
  refreshed
    { files := files, journal := none, lastWarned := none, now := 0, stamp := [], sessions := sessions,
      out := [], err := [] }

def crashText : Crash → String
  | .file _       => "a file or directory cannot be used"
  | .conversion e => String.ofList e.message
  | .places e     => String.ofList e.message
  | .log e        => String.ofList (e.message?.getD "a log cannot be read".toList)
  | .fault _      => "a function failed"
  | .misapplied   => "a function was called with the wrong number of arguments"

def finish (outcome : Except Stop Unit) : IO UInt32 := do
  match outcome with
  | .error .usage       => IO.eprintln "Usage: exprcalc [--project DIRECTORY] COMMAND [ARGS]..."
  | .error (.crashed c) => IO.eprintln (crashText c)
  | _                   => pure ()
  return UInt32.ofNat (exitStatus outcome)

partial def converse (s : Settings) (session : List Char) (old : Files) (sitting : Sitting Float) :
    IO (Except Crash Unit) := do
  let desk ← deliver old sitting.desk
  let line ← if sitting.isOver then pure "" else (← IO.getStdin).getLine
  let sitting := { sitting with desk := ← refreshed desk }
  if line.isEmpty then
    let (last, outcome) := sitting.close session
    discard (deliver desk.files last)
    return outcome
  converse s session desk.files (sitting.feed .standard s session line.toList)

end Program
end Abacus

open Abacus Abacus.Console Abacus.Program in
def main (args : List String) : IO UInt32 := do
  let args := args.map String.toList
  let d ← newDesk args
  match prepare d args with
  | (entered, .ok (some (s, _, .prompt))) =>
    let (entered, session) := entered.newSession
    let outcome ← converse s session d.files (.opened .standard session entered)
    finish (outcome.mapError .crashed)
  | _ =>
    let (last, outcome) := run .standard d args []
    discard (deliver d.files last)
    finish outcome
