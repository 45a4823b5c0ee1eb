import Abacus.Assoc
import Abacus.Path
import Abacus.Text.Order
/-!
# A store of files

Files and directories under one root, which is itself a directory.  A place is the list of names on the way down.
A path leads to a place name by name: each is looked for in the directory reached so far, and the way ends at the
first that is missing, is a file where a directory has to be, or is longer than names may be.
-/
namespace Abacus

/-- A place in the store: the names from the root down. -/
abbrev Place := List (List Char)

inductive Node
  | file (bytes : List UInt8)
  | dir
  deriving DecidableEq, Repr

inductive FileError
  | notFound | notADirectory | isADirectory | alreadyExists | tooLong | invalidArgument
  | nullCharacter
  deriving DecidableEq, Repr

/-- The wording of the one failure that is noticed before the store is asked. -/
def FileError.message? : FileError → Option (List Char)
  | .nullCharacter => some "embedded null byte".toList
  | _              => none

structure Files where
  nodes : List (Place × Node)

namespace Files

def empty : Files := ⟨[]⟩

/-- The root, and the places that lie above it. -/
def isRoot (p : Place) : Bool := p.all (· == Path.upName)

def node? (fs : Files) (p : Place) : Option Node := if isRoot p then some .dir else fs.nodes.lookup p

def set (fs : Files) (p : Place) (n : Node) : Files := ⟨Assoc.set p n fs.nodes⟩

theorem node?_set (fs : Files) (p q : Place) (n : Node) (hp : isRoot p = false) :
    (fs.set p n).node? q = if q = p then some n else fs.node? q := by
  unfold node? set
  by_cases hq : isRoot q
  · have : q ≠ p := fun h => by simp [h, hp] at hq
    simp [hq, this]
  · rw [if_neg hq, if_neg hq]
    simpa using Assoc.lookup_set p q n fs.nodes

/-! ## The way to a place -/

def maxNameBytes : Nat := 255

def maxPathBytes : Nat := 4095

def byteLength (text : List Char) : Nat := text.foldl (fun n c => n + c.utf8Size) 0

/-- The directory that a place is in.  The root of all files is in itself. -/
def above (base : Place) : Place :=
  if isRoot base then base ++ [Path.upName]
  else if base = [Path.rootName] then base
  else base.dropLast

/-- Where names lead from a place, each looked for in the directory reached before it. -/
def walk (fs : Files) (base : Place) : List (List Char) → Except FileError Place
  | []            => .ok base
  | name :: names =>
    match fs.node? base with
    | some .dir      =>
      if name = Path.upName then walk fs (above base) names
      else if maxNameBytes < byteLength name then .error .tooLong
      else walk fs (base ++ [name]) names
    | some (.file _) => .error .notADirectory
    | none           => .error .notFound

def textError? (text : List Char) : Option FileError :=
  if text.contains (Char.ofNat 0) then some .nullCharacter
  else if maxPathBytes < byteLength text then some .tooLong
  else none

/-- Where a path leads; there need be nothing, but in a directory. -/
def locate (fs : Files) (p : Path) : Except FileError Place :=
  match textError? p.text with
  | some e => .error e
  | none   => fs.walk [] p.names

/-! ## Reading -/

def stat (fs : Files) (p : Path) : Except FileError Node :=
  match fs.locate p with
  | .error e => .error e
  | .ok place =>
    match fs.node? place with
    | some n => .ok n
    | none   => .error .notFound

/-- Whether there is anything where a path leads; one that is too long is an error even here. -/
def exists? (fs : Files) (p : Path) : Except FileError Bool :=
  match fs.stat p with
  | .ok _                 => .ok true
  | .error .notFound      => .ok false
  | .error .notADirectory => .ok false
  | .error .nullCharacter => .ok false
  | .error e              => .error e

def read (fs : Files) (p : Path) : Except FileError (List UInt8) :=
  match fs.stat p with
  | .ok (.file bytes) => .ok bytes
  | .ok .dir          => .error .isADirectory
  | .error e          => .error e

def size (fs : Files) (p : Path) : Nat :=
  match fs.read p with
  | .ok bytes => bytes.length
  | .error _  => 0

def names (fs : Files) (p : Path) : Except FileError (List (List Char)) :=
  match fs.locate p with
  | .error e  => .error e
  | .ok place =>
    match fs.node? place with
    | some .dir      =>
      .ok ((fs.nodes.filterMap fun (q, _) =>
        if isRoot q = false ∧ q.dropLast = place then q.getLast? else none).mergeSort textLe)
    | some (.file _) => .error .notADirectory
    | none           => .error .notFound

/-! ## Writing -/

def makeDir (fs : Files) (p : Path) : Except FileError Files :=
  match fs.locate p with
  | .error e  => .error e
  | .ok place =>
    match fs.node? place with
    | some .dir      => .ok fs
    | some (.file _) => .error .alreadyExists
    | none           => .ok (fs.set place .dir)

/-- Makes a directory, given its names from the last to the first: when the way to it is missing, the directory it
is in is made first.  The store comes back even if that fails half way. -/
def makeDirsUpward (fs : Files) : List (List Char) → Files × Option FileError
  | []            => (fs, none)
  | name :: names =>
    let here : Path := ⟨(name :: names).reverse⟩
    match fs.makeDir here with
    | .ok fs           => (fs, none)
    | .error .notFound =>
      match makeDirsUpward fs names with
      | (fs, some e) => (fs, some e)
      | (fs, none)   =>
        match fs.makeDir here with
        | .ok fs   => (fs, none)
        | .error e => (fs, some e)
    | .error e => (fs, some e)

def makeDirs (fs : Files) (p : Path) : Files × Option FileError :=
  match textError? p.text with
  | some e => (fs, some e)
  | none   => fs.makeDirsUpward p.names.reverse

/-- A path up to the first of its names that leads to a file; all of it if none does. -/
def upToFile (fs : Files) (p : Path) : Path :=
  let starts := (List.range p.names.length).map fun n => Path.mk (p.names.take (n + 1))
  (starts.find? fun q => match fs.stat q with | .ok (.file _) => true | _ => false).getD p

/-- Where a file is written, and the bytes that are there. -/
def writable (fs : Files) (p : Path) : Except FileError (Place × List UInt8) :=
  match fs.locate p with
  | .error e  => .error e
  | .ok place =>
    match fs.node? place with
    | some (.file bytes) => .ok (place, bytes)
    | some .dir          => .error .isADirectory
    | none               => .ok (place, [])

def write (fs : Files) (p : Path) (bytes : List UInt8) : Except FileError Files :=
  (fs.writable p).map fun (place, _) => fs.set place (.file bytes)

/-- Adds bytes at the end of a file; a missing one counts as empty. -/
def append (fs : Files) (p : Path) (bytes : List UInt8) : Except FileError Files :=
  (fs.writable p).map fun (place, old) => fs.set place (.file (old ++ bytes))

end Files

end Abacus
