import Abacus.Text.Pieces
/-!
# Paths as written

A path is a text of names with slashes between them.  Empty names and those that stay where they are do not count,
so a path is the list of its other names; where they lead, only a store of files knows.
-/
namespace Abacus

/-- The names of a written path, without empty ones and those that stay where they are.  One that starts at the root
of all files has a slash as its first name. -/
structure Path where
  names : List (List Char)
  deriving DecidableEq, Repr

namespace Path

def pieces (text : List Char) : List (List Char) := splitAtAll (· == '/') text

def rootName : List Char := ['/']

def upName : List Char := ['.', '.']

def hereName : List Char := ['.']

def ofText (text : List Char) : Path :=
  let names := (pieces text).filter fun name => !name.isEmpty && name != hereName
  ⟨if text.head? = some '/' then rootName :: names else names⟩

def text (p : Path) : List Char :=
  match p.names with
  | []            => hereName
  | name :: names =>
    if name = rootName then rootName ++ List.intercalate ['/'] names
    else List.intercalate ['/'] (name :: names)

def child (p : Path) (name : List Char) : Path := ⟨p.names ++ [name]⟩

def parent (p : Path) : Path := ⟨p.names.dropLast⟩

theorem parent_child (p : Path) (name : List Char) : (p.child name).parent = p := by
  simp [child, parent]

end Path

end Abacus
