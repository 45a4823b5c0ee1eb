import Abacus.Text.Pieces
/-!
# Arguments of a command line

Options have long names and may take a value, after an equals sign or as the next argument.  Two hyphens end the
options.  An argument that starts with a hyphen and goes on is an option or an error.  For a command that has
commands of its own, the first other argument ends the options as well.
-/
namespace Abacus.Console

structure OptionSpec where
  name : List Char
  takesValue : Bool

/-- Options as given, each with its value if it takes one, and the other arguments. -/
structure Arguments where
  options : List (List Char × Option (List Char))
  words : List (List Char)

namespace Arguments

def addOption (name : List Char) (value : Option (List Char)) (a : Arguments) : Arguments :=
  { a with options := (name, value) :: a.options }

def addWord (word : List Char) (a : Arguments) : Arguments := { a with words := word :: a.words }

def isOptionLike : List Char → Bool
  | '-' :: _ :: _ => true
  | _             => false

def splitOption (arg : List Char) : List Char × Option (List Char) :=
  match splitAtFirst '=' arg with
  | some (name, value) => (name, some value)
  | none               => (arg, none)

/-- Sorts arguments into options and others, `none` if an option is unknown or lacks its value or has one too many.
The other arguments end the options unless `mixed`. -/
def scan? (specs : List OptionSpec) (mixed : Bool) : List (List Char) → Option Arguments
  | []          => some ⟨[], []⟩
  | arg :: rest =>
    if arg = ['-', '-'] then some ⟨[], rest⟩
    else if isOptionLike arg then
      let (name, value) := splitOption arg
      match specs.find? fun spec => spec.name == name with
      | none      => none
      | some spec =>
        match spec.takesValue, value with
        | false, none       => (scan? specs mixed rest).map (addOption name none)
        | false, some _     => none
        | true, some value  => (scan? specs mixed rest).map (addOption name (some value))
        | true, none        =>
          match rest with
          | []           => none
          | value :: more => (scan? specs mixed more).map (addOption name (some value))
    else if mixed then (scan? specs mixed rest).map (addWord arg)
    else some ⟨[], arg :: rest⟩

def has (a : Arguments) (name : List Char) : Bool := a.options.any fun o => o.1 == name

def values (a : Arguments) (name : List Char) : List (List Char) :=
  a.options.filterMap fun o => if o.1 == name then o.2 else none

def value? (a : Arguments) (name : List Char) : Option (List Char) := (a.values name).getLast?

end Arguments

end Abacus.Console
