import Abacus.Yaml.Scalar
/-!
# The meaning of a document

A document is read in two steps: first its form, a tree of words in lists and mappings, and then the meaning of the
tree.  A mapping may take entries over from others, which stand under the key `<<`.  A tree has no meaning when a
plain word in it is no number though it looks like one or has another use, or when a list or a mapping is a key.
Of several such faults the one that counts is nearest to the root, and on its level the first (`meaning`).
-/
namespace Abacus.Yaml

inductive ReadError
  | malformed
  | notAKey
  | reserved
  | noCharacter
  | scalar (e : ScalarError)
  | overflow (o : Overflow)
  deriving DecidableEq, Repr

namespace ReadError

/-- The wording of an error about one word of the document, rather than about its form. -/
def message? : ReadError → Option (List Char)
  | .malformed   => none
  | .notAKey     => none
  | .reserved    => none
  | .noCharacter => some "chr() arg not in range(0x110000)".toList
  | .scalar e    => some e.message
  | .overflow o  => some o.message

def overflow? : ReadError → Option Overflow
  | .scalar (.overflow o) => some o
  | .overflow o           => some o
  | _                     => none

end ReadError

/-- A document before its plain words mean anything. -/
inductive Tree
  | plain (text : List Char)
  | quoted (text : List Char)
  | list (items : List Tree)
  | map (entries : List (Tree × Tree))

namespace Tree

/-! ## Entries from other mappings -/

/-- The plain key under which other mappings stand. -/
def mergeWord : List Char := ['<', '<']

def isMergeKey : Tree → Bool
  | .plain text => text == mergeWord
  | _           => false

def entries? : Tree → Option (List (Tree × Tree))
  | .map entries => some entries
  | _            => none

/-- The entries of a mapping, or of the mappings of a list; there the earlier ones come last, to hold over the
others. -/
def givenEntries? : Tree → Option (List (Tree × Tree))
  | .list items => (items.reverse.mapM entries?).map List.flatten
  | t           => t.entries?

/-- Entries after those that they take over.  When something else stands under the key, it stays, as a fault, in
front. -/
def takeOver (entries : List (Tree × Tree)) : List (Tree × Tree) :=
  let (merges, own) := entries.partition fun (k, _) => k.isMergeKey
  match merges.mapM fun (_, v) => v.givenEntries? with
  | some given => given.flatten ++ own
  | none       => merges ++ own

mutual
def merged : Tree → Tree
  | .list items  => .list (mergedItems items)
  | .map entries => .map (takeOver (mergedEntries entries))
  | t            => t

def mergedItems : List Tree → List Tree
  | []      => []
  | t :: ts => t.merged :: mergedItems ts

def mergedEntries : List (Tree × Tree) → List (Tree × Tree)
  | []             => []
  | (k, v) :: rest => (k, v.merged) :: mergedEntries rest
end

/-! ## Faults -/

/-- The plain word for the value that a mapping has as a scalar.  It is a text only as a key. -/
def defaultWord : List Char := ['=']

def fault? : Tree → Option ReadError
  | .plain text =>
    if text = mergeWord ∨ text = defaultWord then some .reserved
    else
      match ofPlain text with
      | .ok _    => none
      | .error e => some (.scalar e)
  | _ => none

def keyFault? : Tree → Option ReadError
  | .list _ | .map _ => some .notAKey
  | .plain text      => if text = defaultWord then none else fault? (.plain text)
  | .quoted _        => none

def beside : List (Option ReadError) → List (Option ReadError) → List (Option ReadError)
  | [], more               => more
  | levels, []             => levels
  | a :: levels, b :: more => a.or b :: beside levels more

mutual
/-- The first fault on each level below the root of a tree. -/
def faults : Tree → List (Option ReadError)
  | .list items  => items.findSome? fault? :: faultsOfItems items
  | .map entries => entries.findSome? (fun (k, v) => k.keyFault?.or v.fault?) :: faultsOfEntries entries
  | _            => []

def faultsOfItems : List Tree → List (Option ReadError)
  | []      => []
  | t :: ts => beside t.faults (faultsOfItems ts)

def faultsOfEntries : List (Tree × Tree) → List (Option ReadError)
  | []             => []
  | (_, v) :: rest => beside v.faults (faultsOfEntries rest)
end

/-! ## Meaning -/

mutual
def value : Tree → Except ReadError Yaml
  | .plain text  => (ofPlain text).mapError .scalar
  | .quoted text => .ok (.str text)
  | .list items  => (values items).map .list
  | .map entries => (fields entries).map fun fs => .map (Mapping.update [] fs)

def values : List Tree → Except ReadError (List Yaml)
  | []      => .ok []
  | t :: ts => do
    let v ← t.value
    let vs ← values ts
    .ok (v :: vs)

def fields : List (Tree × Tree) → Except ReadError Mapping
  | []             => .ok []
  | (k, v) :: rest => do
    let key ← k.value
    if !key.isKey then .error .notAKey
    let value ← v.value
    let more ← fields rest
    .ok ((key, value) :: more)
end

/-- What a tree means, or its first fault: the levels count from the root. -/
def meaning (tree : Tree) : Except ReadError Yaml :=
  let t := tree.merged
  match (t.fault? :: t.faults).findSome? id with
  | some e => .error e
  | none   => t.value

end Tree

end Abacus.Yaml
