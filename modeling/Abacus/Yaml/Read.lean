import Abacus.Yaml.Word
/-!
# Reading a settings document

A document is a node: a block of entries `key: value`, a block of items after hyphens, a list in brackets or a
mapping in braces, or a scalar, quoted or plain.  Blocks are told apart by their columns.  A key is a node on one
line, and not too long, with a colon after it; a colon only counts before a blank, except inside brackets and
braces.  A stream of text may open its one document with three hyphens and close it with three points.

Anchors, tags, directives, block scalars and explicit keys are not part of the language read here.  There is no value
for a date, for bytes or for a set: a plain word in the form of a date is a text like any other, whether or not there
is such a day.
-/
namespace Abacus.Yaml

abbrev Reader (α : Type) := Cursor → Except ReadError (α × Cursor)

/-! ## Nodes on a line -/

/-- A node that is no block; `oneLine` when it may be a key. -/
structure Inline where
  tree : Tree
  oneLine : Bool

def quotedNode : Scalar × Cursor → Inline × Cursor
  | (s, last) => (⟨.quoted s.text, s.oneLine⟩, last)

def maxKeyLength : Nat := 1024

/-- Whether a colon is near enough to the start of a key; what follows the colon is given. -/
def isInReach (start : Cursor) (cs : List Char) : Bool := start.rest.length - cs.length ≤ maxKeyLength + 1

def flowValue (node : Reader Inline) (close : Char) : Reader Tree := fun cur =>
  let cur := cur.next.cursor
  match cur.rest with
  | c :: _ =>
    if c == ',' || c == close then .ok (.plain [], cur) else (node cur).map fun (v, cur) => (v.tree, cur)
  | [] => .error .malformed

def flowPair (node : Reader Inline) (close : Char) : Reader (Tree × Option Tree) := fun start => do
  let (key, cur) ← node start
  match cur.next.cursor with
  | ⟨column, ':' :: cs⟩ =>
    if key.oneLine && !cur.next.fresh && isInReach start cs then
      let (value, cur) ← flowValue node close ⟨column + 1, cs⟩
      .ok ((key.tree, some value), cur)
    else .error .malformed
  | cur => .ok ((key.tree, none), cur)

def flowEntries (node : Reader Inline) (close : Char) : Nat → Reader (List (Tree × Option Tree))
  | 0, _            => .error .malformed
  | rounds + 1, cur =>
    match cur.next.cursor with
    | ⟨_, []⟩           => .error .malformed
    | ⟨column, c :: cs⟩ =>
      if c == close then .ok ([], ⟨column + 1, cs⟩)
      else do
        let (entry, cur) ← flowPair node close ⟨column, c :: cs⟩
        match cur.next.cursor with
        | ⟨column, ',' :: cs⟩ => do
          let (more, cur) ← flowEntries node close rounds ⟨column + 1, cs⟩
          .ok (entry :: more, cur)
        | ⟨column, c :: cs⟩ => if c == close then .ok ([entry], ⟨column + 1, cs⟩) else .error (refusal cur)
        | ⟨_, []⟩           => .error .malformed

/-- An item of a list; one with a colon is a mapping of its own. -/
def flowItem : Tree × Option Tree → Tree
  | (v, none)       => v
  | (k, some value) => .map [(k, value)]

/-- An entry of a mapping; one without a colon has no value. -/
def flowField : Tree × Option Tree → Tree × Tree
  | (k, value) => (k, value.getD (.plain []))

def onOneLine (start last : Cursor) : Bool :=
  !(start.rest.take (start.rest.length - last.rest.length)).any isEnd

def tooDeep : ReadError := .overflow .levels

/-- A scalar or a node in brackets or braces, which may be in one another to so many levels. -/
def inline : Nat → Bool → Int → Reader Inline
  | depth, flow, indent, cur =>
    if flow && atMark cur then .error .malformed
    else
      match depth, cur.rest with
      | 0, '[' :: _ => .error tooDeep
      | 0, '{' :: _ => .error tooDeep
      | depth + 1, '[' :: cs => do
        let (entries, last) ← flowEntries (inline depth true indent) ']' cur.rest.length ⟨cur.column + 1, cs⟩
        .ok (⟨.list (entries.map flowItem), onOneLine cur last⟩, last)
      | depth + 1, '{' :: cs => do
        let (entries, last) ← flowEntries (inline depth true indent) '}' cur.rest.length ⟨cur.column + 1, cs⟩
        .ok (⟨.map (entries.map flowField), onOneLine cur last⟩, last)
      | _, '\'' :: cs => (singleQuoted cur.rest.length true ⟨cur.column + 1, cs⟩).map quotedNode
      | _, '"' :: cs => (doubleQuoted cur.rest.length true ⟨cur.column + 1, cs⟩).map quotedNode
      | _, cs =>
        if startsPlain flow cs then
          let (s, last) := plain flow indent cur
          .ok (⟨.plain s.text, s.oneLine⟩, last)
        else .error .malformed

/-! ## Blocks -/

def skipSpaces (cur : Cursor) : Cursor :=
  cur.after (cur.rest.takeWhile (· == ' ')).length (cur.rest.dropWhile (· == ' '))

def colonAfter (start last : Cursor) : Option Cursor :=
  match skipSpaces last with
  | ⟨column, ':' :: cs⟩ =>
    if atBlank cs && isInReach start cs then some ⟨column + 1, cs⟩ else none
  | _ => none

def Spot.isOver (s : Spot) : Bool := s.cursor.rest.isEmpty || atMark s.cursor

def blockItems (node : Int → Bool → Reader Tree) (column : Nat) : Nat → Reader (List Tree)
  | 0, _            => .error .malformed
  | rounds + 1, cur => do
    let spot := (cur.after 1 (cur.rest.drop 1)).next
    let (item, cur) ←
      if !spot.isOver && (!spot.fresh || column < spot.cursor.column) then node column true spot.cursor
      else .ok (.plain [], cur.after 1 (cur.rest.drop 1))
    let spot := cur.next
    if spot.isOver then .ok ([item], cur)
    else if !spot.fresh || column < spot.cursor.column then .error (refusal cur)
    else if spot.cursor.column = column && atItem spot.cursor then do
      let (more, cur) ← blockItems node column rounds spot.cursor
      .ok (item :: more, cur)
    else .ok ([item], cur)

def blockValue (node : Int → Bool → Reader Tree) (column : Nat) : Reader Tree := fun cur =>
  let spot := cur.next
  if spot.isOver then .ok (.plain [], cur)
  else if !spot.fresh then node column false spot.cursor
  else if column < spot.cursor.column then node column true spot.cursor
  else if spot.cursor.column = column && atItem spot.cursor then do
    let (items, cur) ← blockItems node column spot.cursor.rest.length spot.cursor
    .ok (.list items, cur)
  else .ok (.plain [], cur)

def blockEntries (node : Int → Bool → Reader Tree) (key : Reader Inline) (column : Nat) (first : Tree) :
    Nat → Reader (List (Tree × Tree))
  | 0, _            => .error .malformed
  | rounds + 1, cur => do
    let (value, cur) ← blockValue node column cur
    let spot := cur.next
    if spot.isOver then .ok ([(first, value)], cur)
    else if !spot.fresh || column < spot.cursor.column then .error (refusal cur)
    else if spot.cursor.column < column then .ok ([(first, value)], cur)
    else do
      let (k, last) ← key spot.cursor
      match colonAfter spot.cursor last with
      | some cur =>
        if k.oneLine then do
          let (more, cur) ← blockEntries node key column k.tree rounds cur
          .ok ((first, value) :: more, cur)
        else .error .malformed
      | none => .error (if last.next.fresh then .malformed else refusal last)

/-- A node of a block that is indented by `indent`; blocks may start here only if `fresh`.  Nodes may be in one
another to so many levels. -/
def node : Nat → Int → Bool → Reader Tree
  | depth, indent, fresh, cur =>
    if atItem cur then
      match fresh, depth with
      | false, _        => .error .malformed
      | true, 0         => .error tooDeep
      | true, depth + 1 => do
        let (items, cur) ← blockItems (node depth) cur.column cur.rest.length cur
        .ok (.list items, cur)
    else do
      let (first, last) ← inline depth false indent cur
      match colonAfter cur last with
      | none       => .ok (first.tree, last)
      | some after =>
        match fresh && first.oneLine, depth with
        | false, _        => .error .malformed
        | true, 0         => .error tooDeep
        | true, depth + 1 => do
          let (entries, last) ← blockEntries (node depth) (inline depth false cur.column) cur.column first.tree
            cur.rest.length after
          .ok (.map entries, last)

/-! ## The document -/

def isAllowed (c : Char) : Bool :=
  let n := c.toNat
  n == 9 || n == 10 || n == 13 || (0x20 ≤ n && n ≤ 0x7E) || n == 0x85 || (0xA0 ≤ n && n ≤ 0xFFFD) ||
    0x10000 ≤ n

def afterClosing : Nat → Cursor → Cursor
  | 0, cur          => cur
  | rounds + 1, cur =>
    let next := cur.next.cursor
    if next.column == 0 && startsWith ['.', '.', '.'] next.rest then afterClosing rounds ⟨3, next.rest.drop 3⟩
    else cur

def Cursor.closed (cur : Cursor) : Cursor := afterClosing cur.rest.length cur

def isClosed (cur : Cursor) : Bool := cur.closed.next.cursor.rest.isEmpty

def maxDepth : Nat := 488

def body (spot : Spot) : Except ReadError Tree :=
  if isClosed spot.cursor then .ok (.plain [])
  else if atMark spot.cursor then .error .malformed
  else do
    let (root, last) ← node maxDepth (-1) spot.fresh spot.cursor
    if isClosed last && (last.next.fresh || last.next.cursor.rest.isEmpty) then .ok root
    else .error (refusal last.closed)

def parse (text : List Char) : Except ReadError Tree :=
  if !text.all isAllowed then .error .malformed
  else
    let text := text.map fun c => if c.toNat == 0x85 then '\n' else c
    let text := if text.head? = some (Char.ofNat 0xFEFF) then text.drop 1 else text
    let spot := toWord false true 0 text
    if spot.cursor.column == 0 && startsWith ['-', '-', '-'] spot.cursor.rest then
      body (toWord false false 3 (spot.cursor.rest.drop 3))
    else if spot.cursor.rest.isEmpty then .ok (.plain [])
    else if atMark spot.cursor then .error .malformed
    else body spot

/-- The value of a text of lines that end with newlines.  The form of the whole text is read before any word of it
means anything. -/
def read (text : List Char) : Except ReadError Yaml := do
  let tree ← parse text
  tree.meaning

end Abacus.Yaml
