import Abacus.Text.Surrogates
import Abacus.Yaml.Tree
/-!
# The words of a document

A word is a scalar: plain, or in single or double quotes.  It may go on over lines.  The blanks around the end of a
line do not count then, and the ends of lines in a gap are folded (`foldEnds`).  Comments begin after a blank with
a number sign.
-/
namespace Abacus.Yaml

/-- What is left of a text, and the column at which it starts. -/
structure Cursor where
  column : Nat
  rest : List Char

/-- A cursor at a word, and whether the word is the first of its line. -/
structure Spot where
  fresh : Bool
  cursor : Cursor

def isEnd (c : Char) : Bool := c == '\n' || c.toNat == 0x2028 || c.toNat == 0x2029

def atBlank : List Char → Bool
  | []     => true
  | c :: _ => c == ' ' || c == '\t' || isEnd c

def startsWith (word cs : List Char) : Bool :=
  match word.isPrefixOf? cs with
  | some rest => atBlank rest
  | none      => false

def atMark (cur : Cursor) : Bool :=
  cur.column == 0 && (startsWith ['-', '-', '-'] cur.rest || startsWith ['.', '.', '.'] cur.rest)

def atItem (cur : Cursor) : Bool := startsWith ['-'] cur.rest

def Cursor.after (cur : Cursor) (length : Nat) (rest : List Char) : Cursor :=
  ⟨cur.column + length, rest⟩

def toWord (comment fresh : Bool) (column : Nat) : List Char → Spot
  | []      => ⟨fresh, ⟨column, []⟩⟩
  | c :: cs =>
    if isEnd c then toWord false true 0 cs
    else if comment then toWord true fresh (column + 1) cs
    else if c == ' ' then toWord false fresh (column + 1) cs
    else if c == '#' then toWord true fresh (column + 1) cs
    else ⟨fresh, ⟨column, c :: cs⟩⟩

def Cursor.next (cur : Cursor) : Spot := toWord false false cur.column cur.rest

/-! ## Gaps -/

/-- What ends of lines in a gap add to a word: a single newline a space, more newlines one less, and the line and
paragraph separators of Unicode themselves. -/
def foldEnds : List Char → List Char
  | []           => []
  | first :: more => (if first ≠ '\n' then [first] else if more.isEmpty then [' '] else []) ++ more

/-- A gap in a word: the blanks before the end of a line, the ends of lines, and where it ends. -/
structure Gap where
  blanks : List Char
  ends : List Char
  cursor : Cursor

namespace Gap

def isBroken (g : Gap) : Bool := !g.ends.isEmpty

def joint (g : Gap) : List Char := if g.isBroken then foldEnds g.ends else g.blanks

def ofText (blank : Char → Bool) (column : Nat) : List Char → Gap
  | []      => ⟨[], [], ⟨column, []⟩⟩
  | c :: cs =>
    if isEnd c then
      let g := ofText blank 0 cs
      ⟨[], c :: g.ends, g.cursor⟩
    else if blank c then
      let g := ofText blank (column + 1) cs
      ⟨c :: g.blanks, g.ends, g.cursor⟩
    else ⟨[], [], ⟨column, c :: cs⟩⟩

end Gap

/-! ## Plain scalars -/

/-- A scalar before its meaning is known; `oneLine` when it has no end of a line in it. -/
structure Scalar where
  text : List Char
  oneLine : Bool

def Scalar.prepend (text : List Char) : Scalar × Cursor → Scalar × Cursor
  | (s, last) => (⟨text ++ s.text, s.oneLine⟩, last)

def endsPlain (flow : Bool) (c : Char) (cs : List Char) : Bool :=
  atBlank [c] ||
    (c == ':' && (atBlank cs || (flow && match cs with
      | d :: _ => [',', '[', ']', '{', '}'].contains d
      | []     => true))) ||
    (flow && [',', '?', '[', ']', '{', '}'].contains c)

def plainRun (flow : Bool) : List Char → List Char × List Char
  | []      => ([], [])
  | c :: cs =>
    if endsPlain flow c cs then ([], c :: cs)
    else
      let (run, rest) := plainRun flow cs
      (c :: run, rest)

/-- The runs of a plain scalar after the first, with the gaps before them.  In a block they have to be further in
than the block. -/
def moreRuns (flow : Bool) (indent : Int) : Nat → Bool → Cursor → Scalar × Cursor
  | 0, oneLine, cur          => (⟨[], oneLine⟩, cur)
  | rounds + 1, oneLine, cur =>
    let gap := Gap.ofText (· == ' ') cur.column cur.rest
    let (run, rest) := plainRun flow gap.cursor.rest
    if gap.joint.isEmpty || run.isEmpty || run.head? == some '#' || atMark gap.cursor ||
        (!flow && (gap.cursor.column : Int) < indent + 1) then
      (⟨[], oneLine⟩, cur)
    else
      Scalar.prepend (gap.joint ++ run)
        (moreRuns flow indent rounds (oneLine && !gap.isBroken) (gap.cursor.after run.length rest))

def plain (flow : Bool) (indent : Int) (cur : Cursor) : Scalar × Cursor :=
  let (run, rest) := plainRun flow cur.rest
  Scalar.prepend run (moreRuns flow indent rest.length true (cur.after run.length rest))

def startsPlain (flow : Bool) : List Char → Bool
  | []      => false
  | c :: cs =>
    !(atBlank [c] || "-?:,[]\x7b\x7d#&*!|>'\"%@`".toList.contains c) ||
      (!atBlank cs && (c == '-' || (!flow && (c == '?' || c == ':'))))

/-! ## Quoted scalars -/

def quotedGap (column : Nat) (cs : List Char) : Except ReadError Gap :=
  let gap := Gap.ofText (fun c => c == ' ' || c == '\t') column cs
  if gap.isBroken && atMark gap.cursor then .error .malformed else .ok gap

def singleQuoted : Nat → Bool → Cursor → Except ReadError (Scalar × Cursor)
  | 0, _, _                  => .error .malformed
  | rounds + 1, oneLine, cur =>
    match cur.rest with
    | [] => .error .malformed
    | '\'' :: '\'' :: cs => (singleQuoted rounds oneLine (cur.after 2 cs)).map (Scalar.prepend ['\''])
    | '\'' :: cs => .ok (⟨[], oneLine⟩, cur.after 1 cs)
    | c :: cs =>
      if atBlank [c] then do
        let gap ← quotedGap cur.column (c :: cs)
        (singleQuoted rounds (oneLine && !gap.isBroken) gap.cursor).map (Scalar.prepend gap.joint)
      else (singleQuoted rounds oneLine (cur.after 1 cs)).map (Scalar.prepend [c])

def letterEscape? : Char → Option Char
  | '0'  => some (Char.ofNat 0)
  | 'a'  => some (Char.ofNat 7)
  | 'b'  => some (Char.ofNat 8)
  | 't'  => some '\t'
  | '\t' => some '\t'
  | 'n'  => some '\n'
  | 'v'  => some (Char.ofNat 11)
  | 'f'  => some (Char.ofNat 12)
  | 'r'  => some '\r'
  | 'e'  => some (Char.ofNat 27)
  | ' '  => some ' '
  | '"'  => some '"'
  | '\\' => some '\\'
  | '/'  => some '/'
  | 'N'  => some (Char.ofNat 0x85)
  | '_'  => some (Char.ofNat 0xA0)
  | 'L'  => some (Char.ofNat 0x2028)
  | 'P'  => some (Char.ofNat 0x2029)
  | _    => none

def hexWidth? : Char → Option Nat
  | 'x' => some 2
  | 'u' => some 4
  | 'U' => some 8
  | _   => none

def code? (letter : Char) (cs : List Char) : Option (Nat × List Char) :=
  match hexWidth? letter with
  | some width =>
    if width ≤ cs.length && (cs.take width).all isHex then some (inBase 16 (cs.take width), cs.drop width)
    else none
  | none => none

def lowHalf? : List Char → Option (Nat × List Char)
  | '\\' :: letter :: cs => (code? letter cs).filter fun (code, _) => isLowSurrogate code
  | _                    => none

def charOfCode (code : Nat) (rest : List Char) : Except ReadError (Char × List Char) :=
  if 0x80000000 ≤ code then .error (.overflow .hugeCode)
  else if 0x110000 ≤ code then .error .noCharacter
  else
    match isHighSurrogate code, lowHalf? rest with
    | true, some (low, rest) => .ok (charOfPair code low, rest)
    | _, _                   => .ok (charOfUnit code, rest)

def escape (letter : Char) (cs : List Char) : Except ReadError (Char × List Char) :=
  match letterEscape? letter, code? letter cs with
  | some c, _                 => .ok (c, cs)
  | none, some (code, rest)   => charOfCode code rest
  | none, none                => .error .malformed

def doubleQuoted : Nat → Bool → Cursor → Except ReadError (Scalar × Cursor)
  | 0, _, _                  => .error .malformed
  | rounds + 1, oneLine, cur =>
    match cur.rest with
    | [] => .error .malformed
    | '"' :: cs => .ok (⟨[], oneLine⟩, cur.after 1 cs)
    | '\\' :: c :: cs =>
      if isEnd c then do
        let gap ← quotedGap cur.column (c :: cs)
        (doubleQuoted rounds false gap.cursor).map (Scalar.prepend (gap.ends.drop 1))
      else do
        let (d, rest) ← escape c cs
        (doubleQuoted rounds oneLine (cur.after (cs.length - rest.length + 2) rest)).map (Scalar.prepend [d])
    | c :: cs =>
      if atBlank [c] then do
        let gap ← quotedGap cur.column (c :: cs)
        (doubleQuoted rounds (oneLine && !gap.isBroken) gap.cursor).map (Scalar.prepend gap.joint)
      else if c == '\\' then .error .malformed
      else (doubleQuoted rounds oneLine (cur.after 1 cs)).map (Scalar.prepend [c])

/-- What is wrong where no word may stand.  A word in double quotes there is read before it is refused. -/
def refusal (cur : Cursor) : ReadError :=
  match cur.next.cursor with
  | ⟨column, '"' :: cs⟩ =>
    match doubleQuoted (cs.length + 1) true ⟨column + 1, cs⟩ with
    | .error e => e
    | .ok _    => .malformed
  | _ => .malformed

end Abacus.Yaml
