import Abacus.Text.Pieces
/-!
# Lines

Two notions of a line.  Typed input and settings end their lines with a newline, a carriage return or both;
`unifyNewlines` makes each of them a newline.  A log is cut at every character that any system takes for the end of
a line.
-/
namespace Abacus

/-- Carriage returns, and the newlines right after them, as one newline. -/
def unifyNewlines : List Char → List Char
  | []                   => []
  | '\r' :: '\n' :: rest => '\n' :: unifyNewlines rest
  | '\r' :: rest         => '\n' :: unifyNewlines rest
  | c :: rest            => c :: unifyNewlines rest

/-- The lines of typed input; the last one need not be ended. -/
def inputLines (text : List Char) : List (List Char) :=
  let pieces := splitAtAll (· == '\n') (unifyNewlines text)
  if pieces.getLast? = some [] then pieces.dropLast else pieces

/-- Newline, carriage return, vertical tab, form feed, file, group and record separators, next line, and the
line and paragraph separators of Unicode. -/
def isLineBreak (c : Char) : Bool :=
  let n := c.toNat
  (0x0A ≤ n && n ≤ 0x0D) || (0x1C ≤ n && n ≤ 0x1E) || n == 0x85 || n == 0x2028 || n == 0x2029

/-- The lines of a log.  An empty line between a carriage return and its newline does no harm, as blank lines do
not count. -/
def logLines (text : List Char) : List (List Char) := splitAtAll isLineBreak text

end Abacus
