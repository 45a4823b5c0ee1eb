/-!
# Blank characters

The characters that separate words: the ASCII controls from tab to carriage return and from file to
unit separator, the space, next line, and the spaces and separators of Unicode.  `strip` removes them
from both ends of a text.
-/
namespace Abacus

def isBlank (c : Char) : Bool :=
  let n := c.toNat
  (9 ≤ n && n ≤ 13) || (0x1C ≤ n && n ≤ 0x20) || n == 0x85 || n == 0xA0 || n == 0x1680 ||
    (0x2000 ≤ n && n ≤ 0x200A) || n == 0x2028 || n == 0x2029 || n == 0x202F || n == 0x205F ||
    n == 0x3000

/-- A text without the characters of a class at its ends. -/
def trim (p : Char → Bool) (text : List Char) : List Char :=
  ((text.dropWhile p).reverse.dropWhile p).reverse

def strip (text : List Char) : List Char := trim isBlank text

end Abacus
