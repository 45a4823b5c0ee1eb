/-!
# Surrogates

An escape of four hexadecimal digits reaches the characters beyond the basic plane as a pair of codes, each by itself
the code of no character.
-/
namespace Abacus

def isHighSurrogate (n : Nat) : Bool := 0xD800 ≤ n && n ≤ 0xDBFF

def isLowSurrogate (n : Nat) : Bool := 0xDC00 ≤ n && n ≤ 0xDFFF

/-- What stands for half of a pair by itself. -/
def surrogateReplacement : Char := Char.ofNat 0xFFFD

def charOfUnit (n : Nat) : Char :=
  if isHighSurrogate n || isLowSurrogate n then surrogateReplacement else Char.ofNat n

def charOfPair (high low : Nat) : Char := Char.ofNat (0x10000 + (high - 0xD800) * 0x400 + (low - 0xDC00))

end Abacus
