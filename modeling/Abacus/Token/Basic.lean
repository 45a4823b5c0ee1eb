/-!
# Tokens

The words of a formula.  A token keeps its text as written and its position, the number of non-blank
characters before it.  Tokens may also be made by hand, with any text and position.
-/
namespace Abacus

inductive TokenKind
  | number | name | plus | minus | times | divide | power | opening | closing | comma
  deriving DecidableEq, Repr

structure Token where
  kind : TokenKind
  text : List Char
  position : Int
  deriving DecidableEq, Repr

def TokenKind.label : TokenKind → List Char
  | .number  => "NUMBER".toList
  | .name    => "IDENTIFIER".toList
  | .plus    => "PLUS".toList
  | .minus   => "MINUS".toList
  | .times   => "MULT".toList
  | .divide  => "DIV".toList
  | .power   => "POW".toList
  | .opening => "LPAREN".toList
  | .closing => "RPAREN".toList
  | .comma   => "COMMA".toList

def TokenKind.ofChar? : Char → Option TokenKind
  | '+' => some .plus
  | '-' => some .minus
  | '*' => some .times
  | '/' => some .divide
  | '^' => some .power
  | '(' => some .opening
  | ')' => some .closing
  | ',' => some .comma
  | _   => none

/-- How messages show a token: its kind, then its text in parentheses. -/
def Token.shown (t : Token) : List Char := t.kind.label ++ '(' :: t.text ++ [')']

/-- Whether two tokens agree but for their positions. -/
def Token.same (s t : Token) : Bool := s.kind == t.kind && s.text == t.text

end Abacus
