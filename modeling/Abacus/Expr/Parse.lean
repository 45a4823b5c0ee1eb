import Abacus.Token.Scan
import Abacus.Expr.Height
import Abacus.Text.Quoted
/-!
# From tokens to a tree

The grammar, from loosest to tightest:

    expression := term (('+' | '-') term)*
    term       := operand (('*' | '/') operand)*
    operand    := ('+' | '-') operand | power
    power      := primary ('^' operand)?
    primary    := number | name '(' arguments ')' | name | '(' expression ')'
    arguments  := (expression (',' expression)*)?

Sums and products group to the left, powers to the right, and a sign reaches over a power.  Only operands
nest, so every rule is a function of the parser of the operands one level further in, and `operand` is a
recursion on the number of levels still allowed.  Each rule answers what it read and the tokens it left.
-/
namespace Abacus

inductive ParseError
  | emptyInput
  | excessInput (token : Token)
  | missingOperand
  /-- no closing parenthesis, of a group or of the arguments of the function named -/
  | unclosed (function : Option (List Char)) (found : Option Token)
  | unexpected (token : Token)
  | tooNested (token : Option Token)
  | tooHigh
  /-- a number token made by hand whose text is no numeral -/
  | notANumeral (text : List Char)
  deriving DecidableEq, Repr

inductive ParseErrorKind
  | emptyInput | excessInput | expectedToken | unknownToken | tooDeep | notANumeral
  deriving DecidableEq, Repr

namespace Expr

/-- The operands of every kind that may stand within each other. -/
def maxNesting : Nat := 100

def maxHeight : Nat := 250

end Expr

namespace ParseError

def kind : ParseError → ParseErrorKind
  | .emptyInput     => .emptyInput
  | .excessInput _  => .excessInput
  | .missingOperand => .expectedToken
  | .unclosed _ _   => .expectedToken
  | .unexpected _   => .unknownToken
  | .tooNested _    => .tooDeep
  | .tooHigh        => .tooDeep
  | .notANumeral _  => .notANumeral

def token? : ParseError → Option Token
  | .excessInput t    => some t
  | .unclosed _ found => found
  | .unexpected t     => some t
  | .tooNested t      => t
  | _                 => none

def position? (e : ParseError) : Option Int := e.token?.map Token.position

def tooDeepText (limit : Nat) : List Char :=
  "expression nested too deeply (more than ".toList ++ natText limit ++ " levels)".toList

def message : ParseError → List Char
  | .emptyInput     => "empty expression".toList
  | .excessInput t  => "excess input: ".toList ++ t.shown
  | .missingOperand => "expected number, variable, function or '('".toList
  | .unclosed function found =>
    "expected ')'".toList ++
      (match function with
        | some name => " after arguments of function '".toList ++ name ++ ['\'']
        | none      => []) ++
      (match found with
        | some t => ", got ".toList ++ t.shown
        | none   => [])
  | .unexpected t     => "unexpected token: ".toList ++ t.shown
  | .tooNested _      => tooDeepText Expr.maxNesting
  | .tooHigh          => tooDeepText Expr.maxHeight
  | .notANumeral text => "could not convert string to float: ".toList ++ quoted text

end ParseError

/-- A rule of the grammar: what it reads off the front of the tokens, and the tokens after that. -/
abbrev Rule (α : Type) := List Token → Except ParseError (α × List Token)

namespace TokenKind

def sign? : TokenKind → Option Sign
  | .plus  => some .plus
  | .minus => some .minus
  | _      => none

def sum? : TokenKind → Option Operator
  | .plus  => some .add
  | .minus => some .sub
  | _      => none

def product? : TokenKind → Option Operator
  | .times  => some .mul
  | .divide => some .div
  | _       => none

end TokenKind

namespace Expr

/-- Operators and their right operands, grouped to the left onto `left`.  Each round takes a token, so as
many rounds as tokens are enough. -/
def chain (operator? : TokenKind → Option Operator) (item : Rule Expr) : Nat → Expr → Rule Expr
  | 0, left, ts          => .ok (left, ts)
  | _ + 1, left, []      => .ok (left, [])
  | rounds + 1, left, t :: ts =>
    match operator? t.kind with
    | none    => .ok (left, t :: ts)
    | some op => do
      let (right, rest) ← item ts
      chain operator? item rounds (.binary op left right) rest

def term (operand : Rule Expr) : Rule Expr := fun ts => do
  let (left, rest) ← operand ts
  chain TokenKind.product? operand rest.length left rest

def expression (operand : Rule Expr) : Rule Expr := fun ts => do
  let (left, rest) ← term operand ts
  chain TokenKind.sum? (term operand) rest.length left rest

def closing (function : Option (List Char)) : List Token → Except ParseError (List Token)
  | []      => .error (.unclosed function none)
  | t :: ts => if t.kind = .closing then .ok ts else .error (.unclosed function (some t))

def moreArguments (operand : Rule Expr) : Nat → Rule (List Expr)
  | 0, ts               => .ok ([], ts)
  | _ + 1, []           => .ok ([], [])
  | rounds + 1, t :: ts =>
    if t.kind = .comma then do
      let (arg, rest) ← expression operand ts
      let (more, rest) ← moreArguments operand rounds rest
      .ok (arg :: more, rest)
    else .ok ([], t :: ts)

def arguments (operand : Rule Expr) : Rule (List Expr)
  | []      => .ok ([], [])
  | t :: ts =>
    if t.kind = .closing then .ok ([], t :: ts)
    else do
      let (arg, rest) ← expression operand (t :: ts)
      let (more, rest) ← moreArguments operand rest.length rest
      .ok (arg :: more, rest)

def callOf (operand : Rule Expr) (name : List Char) : Rule Expr := fun ts => do
  let (args, rest) ← arguments operand ts
  let rest ← closing (some name) rest
  .ok (.call name args, rest)

/-- A name that no parenthesis follows. -/
def ofName (name : List Char) : Expr :=
  match Constant.ofName? name with
  | some c => .constant c
  | none   => .var name

def primary (operand : Rule Expr) : Rule Expr
  | []      => .error .missingOperand
  | t :: ts =>
    match t.kind with
    | .number =>
      match readDouble? t.text with
      | some x => .ok (.number x, ts)
      | none   => .error (.notANumeral t.text)
    | .name =>
      match ts with
      | u :: us => if u.kind = .opening then callOf operand t.text us else .ok (ofName t.text, u :: us)
      | []      => .ok (ofName t.text, [])
    | .opening => do
      let (e, rest) ← expression operand ts
      let rest ← closing none rest
      .ok (e, rest)
    | _ => .error (.unexpected t)

def power (operand : Rule Expr) : Rule Expr := fun ts => do
  let (base, rest) ← primary operand ts
  match rest with
  | []      => .ok (base, [])
  | t :: ts =>
    if t.kind = .power then do
      let (exponent, rest) ← operand ts
      .ok (.binary .pow base exponent, rest)
    else .ok (base, t :: ts)

/-- An operand with so many levels of operands allowed, itself included. -/
def operand : Nat → Rule Expr
  | 0, ts               => .error (.tooNested ts.head?)
  | levels + 1, []      => power (operand levels) []
  | levels + 1, t :: ts =>
    match t.kind.sign? with
    | some s => do
      let (x, rest) ← operand levels ts
      .ok (.signed s x, rest)
    | none   => power (operand levels) (t :: ts)

def ofTokens (ts : List Token) : Except ParseError Expr :=
  if ts.isEmpty then .error .emptyInput
  else do
    let (e, rest) ← expression (operand maxNesting) ts
    match rest with
    | t :: _ => .error (.excessInput t)
    | []     => if maxHeight < e.depth then .error .tooHigh else .ok e

end Expr

inductive FormulaError
  | scan (e : ScanError)
  | parse (e : ParseError)
  deriving DecidableEq, Repr

def FormulaError.message : FormulaError → List Char
  | .scan e  => e.message
  | .parse e => e.message

def Expr.parse (text : List Char) : Except FormulaError Expr :=
  match scan text with
  | .error e => .error (.scan e)
  | .ok ts   => (Expr.ofTokens ts).mapError .parse

end Abacus
