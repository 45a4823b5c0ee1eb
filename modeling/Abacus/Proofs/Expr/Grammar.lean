import Abacus.Expr.Parse
/-!
# The grammar of formulas

The six rules of the grammar as relations between token lists and trees, one constructor for each way to build a
tree.  The repetitions of sums and products are left-recursive, which is what "to the left" means; a power has an
operand on its right, which is what "to the right" means.  No relation looks past its own tokens, reads from left to
right, or knows a limit.

The number in front is the nesting of the derivation: how many operands, at most, one of its points lies inside.
Only an operand adds to it; everything else takes the greater of its parts.
-/
namespace Abacus
namespace Grammar

mutual

/-- `expression := term (('+' | '-') term)*` -/
inductive Expression : Nat → List Token → Expr → Prop
  | term {n ts e} : Term n ts e → Expression n ts e
  | sum {m n ls l t op rs r} : Expression m ls l → t.kind.sum? = some op → Term n rs r →
      Expression (max m n) (ls ++ t :: rs) (.binary op l r)

/-- `term := operand (('*' | '/') operand)*` -/
inductive Term : Nat → List Token → Expr → Prop
  | operand {n ts e} : Operand n ts e → Term n ts e
  | product {m n ls l t op rs r} : Term m ls l → t.kind.product? = some op → Operand n rs r →
      Term (max m n) (ls ++ t :: rs) (.binary op l r)

/-- `operand := ('+' | '-') operand | power` -/
inductive Operand : Nat → List Token → Expr → Prop
  | signed {n t s ts e} : t.kind.sign? = some s → Operand n ts e → Operand (n + 1) (t :: ts) (.signed s e)
  | power {n ts e} : Power n ts e → Operand (n + 1) ts e

/-- `power := primary ('^' operand)?` -/
inductive Power : Nat → List Token → Expr → Prop
  | primary {n ts e} : Primary n ts e → Power n ts e
  | raised {m n bs b t xs x} : Primary m bs b → t.kind = .power → Operand n xs x →
      Power (max m n) (bs ++ t :: xs) (.binary .pow b x)

/-- `primary := number | name '(' arguments ')' | name | '(' expression ')'`, where a name alone is a constant if it
is the name of one, and a variable otherwise. -/
inductive Primary : Nat → List Token → Expr → Prop
  | number {t x} : t.kind = .number → readDouble? t.text = some x → Primary 0 [t] (.number x)
  | call {n f o ts args c} : f.kind = .name → o.kind = .opening → Arguments n ts args → c.kind = .closing →
      Primary n (f :: o :: (ts ++ [c])) (.call f.text args)
  | constant {t} {c : Constant} : t.kind = .name → t.text = c.name → Primary 0 [t] (.constant c)
  | free {t} : t.kind = .name → (∀ c : Constant, t.text ≠ c.name) → Primary 0 [t] (.var t.text)
  | group {n o ts e c} : o.kind = .opening → Expression n ts e → c.kind = .closing →
      Primary n (o :: (ts ++ [c])) e

/-- `arguments := (expression (',' expression)*)?` -/
inductive Arguments : Nat → List Token → List Expr → Prop
  | none : Arguments 0 [] []
  | some {n ts args} : ArgumentList n ts args → Arguments n ts args

/-- `expression (',' expression)*` -/
inductive ArgumentList : Nat → List Token → List Expr → Prop
  | one {n ts e} : Expression n ts e → ArgumentList n ts [e]
  | more {m n ts e t us es} : Expression m ts e → t.kind = .comma → ArgumentList n us es →
      ArgumentList (max m n) (ts ++ t :: us) (e :: es)

end

def Phrase {α : Type} (rule : Nat → List Token → α → Prop) (ts : List Token) (a : α) : Prop := ∃ n, rule n ts a

def Derives : List Token → Expr → Prop := Phrase Expression

def Sentence (ts : List Token) : Prop := ∃ e, Derives ts e

def NumeralsRead (ts : List Token) : Prop := ∀ t ∈ ts, t.kind = .number → (readDouble? t.text).isSome

instance (ts : List Token) : Decidable (NumeralsRead ts) :=
  inferInstanceAs (Decidable (∀ t ∈ ts, t.kind = .number → (readDouble? t.text).isSome))

/-! ## A name by itself -/

theorem ofName_constant (c : Constant) : Expr.ofName c.name = .constant c := by cases c <;> rfl

theorem ofName_free {name : List Char} (h : ∀ c : Constant, name ≠ c.name) : Expr.ofName name = .var name := by
  simp [Expr.ofName, Constant.ofName?, h .pi, h .e]

theorem Primary.ofName {t : Token} (hk : t.kind = .name) : Primary 0 [t] (Expr.ofName t.text) := by
  by_cases h : ∃ c : Constant, t.text = c.name
  · obtain ⟨c, hc⟩ := h
    rw [hc, ofName_constant]
    exact .constant hk hc
  · rw [ofName_free fun c hc => h ⟨c, hc⟩]
    exact .free hk fun c hc => h ⟨c, hc⟩

/-! ## First tokens -/

def StartsWith (kinds : List TokenKind) (ts : List Token) : Prop := ∃ t us, ts = t :: us ∧ t.kind ∈ kinds

theorem StartsWith.append {kinds : List TokenKind} {ts : List Token} (h : StartsWith kinds ts) (us : List Token) :
    StartsWith kinds (ts ++ us) := by
  obtain ⟨t, vs, rfl, hk⟩ := h
  exact ⟨t, vs ++ us, rfl, hk⟩

theorem StartsWith.mono {kinds more : List TokenKind} {ts : List Token} (h : StartsWith kinds ts)
    (hsub : kinds ⊆ more) : StartsWith more ts := by
  obtain ⟨t, us, rfl, hk⟩ := h
  exact ⟨t, us, rfl, hsub hk⟩

def primaryStarts : List TokenKind := [.number, .name, .opening]

def operandStarts : List TokenKind := .plus :: .minus :: primaryStarts

theorem Primary.startsWith {n : Nat} {ts : List Token} {e : Expr} : Primary n ts e → StartsWith primaryStarts ts
  | .number hk _   => ⟨_, _, rfl, by simp [primaryStarts, hk]⟩
  | .call hk _ _ _ => ⟨_, _, rfl, by simp [primaryStarts, hk]⟩
  | .constant hk _ => ⟨_, _, rfl, by simp [primaryStarts, hk]⟩
  | .free hk _     => ⟨_, _, rfl, by simp [primaryStarts, hk]⟩
  | .group hk _ _  => ⟨_, _, rfl, by simp [primaryStarts, hk]⟩

theorem Power.startsWith {n : Nat} {ts : List Token} {e : Expr} : Power n ts e → StartsWith primaryStarts ts
  | .primary h    => h.startsWith
  | .raised h _ _ => h.startsWith.append _

theorem Operand.startsWith {n : Nat} {ts : List Token} {e : Expr} : Operand n ts e → StartsWith operandStarts ts
  | .signed (t := t) hs _ => ⟨_, _, rfl, by cases hk : t.kind <;> simp [hk, TokenKind.sign?, operandStarts] at hs ⊢⟩
  | .power h              => h.startsWith.mono (by simp [operandStarts])

theorem Term.startsWith {n : Nat} {ts : List Token} {e : Expr} : Term n ts e → StartsWith operandStarts ts
  | .operand h     => h.startsWith
  | .product h _ _ => h.startsWith.append _

theorem Expression.startsWith {n : Nat} {ts : List Token} {e : Expr} :
    Expression n ts e → StartsWith operandStarts ts
  | .term h    => h.startsWith
  | .sum h _ _ => h.startsWith.append _

theorem ArgumentList.startsWith {n : Nat} {ts : List Token} {args : List Expr} :
    ArgumentList n ts args → StartsWith operandStarts ts
  | .one h      => h.startsWith
  | .more h _ _ => h.startsWith.append _

theorem Expression.ne_nil {n : Nat} {ts : List Token} {e : Expr} (h : Expression n ts e) : ts ≠ [] := by
  obtain ⟨t, us, rfl, -⟩ := h.startsWith
  exact List.cons_ne_nil t us

end Grammar
end Abacus
