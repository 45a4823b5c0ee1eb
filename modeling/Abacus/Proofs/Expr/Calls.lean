import Abacus.Expr.Canonical
import Abacus.Expr.Value
import Abacus.Proofs.Expr.Height
/-!
# Calls within each other

Evaluating and writing a tree go into it by calls of themselves.  `evaluateWithin` and `textWithin` are the two with
a limit to how many of these calls may be open at a time, and no answer where the limit is reached.  As many as the
tree is high are enough (`evaluateWithin_eq`, `textWithin_eq`), however many nodes it has.
-/
namespace Abacus
namespace Expr

mutual
/-- Evaluation with so many calls of itself within each other. -/
def evaluateWithin (r : Registry) (c : Context) : Nat → Expr → ExceptT EvalFailure Option Float
  | 0, _                  => ExceptT.mk none
  | _ + 1, .number x      => pure x
  | _ + 1, .constant k    => pure k.value
  | _ + 1, .var name      =>
    match c.lookup name with
    | some x => pure x
    | none   => throw (.refused (.unknownVariable name))
  | n + 1, .signed s x    => do
    let x ← evaluateWithin r c n x
    pure (s.apply x)
  | n + 1, .binary op l r' => do
    let x ← evaluateWithin r c n l
    let y ← evaluateWithin r c n r'
    ExceptT.mk (some (liftFault (op.apply x y)))
  | n + 1, .call name args => do
    let xs ← evaluateAllWithin r c n args
    ExceptT.mk (some (r.call name xs))

def evaluateAllWithin (r : Registry) (c : Context) (n : Nat) : List Expr → ExceptT EvalFailure Option (List Float)
  | []      => pure []
  | e :: es => do
    let x ← evaluateWithin r c n e
    let xs ← evaluateAllWithin r c n es
    pure (x :: xs)
end

mutual
/-- Writing with so many calls of itself within each other. -/
def textWithin : Nat → Expr → Option (List Char)
  | 0, _                   => none
  | _ + 1, .number x       => some (numberText x)
  | _ + 1, .constant c     => some c.name
  | _ + 1, .var name       => some name
  | n + 1, .signed s x     => do
    let text ← textWithin n x
    some (inParens (s.symbol :: text))
  | n + 1, .binary op l r  => do
    let left ← textWithin n l
    let right ← textWithin n r
    let left := if op = .pow ∧ l.isSigned then inParens left else left
    some (inParens (left ++ ' ' :: op.symbol :: ' ' :: right))
  | n + 1, .call name args => do
    let texts ← textsWithin n args
    some (name ++ inParens (commaSeparated texts))

def textsWithin (n : Nat) : List Expr → Option (List (List Char))
  | []      => some []
  | x :: xs => do
    let text ← textWithin n x
    let texts ← textsWithin n xs
    some (text :: texts)
end

variable {n : Nat}

theorem exists_of_height_le {e : Expr} (h : e.height ≤ n) :
    ∃ m, n = m + 1 ∧ ∀ child ∈ e.children, child.height ≤ m := by
  rw [height_eq] at h
  obtain ⟨m, rfl⟩ := Nat.exists_eq_add_of_le' (Nat.le_trans (Nat.le_add_left 1 _) h)
  exact ⟨m, rfl, heights_le_iff.1 (Nat.le_of_succ_le_succ h)⟩

/-! ## Evaluation -/

theorem mk_some_bind {α β : Type} (answer : Except EvalFailure α) {f : α → ExceptT EvalFailure Option β}
    {g : α → Except EvalFailure β} (h : ∀ a, f a = ExceptT.mk (some (g a))) :
    (ExceptT.mk (some answer) >>= f) = ExceptT.mk (some (answer >>= g)) := by
  cases answer with
  | error failure => rfl
  | ok a => exact h a

theorem evaluateAllWithin_eq {r : Registry} {c : Context} {args : List Expr}
    (h : ∀ a ∈ args, evaluateWithin r c n a = ExceptT.mk (some (a.evaluate r c))) :
    evaluateAllWithin r c n args = ExceptT.mk (some (evaluateAll r c args)) := by
  induction args with
  | nil => rfl
  | cons a args ih =>
    rw [evaluateAllWithin, h a List.mem_cons_self, ih fun b hb => h b (List.mem_cons_of_mem a hb), evaluateAll]
    exact mk_some_bind _ fun x => mk_some_bind _ fun xs => rfl

/-- **Evaluation needs no more calls within each other than the tree is high.** -/
theorem evaluateWithin_eq (r : Registry) (c : Context) {e : Expr} (h : e.height ≤ n) :
    evaluateWithin r c n e = ExceptT.mk (some (e.evaluate r c)) := by
  induction e using inductionOn generalizing n with
  | number x =>
    obtain ⟨n, rfl, -⟩ := exists_of_height_le h
    rfl
  | constant k =>
    obtain ⟨n, rfl, -⟩ := exists_of_height_le h
    rfl
  | var name =>
    obtain ⟨n, rfl, -⟩ := exists_of_height_le h
    rw [evaluateWithin, evaluate]
    cases c.lookup name <;> rfl
  | signed s x hx =>
    obtain ⟨n, rfl, hn⟩ := exists_of_height_le h
    rw [evaluateWithin, hx (hn x List.mem_cons_self), evaluate]
    exact mk_some_bind _ fun x => rfl
  | binary op l r' hl hr =>
    obtain ⟨n, rfl, hn⟩ := exists_of_height_le h
    have hright := hn r' (List.mem_cons_of_mem l List.mem_cons_self)
    rw [evaluateWithin, hl (hn l List.mem_cons_self), hr hright, evaluate]
    exact mk_some_bind _ fun x => mk_some_bind _ fun y => rfl
  | call name args hargs =>
    obtain ⟨n, rfl, hn⟩ := exists_of_height_le h
    rw [evaluateWithin, evaluateAllWithin_eq fun a ha => hargs a ha (hn a ha), evaluate]
    exact mk_some_bind _ fun xs => rfl

/-! ## Writing -/

theorem textsWithin_eq {args : List Expr} (h : ∀ a ∈ args, textWithin n a = some a.text) :
    textsWithin n args = some (texts args) := by
  induction args with
  | nil => rfl
  | cons a args ih =>
    rw [textsWithin, h a List.mem_cons_self, ih fun b hb => h b (List.mem_cons_of_mem a hb), texts]
    rfl

/-- **Writing needs no more calls within each other than the tree is high.** -/
theorem textWithin_eq {e : Expr} (h : e.height ≤ n) : textWithin n e = some e.text := by
  induction e using inductionOn generalizing n with
  | number x =>
    obtain ⟨n, rfl, -⟩ := exists_of_height_le h
    rfl
  | constant c =>
    obtain ⟨n, rfl, -⟩ := exists_of_height_le h
    rfl
  | var name =>
    obtain ⟨n, rfl, -⟩ := exists_of_height_le h
    rfl
  | signed s x hx =>
    obtain ⟨n, rfl, hn⟩ := exists_of_height_le h
    rw [textWithin, hx (hn x List.mem_cons_self), text]
    rfl
  | binary op l r hl hr =>
    obtain ⟨n, rfl, hn⟩ := exists_of_height_le h
    have hright := hn r (List.mem_cons_of_mem l List.mem_cons_self)
    rw [textWithin, hl (hn l List.mem_cons_self), hr hright, text]
    rfl
  | call name args hargs =>
    obtain ⟨n, rfl, hn⟩ := exists_of_height_le h
    rw [textWithin, textsWithin_eq fun a ha => hargs a ha (hn a ha), text]
    rfl

end Expr
end Abacus
