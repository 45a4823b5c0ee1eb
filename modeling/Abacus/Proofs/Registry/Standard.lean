import Mathlib.Data.List.Basic
import Abacus.Expr.Value
/-!
# What the standard functions answer

An evaluation that ends without a value either refuses the formula or fails for a reason that is not the formula's.
The second never happens with functions that keep to their answers (`Registry.IsTotal`), and the standard ones do: each
asks first whether its operation would fault.
-/
namespace Abacus

/-- The evaluation has a value, or refuses the formula. -/
def Decided {α : Type} (answer : Except EvalFailure α) : Prop :=
  (∃ a, answer = .ok a) ∨ ∃ e, answer = .error (.refused e)

theorem Decided.ok {α : Type} (a : α) : Decided (.ok a) := .inl ⟨a, rfl⟩

theorem Decided.refused {α : Type} (e : EvalError) : Decided (.error (.refused e) : Except EvalFailure α) :=
  .inr ⟨e, rfl⟩

theorem Decided.bind {α β : Type} {answer : Except EvalFailure α} {f : α → Except EvalFailure β} (h : Decided answer)
    (hf : ∀ a, Decided (f a)) : Decided (answer >>= f) := by
  obtain ⟨a, rfl⟩ | ⟨e, rfl⟩ := h
  · exact hf a
  · exact .refused e

/-! ## Operators -/

theorem decided_liftFault {answer : Except Fault Float} (h : ∃ x, answer = .ok x) : Decided (liftFault answer) := by
  obtain ⟨x, rfl⟩ := h
  exact .ok x

theorem power_ok (x y : Float) : ∃ z, power x y = .ok z := by
  rw [power, Checked.pow]
  split
  · exact ⟨_, rfl⟩
  dsimp only
  split
  · split
    · exact ⟨_, rfl⟩
    split <;> exact ⟨_, rfl⟩
  · exact ⟨_, rfl⟩

theorem quotient_ok (x y : Float) : ∃ z, quotient x y = .ok z := by
  rw [quotient, Checked.divide]
  split <;> exact ⟨_, rfl⟩

theorem decided_circular {f : Float → Except Fault Float} (h : ∀ x, x.isInf = false → ∃ y, f x = .ok y) (x : Float) :
    Decided (liftFault (circular f x)) := by
  refine decided_liftFault ?_
  rw [circular]
  split
  · exact ⟨_, rfl⟩
  · rename_i hfinite
    exact h x (Bool.eq_false_iff.2 hfinite)

theorem Operator.apply_ok (op : Operator) (x y : Float) : ∃ z, op.apply x y = .ok z := by
  cases op with
  | add => exact ⟨_, rfl⟩
  | sub => exact ⟨_, rfl⟩
  | mul => exact ⟨_, rfl⟩
  | div => exact quotient_ok x y
  | pow => exact power_ok x y

/-! ## Functions -/

def Builtin.IsTotal (b : Builtin) : Prop := ∀ args : List Float, (args.length : Int) = b.arity → Decided (b.apply args)

def Registry.IsTotal (r : Registry) : Prop := ∀ b ∈ r.builtins, b.IsTotal

theorem Registry.IsTotal.call {r : Registry} (h : r.IsTotal) (name : List Char) (args : List Float) :
    Decided (r.call name args) := by
  rw [Registry.call]
  split
  · exact .refused _
  · rename_i b hfind
    split
    · rename_i harity
      exact h b (List.mem_of_find?_eq_some hfind) args harity
    · exact .refused _

theorem isTotal_ofOne {name : List Char} {f : Float → Except EvalFailure Float} (h : ∀ x, Decided (f x)) :
    Builtin.IsTotal ⟨name, 1, ofOne f⟩ := by
  intro args harity
  obtain ⟨x, rfl⟩ := List.length_eq_one_iff.1 (Int.ofNat.inj harity)
  exact h x

namespace Standard

theorem decided_sqrt (x : Float) : Decided (sqrt x) := by
  rw [sqrt]
  split
  · exact .refused _
  · rename_i hnot
    exact decided_liftFault ⟨_, if_neg hnot⟩

theorem decided_log (x : Float) : Decided (log x) := by
  rw [log]
  split
  · exact .refused _
  · rename_i hnot
    exact decided_liftFault ⟨_, if_neg hnot⟩

theorem decided_clamp (x low high : Float) : Decided (clamp [x, low, high]) := by
  rw [clamp]
  split
  · exact .refused _
  split <;> exact .ok _

end Standard

theorem Registry.isTotal_standard : Registry.standard.IsTotal := by
  intro b hb
  simp only [Registry.standard, List.mem_cons, List.not_mem_nil, or_false] at hb
  obtain rfl | rfl | rfl | rfl | rfl | rfl | rfl := hb
  -- away from the infinities, which `circular` keeps from it, no trigonometric function faults
  · exact isTotal_ofOne (decided_circular fun x h => ⟨_, if_neg (Bool.eq_false_iff.1 h)⟩)
  · exact isTotal_ofOne (decided_circular fun x h => ⟨_, if_neg (Bool.eq_false_iff.1 h)⟩)
  · exact isTotal_ofOne (decided_circular fun x h => ⟨_, if_neg (Bool.eq_false_iff.1 h)⟩)
  · exact isTotal_ofOne Standard.decided_sqrt
  · exact isTotal_ofOne Standard.decided_log
  · exact isTotal_ofOne fun x => .ok _
  · intro args harity
    obtain ⟨x, low, high, rfl⟩ := List.length_eq_three.1 (Int.ofNat.inj harity)
    exact Standard.decided_clamp x low high

/-! ## Formulas -/

theorem Expr.decided_evaluateAll {r : Registry} {c : Context} {es : List Expr}
    (h : ∀ e ∈ es, Decided (e.evaluate r c)) : Decided (evaluateAll r c es) := by
  induction es with
  | nil => exact .ok []
  | cons e es ih =>
    rw [evaluateAll]
    refine (h e List.mem_cons_self).bind fun x => ?_
    exact (ih fun e' he' => h e' (List.mem_cons_of_mem e he')).bind fun xs => .ok _

/-- **With functions that decide, every formula has a value or is refused**, whatever the values of its names. -/
theorem Expr.decided_evaluate {r : Registry} (h : r.IsTotal) (c : Context) (e : Expr) : Decided (e.evaluate r c) := by
  induction e using Expr.inductionOn with
  | number x => rw [evaluate]; exact .ok x
  | constant k => rw [evaluate]; exact .ok _
  | var name =>
    rw [evaluate]
    split
    · exact .ok _
    · exact .refused _
  | signed s x ih => rw [evaluate]; exact ih.bind fun x => .ok _
  | binary op l r' ihl ihr =>
    rw [evaluate]
    exact ihl.bind fun x => ihr.bind fun y => decided_liftFault (op.apply_ok x y)
  | call name args ih =>
    rw [evaluate]
    exact (Expr.decided_evaluateAll ih).bind fun xs => h.call name xs

theorem Registry.names_standard : Registry.standard.names =
    ["abs".toList, "clamp".toList, "cos".toList, "log".toList, "sin".toList, "sqrt".toList, "tan".toList] := by
  have hperm := List.mergeSort_perm (Registry.standard.builtins.map Builtin.name) textLe
  have hsorted := List.pairwise_mergeSort textLe_trans textLe_total (Registry.standard.builtins.map Builtin.name)
  exact (hperm.trans (by decide)).eq_of_pairwise (fun s t _ _ => textLe_antisymm s t) hsorted (by decide)

end Abacus
