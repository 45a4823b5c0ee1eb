import Abacus.Proofs.Registry.Standard
/-!
# Guards

A checked operation faults on some operands, and no formula may end so.  There are two ways to keep a fault from
coming out: what guards a quotient, a power or a trigonometric function puts the conventional value in its place
(`Recovers`), and what guards a root or a logarithm refuses the formula first (`Screens`).  Either covers exactly
the operands on which the operation behind it faults, so that all other answers are the operation's own.
-/
namespace Abacus

/-- **There always is a value**, which is that of the checked operation where it has one. -/
structure Recovers (checked guarded : Except Fault Float) : Prop where
  value : ∃ z, guarded = .ok z
  agrees : ∀ z, checked = .ok z → guarded = .ok z

/-- **The formula is refused just where the checked operation faults**; elsewhere the value is that of the operation. -/
structure Screens (checked : Except Fault Float) (screened : Except EvalFailure Float) : Prop where
  refuses_iff : (∃ e, screened = .error (.refused e)) ↔ ∃ f, checked = .error f
  agrees : ∀ z, checked = .ok z → screened = .ok z

theorem recovers_quotient (x y : Float) : Recovers (Checked.divide x y) (quotient x y) := by
  refine ⟨quotient_ok x y, fun z hz => ?_⟩
  rw [quotient]
  split
  · rename_i hzero
    rw [Checked.divide, if_pos hzero] at hz
    cases hz
  · exact hz

theorem recovers_power (x y : Float) : Recovers (Checked.pow x y) (power x y) := by
  refine ⟨power_ok x y, fun z hz => ?_⟩
  rw [power, hz]
  rfl

theorem recovers_circular {f : Float → Except Fault Float} (h : ∀ x, (∃ y, f x = .ok y) ↔ x.isInf = false) (x : Float) :
    Recovers (f x) (circular f x) := by
  rw [circular]
  cases hx : x.isInf with
  | true =>
    rw [if_pos rfl]
    refine ⟨⟨_, rfl⟩, fun z hz => ?_⟩
    rw [(h x).1 ⟨z, hz⟩] at hx
    cases hx
  | false =>
    rw [if_neg Bool.false_ne_true]
    exact ⟨(h x).2 hx, fun z hz => hz⟩

theorem ite_eq_ok_iff {b : Bool} {fault : Fault} {z : Float} :
    (∃ y, (if b then .error fault else .ok z : Except Fault Float) = .ok y) ↔ b = false := by
  cases b with
  | true => exact iff_of_false (by rintro ⟨y, hy⟩; cases hy) (by simp)
  | false => exact iff_of_true ⟨z, rfl⟩ rfl

theorem screens_ite {p : Prop} [Decidable p] {fault : Fault} {e : EvalError} {z : Float} :
    Screens (if p then .error fault else .ok z)
      (if p then .error (.refused e) else liftFault (if p then .error fault else .ok z)) := by
  by_cases h : p
  · rw [if_pos h, if_pos h]
    exact ⟨iff_of_true ⟨e, rfl⟩ ⟨fault, rfl⟩, nofun⟩
  · rw [if_neg h, if_neg h]
    refine ⟨iff_of_false nofun nofun, fun y hy => ?_⟩
    cases hy
    rfl

/-- **No evaluation ends in a fault.**  Each operation that may fault is guarded where it faults and nowhere else; and
whatever the tree and the values of its names, not-a-number, infinities and signed zeros among them, with the standard
functions it has a value or is refused. -/
theorem evaluate_standard_value_or_refused :
    (∀ x y, Recovers (Checked.divide x y) (quotient x y)) ∧
    (∀ x y, Recovers (Checked.pow x y) (power x y)) ∧
    (∀ x, Recovers (Checked.sin x) (circular Checked.sin x)) ∧
    (∀ x, Recovers (Checked.cos x) (circular Checked.cos x)) ∧
    (∀ x, Recovers (Checked.tan x) (circular Checked.tan x)) ∧
    (∀ x, Screens (Checked.sqrt x) (Standard.sqrt x)) ∧
    (∀ x, Screens (Checked.log x) (Standard.log x)) ∧
    ∀ (e : Expr) (c : Context),
      (∃ x, e.evaluate .standard c = .ok x) ∨ ∃ err, e.evaluate .standard c = .error (.refused err) :=
  ⟨recovers_quotient, recovers_power, recovers_circular fun _ => ite_eq_ok_iff,
    recovers_circular fun _ => ite_eq_ok_iff, recovers_circular fun _ => ite_eq_ok_iff, fun _ => screens_ite,
    fun _ => screens_ite, fun e c => Expr.decided_evaluate Registry.isTotal_standard c e⟩

end Abacus
