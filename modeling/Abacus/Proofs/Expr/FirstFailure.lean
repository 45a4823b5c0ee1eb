import Abacus.Proofs.Expr.Needed
import Abacus.Proofs.Registry.Standard
/-!
# The first failure

Evaluation is strict: a tree has a value only if all that stands in it has one.  And it goes from left to right,
children before their node, so the failure it ends in is that of the first part that has no value
(`failure?_evaluate`).  Two steps make that up: a list of trees fails as the first of them that does, and a tree as
the list of its children.  What is left for a call is what the registry says of its name, the number of its
arguments and their values.
-/
namespace Abacus

/-! ## Functions that refuse for their own reasons -/

/-- What the function refuses are values for which it is not defined. -/
def Builtin.RefusesValues (b : Builtin) : Prop :=
  ∀ args err, b.apply args = .error (.refused err) → err.kind = .domainViolation

def Registry.RefusesValues (r : Registry) : Prop := ∀ b ∈ r.builtins, b.RefusesValues

theorem refusesValues_ofOne {name : List Char} {arity : Int} {f : Float → Except EvalFailure Float}
    (h : ∀ x err, f x = .error (.refused err) → err.kind = .domainViolation) :
    Builtin.RefusesValues ⟨name, arity, ofOne f⟩ := by
  intro args err herr
  rcases args with _ | ⟨x, _ | ⟨y, args⟩⟩
  · cases herr
  · exact h x err herr
  · cases herr

theorem kind_of_screened {p : Prop} [Decidable p] {e : DomainError} {answer : Except Fault Float} {err : EvalError}
    (h : (if p then .error (.refused (.domain e)) else liftFault answer) = .error (.refused err)) :
    err.kind = .domainViolation := by
  split at h
  · cases h
    rfl
  · exact absurd h (liftFault_ne answer err)

theorem Standard.kind_of_clamp {args : List Float} {err : EvalError} (h : clamp args = .error (.refused err)) :
    err.kind = .domainViolation := by
  rw [clamp.eq_def] at h
  split at h
  · split at h
    · cases h
      rfl
    split at h <;> cases h
  · cases h

theorem Registry.refusesValues_standard : Registry.standard.RefusesValues := by
  intro b hb
  simp only [Registry.standard, List.mem_cons, List.not_mem_nil, or_false] at hb
  obtain rfl | rfl | rfl | rfl | rfl | rfl | rfl := hb
  · exact refusesValues_ofOne fun x err h => absurd h (liftFault_ne _ err)
  · exact refusesValues_ofOne fun x err h => absurd h (liftFault_ne _ err)
  · exact refusesValues_ofOne fun x err h => absurd h (liftFault_ne _ err)
  · exact refusesValues_ofOne fun x err h => kind_of_screened h
  · exact refusesValues_ofOne fun x err h => kind_of_screened h
  · refine refusesValues_ofOne fun x err h => ?_
    cases h
  · exact fun args err h => Standard.kind_of_clamp h

/-! ## Failures -/

def failure? {α : Type} : Except EvalFailure α → Option EvalFailure
  | .ok _          => none
  | .error failure => some failure

theorem failure?_eq_none_iff {α : Type} {answer : Except EvalFailure α} :
    failure? answer = none ↔ ∃ a, answer = .ok a := by
  cases answer with
  | ok a => exact iff_of_true rfl ⟨a, rfl⟩
  | error failure => exact iff_of_false nofun nofun

theorem failure?_eq_some_iff {α : Type} {answer : Except EvalFailure α} {failure : EvalFailure} :
    failure? answer = some failure ↔ answer = .error failure := by
  cases answer with
  | ok a => exact iff_of_false nofun nofun
  | error other =>
    exact ⟨fun h => congrArg Except.error (Option.some.inj h), fun h => congrArg some (Except.error.inj h)⟩

theorem findSome?_flatMap_of_eq {α β γ : Type} {f : α → List β} {g : β → Option γ} {h : α → Option γ} {xs : List α}
    (hall : ∀ x ∈ xs, (f x).findSome? g = h x) : (xs.flatMap f).findSome? g = xs.findSome? h := by
  induction xs with
  | nil => rfl
  | cons x xs ih =>
    rw [List.flatMap_cons, List.findSome?_append, hall x List.mem_cons_self,
      ih fun y hy => hall y (List.mem_cons_of_mem x hy), List.findSome?_cons]
    cases h x <;> rfl

namespace Expr

variable {r : Registry} {c : Context} {e : Expr} {failure : EvalFailure}

/-- **A list of trees fails as the first of them that does.** -/
theorem failure?_evaluateAll (es : List Expr) :
    failure? (evaluateAll r c es) = es.findSome? fun e => failure? (e.evaluate r c) := by
  induction es with
  | nil => rfl
  | cons e es ih =>
    rw [evaluateAll, List.findSome?_cons, ← ih]
    cases e.evaluate r c with
    | error failure => rfl
    | ok x => cases evaluateAll r c es <;> rfl

theorem evaluate_of_children (h : evaluateAll r c e.children = .error failure) : e.evaluate r c = .error failure := by
  cases e with
  | number x => cases h
  | constant k => cases h
  | var name => cases h
  | signed s x =>
    rw [children, evaluateAll] at h
    rw [evaluate]
    cases hx : x.evaluate r c with
    | error other => rw [hx] at h; cases h; rfl
    | ok v => rw [hx] at h; cases h
  | binary op l r' =>
    rw [children, evaluateAll, evaluateAll] at h
    rw [evaluate]
    cases hl : l.evaluate r c with
    | error other => rw [hl] at h; cases h; rfl
    | ok v =>
      rw [hl] at h
      cases hr : r'.evaluate r c with
      | error other => rw [hr] at h; cases h; rfl
      | ok w => rw [hr] at h; cases h
  | call name args =>
    rw [children] at h
    rw [evaluate, h]
    rfl

/-- **A tree fails as the first of its parts that does**, these taken from left to right and each after its own. -/
theorem failure?_evaluate (r : Registry) (c : Context) (e : Expr) :
    failure? (e.evaluate r c) = e.parts.findSome? fun p => failure? (p.evaluate r c) := by
  have hstep {x : Expr} (hchildren : ∀ y ∈ x.children,
      (y.parts.findSome? fun p => failure? (p.evaluate r c)) = failure? (y.evaluate r c)) :
      failure? (x.evaluate r c) = x.parts.findSome? fun p => failure? (p.evaluate r c) := by
    rw [parts_eq, List.findSome?_append, findSome?_flatMap_of_eq hchildren, ← failure?_evaluateAll,
      List.findSome?_singleton]
    cases hall : evaluateAll r c x.children with
    | ok xs => rfl
    | error failure => rw [evaluate_of_children hall]; rfl
  induction e using inductionOn with
  | number x => exact hstep (List.forall_mem_nil _)
  | constant k => exact hstep (List.forall_mem_nil _)
  | var name => exact hstep (List.forall_mem_nil _)
  | signed s x hx => exact hstep (List.forall_mem_singleton.2 hx.symm)
  | binary op l r' hl hr => exact hstep (List.forall_mem_cons.2 ⟨hl.symm, List.forall_mem_singleton.2 hr.symm⟩)
  | call name args hargs => exact hstep fun a ha => (hargs a ha).symm

theorem evaluate_call_of_values {name : List Char} {args : List Expr} {xs : List Float}
    (h : args.map (evaluate r c) = xs.map .ok) : (call name args).evaluate r c = r.call name xs := by
  have hall : evaluateAll r c args = .ok xs := by
    induction args generalizing xs with
    | nil =>
      rw [List.map_nil, eq_comm, List.map_eq_nil_iff] at h
      rw [h, evaluateAll]
    | cons a args ih =>
      obtain ⟨x, xs', rfl, hx, hxs⟩ := List.map_eq_cons_iff.1 h.symm
      rw [evaluateAll, ← hx, ih hxs.symm]
      rfl
  rw [evaluate, hall]
  rfl

/-- **Evaluation is strict, goes from left to right and ends at the first failure.**  With functions that answer with a
value or a refusal, a tree has a value just if all its parts have; otherwise it is refused as the first of them that has
none.  A call whose arguments have values is refused if there is no such function, then if it takes another number of
arguments, and else answers as the function does, whose own refusals are of values for which it is not defined. -/
theorem evaluate_first_failure :
    Registry.standard.IsTotal ∧ Registry.standard.RefusesValues ∧
    ∀ r : Registry, r.IsTotal → ∀ (c : Context) (e : Expr),
      ((∃ x, e.evaluate r c = .ok x) ↔ ∀ p ∈ e.parts, ∃ x, p.evaluate r c = .ok x) ∧
      ((∃ x, e.evaluate r c = .ok x) ∨ ∃ before p after err, e.parts = before ++ p :: after ∧
        (∀ q ∈ before, ∃ x, q.evaluate r c = .ok x) ∧ p.evaluate r c = .error (.refused err) ∧
        e.evaluate r c = .error (.refused err)) ∧
      ∀ name args xs, e = call name args → args.map (evaluate r c) = xs.map .ok →
        (r.find? name = none → e.evaluate r c = .error (.refused (.unknownFunction name))) ∧
        ∀ b, r.find? name = some b →
          (b.arity ≠ args.length → e.evaluate r c = .error (.refused (.arityMismatch name b.arity args.length))) ∧
          (b.arity = args.length → e.evaluate r c = b.apply xs ∧
            (r.RefusesValues → ∀ err, e.evaluate r c = .error (.refused err) → err.kind = .domainViolation)) := by
  refine ⟨Registry.isTotal_standard, Registry.refusesValues_standard, fun r hr c e => ⟨?_, ?_, ?_⟩⟩
  · rw [← failure?_eq_none_iff, failure?_evaluate, List.findSome?_eq_none_iff]
    exact forall₂_congr fun p _ => failure?_eq_none_iff
  · refine (decided_evaluate hr c e).imp_right fun ⟨err, herr⟩ => ?_
    have hfirst := failure?_evaluate r c e
    rw [herr, eq_comm, failure?, List.findSome?_eq_some_iff] at hfirst
    obtain ⟨before, p, after, hparts, hp, hbefore⟩ := hfirst
    exact ⟨before, p, after, err, hparts, fun q hq => failure?_eq_none_iff.1 (hbefore q hq),
      failure?_eq_some_iff.1 hp, herr⟩
  · rintro name args xs rfl hxs
    have hlength : xs.length = args.length := by
      have hmaps := congrArg List.length hxs
      rw [List.length_map, List.length_map] at hmaps
      exact hmaps.symm
    have hcall : (call name args).evaluate r c = r.call name xs := evaluate_call_of_values hxs
    rw [hcall, Registry.call, hlength]
    refine ⟨fun hnone => by rw [hnone], fun b hb => ?_⟩
    rw [hb]
    refine ⟨fun hne => if_neg (Ne.symm hne), fun heq => ?_⟩
    have happly : (if (args.length : Int) = b.arity then b.apply xs
        else .error (.refused (.arityMismatch name b.arity args.length))) = b.apply xs := if_pos heq.symm
    refine ⟨happly, fun hvalues err herr => ?_⟩
    exact hvalues b (List.mem_of_find?_eq_some hb) xs err (happly.symm.trans herr)

def doubleRoot : Expr := .call "sqrt".toList [.number 4, .number 1]

/-- `max(sqrt(4, 1), y) + log(0)`: there is no function `max`, no variable `y`, and no logarithm of zero. -/
def oftenRefused : Expr := .binary .add (.call "max".toList [doubleRoot, .var ['y']]) (.call "log".toList [.number 0])

/-- Of four reasons to refuse, the number of the arguments of the root comes first. -/
theorem evaluate_first_failure_oftenRefused :
    (∃ before p after err, oftenRefused.parts = before ++ p :: after ∧
      (∀ q ∈ before, ∃ x, q.evaluate .standard [] = .ok x) ∧ p.evaluate .standard [] = .error (.refused err) ∧
      oftenRefused.evaluate .standard [] = .error (.refused err)) ∧
    oftenRefused.evaluate .standard [] = .error (.refused (.arityMismatch "sqrt".toList 1 2)) ∧
    doubleRoot.evaluate .standard [] = .error (.refused (.arityMismatch "sqrt".toList 1 2)) ∧
    doubleRoot ∈ oftenRefused.parts ∧ ¬ ∀ p ∈ oftenRefused.parts, ∃ x, p.evaluate .standard [] = .ok x := by
  obtain ⟨htotal, -, hall⟩ := evaluate_first_failure
  obtain ⟨hiff, hfirst, -⟩ := hall .standard htotal [] oftenRefused
  obtain ⟨-, -, hcall⟩ := hall .standard htotal [] doubleRoot
  have hwhole : oftenRefused.evaluate .standard [] = .error (.refused (.arityMismatch "sqrt".toList 1 2)) := rfl
  have hnone : ¬ ∃ x, oftenRefused.evaluate .standard [] = .ok x := by
    rintro ⟨x, hx⟩
    rw [hwhole] at hx
    cases hx
  refine ⟨hfirst.resolve_left hnone, hwhole, ?_, ?_, fun hparts => hnone (hiff.2 hparts)⟩
  · exact ((hcall "sqrt".toList [.number 4, .number 1] [4, 1] rfl rfl).2 _ rfl).1 (by decide)
  · exact List.mem_cons_of_mem _ (List.mem_cons_of_mem _ List.mem_cons_self)

end Expr
end Abacus
