import Abacus.Proofs.Expr.Height
/-!
# Sweeps in any order

The loop that computes the depth of a tree takes a tree off its stack, keeps its level if none was deeper, and
stacks its children one level further down.  A visit is one turn of such a loop without an order: the tree may be
taken from anywhere in the stack, and the children may be put anywhere.  What the loop would answer from a stack
does not hang on the order of the stack (`deepest_perm`), so no visit changes it (`Visit.answer_eq`); and each visit
leaves one node less to visit, however many trees it stacks (`Visit.left_eq`).  So every sweep of a tree ends, after
as many visits as the tree has nodes, and ends in its height.
-/
namespace Abacus
namespace Expr

/-! ## The order of a stack -/

theorem size_pos (e : Expr) : 0 < e.size := by
  rw [size_eq_sizes_children]
  exact Nat.succ_pos _

theorem sizes_eq_zero_iff : ∀ {xs : List Expr}, sizes xs = 0 ↔ xs = []
  | []      => by simp [sizes]
  | x :: xs => by simp [sizes, Nat.ne_of_gt x.size_pos]

theorem sizes_perm {xs ys : List Expr} (h : xs.Perm ys) : sizes xs = sizes ys := by
  induction h with
  | nil => rfl
  | cons x _ ih => rw [sizes, sizes, ih]
  | swap x y xs => exact Nat.add_left_comm _ _ _
  | trans _ _ ih₁ ih₂ => exact ih₁.trans ih₂

theorem reached_perm {stack stack' : List (Expr × Nat)} (h : stack.Perm stack') : reached stack = reached stack' := by
  induction h with
  | nil => rfl
  | cons entry _ ih => rw [reached, reached, ih]
  | swap entry other stack => exact Nat.max_left_comm _ _ _
  | trans _ _ ih₁ ih₂ => exact ih₁.trans ih₂

/-- **The order of the stack is of no account to what the loop answers.** -/
theorem deepest_perm {stack stack' : List (Expr × Nat)} (h : stack.Perm stack') (best : Nat) :
    deepest stack best = deepest stack' best := by
  rw [deepest_eq, deepest_eq, reached_perm h]

/-! ## Visits -/

/-- How far a sweep has come: the trees still to visit, each with its level, and the deepest level met. -/
structure Sweep where
  stack : List (Expr × Nat)
  best : Nat

namespace Sweep

def start (e : Expr) : Sweep := ⟨[(e, 1)], 0⟩

def answer (s : Sweep) : Nat := deepest s.stack s.best

def left (s : Sweep) : Nat := sizes (s.stack.map Prod.fst)

def below (e : Expr) (level : Nat) : List (Expr × Nat) := e.children.map fun child => (child, level + 1)

/-- One turn of a loop that takes any tree off the stack and puts its children anywhere. -/
inductive Visit : Sweep → Sweep → Prop
  | take (before : List (Expr × Nat)) (e : Expr) (level : Nat) (after : List (Expr × Nat)) (best : Nat)
      {stack : List (Expr × Nat)} : stack.Perm (before ++ after ++ below e level) →
      Visit ⟨before ++ (e, level) :: after, best⟩ ⟨stack, max best level⟩

inductive Visits : Nat → Sweep → Sweep → Prop
  | done (s : Sweep) : Visits 0 s s
  | next {n : Nat} {s s' s'' : Sweep} : Visit s s' → Visits n s' s'' → Visits (n + 1) s s''

variable {n : Nat} {s s' : Sweep}

/-- The visit of a loop whose stack grows and shrinks at its end. -/
theorem Visit.last (stack : List (Expr × Nat)) (e : Expr) (level best : Nat) :
    Visit ⟨stack ++ [(e, level)], best⟩ ⟨stack ++ below e level, max best level⟩ :=
  .take stack e level [] best (by rw [List.append_nil])

theorem left_eq_zero_iff : s.left = 0 ↔ s.stack = [] := sizes_eq_zero_iff.trans List.map_eq_nil_iff

theorem map_fst_below (e : Expr) (level : Nat) : (below e level).map Prod.fst = e.children := by
  simp [below, Function.comp_def]

theorem Visit.left_eq (h : Visit s s') : s.left = s'.left + 1 := by
  obtain ⟨before, e, level, after, best, hstack⟩ := h
  have hmiddle : (before ++ (e, level) :: after).Perm ((e, level) :: (before ++ after)) := List.perm_middle
  have htaken := sizes_perm (hmiddle.map Prod.fst)
  have hput := sizes_perm (hstack.map Prod.fst)
  rw [List.map_cons, sizes, size_eq_sizes_children] at htaken
  rw [List.map_append, sizes_append, map_fst_below] at hput
  rw [left, left, htaken, hput, Nat.add_comm, Nat.add_assoc]

/-- **A visit changes nothing of what the loop answers**: the loop itself takes the first tree of a stack in which the
tree that the visit takes is the first. -/
theorem Visit.answer_eq (h : Visit s s') : s'.answer = s.answer := by
  obtain ⟨before, e, level, after, best, hstack⟩ := h
  calc deepest _ (max best level)
    _ = deepest (below e level ++ (before ++ after)) (max best level) :=
      deepest_perm (hstack.trans List.perm_append_comm) _
    _ = deepest ((e, level) :: (before ++ after)) best := by rw [deepest, below]
    _ = deepest (before ++ (e, level) :: after) best := deepest_perm List.perm_middle.symm best

theorem exists_visit (h : s.stack ≠ []) : ∃ s', Visit s s' := by
  obtain ⟨stack, best⟩ := s
  cases stack with
  | nil => exact absurd rfl h
  | cons entry stack => exact ⟨_, .take [] entry.1 entry.2 stack best (List.Perm.refl _)⟩

/-! ## Sweeps -/

theorem Visits.left_eq (h : Visits n s s') : s.left = s'.left + n := by
  induction h with
  | done s => rfl
  | next hvisit _ ih => rw [hvisit.left_eq, ih, Nat.add_assoc]

theorem Visits.answer_eq (h : Visits n s s') : s'.answer = s.answer := by
  induction h with
  | done s => rfl
  | next hvisit _ ih => exact ih.trans hvisit.answer_eq

/-- The loop itself is a sweep, which takes the first tree of the stack and puts its children before the others. -/
theorem visits_deepest (stack : List (Expr × Nat)) (best : Nat) :
    Visits (sizes (stack.map Prod.fst)) ⟨stack, best⟩ ⟨[], deepest stack best⟩ := by
  induction stack, best using deepest.induct with
  | case1 best =>
    rw [deepest]
    exact .done _
  | case2 e level stack best ih =>
    have hvisit : Visit ⟨(e, level) :: stack, best⟩ ⟨below e level ++ stack, max best level⟩ :=
      .take [] e level stack best List.perm_append_comm
    rw [deepest, ← left.eq_1 ⟨(e, level) :: stack, best⟩, hvisit.left_eq]
    exact .next hvisit ih

theorem Visits.best_eq (h : Visits n s s') (hempty : s'.stack = []) : s'.best = s.answer := by
  rw [← h.answer_eq, answer, hempty, deepest]

theorem left_start (e : Expr) : (start e).left = e.size := Nat.add_zero _

theorem left_of_visits_start {e : Expr} (h : Visits n (start e) s) : s.left + n = e.size := by
  rw [← h.left_eq, left_start]

end Sweep

open Sweep

/-- **The loop for the depth answers the height, and would in any order.**  The height of a tree is one more than
that of its highest child, or one if it has none.  A sweep that takes any tree off the stack as long as there is one
ends when it has made as many visits as the tree has nodes, never sooner and never later, and the deepest level that
it has met then is the height. -/
theorem depth_whatever_order (e : Expr) :
    e.height = (e.children.map height).foldr max 0 + 1 ∧
    e.depth = e.height ∧ Visits e.size (start e) ⟨[], e.depth⟩ ∧
    ∀ n s, Visits n (start e) s →
      n ≤ e.size ∧
      (n < e.size → s.stack ≠ [] ∧ ∃ s', Visit s s') ∧
      (n = e.size → s.stack = [] ∧ s.best = e.height) := by
  have hloop : Visits e.size (start e) ⟨[], e.depth⟩ := left_start e ▸ visits_deepest [(e, 1)] 0
  refine ⟨by rw [height_eq, heights_eq_foldr], depth_eq_height e, hloop, fun n s h => ?_⟩
  have hleft := left_of_visits_start h
  refine ⟨by omega, fun hlt => ?_, fun hall => ?_⟩
  · have hne : s.stack ≠ [] := fun hempty => by
      rw [left_eq_zero_iff.2 hempty] at hleft
      omega
    exact ⟨hne, exists_visit hne⟩
  · have hempty : s.stack = [] := left_eq_zero_iff.1 (by omega)
    refine ⟨hempty, ?_⟩
    calc s.best
      _ = (start e).answer := h.best_eq hempty
      _ = e.depth := rfl
      _ = e.height := depth_eq_height e

/-- `f(-x, g(), 2 ^ y)`. -/
def threeArguments : Expr :=
  .call ['f'] [.signed .minus (.var ['x']), .call ['g'] [], .binary .pow (.number 2) (.var ['y'])]

def threeVisited : Sweep := ⟨[(.signed .minus (.var ['x']), 2), (.number 2, 3), (.var ['y'], 3)], 2⟩

theorem depth_whatever_order_threeArguments :
    Visits 3 (start threeArguments) threeVisited ∧ (∃ s', Visit threeVisited s') ∧
    Visits 7 (start threeArguments) ⟨[], 3⟩ ∧ threeArguments.size = 7 ∧ 3 = threeArguments.height := by
  have hthree : ∀ {n s}, Visits n threeVisited s → Visits (n + 3) (start threeArguments) s := fun h =>
    .next (.last [] _ _ _) <| .next (.last [_, _] _ _ _) <| .next (.take [_] _ _ [_, _] _ (.refl _)) h
  have hfour : Visits 4 threeVisited ⟨[], 3⟩ :=
    .next (.take [] _ _ [_, _] _ (.refl _)) <| .next (.take [_] _ _ [_] _ (.refl _)) <|
    .next (.last [_] _ _ _) <| .next (.last [] _ _ _) (.done _)
  obtain ⟨-, -, -, hall⟩ := depth_whatever_order threeArguments
  obtain ⟨-, hgoes, -⟩ := hall 3 threeVisited (hthree (.done _))
  obtain ⟨-, -, hends⟩ := hall 7 ⟨[], 3⟩ (hthree hfour)
  exact ⟨hthree (.done _), (hgoes (by decide)).2, hthree hfour, rfl, (hends rfl).2⟩

end Expr
end Abacus
