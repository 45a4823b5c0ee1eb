import Abacus.Expr.Height
/-!
# Heights and paths

The height of a tree is the length of its longest path from the root down to a leaf (`height_le_iff`), and the walk
with a stack computes it (`depth_eq_height`).
-/
namespace Abacus
namespace Expr

/-- A path from the root of a tree down to a leaf, the nodes on the way in order. -/
inductive Path : Expr → List Expr → Prop
  | leaf {e} : e.children = [] → Path e [e]
  | down {e child p} : child ∈ e.children → Path child p → Path e (e :: p)

theorem height_eq (e : Expr) : e.height = heights e.children + 1 := by
  cases e <;> simp [height, children, heights]

theorem heights_eq_foldr (xs : List Expr) : heights xs = (xs.map height).foldr max 0 := by
  induction xs with
  | nil => rfl
  | cons x xs ih => rw [heights, ih, List.map_cons, List.foldr_cons]

theorem height_le_heights {x : Expr} : ∀ {xs : List Expr}, x ∈ xs → x.height ≤ heights xs
  | y :: ys, h => by
    rw [heights]
    rcases List.mem_cons.1 h with rfl | h
    · exact Nat.le_max_left _ _
    · exact Nat.le_trans (height_le_heights h) (Nat.le_max_right _ _)

theorem heights_le_iff {n : Nat} : ∀ {xs : List Expr}, heights xs ≤ n ↔ ∀ x ∈ xs, x.height ≤ n
  | []      => by simp [heights]
  | y :: ys => by
    have ih := @heights_le_iff n ys
    rw [heights, Nat.max_le, ih, List.forall_mem_cons]

theorem Path.length_le {e : Expr} {p : List Expr} (h : Path e p) : p.length ≤ e.height := by
  induction h with
  | leaf _ =>
    rw [height_eq]
    exact Nat.le_add_left 1 _
  | down hc _ ih =>
    rw [height_eq, List.length_cons]
    exact Nat.succ_le_succ (Nat.le_trans ih (height_le_heights hc))

theorem exists_path (e : Expr) : ∃ p, Path e p := by
  induction e using inductionOn with
  | number x => exact ⟨_, .leaf rfl⟩
  | constant c => exact ⟨_, .leaf rfl⟩
  | var name => exact ⟨_, .leaf rfl⟩
  | signed s x hx =>
    obtain ⟨p, hp⟩ := hx
    exact ⟨_, .down List.mem_cons_self hp⟩
  | binary op l r hl _ =>
    obtain ⟨p, hp⟩ := hl
    exact ⟨_, .down List.mem_cons_self hp⟩
  | call name args h =>
    cases args with
    | nil => exact ⟨_, .leaf rfl⟩
    | cons a args =>
      obtain ⟨p, hp⟩ := h a List.mem_cons_self
      exact ⟨_, .down List.mem_cons_self hp⟩

/-- **A tree is no higher than its paths are long.** -/
theorem height_le_iff {n : Nat} (e : Expr) : e.height ≤ n ↔ ∀ p, Path e p → p.length ≤ n := by
  refine ⟨fun h p hp => Nat.le_trans hp.length_le h, ?_⟩
  induction n generalizing e with
  | zero =>
    intro h
    obtain ⟨p, hp⟩ := exists_path e
    have hlen := h p hp
    cases hp <;> simp at hlen
  | succ n ih =>
    intro h
    rw [height_eq, Nat.add_le_add_iff_right, heights_le_iff]
    intro child hchild
    exact ih child fun p hp => Nat.le_of_succ_le_succ (h _ (.down hchild hp))

/-! ## The walk with a stack -/

def reached : List (Expr × Nat) → Nat
  | []                  => 0
  | (e, level) :: stack => max (level + heights e.children) (reached stack)

theorem reached_append (xs ys : List (Expr × Nat)) : reached (xs ++ ys) = max (reached xs) (reached ys) := by
  induction xs with
  | nil => simp [reached]
  | cons x xs ih => simp only [List.cons_append, reached, ih, Nat.max_assoc]

theorem max_reached_children (level : Nat) :
    ∀ xs : List Expr, max level (reached (xs.map fun x => (x, level + 1))) = level + heights xs
  | []      => by simp [reached, heights]
  | x :: xs => by
    have ih := max_reached_children level xs
    have hx := height_eq x
    simp only [List.map_cons, reached, heights]
    omega

theorem deepest_eq (stack : List (Expr × Nat)) (best : Nat) : deepest stack best = max best (reached stack) := by
  induction stack, best using deepest.induct with
  | case1 best => simp [deepest, reached]
  | case2 e level stack best ih =>
    have hchildren := max_reached_children level e.children
    rw [deepest, ih, reached_append, reached]
    omega

theorem depth_eq_height (e : Expr) : e.depth = e.height := by
  rw [depth, deepest_eq, reached, reached, height_eq]
  omega

end Expr
end Abacus
