import Abacus.Expr.Names
import Abacus.Proofs.Expr.Worded
/-!
# The parts of a tree

`parts` lists a tree and all that stands in it, every node after its children and these from left to right.  What holds
of the words of a tree holds of the words of its parts (`isWorded_of_mem_parts`), and the free names of a tree are its
variables in that order, each where it is first met (`names_eq_eraseDups`).
-/
namespace Abacus
namespace Expr

mutual
/-- A tree and all that stands in it, in post-order. -/
def parts : Expr → List Expr
  | .number x       => [.number x]
  | .constant c     => [.constant c]
  | .var name       => [.var name]
  | .signed s x     => x.parts ++ [.signed s x]
  | .binary op l r  => l.parts ++ r.parts ++ [.binary op l r]
  | .call name args => allParts args ++ [.call name args]

def allParts : List Expr → List Expr
  | []      => []
  | x :: xs => x.parts ++ allParts xs
end

theorem allParts_eq_flatMap (xs : List Expr) : allParts xs = xs.flatMap parts := by
  induction xs with
  | nil => rfl
  | cons x xs ih => rw [allParts, ih, List.flatMap_cons]

theorem parts_eq (e : Expr) : e.parts = e.children.flatMap parts ++ [e] := by
  cases e with
  | number x => rfl
  | constant c => rfl
  | var name => rfl
  | signed s x => rw [parts, children, List.flatMap_singleton]
  | binary op l r => rw [parts, children, List.flatMap_cons, List.flatMap_singleton]
  | call name args => rw [parts, children, allParts_eq_flatMap]

/-! ## Words -/

theorem isWorded_of_mem_parts {passes : Float → Bool} {e : Expr} (h : e.isWorded passes = true) :
    ∀ p ∈ e.parts, p.isWorded passes = true := by
  have hparts {x : Expr} (hx : x.isWorded passes = true)
      (hchildren : ∀ c ∈ x.children, ∀ p ∈ c.parts, p.isWorded passes = true) :
      ∀ p ∈ x.parts, p.isWorded passes = true := by
    rw [parts_eq, List.forall_mem_append, List.forall_mem_singleton]
    refine ⟨fun p hp => ?_, hx⟩
    obtain ⟨c, hc, hp⟩ := List.mem_flatMap.1 hp
    exact hchildren c hc p hp
  induction e using inductionOn with
  | number x => exact hparts h (List.forall_mem_nil _)
  | constant c => exact hparts h (List.forall_mem_nil _)
  | var name => exact hparts h (List.forall_mem_nil _)
  | signed s x hx => exact hparts h (List.forall_mem_singleton.2 (hx h))
  | binary op l r hl hr =>
    have hsides := h
    rw [isWorded, Bool.and_eq_true] at hsides
    exact hparts h (List.forall_mem_cons.2 ⟨hl hsides.1, List.forall_mem_singleton.2 (hr hsides.2)⟩)
  | call name args hargs =>
    have hall := h
    rw [isWorded, Bool.and_eq_true, areWorded_iff] at hall
    exact hparts h fun a ha => hargs a ha (hall.2 a ha)

theorem isName_of_var {passes : Float → Bool} {name : List Char} (h : (var name).isWorded passes = true) :
    isName name = true ∧ ∀ k : Constant, name ≠ k.name := by
  rw [isWorded, Bool.and_eq_true] at h
  refine ⟨h.1, ?_⟩
  rintro k rfl
  cases k <;> exact absurd h.2 (by decide)

/-! ## Variables -/

def freeName? : Expr → Option (List Char)
  | .var name => some name
  | _         => none

/-- The names of the variables of a tree from left to right, each as often as it stands there. -/
def mentions (e : Expr) : List (List Char) := e.parts.filterMap freeName?

theorem mem_mentions {e : Expr} {name : List Char} : name ∈ e.mentions ↔ .var name ∈ e.parts := by
  rw [mentions, List.mem_filterMap]
  constructor
  · rintro ⟨p, hp, hname⟩
    cases p <;> cases hname
    exact hp
  · exact fun h => ⟨_, h, rfl⟩

theorem mentions_signed (s : Sign) (x : Expr) : (signed s x).mentions = x.mentions := by
  rw [mentions, parts, List.filterMap_append]
  exact List.append_nil _

theorem mentions_binary (op : Operator) (l r : Expr) : (binary op l r).mentions = l.mentions ++ r.mentions := by
  rw [mentions, parts, List.filterMap_append, List.filterMap_append]
  exact List.append_nil _

theorem mentions_call (name : List Char) (args : List Expr) : (call name args).mentions = args.flatMap mentions := by
  rw [mentions, parts, List.filterMap_append, allParts_eq_flatMap, List.filterMap_flatMap]
  exact List.append_nil _

/-! ## Names, each once -/

def note (seen : List (List Char)) (name : List Char) : List (List Char) :=
  if seen.contains name then seen else seen ++ [name]

theorem note_eq (seen : List (List Char)) (name : List Char) :
    note seen name = if name ∈ seen then seen else seen ++ [name] := if_congr List.contains_iff_mem rfl rfl

theorem addAllNames_eq_foldl {args : List Expr} (h : ∀ a ∈ args, ∀ seen, addNames seen a = a.mentions.foldl note seen)
    (seen : List (List Char)) : addAllNames seen args = (args.flatMap mentions).foldl note seen := by
  induction args generalizing seen with
  | nil => rfl
  | cons a args ih =>
    rw [addAllNames, h a List.mem_cons_self, ih fun b hb => h b (List.mem_cons_of_mem a hb), List.flatMap_cons,
      List.foldl_append]

theorem addNames_eq_foldl (e : Expr) (seen : List (List Char)) : addNames seen e = e.mentions.foldl note seen := by
  induction e using inductionOn generalizing seen with
  | number x => rfl
  | constant c => rfl
  | var name => exact (note_eq seen name).symm
  | signed s x hx => rw [addNames, hx, mentions_signed]
  | binary op l r hl hr => rw [addNames, hl, hr, mentions_binary, List.foldl_append]
  | call name args hargs => rw [addNames, addAllNames_eq_foldl hargs, mentions_call]

theorem foldl_note (names seen : List (List Char)) :
    names.foldl note seen = seen ++ (names.filter fun name => decide (name ∉ seen)).eraseDups := by
  induction names generalizing seen with
  | nil => rw [List.foldl_nil, List.filter_nil, List.eraseDups_nil, List.append_nil]
  | cons name names ih =>
    rw [List.foldl_cons, ih, note_eq]
    by_cases h : name ∈ seen
    · rw [if_pos h, List.filter_cons_of_neg (by simpa using h)]
    · have hrest : (names.filter fun n => decide (n ∉ seen ++ [name])) =
          (names.filter fun n => decide (n ∉ seen)).filter fun n => !n == name := by
        rw [List.filter_filter]
        refine List.filter_congr fun n _ => ?_
        by_cases hn : n = name <;> simp [hn]
      rw [if_neg h, List.filter_cons_of_pos (by simpa using h), List.eraseDups_cons, hrest, List.append_assoc]
      rfl

/-- **The free names are the variables from left to right, repetitions left out.** -/
theorem names_eq_eraseDups (e : Expr) : e.names = e.mentions.eraseDups := by
  rw [names, addNames_eq_foldl, foldl_note, List.nil_append]
  simp

theorem mem_names {e : Expr} {name : List Char} : name ∈ e.names ↔ name ∈ e.mentions := by
  rw [names_eq_eraseDups, List.mem_eraseDups]

/-- **The free names of a parsed formula are names**, and not those of constants. -/
theorem isName_of_mem_names {text : List Char} {e : Expr} (h : parse text = .ok e) {name : List Char}
    (hname : name ∈ e.names) : isName name = true ∧ ∀ k : Constant, name ≠ k.name := by
  have hworded : e.isWorded (fun _ => true) = true := isWorded_of_parse h fun _ _ _ _ _ _ _ => rfl
  exact isName_of_var (isWorded_of_mem_parts hworded _ (mem_mentions.1 (mem_names.1 hname)))

end Expr
end Abacus
