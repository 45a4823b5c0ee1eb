import Mathlib
import Abacus.Registry.Standard
/-!
# What has been registered

A registry is what its registrations have made of it, those of the standard functions first (`registerAll_standard`).  A
name finds the latest registration whose name is the same in lower case (`find?_standardWith`), and the names that are
listed are those of all registrations in lower case, each once and in order (`mem_names_standardWith`,
`pairwise_names_standardWith`).
-/
namespace Abacus

/-- A function as it is registered, under a name in any case. -/
structure Registration where
  name : List Char
  arity : Int
  apply : List Float → Except EvalFailure Float

namespace Registration

def builtin (g : Registration) : Builtin := ⟨lower g.name, g.arity, g.apply⟩

/-- The registration is under the name in some case, and none after it is. -/
structure IsLatest (gs : List Registration) (name : List Char) (g : Registration) : Prop where
  named : lower g.name = lower name
  last : ∃ before later, gs = before ++ g :: later ∧ ∀ h ∈ later, lower h.name ≠ lower name

def latest? (gs : List Registration) (name : List Char) : Option Registration :=
  gs.reverse.find? fun g => lower g.name == lower name

def standard : List Registration :=
  [⟨"sin".toList, 1, ofOne Standard.sin⟩,
   ⟨"cos".toList, 1, ofOne Standard.cos⟩,
   ⟨"tan".toList, 1, ofOne Standard.tan⟩,
   ⟨"sqrt".toList, 1, ofOne Standard.sqrt⟩,
   ⟨"log".toList, 1, ofOne Standard.log⟩,
   ⟨"abs".toList, 1, ofOne fun x => .ok x.abs⟩,
   ⟨"clamp".toList, 3, Standard.clamp⟩]

theorem latest?_concat (gs : List Registration) (g : Registration) (name : List Char) :
    latest? (gs ++ [g]) name = if lower g.name = lower name then some g else latest? gs name := by
  rw [latest?, latest?, List.reverse_concat, List.find?_cons]
  by_cases h : lower g.name = lower name
  · rw [if_pos h, beq_iff_eq.2 h]
  · rw [if_neg h, beq_false_of_ne h]

theorem latest?_eq_none_iff {gs : List Registration} {name : List Char} :
    latest? gs name = none ↔ ∀ g ∈ gs, lower g.name ≠ lower name := by
  rw [latest?, List.find?_eq_none]
  simp

/-- **What is found is the latest registration.** -/
theorem latest?_eq_some_iff {gs : List Registration} {name : List Char} {g : Registration} :
    latest? gs name = some g ↔ IsLatest gs name g := by
  rw [latest?, List.find?_eq_some_iff_append, beq_iff_eq]
  constructor
  · rintro ⟨hname, later, before, hgs, hlater⟩
    have heq : gs = before.reverse ++ g :: later.reverse := by
      rw [← List.reverse_reverse gs, hgs]
      simp
    exact ⟨hname, before.reverse, later.reverse, heq, fun h hh => by simpa using hlater h (List.mem_reverse.1 hh)⟩
  · rintro ⟨hname, before, later, rfl, hlater⟩
    refine ⟨hname, later.reverse, before.reverse, by simp, fun h hh => ?_⟩
    simpa using hlater h (List.mem_reverse.1 hh)

end Registration

namespace Registry

open Registration

/-! ## One registration -/

theorem find?_register (r : Registry) (g : Registration) (name : List Char) :
    (r.register g.name g.arity g.apply).find? name =
      if lower g.name = lower name then some g.builtin else r.find? name :=
  find?_put g.builtin r.builtins (lower name)

theorem names_put (b : Builtin) (bs : List Builtin) : (put b bs).map Builtin.name =
    if b.name ∈ bs.map Builtin.name then bs.map Builtin.name else bs.map Builtin.name ++ [b.name] := by
  induction bs with
  | nil => rfl
  | cons c bs ih =>
    rw [put, List.map_cons]
    by_cases hc : c.name = b.name
    · rw [if_pos hc, if_pos (hc ▸ List.mem_cons_self), List.map_cons, hc]
    · rw [if_neg hc, List.map_cons, ih]
      by_cases hmem : b.name ∈ bs.map Builtin.name
      · rw [if_pos hmem, if_pos (List.mem_cons_of_mem _ hmem)]
      · rw [if_neg hmem, if_neg (by simp [Ne.symm hc, hmem])]
        rfl

theorem mem_names_put {b : Builtin} {bs : List Builtin} {name : List Char} :
    name ∈ (put b bs).map Builtin.name ↔ name ∈ bs.map Builtin.name ∨ b.name = name := by
  rw [names_put]
  split
  · rename_i hmem
    exact ⟨.inl, fun h => h.elim id fun h => h ▸ hmem⟩
  · rw [List.mem_append, List.mem_singleton, eq_comm (a := name)]

theorem nodup_names_put {b : Builtin} {bs : List Builtin} (h : (bs.map Builtin.name).Nodup) :
    ((put b bs).map Builtin.name).Nodup := by
  rw [names_put]
  split
  · exact h
  · rename_i hnot
    exact List.nodup_append.2 ⟨h, List.nodup_singleton _,
      by simpa using fun c hc heq => hnot (List.mem_map.2 ⟨c, hc, heq⟩)⟩

/-! ## All registrations -/

def registerAll (r : Registry) (gs : List Registration) : Registry :=
  gs.foldl (fun r g => r.register g.name g.arity g.apply) r

theorem registerAll_concat (r : Registry) (gs : List Registration) (g : Registration) :
    r.registerAll (gs ++ [g]) = (r.registerAll gs).register g.name g.arity g.apply := by
  rw [registerAll, List.foldl_concat, registerAll]

theorem registerAll_append (r : Registry) (gs more : List Registration) :
    r.registerAll (gs ++ more) = (r.registerAll gs).registerAll more := by
  rw [registerAll, List.foldl_append, registerAll, registerAll]

theorem registerAll_standard : registerAll ⟨[]⟩ Registration.standard = Registry.standard := rfl

theorem find?_registerAll (r : Registry) (gs : List Registration) (name : List Char) :
    (r.registerAll gs).find? name = ((latest? gs name).map builtin).or (r.find? name) := by
  induction gs using List.reverseRecOn with
  | nil => rfl
  | append_singleton gs g ih =>
    rw [registerAll_concat, find?_register, latest?_concat, ih]
    split <;> rfl

theorem mem_names_registerAll {r : Registry} {gs : List Registration} {name : List Char} :
    name ∈ (r.registerAll gs).names ↔ name ∈ r.names ∨ ∃ g ∈ gs, lower g.name = name := by
  induction gs using List.reverseRecOn with
  | nil => simp [registerAll]
  | append_singleton gs g ih =>
    rw [names, List.mem_mergeSort] at ih ⊢
    rw [registerAll_concat, register, mem_names_put, ih]
    simp [or_assoc]

theorem nodup_names_registerAll {r : Registry} (h : (r.builtins.map Builtin.name).Nodup) (gs : List Registration) :
    ((r.registerAll gs).builtins.map Builtin.name).Nodup := by
  induction gs using List.reverseRecOn with
  | nil => exact h
  | append_singleton gs g ih =>
    rw [registerAll_concat]
    exact nodup_names_put ih

theorem pairwise_names {r : Registry} (h : (r.builtins.map Builtin.name).Nodup) :
    r.names.Pairwise fun s t => textLe s t = true ∧ s ≠ t :=
  (List.pairwise_mergeSort textLe_trans textLe_total _).and ((List.mergeSort_perm _ textLe).nodup_iff.2 h)

/-! ## Registrations after the standard functions -/

/-- The registry after the standard functions and more have been registered. -/
def standardWith (gs : List Registration) : Registry := Registry.standard.registerAll gs

theorem standardWith_eq (gs : List Registration) :
    standardWith gs = registerAll ⟨[]⟩ (Registration.standard ++ gs) := by
  rw [standardWith, registerAll_append, registerAll_standard]

/-- **A name finds the latest registration under it, in any case.** -/
theorem find?_standardWith (gs : List Registration) (name : List Char) :
    (standardWith gs).find? name = (latest? (Registration.standard ++ gs) name).map builtin := by
  rw [standardWith_eq, find?_registerAll]
  exact Option.or_none

/-- **The names that are listed are those of all registrations, in lower case.** -/
theorem mem_names_standardWith {gs : List Registration} {name : List Char} :
    name ∈ (standardWith gs).names ↔ ∃ g ∈ Registration.standard ++ gs, lower g.name = name := by
  have hempty : name ∉ (Registry.mk []).names := by simp [names]
  rw [standardWith_eq, mem_names_registerAll, or_iff_right hempty]

theorem pairwise_names_standardWith (gs : List Registration) :
    (standardWith gs).names.Pairwise fun s t => textLe s t = true ∧ s ≠ t := by
  rw [standardWith_eq]
  exact pairwise_names (nodup_names_registerAll (r := ⟨[]⟩) List.nodup_nil _)

end Registry

end Abacus
