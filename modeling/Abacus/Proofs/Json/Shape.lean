import Mathlib
import Abacus.Assoc
import Abacus.Json.Print
/-!
# Values that have a text of their own

A value is readable when no object in it has a key twice, its doubles are finite and its whole numbers are not too
long.  Putting the fields in order keeps that (`isReadable_sorted`) and the height (`height_sorted`), and only moves
fields (`perm_byKey`); replacing the doubles that are not finite brings it about (`isReadable_strict`).  The value with
its fields in order is the same key by key (`same_sorted`).
-/
namespace Abacus

theorem Assoc.set_of_not_mem {key : List Char} {value : Json} {fs : Fields} (h : key ∉ Fields.keys fs) :
    Assoc.set key value fs = fs ++ [(key, value)] := by
  induction fs with
  | nil => rfl
  | cons f fs ih =>
    obtain ⟨k, v⟩ := f
    rw [Fields.keys, List.map_cons, List.mem_cons, not_or] at h
    rw [Assoc.set, if_neg (fun heq => h.1 (eq_of_beq heq).symm), ih h.2]
    rfl

theorem Assoc.update_append {fs more : Fields} (h : (Fields.keys (fs ++ more)).Nodup) :
    Assoc.update fs more = fs ++ more := by
  induction more generalizing fs with
  | nil => exact (List.append_nil fs).symm
  | cons f more ih =>
    obtain ⟨k, v⟩ := f
    have hnot : k ∉ Fields.keys fs := by
      rw [Fields.keys, List.map_append, List.map_cons, List.nodup_append] at h
      exact fun hmem => h.2.2 k hmem k List.mem_cons_self rfl
    have hcons : fs ++ (k, v) :: more = fs ++ [(k, v)] ++ more := by rw [List.append_assoc]; rfl
    have hstep : Assoc.update fs ((k, v) :: more) = Assoc.update (Assoc.set k v fs) more := rfl
    rw [hstep, Assoc.set_of_not_mem hnot, hcons]
    exact ih (hcons ▸ h)

theorem Assoc.update_nil {fs : Fields} (h : (Fields.keys fs).Nodup) : Assoc.update [] fs = fs :=
  Assoc.update_append h

namespace Json

/-- Induction on values, with a hypothesis for every item and every field. -/
theorem inductionOn {P : Json → Prop} (v : Json)
    (null : P .null) (bool : ∀ b, P (.bool b)) (int : ∀ n, P (.int n)) (double : ∀ x, P (.double x))
    (str : ∀ text, P (.str text)) (arr : ∀ items, (∀ w ∈ items, P w) → P (.arr items))
    (obj : ∀ fields, (∀ f ∈ fields, P f.2) → P (.obj fields)) : P v :=
  Json.rec (motive_1 := P) (motive_2 := fun items => ∀ w ∈ items, P w) (motive_3 := fun fields => ∀ f ∈ fields, P f.2)
    (motive_4 := fun f => P f.2) null bool int double str arr obj
    (by simp) (fun w items hw hitems u hu => by
      rcases List.mem_cons.1 hu with h | h
      · exact h ▸ hw
      · exact hitems u h)
    (by simp) (fun f fields hf hfields g hg => by
      rcases List.mem_cons.1 hg with h | h
      · exact h ▸ hf
      · exact hfields g h)
    (fun _ _ hv => hv) v

/-! ## Predicates on values -/

mutual
def hasUniqueKeys : Json → Bool
  | .arr items  => haveUniqueKeys items
  | .obj fields => decide (Fields.keys fields).Nodup && fieldsHaveUniqueKeys fields
  | _           => true

def haveUniqueKeys : List Json → Bool
  | []      => true
  | v :: vs => v.hasUniqueKeys && haveUniqueKeys vs

def fieldsHaveUniqueKeys : List (List Char × Json) → Bool
  | []             => true
  | (_, v) :: rest => v.hasUniqueKeys && fieldsHaveUniqueKeys rest
end

mutual
def isReadable : Json → Bool
  | .int n      => !isUnwritable n
  | .double x   => x.isFinite
  | .arr items  => areReadable items
  | .obj fields => decide (Fields.keys fields).Nodup && areFieldsReadable fields
  | _           => true

def areReadable : List Json → Bool
  | []      => true
  | v :: vs => v.isReadable && areReadable vs

def areFieldsReadable : List (List Char × Json) → Bool
  | []             => true
  | (_, v) :: rest => v.isReadable && areFieldsReadable rest
end

theorem areReadable_iff {vs : List Json} : areReadable vs = true ↔ ∀ v ∈ vs, v.isReadable = true := by
  induction vs with
  | nil => simp [areReadable]
  | cons v vs ih => simp [areReadable, ih]

theorem areFieldsReadable_iff {fs : Fields} : areFieldsReadable fs = true ↔ ∀ f ∈ fs, f.2.isReadable = true := by
  induction fs with
  | nil => simp [areFieldsReadable]
  | cons f fs ih => simp [areFieldsReadable, ih]

theorem haveUniqueKeys_iff {vs : List Json} : haveUniqueKeys vs = true ↔ ∀ v ∈ vs, v.hasUniqueKeys = true := by
  induction vs with
  | nil => simp [haveUniqueKeys]
  | cons v vs ih => simp [haveUniqueKeys, ih]

theorem fieldsHaveUniqueKeys_iff {fs : Fields} :
    fieldsHaveUniqueKeys fs = true ↔ ∀ f ∈ fs, f.2.hasUniqueKeys = true := by
  induction fs with
  | nil => simp [fieldsHaveUniqueKeys]
  | cons f fs ih => simp [fieldsHaveUniqueKeys, ih]

theorem areWritable_iff {vs : List Json} : areWritable vs = true ↔ ∀ v ∈ vs, v.isWritable = true := by
  induction vs with
  | nil => simp [areWritable]
  | cons v vs ih => simp [areWritable, ih]

theorem areFieldsWritable_iff {fs : Fields} : areFieldsWritable fs = true ↔ ∀ f ∈ fs, f.2.isWritable = true := by
  induction fs with
  | nil => simp [areFieldsWritable]
  | cons f fs ih => simp [areFieldsWritable, ih]

theorem heightAll_le_iff {vs : List Json} {n : Nat} : heightAll vs ≤ n ↔ ∀ v ∈ vs, v.height ≤ n := by
  induction vs with
  | nil => simp [heightAll]
  | cons v vs ih => simp [heightAll, ih]

theorem heightFields_le_iff {fs : Fields} {n : Nat} : heightFields fs ≤ n ↔ ∀ f ∈ fs, f.2.height ≤ n := by
  induction fs with
  | nil => simp [heightFields]
  | cons f fs ih => simp [heightFields, ih]

theorem isReadable_obj_iff {fs : Fields} :
    (Json.obj fs).isReadable = true ↔ (Fields.keys fs).Nodup ∧ ∀ f ∈ fs, f.2.isReadable = true := by
  rw [isReadable, Bool.and_eq_true, decide_eq_true_eq, areFieldsReadable_iff]

/-! ## Fields in order -/

theorem perm_byKey (fs : Fields) : (Fields.byKey fs).Perm fs := List.mergeSort_perm fs _

theorem sortedAll_eq_map (vs : List Json) : sortedAll vs = vs.map sorted := by
  induction vs with
  | nil => rfl
  | cons v vs ih => rw [sortedAll, ih, List.map_cons]

theorem sortedFields_eq_map (fs : Fields) : sortedFields fs = fs.map fun f => (f.1, f.2.sorted) := by
  induction fs with
  | nil => rfl
  | cons f fs ih => rw [sortedFields, ih, List.map_cons]

theorem mem_sortedFields {fs : Fields} {f : List Char × Json} :
    f ∈ Fields.byKey (sortedFields fs) ↔ ∃ g ∈ fs, (g.1, g.2.sorted) = f := by
  rw [(perm_byKey _).mem_iff, sortedFields_eq_map, List.mem_map]

theorem nodup_keys_sorted {fs : Fields} (h : (Fields.keys fs).Nodup) :
    (Fields.keys (Fields.byKey (sortedFields fs))).Nodup := by
  have hkeys : (sortedFields fs).map Prod.fst = Fields.keys fs := by
    rw [sortedFields_eq_map, List.map_map]
    rfl
  rw [Fields.keys, ((perm_byKey (sortedFields fs)).map Prod.fst).nodup_iff, hkeys]
  exact h

theorem isReadable_sorted {v : Json} (h : v.isReadable = true) : v.sorted.isReadable = true := by
  induction v using inductionOn with
  | arr items ih =>
    rw [isReadable, areReadable_iff] at h
    rw [sorted, isReadable, areReadable_iff, sortedAll_eq_map]
    intro v hv
    obtain ⟨w, hw, rfl⟩ := List.mem_map.1 hv
    exact ih w hw (h w hw)
  | obj fields ih =>
    rw [isReadable_obj_iff] at h
    rw [sorted, isReadable_obj_iff]
    refine ⟨nodup_keys_sorted h.1, fun f hf => ?_⟩
    obtain ⟨g, hg, rfl⟩ := mem_sortedFields.1 hf
    exact ih g hg (h.2 g hg)
  | _ => exact h

theorem height_sorted (v : Json) : v.sorted.height = v.height := by
  induction v using inductionOn with
  | arr items ih =>
    have hall (n : Nat) : heightAll (sortedAll items) ≤ n ↔ heightAll items ≤ n := by
      rw [heightAll_le_iff, heightAll_le_iff, sortedAll_eq_map, List.forall_mem_map]
      exact forall₂_congr fun w hw => by rw [ih w hw]
    rw [sorted, height, height, Nat.le_antisymm ((hall _).2 (Nat.le_refl _)) ((hall _).1 (Nat.le_refl _))]
  | obj fields ih =>
    have hall (n : Nat) : heightFields (Fields.byKey (sortedFields fields)) ≤ n ↔ heightFields fields ≤ n := by
      rw [heightFields_le_iff, heightFields_le_iff]
      constructor
      · intro h f hf
        rw [← ih f hf]
        exact h _ (mem_sortedFields.2 ⟨f, hf, rfl⟩)
      · intro h f hf
        obtain ⟨g, hg, rfl⟩ := mem_sortedFields.1 hf
        rw [ih g hg]
        exact h g hg
    rw [sorted, height, height, Nat.le_antisymm ((hall _).2 (Nat.le_refl _)) ((hall _).1 (Nat.le_refl _))]
  | _ => rfl

/-! ## Doubles that are not finite -/

theorem strictAll_eq_map (vs : List Json) : strictAll vs = vs.map strict := by
  induction vs with
  | nil => rfl
  | cons v vs ih => rw [strictAll, ih, List.map_cons]

theorem strictFields_eq_map (fs : Fields) : strictFields fs = fs.map fun f => (f.1, f.2.strict) := by
  induction fs with
  | nil => rfl
  | cons f fs ih => rw [strictFields, ih, List.map_cons]

theorem keys_strictFields (fs : Fields) : Fields.keys (strictFields fs) = Fields.keys fs := by
  rw [strictFields_eq_map, Fields.keys, List.map_map]
  rfl

theorem isReadable_strict {v : Json} (hkeys : v.hasUniqueKeys = true) (hwritable : v.strict.isWritable = true) :
    v.strict.isReadable = true := by
  induction v using inductionOn with
  | double x =>
    rw [strict]
    split
    · assumption
    · rfl
  | int n => exact hwritable
  | arr items ih =>
    rw [hasUniqueKeys, haveUniqueKeys_iff] at hkeys
    rw [strict, isWritable, areWritable_iff, strictAll_eq_map, List.forall_mem_map] at hwritable
    rw [strict, isReadable, areReadable_iff, strictAll_eq_map, List.forall_mem_map]
    exact fun w hw => ih w hw (hkeys w hw) (hwritable w hw)
  | obj fields ih =>
    rw [hasUniqueKeys, Bool.and_eq_true, decide_eq_true_eq, fieldsHaveUniqueKeys_iff] at hkeys
    rw [strict, isWritable, areFieldsWritable_iff, strictFields_eq_map, List.forall_mem_map] at hwritable
    rw [strict, isReadable_obj_iff, keys_strictFields, strictFields_eq_map, List.forall_mem_map]
    exact ⟨hkeys.1, fun f hf => ih f hf (hkeys.2 f hf) (hwritable f hf)⟩
  | _ => rfl

theorem hasUniqueKeys_strict {v : Json} (h : v.hasUniqueKeys = true) : v.strict.hasUniqueKeys = true := by
  induction v using inductionOn with
  | double x =>
    rw [strict]
    split <;> rfl
  | arr items ih =>
    rw [hasUniqueKeys, haveUniqueKeys_iff] at h
    rw [strict, hasUniqueKeys, haveUniqueKeys_iff, strictAll_eq_map, List.forall_mem_map]
    exact fun v hv => ih v hv (h v hv)
  | obj fs ih =>
    rw [hasUniqueKeys, Bool.and_eq_true, decide_eq_true_eq, fieldsHaveUniqueKeys_iff] at h
    rw [strict, hasUniqueKeys, Bool.and_eq_true, decide_eq_true_eq, fieldsHaveUniqueKeys_iff,
      keys_strictFields, strictFields_eq_map, List.forall_mem_map]
    exact ⟨h.1, fun f hf => ih f hf (h.2 f hf)⟩
  | _ => exact h

theorem height_strict_le (v : Json) : v.strict.height ≤ v.height := by
  induction v using inductionOn with
  | double x =>
    rw [strict]
    split <;> exact Nat.le_refl 1
  | arr items ih =>
    have hitems := heightAll_le_iff.1 (Nat.le_refl (heightAll items))
    rw [strict, height, height, Nat.add_le_add_iff_right, heightAll_le_iff, strictAll_eq_map, List.forall_mem_map]
    exact fun w hw => (ih w hw).trans (hitems w hw)
  | obj fields ih =>
    have hfields := heightFields_le_iff.1 (Nat.le_refl (heightFields fields))
    rw [strict, height, height, Nat.add_le_add_iff_right, heightFields_le_iff, strictFields_eq_map,
      List.forall_mem_map]
    exact fun f hf => (ih f hf).trans (hfields f hf)
  | _ => exact Nat.le_refl _

/-! ## Values that are the same but for the order of fields -/

/-- Equal values: lists item by item, objects key by key. -/
inductive Same : Json → Json → Prop
  | null : Same .null .null
  | bool (b : Bool) : Same (.bool b) (.bool b)
  | int (n : Int) : Same (.int n) (.int n)
  | double (x : Float) : Same (.double x) (.double x)
  | str (text : List Char) : Same (.str text) (.str text)
  | arr {vs ws : List Json} (h : List.Forall₂ Same vs ws) : Same (.arr vs) (.arr ws)
  | obj {fs gs : Fields} (h : ∀ key, Option.Rel Same (List.lookup key fs) (List.lookup key gs)) :
    Same (.obj fs) (.obj gs)

theorem lookup_eq_some_iff {fs : Fields} (h : (Fields.keys fs).Nodup) {key : List Char} {v : Json} :
    List.lookup key fs = some v ↔ (key, v) ∈ fs := by
  induction fs with
  | nil => simp
  | cons f fs ih =>
    obtain ⟨k, w⟩ := f
    rw [Fields.keys, List.map_cons, List.nodup_cons] at h
    rw [List.lookup_cons, List.mem_cons, Prod.mk.injEq]
    by_cases hk : key = k
    · subst hk
      have hnot : (key, v) ∉ fs := fun hmem => h.1 (List.mem_map.2 ⟨_, hmem, rfl⟩)
      simp [hnot, eq_comm]
    · rw [beq_false_of_ne hk, ih h.2]
      simp [hk]

theorem lookup_sortedFields {fs : Fields} (h : (Fields.keys fs).Nodup) (key : List Char) :
    List.lookup key (Fields.byKey (sortedFields fs)) = (List.lookup key fs).map sorted := by
  refine Option.ext fun v => ?_
  rw [lookup_eq_some_iff (nodup_keys_sorted h), mem_sortedFields, Option.map_eq_some_iff]
  constructor
  · rintro ⟨⟨k, w⟩, hmem, heq⟩
    cases heq
    exact ⟨w, (lookup_eq_some_iff h).2 hmem, rfl⟩
  · rintro ⟨w, hw, rfl⟩
    exact ⟨(key, w), (lookup_eq_some_iff h).1 hw, rfl⟩

/-- **Putting fields in order leaves the value the same.** -/
theorem same_sorted {v : Json} (h : v.hasUniqueKeys = true) : Same v v.sorted := by
  induction v using inductionOn with
  | null => exact .null
  | bool b => exact .bool b
  | int n => exact .int n
  | double x => exact .double x
  | str text => exact .str text
  | arr items ih =>
    rw [hasUniqueKeys, haveUniqueKeys_iff] at h
    rw [sorted, sortedAll_eq_map]
    exact .arr (List.forall₂_map_right_iff.2 (List.forall₂_same.2 fun v hv => ih v hv (h v hv)))
  | obj fs ih =>
    rw [hasUniqueKeys, Bool.and_eq_true, decide_eq_true_eq, fieldsHaveUniqueKeys_iff] at h
    refine .obj fun key => ?_
    rw [lookup_sortedFields h.1]
    cases hlookup : List.lookup key fs with
    | none => exact .none
    | some w =>
      have hmem := (lookup_eq_some_iff h.1).1 hlookup
      exact .some (ih _ hmem (h.2 _ hmem))

end Json

end Abacus
