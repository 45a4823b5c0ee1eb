import Abacus.Event
import Abacus.Proofs.Json.Shape
/-!
# What is kept of an event

Before an event is recorded, its long strings are cut and missing keys are named.  Neither keeps it from being
recorded (`isRecordable_kept`), and a key of its context keeps its value, but for the cut (`lookup_kept`).  Events
about a formula can be recorded when their further values can (`isRecordable_aboutFormula`).
-/
namespace Abacus

namespace Assoc

variable {κ ν : Type} [BEq κ]

theorem forall_set {P : ν → Prop} {key : κ} {value : ν} {pairs : List (κ × ν)} (hvalue : P value)
    (h : ∀ f ∈ pairs, P f.2) : ∀ f ∈ set key value pairs, P f.2 := by
  induction pairs with
  | nil => simpa [set] using hvalue
  | cons pair rest ih =>
    obtain ⟨hpair, hrest⟩ := List.forall_mem_cons.1 h
    rw [set]
    split
    · exact List.forall_mem_cons.2 ⟨hvalue, hrest⟩
    · exact List.forall_mem_cons.2 ⟨hpair, ih hrest⟩

theorem forall_update {P : ν → Prop} {pairs more : List (κ × ν)} (h : ∀ f ∈ pairs, P f.2) (hmore : ∀ f ∈ more, P f.2) :
    ∀ f ∈ update pairs more, P f.2 := by
  induction more generalizing pairs with
  | nil => exact h
  | cons f more ih =>
    obtain ⟨hf, hmore⟩ := List.forall_mem_cons.1 hmore
    exact ih (forall_set hf h) hmore

theorem lookup_update_of_not_mem [LawfulBEq κ] {key : κ} {pairs more : List (κ × ν)} (h : key ∉ more.map Prod.fst) :
    List.lookup key (update pairs more) = List.lookup key pairs := by
  induction more generalizing pairs with
  | nil => rfl
  | cons f more ih =>
    rw [List.map_cons, List.mem_cons, not_or] at h
    have hstep : update pairs (f :: more) = update (set f.1 f.2 pairs) more := rfl
    rw [hstep, ih h.2, lookup_set, if_neg fun heq => h.1 (eq_of_beq heq)]

end Assoc

namespace Event

/-! ## Values that can be recorded -/

structure Fits (v : Json) : Prop where
  height : v.height ≤ maxHeight
  writable : v.strict.isWritable = true

theorem isRecordable_iff {e : Event} :
    e.isRecordable = true ↔ isUnwritable e.version = false ∧ ∀ f ∈ e.context, Fits f.2 := by
  have hcontext : (∀ f ∈ e.context, Fits f.2) ↔
      Json.heightFields e.context ≤ maxHeight ∧ Json.areFieldsWritable (Json.strictFields e.context) = true := by
    rw [Json.heightFields_le_iff, Json.areFieldsWritable_iff, Json.strictFields_eq_map, List.forall_mem_map,
      ← forall₂_and]
    exact forall₂_congr fun f _ => ⟨fun h => ⟨h.height, h.writable⟩, fun h => ⟨h.1, h.2⟩⟩
  rw [hcontext, isRecordable, toJson]
  cases e.code <;>
    · simp only [Json.isWritable, Json.areFieldsWritable, Bool.and_eq_true, Bool.not_eq_true', decide_eq_true_eq,
        true_and, and_true]
      exact and_left_comm

theorem fits_str (text : List Char) : Fits (.str text) := ⟨Nat.le_add_left 1 254, rfl⟩

theorem fits_double (x : Float) : Fits (.double x) := by
  refine ⟨Nat.le_add_left 1 254, ?_⟩
  rw [Json.strict]
  split <;> rfl

theorem fits_texts (texts : List (List Char)) : Fits (.arr (texts.map .str)) := by
  constructor
  · have hall : Json.heightAll (texts.map .str) ≤ 1 :=
      Json.heightAll_le_iff.2 (List.forall_mem_map.2 fun text _ => Nat.le_refl 1)
    rw [Json.height, maxHeight]
    omega
  · rw [Json.strict, Json.isWritable, Json.areWritable_iff, Json.strictAll_eq_map, List.forall_mem_map,
      List.forall_mem_map]
    exact fun text _ => rfl

theorem isUnwritable_currentVersion : isUnwritable currentVersion = false := by decide +kernel

/-! ## Cutting -/

theorem truncatedFields_eq_map (fs : Fields) : truncatedFields fs = fs.map fun f => (f.1, truncatedValue f.2) := by
  induction fs with
  | nil => rfl
  | cons f fs ih => rw [truncatedFields, ih, List.map_cons]

theorem height_truncatedValue_le (v : Json) : (truncatedValue v).height ≤ v.height := by
  induction v using Json.inductionOn with
  | obj fields ih =>
    rw [truncatedValue, Json.height, Json.height, truncatedFields_eq_map]
    refine Nat.succ_le_succ (Json.heightFields_le_iff.2 (List.forall_mem_map.2 fun f hf => ?_))
    exact (ih f hf).trans (Json.heightFields_le_iff.1 (Nat.le_refl _) f hf)
  | _ => exact Nat.le_refl _

theorem isWritable_truncatedValue {v : Json} (h : v.strict.isWritable = true) :
    (truncatedValue v).strict.isWritable = true := by
  induction v using Json.inductionOn with
  | obj fields ih =>
    rw [Json.strict, Json.isWritable, Json.areFieldsWritable_iff, Json.strictFields_eq_map, List.forall_mem_map] at h
    rw [truncatedValue, Json.strict, Json.isWritable, Json.areFieldsWritable_iff, Json.strictFields_eq_map,
      truncatedFields_eq_map, List.forall_mem_map, List.forall_mem_map]
    exact fun f hf => ih f hf (h f hf)
  | str text => rfl
  | _ => exact h

theorem Fits.truncated {v : Json} (h : Fits v) : Fits (truncatedValue v) :=
  ⟨(height_truncatedValue_le v).trans h.height, isWritable_truncatedValue h.writable⟩

theorem lookup_truncatedFields (key : List Char) (fs : Fields) :
    List.lookup key (truncatedFields fs) = (List.lookup key fs).map truncatedValue := by
  induction fs with
  | nil => rfl
  | cons f fs ih =>
    rw [truncatedFields, List.lookup_cons, List.lookup_cons, ih]
    split <;> rfl

theorem missing_truncatedFields (kind : EventKind) (context : Fields) :
    missing kind (truncatedFields context) = missing kind context := by
  rw [missing, missing, keys_truncatedFields]

/-! ## What is kept -/

def kept (e : Event) : Event := e.truncated.attributed

theorem kind_kept (e : Event) : e.kept.kind = e.kind := by
  rw [kept, attributed]
  split <;> rfl

/-- **An event that can be recorded still can when it has been cut.** -/
theorem isRecordable_kept {e : Event} (h : e.isRecordable = true) : e.kept.isRecordable = true := by
  obtain ⟨hversion, hfits⟩ := isRecordable_iff.1 h
  have hcut : ∀ f ∈ e.truncated.context, Fits f.2 := by
    rw [truncated, truncatedFields_eq_map, List.forall_mem_map]
    exact fun f hf => (hfits f hf).truncated
  rw [kept, attributed]
  split
  · exact isRecordable_iff.2 ⟨hversion, hcut⟩
  · exact isRecordable_iff.2 ⟨hversion, Assoc.forall_set (fits_texts _) hcut⟩

/-- **A key keeps its value, but for the cut**, unless it is the one that names missing keys. -/
theorem lookup_kept (e : Event) {key : List Char} (hkey : key ≠ missingKey) :
    List.lookup key e.kept.context = (List.lookup key e.context).map truncatedValue := by
  have hcut : List.lookup key e.truncated.context = (List.lookup key e.context).map truncatedValue :=
    lookup_truncatedFields key e.context
  rw [kept, attributed]
  split
  · exact hcut
  · rw [← hcut]
    exact (Assoc.lookup_set _ _ _ _).trans (if_neg fun heq => hkey (eq_of_beq heq))

/-! ## Events about a formula -/

section AboutFormula

variable (stamp : List Char) (kind : EventKind) (level : Level) (message formula : List Char)
  (canonical : Option (List Char)) (names : Option (List (List Char))) (code : Option (List Char)) {extra : Fields}

theorem isRecordable_aboutFormula (h : ∀ f ∈ extra, Fits f.2) :
    (aboutFormula stamp kind level message formula canonical names code extra).isRecordable = true := by
  refine isRecordable_iff.2 ⟨isUnwritable_currentVersion, Assoc.forall_update ?_ h⟩
  have hformula : ∀ f ∈ [("expression".toList, Json.str formula)], Fits f.2 := by
    simpa using fits_str formula
  cases canonical with
  | none =>
    cases names with
    | none => exact hformula
    | some names => exact Assoc.forall_set (fits_texts names) hformula
  | some text =>
    cases names with
    | none => exact Assoc.forall_set (fits_str text) hformula
    | some names => exact Assoc.forall_set (fits_texts names) (Assoc.forall_set (fits_str text) hformula)

theorem lookup_aboutFormula (h : "expression".toList ∉ Fields.keys extra) :
    List.lookup "expression".toList (aboutFormula stamp kind level message formula canonical names code extra).context =
      some (.str formula) := by
  refine (Assoc.lookup_update_of_not_mem h).trans ?_
  cases canonical <;> cases names <;> simp only [Assoc.lookup_set] <;> rfl

end AboutFormula

end Event

end Abacus
