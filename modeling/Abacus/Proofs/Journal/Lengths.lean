import Abacus.Proofs.Journal.Kept
/-!
# How long the strings of an event are

A string that is cut and marked has no more than `maxRecorded` characters.  But only those that are reached through
objects are cut: the message and the strings within lists are recorded as they are.  So the strings of an event that
lacks no key are all short exactly if these are (`isBounded_kept_iff`).
-/
namespace Abacus

namespace Json

mutual
def strings : Json → List (List Char)
  | .str text   => [text]
  | .arr items  => stringsAll items
  | .obj fields => stringsFields fields
  | _           => []

def stringsAll : List Json → List (List Char)
  | []      => []
  | v :: vs => v.strings ++ stringsAll vs

def stringsFields : List (List Char × Json) → List (List Char)
  | []             => []
  | (_, v) :: rest => v.strings ++ stringsFields rest
end

mutual
def listed : Json → List (List Char)
  | .arr items  => stringsAll items
  | .obj fields => listedFields fields
  | _           => []

def listedFields : List (List Char × Json) → List (List Char)
  | []             => []
  | (_, v) :: rest => v.listed ++ listedFields rest
end

theorem stringsAll_eq_flatMap (vs : List Json) : stringsAll vs = vs.flatMap strings := by
  induction vs with
  | nil => rfl
  | cons v vs ih => rw [stringsAll, ih, List.flatMap_cons]

theorem stringsFields_eq_flatMap (fs : Fields) : stringsFields fs = fs.flatMap fun f => f.2.strings := by
  induction fs with
  | nil => rfl
  | cons f fs ih => rw [stringsFields, ih, List.flatMap_cons]

theorem listedFields_eq_flatMap (fs : Fields) : listedFields fs = fs.flatMap fun f => f.2.listed := by
  induction fs with
  | nil => rfl
  | cons f fs ih => rw [listedFields, ih, List.flatMap_cons]

theorem stringsAll_texts (texts : List (List Char)) : stringsAll (texts.map .str) = texts := by
  rw [stringsAll_eq_flatMap, List.flatMap_map]
  exact List.flatMap_singleton' texts

end Json

namespace Event

def maxRecorded : Nat := maxLength + truncationMark.length

/-- The strings that the sender of an event has chosen: its message, and those in its context. -/
def strings (e : Event) : List (List Char) := e.message :: Json.stringsFields e.context

/-- Whether no string is longer than those that are cut. -/
def IsBounded (e : Event) : Prop := ∀ text ∈ e.strings, text.length ≤ maxRecorded

theorem length_truncatedText_le (text : List Char) : (truncatedText text).length ≤ maxRecorded := by
  rw [truncatedText, maxRecorded]
  split
  · rw [List.length_append, List.length_take]
    omega
  · omega

theorem forall_strings_truncatedValue_iff (v : Json) :
    (∀ text ∈ (truncatedValue v).strings, text.length ≤ maxRecorded) ↔
      ∀ text ∈ v.listed, text.length ≤ maxRecorded := by
  induction v using Json.inductionOn with
  | str text => simp [truncatedValue, Json.strings, Json.listed, length_truncatedText_le]
  | obj fields ih =>
    rw [truncatedValue, Json.strings, Json.listed, truncatedFields_eq_map, Json.stringsFields_eq_flatMap,
      Json.listedFields_eq_flatMap, List.flatMap_map, List.forall_mem_flatMap, List.forall_mem_flatMap]
    exact forall₂_congr ih
  | arr items => rfl
  | _ => simp [truncatedValue, Json.strings, Json.listed]

theorem listed_subset_truncatedValue (v : Json) : v.listed ⊆ (truncatedValue v).strings := by
  induction v using Json.inductionOn with
  | obj fields ih =>
    rw [truncatedValue, Json.strings, Json.listed, truncatedFields_eq_map, Json.stringsFields_eq_flatMap,
      Json.listedFields_eq_flatMap, List.flatMap_map]
    intro text htext
    obtain ⟨f, hf, hlisted⟩ := List.mem_flatMap.1 htext
    exact List.mem_flatMap.2 ⟨f, hf, ih f hf hlisted⟩
  | arr items => exact List.Subset.refl _
  | _ => exact List.nil_subset _

theorem kept_of_complete {e : Event} (h : missing e.kind e.context = []) : e.kept = e.truncated := by
  have hmissing : missing e.truncated.kind e.truncated.context = [] := (missing_truncatedFields _ _).trans h
  rw [kept, attributed, hmissing]

/-- **Only the message and what stands in lists may be long** in what is recorded of an event that lacks no key. -/
theorem isBounded_kept_iff {e : Event} (h : missing e.kind e.context = []) : e.kept.IsBounded ↔
    e.message.length ≤ maxRecorded ∧ ∀ text ∈ Json.listedFields e.context, text.length ≤ maxRecorded := by
  have hcontext := forall_strings_truncatedValue_iff (.obj e.context)
  rw [IsBounded, strings, List.forall_mem_cons, kept_of_complete h]
  exact and_congr_right fun _ => hcontext

end Event

end Abacus
