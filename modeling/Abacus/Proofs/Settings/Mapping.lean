import Mathlib
import Abacus.Settings
/-!
# Mappings of settings

Keys are one key when they are equal texts or equal numbers, so being one key is symmetric and transitive
(`sameKey_iff`).  A mapping in which no key is there twice (`IsDictionary`) stays so when keys are set, and what is
found under a key afterwards is its new value, or else its old one (`get?_update`).  The mapping that a document is
has every key once (`isDictionary_of_read`).
-/
namespace Abacus

namespace Yaml

/-- **Two keys are one** if both are nothing, or the same text, or the same number. -/
theorem sameKey_iff {a b : Yaml} : a.sameKey b = true ↔
    (a = .null ∧ b = .null) ∨ (∃ text, a = .str text ∧ b = .str text) ∨
      ∃ n, a.keyNumber? = some n ∧ b.keyNumber? = some n := by
  rw [sameKey.eq_def]
  split
  · simp
  · simp only [keyNumber?, reduceCtorEq, false_and, exists_false, or_false, false_or, beq_iff_eq, str.injEq]
    exact ⟨fun h => ⟨_, h, rfl⟩, fun ⟨text, ha, hb⟩ => ha.trans hb.symm⟩
  · rename_i hnull hstr
    have hneither : ¬ (a = .null ∧ b = .null) ∧ ¬ ∃ text, a = .str text ∧ b = .str text :=
      ⟨fun h => hnull h.1 h.2, fun ⟨text, ha, hb⟩ => hstr text text ha hb⟩
    rw [or_iff_right hneither.1, or_iff_right hneither.2]
    split
    · rename_i m n ha hb
      rw [ha, hb, beq_iff_eq]
      exact ⟨fun h => ⟨n, congrArg some h, rfl⟩,
        fun ⟨i, hm, hn⟩ => (Option.some.inj hm).trans (Option.some.inj hn).symm⟩
    · rename_i hnumbers
      exact iff_of_false Bool.false_ne_true fun ⟨n, ha, hb⟩ => hnumbers n n ha hb

theorem sameKey_symm {a b : Yaml} (h : a.sameKey b = true) : b.sameKey a = true := by
  rw [sameKey_iff] at h ⊢
  obtain ⟨ha, hb⟩ | ⟨text, ha, hb⟩ | ⟨n, ha, hb⟩ := h
  · exact .inl ⟨hb, ha⟩
  · exact .inr (.inl ⟨text, hb, ha⟩)
  · exact .inr (.inr ⟨n, hb, ha⟩)

theorem sameKey_comm (a b : Yaml) : a.sameKey b = b.sameKey a :=
  Bool.eq_iff_iff.2 ⟨sameKey_symm, sameKey_symm⟩

theorem sameKey_trans {a b c : Yaml} (h : a.sameKey b = true) (h' : b.sameKey c = true) : a.sameKey c = true := by
  rw [sameKey_iff] at h h' ⊢
  obtain ⟨ha, rfl⟩ | ⟨text, ha, rfl⟩ | ⟨n, ha, hb⟩ := h
  · simpa [ha, keyNumber?] using h'
  · simpa [ha, keyNumber?] using h'
  · obtain ⟨rfl, -⟩ | ⟨text, rfl, -⟩ | ⟨m, hb', hc⟩ := h'
    · cases hb
    · cases hb
    · rw [hb] at hb'
      obtain rfl := Option.some.inj hb'
      exact .inr (.inr ⟨n, ha, hc⟩)

theorem sameKey_congr {a b : Yaml} (h : a.sameKey b = true) (c : Yaml) : a.sameKey c = b.sameKey c :=
  Bool.eq_iff_iff.2 ⟨sameKey_trans (sameKey_symm h), sameKey_trans h⟩

end Yaml

namespace Mapping

open Yaml

variable {m more : Mapping} {key k value : Yaml}

def keys (m : Mapping) : List Yaml := m.map Prod.fst

structure IsDictionary (m : Mapping) : Prop where
  isKey : ∀ k ∈ m.keys, k.isKey = true
  once : m.keys.Pairwise fun a b => a.sameKey b = false

theorem isDictionary_nil : IsDictionary [] := ⟨List.forall_mem_nil _, .nil⟩

@[simp] theorem get?_nil (key : Yaml) : get? [] key = none := rfl

theorem get?_cons (entry : Yaml × Yaml) (m : Mapping) (key : Yaml) :
    get? (entry :: m) key = if entry.1.sameKey key then some entry.2 else get? m key := by
  rw [get?, get?, List.find?_cons]
  cases entry.1.sameKey key <;> rfl

theorem get?_eq_none_iff : m.get? key = none ↔ ∀ k ∈ m.keys, k.sameKey key = false := by
  rw [get?, Option.map_eq_none_iff, List.find?_eq_none, keys, List.forall_mem_map]
  simp

/-! ## Setting keys -/

/-- **A key that is set has its new value**, and every other key the value it had. -/
theorem get?_set (key value : Yaml) (m : Mapping) (k : Yaml) :
    (Mapping.set key value m).get? k = if key.sameKey k then some value else m.get? k := by
  induction m with
  | nil => rw [Mapping.set, get?_cons]
  | cons entry m ih =>
    obtain ⟨k', v⟩ := entry
    rw [Mapping.set]
    cases hsame : k'.sameKey key with
    | true =>
      rw [if_pos rfl, get?_cons, get?_cons, sameKey_congr hsame]
      split <;> rfl
    | false =>
      rw [if_neg Bool.false_ne_true, get?_cons, get?_cons, ih]
      cases hfirst : k'.sameKey k with
      | false => rfl
      | true =>
        have hother : key.sameKey k = false := by
          rw [sameKey_comm, ← sameKey_congr hfirst, hsame]
        rw [hother]
        rfl

theorem keys_set (key value : Yaml) (m : Mapping) : (Mapping.set key value m).keys =
    if m.get? key = none then m.keys ++ [key] else m.keys := by
  induction m with
  | nil => rfl
  | cons entry m ih =>
    obtain ⟨k, v⟩ := entry
    rw [Mapping.set, get?_cons]
    cases hsame : k.sameKey key with
    | true => rfl
    | false =>
      rw [if_neg Bool.false_ne_true, if_neg Bool.false_ne_true, keys, List.map_cons, ← keys, ih]
      split <;> rfl

theorem IsDictionary.set (h : m.IsDictionary) (hkey : key.isKey = true) (value : Yaml) :
    (Mapping.set key value m).IsDictionary := by
  have hkeys := keys_set key value m
  split at hkeys
  · rename_i hnew
    refine ⟨?_, ?_⟩
    · rw [hkeys]
      exact List.forall_mem_append.2 ⟨h.isKey, by simpa using hkey⟩
    · rw [hkeys]
      exact List.pairwise_append.2 ⟨h.once, List.pairwise_singleton _ _, by simpa using get?_eq_none_iff.1 hnew⟩
  · exact ⟨hkeys ▸ h.isKey, hkeys ▸ h.once⟩

theorem IsDictionary.update (h : m.IsDictionary) (hmore : ∀ k ∈ more.keys, k.isKey = true) :
    (m.update more).IsDictionary := by
  induction more generalizing m with
  | nil => exact h
  | cons entry more ih =>
    obtain ⟨hkey, hmore⟩ := List.forall_mem_cons.1 hmore
    exact ih (h.set hkey entry.2) hmore

/-- **A mapping over another**: what it has counts, and else what is there. -/
theorem get?_update (m : Mapping) (hmore : more.IsDictionary) (key : Yaml) :
    (m.update more).get? key = (more.get? key).or (m.get? key) := by
  induction more generalizing m with
  | nil => rfl
  | cons entry more ih =>
    obtain ⟨-, hkeys⟩ := List.forall_mem_cons.1 hmore.isKey
    obtain ⟨hfirst, honce⟩ := List.pairwise_cons.1 hmore.once
    have hstep : m.update (entry :: more) = (Mapping.set entry.1 entry.2 m).update more := rfl
    rw [hstep, ih _ ⟨hkeys, honce⟩, get?_set, get?_cons]
    cases hsame : entry.1.sameKey key with
    | false => rfl
    | true =>
      have hnone : Mapping.get? more key = none := by
        refine get?_eq_none_iff.2 fun k hk => ?_
        rw [sameKey_comm, ← sameKey_congr hsame]
        exact hfirst k hk
      rw [hnone]
      rfl

/-! ## Leaving keys out -/

theorem get?_filter {p : Yaml → Bool} (hp : ∀ a b : Yaml, a.sameKey b = true → p a = p b) (m : Mapping) (key : Yaml) :
    get? (m.filter fun entry => p entry.1) key = if p key then m.get? key else none := by
  induction m with
  | nil => exact (ite_self _).symm
  | cons entry m ih =>
    -- an entry under the key is left out only if the key is
    have hfirst : entry.1.sameKey key = true → p entry.1 = p key := hp _ _
    rw [List.filter_cons, get?_cons]
    cases hentry : p entry.1 with
    | true =>
      rw [if_pos rfl, get?_cons, ih]
      split
      · rename_i hsame
        rw [← hfirst hsame, hentry, if_pos rfl]
      · rfl
    | false =>
      rw [if_neg Bool.false_ne_true, ih]
      split
      · rename_i hkey
        rw [if_neg fun hsame => Bool.false_ne_true (hentry.symm.trans ((hfirst hsame).trans hkey))]
      · rfl

theorem keys_filter (p : Yaml → Bool) (m : Mapping) : keys (m.filter fun entry => p entry.1) = m.keys.filter p :=
  (List.filter_map ..).symm

theorem IsDictionary.filter (h : m.IsDictionary) (p : Yaml → Bool) :
    IsDictionary (m.filter fun entry => p entry.1) := by
  refine ⟨?_, ?_⟩
  · rw [keys_filter]
    exact fun k hk => h.isKey k (List.mem_of_mem_filter hk)
  · rw [keys_filter]
    exact h.once.filter p

theorem IsDictionary.cons (h : m.IsDictionary) (hkey : key.isKey = true) (hnew : m.get? key = none) (value : Yaml) :
    IsDictionary ((key, value) :: m) := by
  refine ⟨List.forall_mem_cons.2 ⟨hkey, h.isKey⟩, List.pairwise_cons.2 ⟨fun k hk => ?_, h.once⟩⟩
  rw [sameKey_comm]
  exact get?_eq_none_iff.1 hnew k hk

end Mapping

/-! ## Documents -/

namespace Yaml

theorem ofPlain_ne_map (text : List Char) (m : Mapping) : ofPlain text ≠ .ok (.map m) := by
  intro h
  rw [ofPlain] at h
  split at h
  · cases h
  split at h
  · cases h
  split at h
  · cases h
  dsimp only at h
  split at h
  · cases h
  · cases h
  split at h
  · cases h
  · cases h
  · cases h

namespace Tree

theorem isKey_of_fields {entries : List (Tree × Tree)} {fs : Mapping} (h : fields entries = .ok fs) :
    ∀ k ∈ fs.keys, k.isKey = true := by
  induction entries generalizing fs with
  | nil =>
    cases h
    exact List.forall_mem_nil _
  | cons entry entries ih =>
    obtain ⟨k, v⟩ := entry
    rw [fields] at h
    simp only [bind, Except.bind] at h
    split at h
    · cases h
    rename_i key hkey
    cases hisKey : key.isKey with
    | false =>
      rw [hisKey] at h
      cases h
    | true =>
      rw [hisKey, Bool.not_true, if_neg Bool.false_ne_true] at h
      split at h
      · cases h
      split at h
      · cases h
      rename_i more hmore
      cases h
      exact List.forall_mem_cons.2 ⟨hisKey, ih hmore⟩

theorem isDictionary_of_value {t : Tree} {m : Mapping} (h : t.value = .ok (.map m)) : m.IsDictionary := by
  cases t with
  | plain text =>
    rw [value] at h
    cases hplain : ofPlain text with
    | error e =>
      rw [hplain] at h
      cases h
    | ok v =>
      rw [hplain] at h
      cases h
      exact absurd hplain (ofPlain_ne_map text m)
  | quoted text => cases h
  | list items =>
    rw [value] at h
    cases hvalues : values items <;> rw [hvalues] at h <;> cases h
  | map entries =>
    rw [value] at h
    cases hfields : fields entries with
    | error e =>
      rw [hfields] at h
      cases h
    | ok fs =>
      rw [hfields] at h
      cases h
      exact Mapping.isDictionary_nil.update (isKey_of_fields hfields)

end Tree

theorem isDictionary_of_read {text : List Char} {m : Mapping} (h : read text = .ok (.map m)) : m.IsDictionary := by
  rw [read] at h
  cases htree : parse text with
  | error e =>
    rw [htree] at h
    cases h
  | ok tree =>
    rw [htree] at h
    change tree.meaning = _ at h
    rw [Tree.meaning] at h
    split at h
    · cases h
    · exact Tree.isDictionary_of_value h

end Yaml

end Abacus
