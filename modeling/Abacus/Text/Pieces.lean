/-!
# Pieces of a text

A text falls into pieces at every character of a class.  There is one piece more than there are such characters, and
none of the pieces holds one.
-/
namespace Abacus

def splitAtAll (p : Char → Bool) : List Char → List (List Char)
  | []      => [[]]
  | c :: cs =>
    if p c then [] :: splitAtAll p cs
    else
      match splitAtAll p cs with
      | piece :: pieces => (c :: piece) :: pieces
      | []              => [[c]]

theorem splitAtAll_ne_nil (p : Char → Bool) (cs : List Char) : splitAtAll p cs ≠ [] := by
  cases cs with
  | nil => simp [splitAtAll]
  | cons c cs =>
    rw [splitAtAll]
    split
    · simp
    · split <;> simp

theorem length_splitAtAll (p : Char → Bool) (cs : List Char) :
    (splitAtAll p cs).length = cs.countP p + 1 := by
  induction cs with
  | nil => rfl
  | cons c cs ih =>
    rw [splitAtAll]
    by_cases h : p c
    · simp [h, ih]
    · rw [if_neg h, List.countP_cons_of_neg h, ← ih]
      split
      · next hs => simp [hs]
      · next hs => exact absurd hs (splitAtAll_ne_nil p cs)

def splitAtFirst (c : Char) : List Char → Option (List Char × List Char)
  | []      => none
  | d :: ds =>
    if d = c then some ([], ds) else (splitAtFirst c ds).map fun (before, after) => (d :: before, after)

theorem splitAtFirst_eq_some {c : Char} {cs before after : List Char}
    (h : splitAtFirst c cs = some (before, after)) : cs = before ++ c :: after ∧ c ∉ before := by
  induction cs generalizing before with
  | nil => simp [splitAtFirst] at h
  | cons d ds ih =>
    rw [splitAtFirst] at h
    split at h
    · next hd =>
      cases h
      simp [hd]
    · next hd =>
      obtain ⟨⟨b, a⟩, hs, he⟩ := Option.map_eq_some_iff.1 h
      cases he
      obtain ⟨rfl, hb⟩ := ih hs
      simp [hb, Ne.symm hd]

end Abacus
