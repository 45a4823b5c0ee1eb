/-!
# Values by key

Lists of pairs of a key and a value, in the order in which the keys were first set.  A key that is set again keeps
its place.
-/
namespace Abacus.Assoc

variable {κ ν : Type} [BEq κ]

def set (key : κ) (value : ν) : List (κ × ν) → List (κ × ν)
  | []             => [(key, value)]
  | (k, v) :: rest => if k == key then (k, value) :: rest else (k, v) :: set key value rest

def update (pairs more : List (κ × ν)) : List (κ × ν) := more.foldl (fun ps (k, v) => set k v ps) pairs

/-- **A key that is set has its new value, and every other key the value it had.** -/
theorem lookup_set [LawfulBEq κ] (key k : κ) (value : ν) (pairs : List (κ × ν)) :
    List.lookup k (set key value pairs) = if k == key then some value else List.lookup k pairs := by
  induction pairs with
  | nil => cases h : k == key <;> simp [set, List.lookup_cons, h]
  | cons pair rest ih =>
    obtain ⟨m, v⟩ := pair
    by_cases hm : m == key
    · cases h : k == key <;> simp [set, List.lookup_cons, eq_of_beq hm, h]
    · cases hk : k == m with
      | true  => simp [set, hm, eq_of_beq hk]
      | false => simp [set, List.lookup_cons, hm, hk, ih]

end Abacus.Assoc
