import Abacus.Decimal.Shortest
import Abacus.Proofs.Decimal.Rounding
/-!
# What a decimal reads as

Reading a decimal asks for its value only, however the digits and the exponent share it (`nearestBits_congr`): the
bounds that spare the powers of ten speak of the order, which is the logarithm of the value (`order_eq_log`).
A decimal with the value of a finite double reads as that double (`nearestBits_eq_encoded_of_value`), so the exact
expansion does, and so the search for the shortest decimal ends with one that does in any case
(`shortest_nearestBits`).
-/
namespace Abacus

theorem length_natText_le_iff {n k : Nat} (hk : 0 < k) : (natText n).length ≤ k ↔ n < 10 ^ k :=
  Nat.length_toDigits_le_iff (by decide) hk

theorem length_natText_pos (n : Nat) : 0 < (natText n).length :=
  List.length_pos_iff.2 Nat.toDigits_ne_nil

namespace Decimal

def value (d : Decimal) : ℚ := d.digits * 10 ^ d.exponent

theorem value_pos {d : Decimal} (h : 0 < d.digits) : 0 < d.value := by
  unfold value
  positivity

theorem value_eq_zero_iff {d : Decimal} : d.value = 0 ↔ d.digits = 0 := by
  constructor
  · intro h
    by_contra hne
    exact (value_pos (Nat.pos_of_ne_zero hne)).ne' h
  · intro h
    rw [value, h, Nat.cast_zero, zero_mul]

theorem quotient_eq (d : Decimal) : d.quotient = (d.digits * 10 ^ d.exponent.toNat, 10 ^ (-d.exponent).toNat) := by
  rw [quotient]
  split
  · rw [show (-d.exponent).toNat = 0 by omega]
    simp
  · rw [show d.exponent.toNat = 0 by omega]
    simp

theorem quotient_den_pos (d : Decimal) : 0 < d.quotient.2 := by
  rw [quotient_eq]
  positivity

theorem quotient_div (d : Decimal) : (d.quotient.1 : ℚ) / d.quotient.2 = d.value := by
  rw [quotient_eq, value, zpow_eq_toNat_div]
  push_cast
  rw [mul_div_assoc]

theorem order_eq_log {d : Decimal} (h : 0 < d.digits) : d.order = Int.log 10 d.value + 1 := by
  have hpos := length_natText_pos d.digits
  have hupper : d.digits < 10 ^ (natText d.digits).length := (length_natText_le_iff hpos).1 (Nat.le_refl _)
  have hlower : 10 ^ ((natText d.digits).length - 1) ≤ d.digits := by
    rcases Nat.eq_zero_or_pos ((natText d.digits).length - 1) with hone | hmore
    · rw [hone]
      exact h
    · by_contra hlt
      have hle := (length_natText_le_iff hmore).2 (Nat.lt_of_not_le hlt)
      omega
  have hlog : Int.log 10 d.value = d.order - 1 := by
    refine log_eq (by decide) ?_ ?_ <;> rw [order, value, Nat.cast_ofNat]
    · rw [show d.exponent + ((natText d.digits).length : Int) - 1 = (((natText d.digits).length - 1 : Nat) : Int)
        + d.exponent by omega, zpow_add₀ (by norm_num), zpow_natCast]
      gcongr
      exact_mod_cast hlower
    · rw [Int.sub_add_cancel, add_comm, zpow_add₀ (by norm_num), zpow_natCast]
      gcongr
      exact_mod_cast hupper
  omega

theorem nearestBits_congr {d d' : Decimal} (h : d.value = d'.value) : d.nearestBits = d'.nearestBits := by
  rcases Nat.eq_zero_or_pos d.digits with hd | hd
  · have hd' : d'.digits = 0 := value_eq_zero_iff.1 (h ▸ value_eq_zero_iff.2 hd)
    rw [nearestBits, nearestBits, if_pos hd, if_pos hd']
  · have hd' : 0 < d'.digits :=
      Nat.pos_of_ne_zero fun hz => (value_pos hd).ne' (h.trans (value_eq_zero_iff.2 hz))
    have horder : d.order = d'.order := by rw [order_eq_log hd, order_eq_log hd', h]
    have hround : Abacus.nearestBits d.quotient.1 d.quotient.2 = Abacus.nearestBits d'.quotient.1 d'.quotient.2 :=
      Abacus.nearestBits_congr d.quotient_den_pos d'.quotient_den_pos (by rw [quotient_div, quotient_div, h])
    rw [nearestBits, nearestBits, if_neg hd.ne', if_neg hd'.ne', horder, hround]

/-! ## Values of doubles -/

theorem ten_zpow_le_least : (10 : ℚ) ^ (-324 : Int) ≤ 2 ^ (-1074 : Int) := by
  have h : 2 ^ 1074 ≤ 10 ^ 324 := by decide +kernel
  rw [zpow_neg, zpow_neg, inv_le_inv₀ (by positivity) (by positivity)]
  exact_mod_cast h

theorem greatest_le_ten_zpow : (2 : ℚ) ^ (53 : Int) * 2 ^ (971 : Int) ≤ 10 ^ (309 : Int) := by
  have h : 2 ^ 53 * 2 ^ 971 ≤ 10 ^ 309 := by decide +kernel
  exact_mod_cast h

theorem order_bounds_of_finite {d : Decimal} {m : Nat} {e : Int} (h : d.value = m * 2 ^ e) (hf : IsFinite64 m e)
    (hm : 0 < m) (hd : 0 < d.digits) : -324 < d.order ∧ d.order < 310 := by
  have hpos := value_pos hd
  have hm1 : (1 : ℚ) ≤ m := by exact_mod_cast hm
  have hm2 : (m : ℚ) < 2 ^ (53 : Int) := by exact_mod_cast hf.lt
  have hlow : (10 : ℚ) ^ (-324 : Int) ≤ d.value := by
    calc (10 : ℚ) ^ (-324 : Int) ≤ 2 ^ (-1074 : Int) := ten_zpow_le_least
      _ ≤ 2 ^ e := zpow_le_zpow_right₀ one_le_two hf.least
      _ ≤ m * 2 ^ e := le_mul_of_one_le_left (by positivity) hm1
      _ = d.value := h.symm
  have hhigh : d.value < (10 : ℚ) ^ (309 : Int) := by
    calc d.value = m * 2 ^ e := h
      _ < 2 ^ (53 : Int) * 2 ^ e := by gcongr
      _ ≤ 2 ^ (53 : Int) * 2 ^ (971 : Int) := by gcongr; exacts [one_le_two, hf.greatest]
      _ ≤ 10 ^ (309 : Int) := greatest_le_ten_zpow
  have hge : -324 ≤ Int.log 10 d.value := (Int.zpow_le_iff_le_log (by decide) hpos).1 (by rwa [Nat.cast_ofNat])
  have hlt : Int.log 10 d.value < 309 := (Int.lt_zpow_iff_log_lt (by decide) hpos).1 (by rwa [Nat.cast_ofNat])
  rw [order_eq_log hd]
  omega

/-- **A decimal with the value of a finite double reads as that double.** -/
theorem nearestBits_eq_encoded_of_value {d : Decimal} {m : Nat} {e : Int} (h : d.value = m * 2 ^ e)
    (hf : IsFinite64 m e) (hm : 0 < m) : d.nearestBits = encoded m e := by
  have hd : 0 < d.digits := by
    refine Nat.pos_of_ne_zero fun hz => ?_
    have hpos : (0 : ℚ) < m * 2 ^ e := by positivity
    exact hpos.ne' (h.symm.trans (value_eq_zero_iff.2 hz))
  obtain ⟨hlow, hhigh⟩ := order_bounds_of_finite h hf hm hd
  rw [nearestBits, if_neg hd.ne', if_neg (by omega), if_neg (by omega)]
  exact nearestBits_eq_encoded d.quotient_den_pos (d.quotient_div.trans h) hf hm

theorem nearestBits_le (d : Decimal) : d.nearestBits ≤ infinityBits := by
  rw [nearestBits]
  split
  · exact Nat.zero_le _
  split
  · exact Nat.le_refl _
  split
  · exact Nat.zero_le _
  · exact nearestBits_le_infinityBits _ _

end Decimal

/-! ## The shortest decimal of a double -/

theorem expansion_value (m : Nat) (e : Int) : (expansion m e).value = m * 2 ^ e := by
  rw [expansion]
  split
  · rename_i h
    obtain ⟨n, rfl⟩ := Int.eq_ofNat_of_zero_le h
    simp [Decimal.value]
  · rename_i h
    obtain ⟨n, rfl⟩ : ∃ n : Nat, e = -(n : Int) := ⟨(-e).toNat, by omega⟩
    have hten : (10 : ℚ) ^ n = 2 ^ n * 5 ^ n := by rw [← mul_pow]; norm_num
    simp only [Decimal.value, neg_neg, Int.toNat_natCast, Nat.pow_eq, Nat.cast_mul, Nat.cast_pow, Nat.cast_ofNat,
      zpow_neg, zpow_natCast, hten]
    field_simp

/-- **The shortest decimal reads back.** -/
theorem shortest_nearestBits {m : Nat} {e : Int} (hf : IsFinite64 m e) (hm : 0 < m) :
    (shortest m e (encoded m e)).nearestBits = encoded m e := by
  unfold shortest
  cases hfound : (candidateGrids e).findSome? fun grid =>
      (neighbours m e grid).find? fun d => d.nearestBits == encoded m e with
  | some d =>
    -- the search asks of what it finds that it reads back
    obtain ⟨grid, -, hgrid⟩ := List.exists_of_findSome?_eq_some hfound
    have hreads := List.find?_some hgrid
    exact eq_of_beq hreads
  | none => exact Decimal.nearestBits_eq_encoded_of_value (expansion_value m e) hf hm

end Abacus
