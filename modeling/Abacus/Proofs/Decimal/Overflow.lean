import Abacus.Proofs.Decimal.Nearest
import Abacus.Proofs.Decimal.Values
/-!
# Where doubles end

The greatest finite double is `(2 ^ 53 - 1) · 2 ^ 971`, and the next one would be `2 ^ 1024`.  What is at least halfway
between them is infinite, a tie included, as `2 ^ 1024` has the even mantissa; what is less is finite
(`nearestBits_eq_infinityBits_iff`), as with whole numbers (`isInf_ofInt_iff`).
-/
namespace Abacus

/-- Halfway between the greatest finite double and the power of two after it. -/
def overflowBound : ℚ := (2 ^ 54 - 1) * 2 ^ 970

theorem overflowBound_le : overflowBound ≤ 2 ^ (1024 : Int) := by
  calc overflowBound ≤ 2 ^ 54 * 2 ^ 970 := by rw [overflowBound]; gcongr; norm_num
    _ = 2 ^ (1024 : Int) := by rw [← pow_add]; rfl

theorem le_overflowBound : (2 : ℚ) ^ (1023 : Int) ≤ overflowBound := by
  calc (2 : ℚ) ^ (1023 : Int) = 2 ^ 53 * 2 ^ 970 := by rw [← pow_add]; rfl
    _ ≤ overflowBound := by rw [overflowBound]; gcongr; norm_num

/-! ## What rounds up to an even number -/

theorem le_roundQuotient_iff {n den : Nat} (heven : n % 2 = 0) (hden : 0 < den) (num : Nat) :
    n ≤ roundQuotient num den ↔ 2 * (n * den) ≤ 2 * num + den := by
  have hsplit := Nat.div_add_mod num den
  have hlt := Nat.mod_lt num hden
  rw [roundQuotient]
  generalize num / den = q at *
  generalize num % den = r at *
  -- in multiples of the denominator, where the number is among the neighbours of the quotient
  have hlower (h : n ≤ q) : n * den ≤ den * q := by
    rw [Nat.mul_comm den]
    exact Nat.mul_le_mul_right den h
  have hupper (h : q + 1 ≤ n) : den * q + den ≤ n * den := by
    rw [← Nat.mul_succ, Nat.mul_comm den]
    exact Nat.mul_le_mul_right den h
  have hnext (h : n = q + 1) : n * den = den * q + den := by rw [h, Nat.mul_comm, Nat.mul_succ]
  have hbeyond (h : q + 2 ≤ n) : den * q + 2 * den ≤ n * den := by
    rw [Nat.mul_comm 2, ← Nat.mul_add, Nat.mul_comm den]
    exact Nat.mul_le_mul_right den h
  split
  · omega
  split
  · omega
  · omega

theorem le_roundedUnits_iff {n num den : Nat} (heven : n % 2 = 0) (hden : 0 < den) (e : Int) :
    n ≤ roundedUnits num den e ↔ (2 * n - 1) * 2 ^ (e - 1) ≤ (num : ℚ) / den := by
  have hpos : 0 < den * 2 ^ e.toNat := by positivity
  have hhalf : 2 * (((num * 2 ^ (-e).toNat : Nat) : ℚ) / (den * 2 ^ e.toNat : Nat)) = num / den / 2 ^ (e - 1) := by
    have hunit : (2 : ℚ) ^ e = 2 * 2 ^ (e - 1) := by rw [← zpow_one_add₀ two_ne_zero, add_sub_cancel]
    rw [units_eq_div_zpow, hunit]
    field_simp
  rw [roundedUnits_eq, le_roundQuotient_iff heven hpos, ← le_div_iff₀ (by positivity), ← hhalf, ← mul_div_assoc,
    le_div_iff₀ (by exact_mod_cast hpos)]
  generalize den * 2 ^ e.toNat = d
  generalize num * 2 ^ (-e).toNat = a
  rw [← @Nat.cast_le ℚ, sub_mul, sub_le_iff_le_add]
  push_cast
  rw [mul_assoc, one_mul]

variable {num den : Nat} {e : Int}

theorem roundedUnits_lt (hd : 0 < den) (h : (num : ℚ) / den < 2 ^ (e + 53)) :
    roundedUnits num den e < 2 * leadingBit + 2 := by
  rw [← not_le, le_roundedUnits_iff rfl hd, not_le]
  calc (num : ℚ) / den < 2 ^ (e + 53) := h
    _ = 2 ^ (54 : Int) * 2 ^ (e - 1) := by rw [← zpow_add₀ two_ne_zero]; congr 1; omega
    _ ≤ _ := by gcongr; norm_num [leadingBit]

theorem leadingBit_le_roundedUnits (hd : 0 < den) (h : 2 ^ (e + 52) ≤ (num : ℚ) / den) :
    leadingBit ≤ roundedUnits num den e := by
  rw [le_roundedUnits_iff rfl hd]
  calc (2 * leadingBit - 1) * (2 : ℚ) ^ (e - 1) ≤ 2 ^ (53 : Int) * 2 ^ (e - 1) := by gcongr; norm_num [leadingBit]
    _ = 2 ^ (e + 52) := by rw [← zpow_add₀ two_ne_zero]; congr 1; omega
    _ ≤ num / den := h

/-! ## The threshold -/

theorem nearestBits_eq_infinityBits_iff (hn : 0 < num) (hd : 0 < den) :
    nearestBits num den = infinityBits ↔ overflowBound ≤ (num : ℚ) / den := by
  have hpos : (0 : ℚ) < num / den := by positivity
  have hlower := Int.zpow_log_le_self (by decide : 1 < 2) hpos
  have hupper := Int.lt_zpow_succ_log_self (by decide : 1 < 2) ((num : ℚ) / den)
  rw [Nat.cast_ofNat] at hlower hupper
  rw [nearestBits, if_neg hn.ne', unitExponent, leadingExponent_eq_log hn hd]
  generalize Int.log 2 ((num : ℚ) / den) = k at *
  dsimp only
  rw [min_eq_left_iff]
  rcases Int.lt_trichotomy k 1023 with hsmall | rfl | hlarge
  · -- two steps below the last exponent, a carry does not reach infinity
    have hbound : (num : ℚ) / den < overflowBound :=
      calc (num : ℚ) / den < 2 ^ (k + 1) := hupper
        _ ≤ 2 ^ (1023 : Int) := zpow_le_zpow_right₀ one_le_two (by omega)
        _ ≤ overflowBound := le_overflowBound
    have hexponent : k + 1 ≤ max (k - 52) (-1074) + 53 := by omega
    have hunits := roundedUnits_lt hd (hupper.trans_le (zpow_le_zpow_right₀ one_le_two hexponent))
    refine iff_of_false ?_ (not_le.2 hbound)
    simp only [infinityBits, leadingBit] at *
    omega
  · -- at the last exponent, only a carry reaches infinity
    have hcarry : infinityBits ≤ (971 + 1074) * leadingBit + roundedUnits num den 971 ↔
        2 * leadingBit ≤ roundedUnits num den 971 := by
      simp only [infinityBits, leadingBit]
      omega
    refine hcarry.trans ((le_roundedUnits_iff rfl hd 971).trans ?_)
    rw [overflowBound]
    norm_num [leadingBit]
  · have hbound : overflowBound ≤ (num : ℚ) / den :=
      calc overflowBound ≤ 2 ^ (1024 : Int) := overflowBound_le
        _ ≤ 2 ^ k := zpow_le_zpow_right₀ one_le_two (by omega)
        _ ≤ num / den := hlower
    have hexponent : max (k - 52) (-1074) + 52 ≤ k := by omega
    have hunits := leadingBit_le_roundedUnits hd ((zpow_le_zpow_right₀ one_le_two hexponent).trans hlower)
    refine iff_of_true ?_ hbound
    simp only [infinityBits, leadingBit] at *
    omega

namespace Decimal

/-- **A decimal reads as infinity from the bound on.** -/
theorem nearestBits_eq_infinityBits_iff (d : Decimal) : d.nearestBits = infinityBits ↔ overflowBound ≤ d.value := by
  have hbound : (0 : ℚ) < overflowBound := lt_of_lt_of_le (by positivity) le_overflowBound
  rcases Nat.eq_zero_or_pos d.digits with hzero | hdigits
  · rw [nearestBits, if_pos hzero, value_eq_zero_iff.2 hzero]
    exact iff_of_false (by decide) (not_le.2 hbound)
  have hpos := value_pos hdigits
  have hlower := Int.zpow_log_le_self (by decide : 1 < 10) hpos
  have hupper := Int.lt_zpow_succ_log_self (by decide : 1 < 10) d.value
  have horder := order_eq_log hdigits
  rw [Nat.cast_ofNat] at hlower hupper
  rw [nearestBits, if_neg hdigits.ne']
  split
  · refine iff_of_true rfl ?_
    calc overflowBound ≤ 2 ^ (1024 : Int) := overflowBound_le
      _ = 2 ^ (53 : Int) * 2 ^ (971 : Int) := by rw [← zpow_add₀ two_ne_zero]; rfl
      _ ≤ 10 ^ (309 : Int) := greatest_le_ten_zpow
      _ ≤ 10 ^ Int.log 10 d.value := zpow_le_zpow_right₀ (by norm_num) (by omega)
      _ ≤ d.value := hlower
  split
  · refine iff_of_false (by decide) (not_le.2 ?_)
    calc d.value < 10 ^ (Int.log 10 d.value + 1) := hupper
      _ ≤ 10 ^ (0 : Int) := zpow_le_zpow_right₀ (by norm_num) (by omega)
      _ ≤ 2 ^ (1023 : Int) := by rw [zpow_zero]; exact one_le_zpow₀ one_le_two (by decide)
      _ ≤ overflowBound := le_overflowBound
  · have hnum : 0 < d.quotient.1 := by
      rw [quotient_eq]
      positivity
    rw [Abacus.nearestBits_eq_infinityBits_iff hnum d.quotient_den_pos, quotient_div]

theorem nearestBits_lt_infinityBits_iff (d : Decimal) : d.nearestBits < infinityBits ↔ d.value < overflowBound := by
  rw [d.nearestBits_le.lt_iff_ne, Ne, d.nearestBits_eq_infinityBits_iff, not_le]

end Decimal

/-! ## Whole numbers -/

theorem isInf_ofInt_iff (n : Int) : (ofInt n).isInf = true ↔ overflowBound ≤ |(n : ℚ)| := by
  rw [isInf_iff, ofInt, magnitudeBits_ofMagnitude (nearestBits_le_infinityBits _ _)]
  rcases Nat.eq_zero_or_pos n.natAbs with hzero | hpos
  · rw [hzero, Int.natAbs_eq_zero.1 hzero, Int.cast_zero, abs_zero]
    exact iff_of_false (by decide) (not_le.2 (lt_of_lt_of_le (by positivity) le_overflowBound))
  · rw [nearestBits_eq_infinityBits_iff hpos Nat.one_pos, Nat.cast_one, div_one, Nat.cast_natAbs, Int.cast_abs]

end Abacus
