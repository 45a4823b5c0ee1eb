import Abacus.Decimal.Rounding
import Abacus.Proofs.Decimal.Binary64
/-!
# What a quotient rounds to

Rounding looks at the numerator and the denominator, yet only at their quotient: the leading bit is its logarithm
(`leadingExponent_eq_log`), and a common factor moves no tie (`roundQuotient_mul_left`).  So equal quotients
round alike (`nearestBits_congr`), and a quotient that is a finite double already is rounded to itself
(`nearestBits_eq_encoded`).
-/
namespace Abacus

/-! ## Powers with negative exponents -/

theorem zpow_eq_toNat_div (b : ℚ) (e : Int) : b ^ e = b ^ e.toNat / b ^ (-e).toNat := by
  rcases Int.le_total 0 e with h | h
  · obtain ⟨n, rfl⟩ := Int.eq_ofNat_of_zero_le h
    rw [show (-(n : Int)).toNat = 0 by omega, pow_zero, div_one, Int.toNat_natCast, zpow_natCast]
  · obtain ⟨n, hn⟩ := Int.eq_ofNat_of_zero_le (Int.neg_nonneg_of_nonpos h)
    obtain rfl : e = -(n : Int) := by omega
    rw [show (-(n : Int)).toNat = 0 by omega, pow_zero, neg_neg, Int.toNat_natCast, zpow_neg, zpow_natCast,
      one_div]

theorem log_eq {b : Nat} (hb : 1 < b) {q : ℚ} {z : Int} (lower : (b : ℚ) ^ z ≤ q) (upper : q < (b : ℚ) ^ (z + 1)) :
    Int.log b q = z := by
  have hpos : 0 < q := lt_of_lt_of_le (zpow_pos (by exact_mod_cast (by omega : 0 < b)) z) lower
  have hle := (Int.zpow_le_iff_le_log hb hpos).1 lower
  have hlt := (Int.lt_zpow_iff_log_lt hb hpos).1 upper
  omega

/-! ## The leading bit -/

theorem reachesPower_iff {num den : Nat} (hd : 0 < den) (e : Int) :
    reachesPower num den e = true ↔ (2 : ℚ) ^ e ≤ num / den := by
  have hcross : reachesPower num den e = true ↔ den * 2 ^ e.toNat ≤ num * 2 ^ (-e).toNat := by
    rw [reachesPower]
    split
    · rw [show (-e).toNat = 0 by omega]
      simp
    · rw [show e.toNat = 0 by omega]
      simp
  have hden : (0 : ℚ) < den := by exact_mod_cast hd
  rw [hcross, zpow_eq_toNat_div, div_le_div_iff₀ (by positivity) hden, mul_comm]
  exact_mod_cast Iff.rfl

theorem log2_bounds {num den : Nat} (hn : 0 < num) (hd : 0 < den) :
    (2 : ℚ) ^ ((num.log2 : Int) - den.log2 - 1) ≤ num / den ∧
      (num : ℚ) / den < 2 ^ ((num.log2 : Int) - den.log2 + 1) := by
  have hden : (0 : ℚ) < den := by exact_mod_cast hd
  have hnlow : (2 : ℚ) ^ (num.log2 : Int) ≤ num := by exact_mod_cast Nat.log2_self_le (by omega)
  have hnhigh : (num : ℚ) < 2 ^ ((num.log2 : Int) + 1) := by exact_mod_cast Nat.lt_log2_self
  have hdlow : (2 : ℚ) ^ (den.log2 : Int) ≤ den := by exact_mod_cast Nat.log2_self_le (by omega)
  have hdhigh : (den : ℚ) < 2 ^ ((den.log2 : Int) + 1) := by exact_mod_cast Nat.lt_log2_self
  constructor
  · rw [le_div_iff₀ hden]
    calc (2 : ℚ) ^ ((num.log2 : Int) - den.log2 - 1) * den
        ≤ 2 ^ ((num.log2 : Int) - den.log2 - 1) * 2 ^ ((den.log2 : Int) + 1) := by gcongr
      _ = 2 ^ (num.log2 : Int) := by rw [← zpow_add₀ two_ne_zero]; congr 1; omega
      _ ≤ num := hnlow
  · rw [div_lt_iff₀ hden]
    calc (num : ℚ) < 2 ^ ((num.log2 : Int) + 1) := hnhigh
      _ = 2 ^ ((num.log2 : Int) - den.log2 + 1) * 2 ^ (den.log2 : Int) := by
        rw [← zpow_add₀ two_ne_zero]; congr 1; omega
      _ ≤ 2 ^ ((num.log2 : Int) - den.log2 + 1) * den := by gcongr

theorem leadingExponent_eq_log {num den : Nat} (hn : 0 < num) (hd : 0 < den) :
    leadingExponent num den = Int.log 2 ((num : ℚ) / den) := by
  -- the guess is the logarithm or one more, and the comparison says which
  obtain ⟨hlow, hhigh⟩ := log2_bounds hn hd
  rw [leadingExponent]
  split
  · rename_i h
    exact (log_eq (by decide) ((reachesPower_iff hd _).1 h) hhigh).symm
  · rename_i h
    refine (log_eq (by decide) hlow ?_).symm
    rw [Int.sub_add_cancel]
    exact not_le.1 (mt (reachesPower_iff hd _).2 h)

/-! ## The nearest integer -/

theorem roundQuotient_mul_left {k : Nat} (hk : 0 < k) (num den : Nat) :
    roundQuotient (k * num) (k * den) = roundQuotient num den := by
  have hcancel (a b : Nat) : k * a < k * b ↔ a < b := Nat.mul_lt_mul_left hk
  simp only [roundQuotient, Nat.mul_div_mul_left _ _ hk, Nat.mul_mod_mul_left, Nat.mul_left_comm 2 k, hcancel]

theorem roundQuotient_one (n : Nat) : roundQuotient n 1 = n := by
  simp [roundQuotient, Nat.mod_one]

theorem roundQuotient_congr {a b c d : Nat} (hb : 0 < b) (hd : 0 < d) (h : (a : ℚ) / b = c / d) :
    roundQuotient a b = roundQuotient c d := by
  have hcross : a * d = c * b := by
    rw [div_eq_div_iff (by exact_mod_cast hb.ne') (by exact_mod_cast hd.ne')] at h
    exact_mod_cast h
  calc roundQuotient a b = roundQuotient (d * a) (d * b) := (roundQuotient_mul_left hd a b).symm
    _ = roundQuotient (b * c) (b * d) := by rw [Nat.mul_comm d a, hcross, Nat.mul_comm c b, Nat.mul_comm d b]
    _ = roundQuotient c d := roundQuotient_mul_left hb c d

theorem roundedUnits_eq (num den : Nat) (e : Int) :
    roundedUnits num den e = roundQuotient (num * 2 ^ (-e).toNat) (den * 2 ^ e.toNat) := by
  rw [roundedUnits]
  split
  · rw [show (-e).toNat = 0 by omega]
    simp
  · rw [show e.toNat = 0 by omega]
    simp

theorem units_eq_div_zpow (num den : Nat) (e : Int) :
    ((num * 2 ^ (-e).toNat : Nat) : ℚ) / (den * 2 ^ e.toNat : Nat) = num / den / 2 ^ e := by
  rw [zpow_eq_toNat_div]
  push_cast
  field_simp

theorem roundedUnits_congr {num den num' den' : Nat} (hd : 0 < den) (hd' : 0 < den')
    (h : (num : ℚ) / den = num' / den') (e : Int) : roundedUnits num den e = roundedUnits num' den' e := by
  rw [roundedUnits_eq, roundedUnits_eq]
  apply roundQuotient_congr (by positivity) (by positivity)
  rw [units_eq_div_zpow, units_eq_div_zpow, h]

theorem roundedUnits_of_exact {num den m : Nat} {e : Int} (hd : 0 < den) (h : (num : ℚ) / den = m * 2 ^ e) :
    roundedUnits num den e = m := by
  rw [roundedUnits_eq, ← roundQuotient_one m]
  apply roundQuotient_congr (by positivity) one_pos
  rw [units_eq_div_zpow, h, Nat.cast_one, div_one]
  exact mul_div_cancel_right₀ _ (by positivity)

/-! ## The nearest double -/

theorem nearestBits_congr {num den num' den' : Nat} (hd : 0 < den) (hd' : 0 < den')
    (h : (num : ℚ) / den = num' / den') : nearestBits num den = nearestBits num' den' := by
  have hzero : num = 0 ↔ num' = 0 := by
    rw [div_eq_div_iff (by exact_mod_cast hd.ne') (by exact_mod_cast hd'.ne')] at h
    have hcross : num * den' = num' * den := by exact_mod_cast h
    constructor <;> rintro rfl <;> simpa [hd.ne', hd'.ne'] using hcross
  rcases Nat.eq_zero_or_pos num with hn | hn
  · rw [nearestBits, nearestBits, if_pos hn, if_pos (hzero.1 hn)]
  · have hn' : 0 < num' := Nat.pos_of_ne_zero fun h => hn.ne' (hzero.2 h)
    have hunit : unitExponent num den = unitExponent num' den' := by
      rw [unitExponent, unitExponent, leadingExponent_eq_log hn hd, leadingExponent_eq_log hn' hd', h]
    simp only [nearestBits, hn.ne', hn'.ne', if_false, hunit, roundedUnits_congr hd hd' h]

theorem unitExponent_of_finite {num den m : Nat} {e : Int} (hm : 0 < m) (hn : 0 < num) (hd : 0 < den)
    (h : (num : ℚ) / den = m * 2 ^ e) (hf : IsFinite64 m e) : unitExponent num den = e := by
  have hpos : (0 : ℚ) < m * 2 ^ e := by positivity
  have hlt : Int.log 2 ((m : ℚ) * 2 ^ e) < e + 53 := by
    rw [← Int.lt_zpow_iff_log_lt (by decide) hpos, add_comm, Nat.cast_ofNat, zpow_add₀ two_ne_zero]
    have hbound : (m : ℚ) < 2 ^ (53 : Int) := by exact_mod_cast hf.lt
    gcongr
  have hge : leadingBit ≤ m → e + 52 ≤ Int.log 2 ((m : ℚ) * 2 ^ e) := by
    intro hlead
    rw [← Int.zpow_le_iff_le_log (by decide) hpos, add_comm, Nat.cast_ofNat, zpow_add₀ two_ne_zero]
    have hbound : (2 : ℚ) ^ (52 : Int) ≤ m := by exact_mod_cast hlead
    gcongr
  have hleast := hf.least
  rw [unitExponent, leadingExponent_eq_log hn hd, h]
  -- a subnormal has no leading bit, but its unit is the least one in any case
  rcases hf.normal with hlead | rfl
  · have := hge hlead
    omega
  · omega

theorem nearestBits_le_infinityBits (num den : Nat) : nearestBits num den ≤ infinityBits := by
  rw [nearestBits]
  split
  · exact Nat.zero_le _
  · exact Nat.min_le_left _ _

/-- **A finite double rounds to itself.** -/
theorem nearestBits_eq_encoded {num den m : Nat} {e : Int} (hd : 0 < den) (h : (num : ℚ) / den = m * 2 ^ e)
    (hf : IsFinite64 m e) (hm : 0 < m) : nearestBits num den = encoded m e := by
  have hn : 0 < num := by
    rcases Nat.eq_zero_or_pos num with rfl | hn
    · have hpos : (0 : ℚ) < m * 2 ^ e := by positivity
      rw [← h, Nat.cast_zero, zero_div] at hpos
      exact absurd hpos (lt_irrefl 0)
    · exact hn
  simp only [nearestBits, hn.ne', if_false, unitExponent_of_finite hm hn hd h hf, roundedUnits_of_exact hd h]
  exact Nat.min_eq_right hf.encoded_lt.le

end Abacus
