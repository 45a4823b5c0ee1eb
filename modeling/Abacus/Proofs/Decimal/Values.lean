import Abacus.Proofs.Decimal.Signs
/-!
# The numbers that doubles are

A finite double is a rational number, and both zeros are the same one.  Comparing a double with zero compares that
number (`lt_zero_iff`, `beq_zero_iff`), and whether it is whole or odd is read off its mantissa and exponent
exactly, however large it is (`isWhole_iff`, `isOddWhole_iff`).
-/
namespace Abacus

open Float.Model (Format UnpackedFloat)
open Float.Model.UnpackedFloat (unpackSign unpackExponent unpackMantissa Sign.ofBitVec unpack)

/-- The number that a finite double is. -/
def rational? (x : Float) : Option ℚ :=
  match exact x with
  | .finite negative m e => some (if negative then -(m * 2 ^ e) else m * 2 ^ e)
  | _                    => none

variable {x : Float} {m : Nat} {e : Int}

/-! ## The sign of a double -/

theorem ofBitVec_unpackSign (x : Float) :
    Sign.ofBitVec (unpackSign (bitsOf x)) = if isNegative x then .negative else .positive := by
  rw [unpackSign_eq]
  by_cases h : signBit ≤ (bitsOf x).toNat
  · have hnegative : isNegative x = true := decide_eq_true h
    rw [if_pos h, hnegative]
    rfl
  · have hpositive : isNegative x = false := decide_eq_false h
    rw [if_neg h, hpositive]
    rfl

/-! ## Comparing with zero -/

def Exact.compareZero : Exact → Option Ordering
  | .finite negative m _ => some (if m = 0 then .eq else if negative then .lt else .gt)
  | .infinite negative   => some (if negative then .lt else .gt)
  | .nan                 => none

theorem compare_zero (x : Float) : x.toModel.unpack.compare (0 : Float).toModel.unpack = (exact x).compareZero := by
  have hfirst : unpackExponent (bitsOf x) = 0#11 ↔ magnitudeBits x / leadingBit = 0 := by
    rw [← toNat_unpackExponent, ← BitVec.toNat_inj]
    rfl
  rw [unpack_zero]
  change (unpack .binary64 (bitsOf x)).compare (.zero .positive) = _
  simp only [unpack, exact, ofBitVec_unpackSign]
  by_cases h2047 : magnitudeBits x / leadingBit = 2047
  · rw [if_pos ((unpackExponent_eq_last_iff x).2 h2047), if_pos h2047]
    by_cases hzero : magnitudeBits x % leadingBit = 0
    · rw [if_pos ((unpackMantissa_eq_zero_iff x).2 hzero), if_pos hzero]
      cases isNegative x <;> rfl
    · rw [if_neg (mt (unpackMantissa_eq_zero_iff x).1 hzero), if_neg hzero]
      rfl
  rw [if_neg (mt (unpackExponent_eq_last_iff x).1 h2047), if_neg h2047]
  by_cases h0 : magnitudeBits x / leadingBit = 0
  · rw [if_pos (hfirst.2 h0), if_pos h0]
    by_cases hzero : magnitudeBits x % leadingBit = 0
    · rw [dif_pos ((unpackMantissa_eq_zero_iff x).2 hzero), hzero]
      cases isNegative x <;> rfl
    · rw [dif_neg (mt (unpackMantissa_eq_zero_iff x).1 hzero), Exact.compareZero, if_neg hzero]
      cases isNegative x <;> rfl
  · have hpos : leadingBit + magnitudeBits x % leadingBit ≠ 0 := by
      rw [leadingBit]
      omega
    rw [if_neg (mt hfirst.1 h0), if_neg h0, Exact.compareZero, if_neg hpos]
    cases isNegative x <;> rfl

theorem exact_of_rational? {q : ℚ} (h : rational? x = some q) :
    ∃ negative m e, exact x = .finite negative m e ∧ q = if negative then -((m : ℚ) * 2 ^ e) else m * 2 ^ e := by
  rw [rational?] at h
  split at h
  · rename_i negative m e heq
    exact ⟨negative, m, e, heq, (Option.some.inj h).symm⟩
  · cases h

theorem rational?_of_finite {negative : Bool} (h : exact x = .finite negative m e) :
    rational? x = some (if negative then -((m : ℚ) * 2 ^ e) else m * 2 ^ e) := by
  rw [rational?, h]

theorem isFinite_iff : x.isFinite = true ↔ ∃ q, rational? x = some q := by
  constructor
  · intro h
    obtain ⟨negative, m, e, hx⟩ := exact_of_isFinite h
    exact ⟨_, rational?_of_finite hx⟩
  · rintro ⟨q, hq⟩
    obtain ⟨negative, m, e, hx, -⟩ := exact_of_rational? hq
    have hfield : magnitudeBits x / leadingBit ≠ 2047 := by
      intro hfield
      rw [exact] at hx
      simp only [hfield, if_true] at hx
      split at hx <;> cases hx
    have hexponent : unpackExponent (bitsOf x) ≠ -1#11 := mt (unpackExponent_eq_last_iff x).1 hfield
    change (unpack .binary64 (bitsOf x)).isFinite = true
    simp only [unpack]
    rw [if_neg hexponent]
    split
    · split <;> rfl
    · rfl

/-! ## The infinities -/

theorem magnitudeBits_eq_infinityBits_iff (x : Float) : magnitudeBits x = infinityBits ↔
    magnitudeBits x / leadingBit = 2047 ∧ magnitudeBits x % leadingBit = 0 := by
  simp only [infinityBits, leadingBit]
  omega

theorem isInf_iff (x : Float) : x.isInf = true ↔ magnitudeBits x = infinityBits := by
  rw [magnitudeBits_eq_infinityBits_iff, ← unpackExponent_eq_last_iff, ← unpackMantissa_eq_zero_iff]
  change (unpack .binary64 (bitsOf x)).isInf = true ↔ _
  simp only [unpack]
  split
  · rename_i hexponent
    split
    · rename_i hmantissa
      exact iff_of_true rfl ⟨hexponent, hmantissa⟩
    · rename_i hmantissa
      exact iff_of_false Bool.false_ne_true fun h => hmantissa h.2
  · rename_i hexponent
    refine iff_of_false ?_ fun h => hexponent h.1
    split
    · split <;> exact Bool.false_ne_true
    · exact Bool.false_ne_true

theorem isInf_iff_exact (x : Float) : x.isInf = true ↔ ∃ negative, exact x = .infinite negative := by
  rw [isInf_iff, magnitudeBits_eq_infinityBits_iff, exact]
  split
  · rename_i hfield
    split
    · rename_i hfraction
      exact iff_of_true ⟨hfield, hfraction⟩ ⟨_, rfl⟩
    · rename_i hfraction
      exact iff_of_false (fun h => hfraction h.2) (by simp)
  · rename_i hfield
    refine iff_of_false (fun h => hfield h.1) ?_
    split <;> simp

/-! ## Less than zero and zero -/

def IsLess (x : Float) : Prop := (∃ q, rational? x = some q ∧ q < 0) ∨ exact x = .infinite true

/-- **A double is less than zero exactly if its number is**, or if it is the infinity below all numbers. -/
theorem lt_zero_iff : x < 0 ↔ IsLess x := by
  have hcompare : x < 0 ↔ (x.toModel.unpack.compare (0 : Float).toModel.unpack == some .lt) = true := by
    change decide (x.toModel < (0 : Float).toModel) = true ↔ _
    rw [decide_eq_true_iff]
    rfl
  rw [hcompare, compare_zero, IsLess]
  cases hx : exact x with
  | nan => simp [Exact.compareZero, rational?, hx]
  | infinite negative => cases negative <;> simp [Exact.compareZero, rational?, hx]
  | finite negative m e =>
    have hpow : (0 : ℚ) < 2 ^ e := zpow_pos two_pos e
    by_cases hm : m = 0
    · subst hm
      simp [Exact.compareZero, rational?, hx]
    · have hpos : (0 : ℚ) < m * 2 ^ e := mul_pos (by exact_mod_cast Nat.pos_of_ne_zero hm) hpow
      cases negative
      · simpa [Exact.compareZero, rational?, hx, hm] using hpos.le
      · simpa [Exact.compareZero, rational?, hx, hm] using hpos

theorem beq_zero_iff : (x == 0) = true ↔ rational? x = some 0 := by
  have hcompare : (x == 0) = (x.toModel.unpack.compare (0 : Float).toModel.unpack == some .eq) := rfl
  rw [hcompare, compare_zero]
  cases hx : exact x with
  | nan => simp [Exact.compareZero, rational?, hx]
  | infinite negative => cases negative <;> simp [Exact.compareZero, rational?, hx]
  | finite negative m e =>
    have hpow : (2 : ℚ) ^ e ≠ 0 := zpow_ne_zero e two_ne_zero
    by_cases hm : m = 0 <;> cases negative <;> simp [Exact.compareZero, rational?, hx, hm, hpow]

/-! ## Whole numbers -/

theorem exists_natCast_iff (m : Nat) (e : Int) :
    (decide (0 ≤ e) || m % Nat.pow 2 (-e).toNat == 0) = true ↔ ∃ n : Nat, (m : ℚ) * 2 ^ e = n := by
  rw [Bool.or_eq_true, decide_eq_true_eq, beq_iff_eq, Nat.pow_eq]
  rcases Int.le_total 0 e with hpos | hneg
  · obtain ⟨n, rfl⟩ := Int.eq_ofNat_of_zero_le hpos
    exact iff_of_true (.inl hpos) ⟨m * 2 ^ n, by push_cast; rfl⟩
  · obtain ⟨n, rfl⟩ : ∃ n : Nat, e = -(n : Int) := ⟨(-e).toNat, by omega⟩
    have hpow : (2 : ℚ) ^ n ≠ 0 := pow_ne_zero n two_ne_zero
    rw [neg_neg, Int.toNat_natCast, zpow_neg, zpow_natCast, ← Nat.dvd_iff_mod_eq_zero]
    constructor
    · rintro (hle | ⟨k, rfl⟩)
      · obtain rfl : n = 0 := by omega
        exact ⟨m, by simp⟩
      · exact ⟨k, by push_cast; field_simp⟩
    · rintro ⟨k, hk⟩
      refine .inr ⟨k, ?_⟩
      field_simp at hk
      exact_mod_cast hk

theorem wholePart_eq {n : Nat} (h : (m : ℚ) * 2 ^ e = n) : wholePart m e = n := by
  rw [wholePart]
  split
  · rename_i hpos
    obtain ⟨k, rfl⟩ := Int.eq_ofNat_of_zero_le hpos
    rw [zpow_natCast] at h
    exact_mod_cast h
  · obtain ⟨k, rfl⟩ : ∃ k : Nat, e = -(k : Int) := ⟨(-e).toNat, by omega⟩
    have hpow : (2 : ℚ) ^ k ≠ 0 := pow_ne_zero k two_ne_zero
    rw [zpow_neg, zpow_natCast] at h
    field_simp at h
    have hmul : m = 2 ^ k * n := by exact_mod_cast h
    rw [neg_neg, Int.toNat_natCast, Nat.pow_eq, hmul]
    exact Nat.mul_div_cancel_left n (Nat.two_pow_pos k)

theorem exists_intCast_iff {v : ℚ} (hv : 0 ≤ v) (negative : Bool) :
    (∃ n : Int, (if negative then -v else v) = n) ↔ ∃ n : Nat, v = n := by
  constructor
  · rintro ⟨n, hn⟩
    refine ⟨n.natAbs, ?_⟩
    rw [Nat.cast_natAbs, Int.cast_abs, ← hn]
    cases negative <;> simp [abs_of_nonneg hv]
  · rintro ⟨n, rfl⟩
    cases negative
    · exact ⟨n, by simp⟩
    · exact ⟨-n, by simp⟩

/-- **A double is whole exactly if its number is an integer.** -/
theorem isWhole_iff : isWhole x = true ↔ ∃ n : Int, rational? x = some (n : ℚ) := by
  rw [isWhole]
  cases hx : exact x with
  | finite negative m e =>
    simp only [rational?_of_finite hx, Option.some.injEq]
    rw [exists_natCast_iff, exists_intCast_iff (by positivity)]
  | _ => simp [rational?, hx]

theorem truncated?_eq {n : Int} (h : rational? x = some (n : ℚ)) : truncated? x = some n := by
  obtain ⟨negative, m, e, hx, hn⟩ := exact_of_rational? h
  have hnonneg : (0 : ℚ) ≤ m * 2 ^ e := by positivity
  obtain ⟨k, hk⟩ := (exists_intCast_iff hnonneg negative).1 ⟨n, hn.symm⟩
  rw [truncated?, hx]
  dsimp only
  rw [wholePart_eq hk]
  rw [hk] at hn
  cases negative <;> exact congrArg some (by exact_mod_cast hn.symm)

def IsOdd (x : Float) : Prop := ∃ k : Int, rational? x = some (2 * (k : ℚ) + 1)

/-- **A double counts as odd exactly if its number is an odd integer**, negative or large as it may be. -/
theorem isOddWhole_iff : isOddWhole x = true ↔ IsOdd x := by
  rw [isOddWhole, Bool.and_eq_true, isWhole_iff]
  constructor
  · rintro ⟨⟨n, hn⟩, hodd⟩
    rw [truncated?_eq hn] at hodd
    simp only [beq_iff_eq] at hodd
    refine ⟨n / 2, ?_⟩
    have hsplit : n = 2 * (n / 2) + 1 := by omega
    rw [hn]
    exact congrArg some (by exact_mod_cast hsplit)
  · rintro ⟨k, hk⟩
    have hcast : rational? x = some ((2 * k + 1 : Int) : ℚ) := by
      rw [hk]
      push_cast
      rfl
    refine ⟨⟨_, hcast⟩, ?_⟩
    rw [truncated?_eq hcast]
    simp only [beq_iff_eq]
    omega

end Abacus
