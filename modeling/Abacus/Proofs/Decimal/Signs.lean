import Abacus.Proofs.Decimal.ReadBack
/-!
# Signs of doubles

The sign is a bit of its own: a double is its magnitude, or the negation of it (`neg_unsigned`).  The text of a
number in a formula has a sign in front just if the number is below zero, and the text of its magnitude after it
(`numberText_eq_signed`); so the zero that has a sign loses it there.
-/
namespace Abacus

open Float.Model (Format UnpackedFloat)
open Float.Model.UnpackedFloat (unpackSign unpackExponent unpackMantissa pack_unpack_of_valid Sign.ofBitVec unpack)

def unsigned (x : Float) : Float := ofMagnitude false (magnitudeBits x)

/-- Whether a double is below zero, which the zero with a sign is not. -/
def isBelowZero (x : Float) : Bool := isNegative x && magnitudeBits x != 0

/-- Whether a double is the zero with a sign. -/
def isSignedZero (x : Float) : Bool := isNegative x && magnitudeBits x == 0

/-! ## Negation -/

theorem unpackSign_eq (b : BitVec Format.binary64.numBits) : unpackSign b = if signBit ≤ b.toNat then 1#1 else 0#1 := by
  have hlt : b.toNat < 2 ^ 64 := b.isLt
  have hbit : (unpackSign b).toNat = b.toNat / signBit % 2 := by
    simp only [unpackSign, BitVec.toNat_cast, BitVec.extractLsb_toNat, Nat.shiftRight_eq_div_pow, Format.binary64,
      signBit]
  apply BitVec.eq_of_toNat_eq
  rw [hbit]
  by_cases h : signBit ≤ b.toNat
  · rw [if_pos h, BitVec.toNat_one (by decide)]
    simp only [signBit] at *
    omega
  · rw [if_neg h, BitVec.toNat_zero]
    simp only [signBit] at *
    omega

theorem unpack_of_sign {b b' : BitVec Format.binary64.numBits} (hmagnitude : b'.toNat % signBit = b.toNat % signBit)
    (hsign : signBit ≤ b'.toNat ↔ ¬ signBit ≤ b.toNat) : unpack .binary64 b' = (unpack .binary64 b).neg := by
  have hfields := toNat_mod_signBit b
  have hfields' := toNat_mod_signBit b'
  have hlt : (unpackMantissa b).toNat < leadingBit := BitVec.isLt _
  have hlt' : (unpackMantissa b').toNat < leadingBit := BitVec.isLt _
  simp only [leadingBit] at hfields hfields' hlt hlt'
  have hm : unpackMantissa b' = unpackMantissa b := BitVec.eq_of_toNat_eq (by omega)
  have he : unpackExponent b' = unpackExponent b := BitVec.eq_of_toNat_eq (by omega)
  have hs : Sign.ofBitVec (unpackSign b') = -Sign.ofBitVec (unpackSign b) := by
    rw [unpackSign_eq, unpackSign_eq]
    by_cases h : signBit ≤ b.toNat
    · rw [if_pos h, if_neg fun h' => hsign.1 h' h]
      rfl
    · rw [if_neg h, if_pos (hsign.2 h)]
      rfl
  simp only [unpack, hm, he, hs]
  split
  · split <;> rfl
  split
  · split <;> rfl
  · rfl

theorem neg_eq_of_bits {x y : Float} (hmagnitude : magnitudeBits y = magnitudeBits x)
    (hsign : isNegative y = !isNegative x) : -x = y := by
  have hiff : signBit ≤ y.toBits.toNat ↔ ¬ signBit ≤ x.toBits.toNat := by
    rwa [isNegative, isNegative, ← decide_not, decide_eq_decide] at hsign
  have hunpack : y.toModel.unpack = x.toModel.unpack.neg := unpack_of_sign hmagnitude hiff
  have hpack : Float.Model.pack y.toModel.unpack = y.toModel := by
    obtain ⟨bits, hvalid⟩ := y.toModel
    simp only [Float.Model.pack, Float.Model.unpack, pack_unpack_of_valid hvalid]
  show Float.ofModel (Float.Model.pack x.toModel.unpack.neg) = y
  rw [← hunpack, hpack]

/-! ## Zero and above -/

theorem unpack_zero : (0 : Float).toModel.unpack = .zero .positive := by
  have hzero : (0 : Float) = Float.ofBits 0 := by decide +kernel
  rw [hzero]
  rfl

theorem zero_le_of_magnitudeBits_le {x : Float} (hsign : isNegative x = false) (hle : magnitudeBits x ≤ infinityBits) :
    0 ≤ x ∧ x.isNaN = false := by
  let b : BitVec Format.binary64.numBits := x.toBits.toBitVec
  have hpositive : Sign.ofBitVec (unpackSign b) = .positive := by
    have hlt : ¬ signBit ≤ b.toNat := of_decide_eq_false hsign
    rw [unpackSign_eq, if_neg hlt]
    rfl
  -- the patterns above that of infinity are those of not-a-number
  have hmantissa : unpackExponent b = -1#11 → unpackMantissa b = 0#52 := by
    intro hexponent
    have hbits := toNat_mod_signBit b
    have hmagnitude : b.toNat % signBit = magnitudeBits x := rfl
    rw [hmagnitude, hexponent, show (-1#11 : BitVec 11).toNat = 2047 from rfl] at hbits
    rw [infinityBits] at hle
    exact BitVec.eq_of_toNat_eq (by rw [BitVec.toNat_zero]; omega)
  have hunpacked :
      (UnpackedFloat.zero .positive).le (unpack .binary64 b) = true ∧ (unpack .binary64 b).isNaN = false := by
    simp only [unpack, hpositive]
    split
    · rename_i hexponent
      rw [if_pos (hmantissa hexponent)]
      exact ⟨rfl, rfl⟩
    split
    · split <;> exact ⟨rfl, rfl⟩
    · exact ⟨rfl, rfl⟩
  refine ⟨?_, hunpacked.2⟩
  show decide ((0 : Float).toModel.unpack.le (unpack .binary64 b) = true) = true
  rw [unpack_zero]
  exact decide_eq_true hunpacked.1

/-! ## Magnitudes of finite doubles -/

variable {x : Float}

theorem magnitudeBits_lt_of_isFinite (h : x.isFinite = true) : magnitudeBits x < infinityBits := by
  obtain ⟨negative, m, e, hx⟩ := exact_of_isFinite h
  obtain ⟨-, hfinite, hbits⟩ := exact_eq_finite hx
  exact hbits ▸ hfinite.encoded_lt

theorem isUnsigned_unsigned (h : x.isFinite = true) : isUnsigned (unsigned x) = true :=
  isUnsigned_ofMagnitude (magnitudeBits_lt_of_isFinite h)

theorem unsigned_of_not_isNegative (h : isNegative x = false) : unsigned x = x := by
  rw [unsigned, ← h, ofMagnitude_magnitudeBits]

theorem neg_unsigned (hfinite : x.isFinite = true) (h : isNegative x = true) : -unsigned x = x := by
  have hle := Nat.le_of_lt (magnitudeBits_lt_of_isFinite hfinite)
  refine neg_eq_of_bits (magnitudeBits_ofMagnitude hle false).symm ?_
  rw [h, unsigned, isNegative_ofMagnitude hle]
  rfl

theorem exact_unsigned {negative : Bool} {m : Nat} {e : Int} (h : exact x = .finite negative m e) :
    exact (unsigned x) = .finite false m e := by
  obtain ⟨-, hfinite, hbits⟩ := exact_eq_finite h
  have hle : magnitudeBits x ≤ infinityBits := hbits ▸ Nat.le_of_lt hfinite.encoded_lt
  rw [exact] at h ⊢
  rw [unsigned, magnitudeBits_ofMagnitude hle, isNegative_ofMagnitude hle]
  split at h
  · split at h <;> cases h
  rename_i hfield
  rw [if_neg hfield]
  split at h
  · rename_i hzero
    cases h
    rw [if_pos hzero]
  · rename_i hzero
    cases h
    rw [if_neg hzero]

/-! ## Texts of numbers -/

theorem encoded_eq_zero_iff {m : Nat} {e : Int} (h : IsFinite64 m e) : encoded m e = 0 ↔ m = 0 := by
  constructor
  · intro hzero
    simp only [encoded] at hzero
    omega
  · rintro rfl
    exact encoded_zero h

theorem isWhole_unsigned (h : x.isFinite = true) : isWhole (unsigned x) = isWhole x := by
  obtain ⟨negative, m, e, hx⟩ := exact_of_isFinite h
  rw [isWhole, isWhole, hx, exact_unsigned hx]

theorem wholePart_pos {m : Nat} {e : Int} (hx : exact x = .finite false m e) (h : isWhole x = true) (hm : m ≠ 0) :
    0 < wholePart m e := by
  have hvalue := wholePart_value hx h
  have hpos : (0 : ℚ) < m * 2 ^ e := mul_pos (by exact_mod_cast Nat.pos_of_ne_zero hm) (zpow_pos (by norm_num) e)
  refine Nat.pos_of_ne_zero fun hzero => ?_
  rw [hzero, Decimal.value] at hvalue
  simp [← hvalue] at hpos

theorem intText_neg {n : Nat} (h : 0 < n) : intText (-(n : Int)) = '-' :: natText n := by
  rw [intText, if_pos (by omega), Int.natAbs_neg, Int.natAbs_natCast]

/-- **The text of a finite number is that of its magnitude, with a sign in front if the number is below zero.** -/
theorem numberText_eq_signed (h : x.isFinite = true) :
    numberText x = signed (isBelowZero x) (numberText (unsigned x)) := by
  obtain ⟨negative, m, e, hx⟩ := exact_of_isFinite h
  obtain ⟨hnegative, hfinite, hbits⟩ := exact_eq_finite hx
  have hunsigned := exact_unsigned hx
  have hwhole := isWhole_unsigned h
  cases hn : isNegative x with
  | false => rw [unsigned_of_not_isNegative hn, isBelowZero, hn, Bool.false_and, signed, if_neg Bool.false_ne_true]
  | true =>
    rw [hn] at hnegative
    subst hnegative
    rw [numberText_of_finite hunsigned, hwhole, numberText, truncated?, hx, isBelowZero, hn, Bool.true_and, hbits]
    simp only [if_true, Int.natAbs_neg, Int.natAbs_natCast]
    by_cases hm : m = 0
    · subst hm
      have hzero : wholePart 0 e = 0 := by simp [wholePart]
      have htrue : isWhole x = true := by simp [isWhole, hx]
      rw [htrue, hzero, encoded_zero hfinite]
      rfl
    · have hpos : (encoded m e != 0) = true := bne_iff_ne.2 fun hzero => hm ((encoded_eq_zero_iff hfinite).1 hzero)
      rw [hpos, signed, if_pos rfl]
      split
      · rename_i hshort
        rw [Bool.and_eq_true, ← hwhole] at hshort
        exact intText_neg (wholePart_pos hunsigned hshort.1 hm)
      · have hsame : magnitudeBits (unsigned x) = magnitudeBits x :=
          magnitudeBits_ofMagnitude (Nat.le_of_lt (magnitudeBits_lt_of_isFinite h)) false
        rw [doubleText_of_finite hunsigned, if_neg hm, hsame, doubleText, hx]
        simp only [if_neg hm]
        rfl

end Abacus
