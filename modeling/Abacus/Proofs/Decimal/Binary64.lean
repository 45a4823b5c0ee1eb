import Mathlib
import Abacus.Decimal.Binary64
/-!
# The bits of doubles

A double is its bits, and every pattern of bits is one's but for the many that would be not-a-number
(`valid_of_le_infinityBits`).  So a double is put back together from its sign and magnitude
(`ofMagnitude_magnitudeBits`), and has the ones it is made of (`magnitudeBits_ofMagnitude`).  A finite one is
`mantissa · 2 ^ exponent` in one way only, and `encoded` says which bits that is.
-/
namespace Abacus

open Float.Model (Format)
open Float.Model.UnpackedFloat (unpackExponent unpackMantissa pack_unpack_of_valid)

/-! ## Sign and magnitude -/

theorem toNat_mod_signBit (b : BitVec Format.binary64.numBits) :
    b.toNat % signBit = (unpackExponent b).toNat * leadingBit + (unpackMantissa b).toNat := by
  simp [unpackExponent, unpackMantissa, BitVec.extractLsb_toNat, Nat.shiftRight_eq_div_pow, signBit, leadingBit]
  omega

theorem valid_of_le_infinityBits {b : BitVec Format.binary64.numBits} (h : b.toNat % signBit ≤ infinityBits) :
    Format.binary64.Valid b := by
  refine ⟨fun hexp hman => absurd h ?_⟩
  have hpos : (unpackMantissa b).toNat ≠ 0 := fun h => hman (BitVec.eq_of_toNat_eq h)
  rw [toNat_mod_signBit, hexp, show (-1#11 : BitVec 11).toNat = 2047 from rfl, infinityBits]
  omega

theorem toBits_ofBits {a : UInt64} (h : Format.binary64.Valid a.toBitVec) : (Float.ofBits a).toBits = a :=
  UInt64.toBitVec_inj.1 (pack_unpack_of_valid h)

theorem ofMagnitude_magnitudeBits (x : Float) : ofMagnitude (isNegative x) (magnitudeBits x) = x := by
  have hlt := x.toBits.toNat_lt
  have hbits : UInt64.ofNat (if isNegative x then signBit + magnitudeBits x else magnitudeBits x) = x.toBits := by
    apply UInt64.toNat_inj.1
    rw [UInt64.toNat_ofNat']
    by_cases hs : signBit ≤ x.toBits.toNat
    · simp only [isNegative, magnitudeBits, hs, decide_true, if_true]
      simp only [signBit] at *
      omega
    · simp only [isNegative, magnitudeBits, hs, decide_false, Bool.false_eq_true, if_false]
      simp only [signBit] at *
      omega
  rw [ofMagnitude, hbits, Float.ofBits_toBits]

theorem toNat_toBits_ofMagnitude {n : Nat} (h : n ≤ infinityBits) (negative : Bool) :
    (ofMagnitude negative n).toBits.toNat = if negative then signBit + n else n := by
  have hlt : (if negative then signBit + n else n) < 2 ^ 64 := by
    simp only [infinityBits, leadingBit, signBit] at h ⊢
    split <;> omega
  have hnat : (UInt64.ofNat (if negative then signBit + n else n)).toNat = if negative then signBit + n else n := by
    rw [UInt64.toNat_ofNat', Nat.mod_eq_of_lt hlt]
  rw [ofMagnitude, toBits_ofBits, hnat]
  apply valid_of_le_infinityBits
  rw [UInt64.toNat_toBitVec, hnat]
  simp only [infinityBits, leadingBit, signBit] at h ⊢
  split <;> omega

theorem magnitudeBits_ofMagnitude {n : Nat} (h : n ≤ infinityBits) (negative : Bool) :
    magnitudeBits (ofMagnitude negative n) = n := by
  rw [magnitudeBits, toNat_toBits_ofMagnitude h]
  simp only [infinityBits, leadingBit, signBit] at h ⊢
  split <;> omega

theorem isNegative_ofMagnitude {n : Nat} (h : n ≤ infinityBits) (negative : Bool) :
    isNegative (ofMagnitude negative n) = negative := by
  rw [isNegative, toNat_toBits_ofMagnitude h]
  simp only [infinityBits, leadingBit, signBit] at h ⊢
  cases negative
  · simp; omega
  · simp

/-! ## Exponent and mantissa -/

def bitsOf (x : Float) : BitVec Format.binary64.numBits := x.toBits.toBitVec

theorem toNat_unpackExponent (x : Float) : (unpackExponent (bitsOf x)).toNat = magnitudeBits x / leadingBit := by
  have hmantissa : (unpackMantissa (bitsOf x)).toNat < leadingBit := BitVec.isLt _
  have hbits : magnitudeBits x = _ := toNat_mod_signBit (bitsOf x)
  rw [hbits, Nat.add_comm, Nat.add_mul_div_right _ _ (by decide), Nat.div_eq_of_lt hmantissa, Nat.zero_add]

theorem toNat_unpackMantissa (x : Float) : (unpackMantissa (bitsOf x)).toNat = magnitudeBits x % leadingBit := by
  have hmantissa : (unpackMantissa (bitsOf x)).toNat < leadingBit := BitVec.isLt _
  have hbits : magnitudeBits x = _ := toNat_mod_signBit (bitsOf x)
  rw [hbits, Nat.add_comm, Nat.add_mul_mod_self_right, Nat.mod_eq_of_lt hmantissa]

theorem unpackExponent_eq_last_iff (x : Float) :
    unpackExponent (bitsOf x) = -1#11 ↔ magnitudeBits x / leadingBit = 2047 := by
  rw [← toNat_unpackExponent, ← BitVec.toNat_inj]
  rfl

theorem unpackMantissa_eq_zero_iff (x : Float) :
    unpackMantissa (bitsOf x) = 0#52 ↔ magnitudeBits x % leadingBit = 0 := by
  rw [← toNat_unpackMantissa, ← BitVec.toNat_inj]
  rfl

/-! ## Finite doubles -/

/-- `mantissa · 2 ^ exponent` as a finite double has it: the exponent is as small as 53 bits allow, or least. -/
structure IsFinite64 (mantissa : Nat) (exponent : Int) : Prop where
  lt : mantissa < 2 * leadingBit
  least : -1074 ≤ exponent
  greatest : exponent ≤ 971
  normal : leadingBit ≤ mantissa ∨ exponent = -1074

def encoded (mantissa : Nat) (exponent : Int) : Nat := (exponent + 1074).toNat * leadingBit + mantissa

theorem IsFinite64.encoded_lt {m : Nat} {e : Int} (h : IsFinite64 m e) : encoded m e < infinityBits := by
  have hlt := h.lt
  have hle := h.greatest
  simp only [encoded, infinityBits, leadingBit] at *
  omega

theorem exact_eq_finite {x : Float} {negative : Bool} {m : Nat} {e : Int} (h : exact x = .finite negative m e) :
    negative = isNegative x ∧ IsFinite64 m e ∧ magnitudeBits x = encoded m e := by
  have hlt : magnitudeBits x < signBit := Nat.mod_lt _ (by decide)
  simp only [exact] at h
  split at h
  · split at h <;> cases h
  · rename_i hfield
    split at h
    · rename_i hzero
      cases h
      refine ⟨rfl, ⟨?_, by decide, by decide, .inr rfl⟩, ?_⟩
      · simp only [leadingBit]; omega
      · simp only [encoded, leadingBit] at *; omega
    · rename_i hzero
      cases h
      refine ⟨rfl, ⟨?_, ?_, ?_, .inl (Nat.le_add_right _ _)⟩, ?_⟩ <;>
        simp only [encoded, leadingBit, signBit] at * <;> omega

theorem field_ne_of_isFinite {x : Float} (h : x.isFinite = true) : magnitudeBits x / leadingBit ≠ 2047 := by
  intro hfield
  have hfinite : (Float.Model.UnpackedFloat.unpack Format.binary64 (bitsOf x)).isFinite = true := h
  simp only [Float.Model.UnpackedFloat.unpack, (unpackExponent_eq_last_iff x).2 hfield, if_true] at hfinite
  split at hfinite <;> cases hfinite

theorem exact_of_isFinite {x : Float} (h : x.isFinite = true) : ∃ negative m e, exact x = .finite negative m e := by
  have hfield := field_ne_of_isFinite h
  simp only [exact, hfield, if_false]
  split
  · exact ⟨_, _, _, rfl⟩
  · exact ⟨_, _, _, rfl⟩

/-! ## Doubles without a sign -/

/-- Whether a double is finite and has no sign, so that it is a literal's. -/
def isUnsigned (x : Float) : Bool :=
  match exact x with
  | .finite negative _ _ => !negative
  | _                    => false

theorem exact_of_isUnsigned {x : Float} (h : isUnsigned x = true) : ∃ m e, exact x = .finite false m e := by
  rw [isUnsigned] at h
  split at h
  · rename_i negative m e heq
    cases negative
    · exact ⟨m, e, heq⟩
    · cases h
  · cases h

theorem isUnsigned_ofMagnitude {n : Nat} (h : n < infinityBits) : isUnsigned (ofMagnitude false n) = true := by
  have hfield : n / leadingBit < 2047 := Nat.div_lt_of_lt_mul (by rwa [Nat.mul_comm])
  rw [isUnsigned, exact, magnitudeBits_ofMagnitude (Nat.le_of_lt h), isNegative_ofMagnitude (Nat.le_of_lt h)]
  simp only [Nat.ne_of_lt hfield, if_false]
  split
  · rename_i hexact
    split at hexact <;> cases hexact <;> rfl
  · rename_i hother
    split at hother
    · exact absurd rfl (hother false _ _)
    · exact absurd rfl (hother false _ _)

end Abacus
