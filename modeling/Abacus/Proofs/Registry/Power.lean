import Abacus.Proofs.Decimal.Overflow
import Abacus.Proofs.Decimal.Values
import Abacus.Proofs.Registry.Guards
/-!
# Powers that are refused

A checked power is refused in three cases: it is too large for a double (`Overflows`), it is a pole (`IsPole`), or
there is no such number (`IsUndefined`).  The fault does not tell a pole from an undefined power, nor on which side
of zero the result lies, so both are read off the operands.  What comes out is the conventional value in all three
cases, and the power of the processor in any other (`recoverPower_conventional`).
-/
namespace Abacus

variable {c : Float → Float → Float} {checked : Float → Float → Except Fault Float} {x y z : Float}

/-! ## Where there is no double -/

/-- The power of two finite doubles is a number, but from halfway after the greatest finite double on. -/
def Overflows (x y : Float) : Prop := ∃ p q : ℚ, rational? x = some p ∧ rational? y = some q ∧ p ≠ 0 ∧
  (p < 0 → ∃ n : Int, q = n) ∧ (overflowBound : ℝ) ≤ |(p : ℝ)| ^ (q : ℝ)

/-- A negative power of zero. -/
def IsPole (x y : Float) : Prop := rational? x = some 0 ∧ IsLess y

/-- A fractional power of a finite number below zero. -/
def IsUndefined (x y : Float) : Prop :=
  ∃ p q : ℚ, rational? x = some p ∧ rational? y = some q ∧ p < 0 ∧ ¬ ∃ n : Int, q = n

theorem Overflows.not_isPole (h : Overflows x y) : ¬ IsPole x y := by
  rintro ⟨hzero, -⟩
  obtain ⟨p, q, hp, -, hne, -⟩ := h
  rw [hp, Option.some.injEq] at hzero
  exact hne hzero

theorem Overflows.not_isUndefined (h : Overflows x y) : ¬ IsUndefined x y := by
  rintro ⟨p, q, hp, hq, hneg, hnot⟩
  obtain ⟨p', q', hp', hq', -, hwhole, -⟩ := h
  rw [hp, Option.some.injEq] at hp'
  rw [hq, Option.some.injEq] at hq'
  subst hp' hq'
  exact hnot (hwhole hneg)

theorem IsPole.not_isUndefined (h : IsPole x y) : ¬ IsUndefined x y := by
  rintro ⟨p, q, hp, -, hneg, -⟩
  rw [h.1, Option.some.injEq] at hp
  exact hneg.ne hp.symm

structure IsCheckedPower (c : Float → Float → Float) (checked : Float → Float → Except Fault Float) : Prop where
  overflow : ∀ x y, Overflows x y → checked x y = .error .rangeExceeded
  pole : ∀ x y, IsPole x y → checked x y = .error .outsideDomain
  undefined : ∀ x y, IsUndefined x y → checked x y = .error .outsideDomain
  value : ∀ x y, ¬ Overflows x y → ¬ IsPole x y → ¬ IsUndefined x y → checked x y = .ok (c x y)

/-! ## The conventional value -/

/-- The value that a power has by convention.  An infinite one is negative just if the base is, the zero with a sign
included, and the exponent is an odd integer. -/
structure IsConventional (c : Float → Float → Float) (x y z : Float) : Prop where
  overflow : Overflows x y →
    ∃ negative, z = infinity negative ∧ (negative = true ↔ (∃ p, rational? x = some p ∧ p < 0) ∧ IsOdd y)
  pole : IsPole x y → ∃ negative, z = infinity negative ∧ (negative = true ↔ isNegative x = true ∧ IsOdd y)
  undefined : IsUndefined x y → z = notANumber
  value : ¬ Overflows x y → ¬ IsPole x y → ¬ IsUndefined x y → z = c x y

theorem isLess_iff_of_rational? {p : ℚ} (h : rational? x = some p) : IsLess x ↔ ∃ p, rational? x = some p ∧ p < 0 := by
  refine ⟨fun hless => ?_, .inl⟩
  rcases hless with hless | hinfinite
  · exact hless
  · rw [rational?, hinfinite] at h
    cases h

theorem recoverPower_of_overflows (h : Overflows x y) :
    ∃ z, recoverPower x y (.error .rangeExceeded) = .ok z ∧ IsConventional c x y z := by
  obtain ⟨p, -, hp, -⟩ := id h
  have hnegative : (decide (x < 0) && isOddWhole y) = true ↔ (∃ p, rational? x = some p ∧ p < 0) ∧ IsOdd y := by
    rw [Bool.and_eq_true, decide_eq_true_eq, lt_zero_iff, isLess_iff_of_rational? hp, isOddWhole_iff]
  exact ⟨_, rfl, fun _ => ⟨_, rfl, hnegative⟩, fun hpole => absurd hpole h.not_isPole,
    fun hundefined => absurd hundefined h.not_isUndefined, fun hnot => absurd h hnot⟩

theorem recoverPower_of_isPole (h : IsPole x y) :
    ∃ z, recoverPower x y (.error .outsideDomain) = .ok z ∧ IsConventional c x y z := by
  have hnegative : (isNegative x && isOddWhole y) = true ↔ isNegative x = true ∧ IsOdd y := by
    rw [Bool.and_eq_true, isOddWhole_iff]
  rw [recoverPower, if_pos (beq_zero_iff.2 h.1)]
  exact ⟨_, rfl, fun hoverflow => absurd h hoverflow.not_isPole, fun _ => ⟨_, rfl, hnegative⟩,
    fun hundefined => absurd hundefined h.not_isUndefined, fun _ hnot => absurd h hnot⟩

theorem recoverPower_of_isUndefined (h : IsUndefined x y) :
    ∃ z, recoverPower x y (.error .outsideDomain) = .ok z ∧ IsConventional c x y z := by
  have hzero : ¬ (x == 0) = true := by
    rw [beq_zero_iff]
    intro hzero
    obtain ⟨p, -, hp, -, hneg, -⟩ := h
    rw [hzero, Option.some.injEq] at hp
    exact hneg.ne hp.symm
  rw [recoverPower, if_neg hzero]
  exact ⟨_, rfl, fun hoverflow => absurd h hoverflow.not_isUndefined, fun hpole => absurd h hpole.not_isUndefined,
    fun _ => rfl, fun _ _ hnot => absurd h hnot⟩

theorem IsCheckedPower.isConventional (h : IsCheckedPower c checked) (x y : Float) :
    ∃ z, recoverPower x y (checked x y) = .ok z ∧ IsConventional c x y z := by
  by_cases hoverflow : Overflows x y
  · rw [h.overflow x y hoverflow]
    exact recoverPower_of_overflows hoverflow
  by_cases hpole : IsPole x y
  · rw [h.pole x y hpole]
    exact recoverPower_of_isPole hpole
  by_cases hundefined : IsUndefined x y
  · rw [h.undefined x y hundefined]
    exact recoverPower_of_isUndefined hundefined
  · rw [h.value x y hoverflow hpole hundefined]
    exact ⟨_, rfl, fun hyes => absurd hyes hoverflow, fun hyes => absurd hyes hpole, fun hyes => absurd hyes hundefined,
      fun _ _ _ => rfl⟩

theorem IsConventional.unique {z' : Float} (h : IsConventional c x y z) (h' : IsConventional c x y z') : z = z' := by
  have hinfinite {p : Prop} (hz : ∃ negative, z = infinity negative ∧ (negative = true ↔ p))
      (hz' : ∃ negative, z' = infinity negative ∧ (negative = true ↔ p)) : z = z' := by
    obtain ⟨negative, rfl, hiff⟩ := hz
    obtain ⟨negative', rfl, hiff'⟩ := hz'
    exact congrArg infinity (Bool.eq_iff_iff.2 (hiff.trans hiff'.symm))
  by_cases hoverflow : Overflows x y
  · exact hinfinite (h.overflow hoverflow) (h'.overflow hoverflow)
  by_cases hpole : IsPole x y
  · exact hinfinite (h.pole hpole) (h'.pole hpole)
  by_cases hundefined : IsUndefined x y
  · rw [h.undefined hundefined, h'.undefined hundefined]
  · rw [h.value hoverflow hpole hundefined, h'.value hoverflow hpole hundefined]

/-! ## The processor's power -/

/-- What is known of the power of the processor: it is infinite for finite operands just where the power overflows,
poles aside, and not a number just where the power is not defined. -/
structure IsPower (c : Float → Float → Float) : Prop where
  isInf_iff : ∀ x y, x.isFinite = true → y.isFinite = true → ¬ IsPole x y → ((c x y).isInf = true ↔ Overflows x y)
  isNaN_iff : ∀ x y, x.isFinite = true → y.isFinite = true → ¬ IsPole x y → ((c x y).isNaN = true ↔ IsUndefined x y)

theorem isFinite_of_overflows (h : Overflows x y) : x.isFinite = true ∧ y.isFinite = true := by
  obtain ⟨p, q, hp, hq, -⟩ := h
  exact ⟨isFinite_iff.2 ⟨p, hp⟩, isFinite_iff.2 ⟨q, hq⟩⟩

theorem isFinite_of_isUndefined (h : IsUndefined x y) : x.isFinite = true ∧ y.isFinite = true := by
  obtain ⟨p, q, hp, hq, -⟩ := h
  exact ⟨isFinite_iff.2 ⟨p, hp⟩, isFinite_iff.2 ⟨q, hq⟩⟩

theorem isPole_iff : (x == 0 && decide (y < 0)) = true ↔ IsPole x y := by
  rw [Bool.and_eq_true, decide_eq_true_eq, beq_zero_iff, lt_zero_iff, IsPole]

theorem isCheckedPower_pow (h : IsPower Float.pow) : IsCheckedPower Float.pow Checked.pow := by
  have hpole {x y : Float} (hnot : ¬ IsPole x y) : Checked.pow x y =
      if x.isFinite && y.isFinite then
        if (Float.pow x y).isNaN then .error .outsideDomain
        else if (Float.pow x y).isInf then .error .rangeExceeded
        else .ok (Float.pow x y)
      else .ok (Float.pow x y) := by
    rw [Checked.pow, if_neg (mt isPole_iff.1 hnot)]
  refine ⟨fun x y hoverflow => ?_, fun x y hyes => ?_, fun x y hundefined => ?_,
    fun x y hoverflow hnot hundefined => ?_⟩
  · obtain ⟨hx, hy⟩ := isFinite_of_overflows hoverflow
    have hnot := hoverflow.not_isPole
    rw [hpole hnot, hx, hy, Bool.and_self, if_pos rfl,
      if_neg (mt (h.isNaN_iff x y hx hy hnot).1 hoverflow.not_isUndefined),
      if_pos ((h.isInf_iff x y hx hy hnot).2 hoverflow)]
  · rw [Checked.pow, if_pos (isPole_iff.2 hyes)]
  · obtain ⟨hx, hy⟩ := isFinite_of_isUndefined hundefined
    have hnot : ¬ IsPole x y := fun hyes => hyes.not_isUndefined hundefined
    rw [hpole hnot, hx, hy, Bool.and_self, if_pos rfl, if_pos ((h.isNaN_iff x y hx hy hnot).2 hundefined)]
  · rw [hpole hnot]
    split
    · rename_i hfinite
      rw [Bool.and_eq_true] at hfinite
      rw [if_neg (mt (h.isNaN_iff x y hfinite.1 hfinite.2 hnot).1 hundefined),
        if_neg (mt (h.isInf_iff x y hfinite.1 hfinite.2 hnot).1 hoverflow)]
    · rfl

/-! ## Any operands -/

/-- **A power has the conventional value whatever its operands.**  Take a checked power that is refused where the
power overflows, is a pole or is not defined, and is the processor's elsewhere.  Then there always is a value, and
it is the conventional one: an infinity for an overflow or a pole, negative exactly if the base is negative, or the
zero with a sign, and the exponent is an odd integer; not-a-number where the power is not defined; and else the
processor's.  If the processor's own powers are conventional, it is those.  Whether an exponent is odd is decided
exactly for every double.  And the powers of formulas are conventional if the processor's are infinite and
not-a-number where they have to be. -/
theorem recoverPower_conventional (h : IsCheckedPower c checked) :
    (∀ x y, ∃ z, recoverPower x y (checked x y) = .ok z ∧ IsConventional c x y z) ∧
    ((∀ x y, IsConventional c x y (c x y)) → ∀ x y, recoverPower x y (checked x y) = .ok (c x y)) ∧
    (∀ y, isOddWhole y = true ↔ ∃ k : Int, rational? y = some (2 * (k : ℚ) + 1)) ∧
    (IsPower Float.pow → ∀ x y, ∃ z, power x y = .ok z ∧ IsConventional Float.pow x y z) := by
  refine ⟨h.isConventional, fun hown x y => ?_, fun y => isOddWhole_iff,
    fun hpower => (isCheckedPower_pow hpower).isConventional⟩
  obtain ⟨z, hz, hconventional⟩ := h.isConventional x y
  rw [hz, hconventional.unique (hown x y)]

open Classical in
noncomputable def refusingPow (c : Float → Float → Float) (x y : Float) : Except Fault Float :=
  if Overflows x y then .error .rangeExceeded
  else if IsPole x y ∨ IsUndefined x y then .error .outsideDomain
  else .ok (c x y)

theorem isCheckedPower_refusingPow (c : Float → Float → Float) : IsCheckedPower c (refusingPow c) where
  overflow x y h := if_pos h
  pole x y h := by rw [refusingPow, if_neg fun hoverflow => hoverflow.not_isPole h, if_pos (.inl h)]
  undefined x y h := by rw [refusingPow, if_neg fun hoverflow => hoverflow.not_isUndefined h, if_pos (.inr h)]
  value x y hoverflow hpole hundefined := by rw [refusingPow, if_neg hoverflow, if_neg (not_or.2 ⟨hpole, hundefined⟩)]

theorem rational?_samples : rational? (-2) = some (-2) ∧ rational? 1025 = some 1025 ∧ rational? (-0.0) = some 0 ∧
    rational? (-3) = some (-3) ∧ rational? (-8) = some (-8) ∧ rational? 0.5 = some (1 / 2) := by
  have h2 : exact (-2) = .finite true 4503599627370496 (-51) := by decide +kernel
  have h1025 : exact 1025 = .finite false 4507997673881600 (-42) := by decide +kernel
  have h0 : exact (-0.0) = .finite true 0 (-1074) := by decide +kernel
  have h3 : exact (-3) = .finite true 6755399441055744 (-51) := by decide +kernel
  have h8 : exact (-8) = .finite true 4503599627370496 (-49) := by decide +kernel
  have hhalf : exact 0.5 = .finite false 4503599627370496 (-53) := by decide +kernel
  rw [rational?_of_finite h2, rational?_of_finite h1025, rational?_of_finite h0, rational?_of_finite h3,
    rational?_of_finite h8, rational?_of_finite hhalf]
  norm_num

/-- Powers at the edges: `(-2) ^ 1025`, `(-0.0) ^ (-3)`, `(-0.0) ^ (-∞)` and `(-8) ^ 0.5`. -/
theorem recoverPower_conventional_edges : IsCheckedPower Float.pow (refusingPow Float.pow) ∧
    recoverPower (-2) 1025 (refusingPow Float.pow (-2) 1025) = .ok (infinity true) ∧
    recoverPower (-0.0) (-3) (refusingPow Float.pow (-0.0) (-3)) = .ok (infinity true) ∧
    recoverPower (-0.0) (infinity true) (refusingPow Float.pow (-0.0) (infinity true)) = .ok (infinity false) ∧
    recoverPower (-8) 0.5 (refusingPow Float.pow (-8) 0.5) = .ok notANumber := by
  have hchecked := isCheckedPower_refusingPow Float.pow
  obtain ⟨htwo, h1025, hzero, hthree, height, hhalf⟩ := rational?_samples
  obtain ⟨hconventional, -⟩ := recoverPower_conventional hchecked
  have hbelow : exact (infinity true) = .infinite true := by decide +kernel
  have hnegative : isNegative (-0.0) = true := by decide +kernel
  have hoverflow : Overflows (-2) 1025 := by
    refine ⟨-2, 1025, htwo, h1025, by norm_num, fun _ => ⟨1025, by norm_num⟩, ?_⟩
    have hbase : |((-2 : ℚ) : ℝ)| = 2 := by norm_num
    have hexponent : ((1025 : ℚ) : ℝ) = (1025 : Int) := by norm_num
    have hbound : (overflowBound : ℝ) ≤ ((2 ^ (1024 : Int) : ℚ) : ℝ) := Rat.cast_le.2 overflowBound_le
    rw [hbase, hexponent, Real.rpow_intCast]
    calc (overflowBound : ℝ) ≤ ((2 ^ (1024 : Int) : ℚ) : ℝ) := hbound
      _ = 2 ^ (1024 : Int) := by rw [Rat.cast_zpow, Rat.cast_ofNat]
      _ ≤ 2 ^ (1025 : Int) := zpow_le_zpow_right₀ one_le_two (by decide)
  have hodd : IsOdd 1025 := ⟨512, by rw [h1025]; norm_num⟩
  have hpole : IsPole (-0.0) (-3) := ⟨hzero, .inl ⟨-3, hthree, by norm_num⟩⟩
  have hodd' : IsOdd (-3) := ⟨-2, by rw [hthree]; norm_num⟩
  have hpole' : IsPole (-0.0) (infinity true) := ⟨hzero, .inr hbelow⟩
  have hnot : ¬ IsOdd (infinity true) := by
    rintro ⟨k, hk⟩
    rw [rational?, hbelow] at hk
    cases hk
  have hundefined : IsUndefined (-8) 0.5 := by
    refine ⟨-8, 1 / 2, height, hhalf, by norm_num, ?_⟩
    rintro ⟨n, hn⟩
    have hdouble : (1 : ℚ) = 2 * n := by rw [← hn]; norm_num
    have hint : (1 : Int) = 2 * n := by exact_mod_cast hdouble
    omega
  refine ⟨hchecked, ?_, ?_, ?_, ?_⟩
  · obtain ⟨z, hz, hvalue⟩ := hconventional (-2) 1025
    obtain ⟨negative, rfl, hiff⟩ := hvalue.overflow hoverflow
    rw [hz, hiff.2 ⟨⟨-2, htwo, by norm_num⟩, hodd⟩]
  · obtain ⟨z, hz, hvalue⟩ := hconventional (-0.0) (-3)
    obtain ⟨negative, rfl, hiff⟩ := hvalue.pole hpole
    rw [hz, hiff.2 ⟨hnegative, hodd'⟩]
  · obtain ⟨z, hz, hvalue⟩ := hconventional (-0.0) (infinity true)
    obtain ⟨negative, rfl, hiff⟩ := hvalue.pole hpole'
    rw [hz, Bool.eq_false_iff.2 fun htrue => hnot (hiff.1 htrue).2]
  · obtain ⟨z, hz, hvalue⟩ := hconventional (-8) 0.5
    rw [hz, hvalue.undefined hundefined]

end Abacus
