import Abacus.Proofs.Decimal.Overflow
import Abacus.Proofs.Expr.FixedPoint
/-!
# Literals in canonical texts

In a canonical text a literal is written anew, as the number it reads as.  A number that is finite and has no sign is
written as a literal that reads as it again (`scan_numberText`), whether as a whole number, with a point or with an
exponent.  Infinity, which is what a literal reads as from the bound on, is written `inf`, and that is a name.  So a
literal survives if it is below the bound, and only then (`literal_survives_iff`).
-/
namespace Abacus

/-- The text of the number is one token, a number, that reads as it. -/
def Survives (x : Float) : Prop := ∃ t, scan (numberText x) = .ok [t] ∧ t.kind = .number ∧ readDouble? t.text = some x

variable {x : Float} {text : List Char} {ts : List Token} {t : Token}

theorem scan_numberText (h : isUnsigned x = true) : scan (numberText x) = .ok [⟨.number, numberText x, 0⟩] := by
  have hread : (readDouble? (numberText x)).isSome := by rw [readDouble?_numberText h, Option.isSome_some]
  exact (Spells.literal (isLiteral_numberText h) hread 0).scan

theorem survives_of_isUnsigned (h : isUnsigned x = true) : Survives x :=
  ⟨_, scan_numberText h, rfl, readDouble?_numberText h⟩

theorem scan_numberText_infinity : scan (numberText (infinity false)) = .ok [⟨.name, "inf".toList, 0⟩] := by
  rw [Expr.numberText_infinity]
  exact (Spells.name (by decide +kernel) 0).scan

theorem not_survives_infinity : ¬ Survives (infinity false) := by
  rintro ⟨t, hscan, hkind, -⟩
  rw [scan_numberText_infinity] at hscan
  cases hscan
  cases hkind

/-- **A literal survives in the canonical text if and only if it is below the bound.**  Its number is then written
as one literal that reads as the same number; from the bound on, it is infinite and written as a name. -/
theorem literal_survives_iff (h : scan text = .ok ts) (ht : t ∈ ts) (hkind : t.kind = .number) :
    ∃ d x, readDecimal? t.text = some d ∧ readDouble? t.text = some x ∧ (Survives x ↔ d.value < overflowBound) ∧
      (overflowBound ≤ d.value → scan (numberText x) = .ok [⟨.name, "inf".toList, 0⟩]) := by
  obtain ⟨hliteral, hread⟩ := (lexical_of_scan h t ht).literal hkind
  obtain ⟨x, hx⟩ := Option.isSome_iff_exists.1 hread
  have hdecimal := hx
  rw [readDouble?_literal hliteral, Option.map_eq_some_iff] at hdecimal
  obtain ⟨d, hd, rfl⟩ := hdecimal
  refine ⟨d, _, hd, hx, ?_⟩
  rcases lt_or_ge d.value overflowBound with hbelow | hbeyond
  · have hunsigned := isUnsigned_ofMagnitude (d.nearestBits_lt_infinityBits_iff.2 hbelow)
    exact ⟨iff_of_true (survives_of_isUnsigned hunsigned) hbelow, fun h => absurd hbelow (not_lt.2 h)⟩
  · have hinfinite : d.toDouble false = infinity false := by
      rw [Decimal.toDouble, d.nearestBits_eq_infinityBits_iff.2 hbeyond, infinity]
    rw [hinfinite]
    exact ⟨iff_of_false not_survives_infinity (not_lt.2 hbeyond), fun _ => scan_numberText_infinity⟩

/-- The last literal of nineteen digits below the bound, and the next one. -/
theorem literal_survives_iff_nearBound :
    (∃ x, readDouble? "1.797693134862315807e308".toList = some x ∧ Survives x) ∧
    ∃ x, readDouble? "1.797693134862315808e308".toList = some x ∧ ¬ Survives x := by
  have hscan : scan "1.797693134862315807e308-1.797693134862315808e308".toList = .ok
      [⟨.number, "1.797693134862315807e308".toList, 0⟩, ⟨.minus, ['-'], 24⟩,
        ⟨.number, "1.797693134862315808e308".toList, 25⟩] := by decide +kernel
  have hbelow : (⟨1797693134862315807, 290⟩ : Decimal).value < overflowBound := by
    have hnat : 1797693134862315807 * 10 ^ 290 + 2 ^ 970 < 2 ^ 54 * 2 ^ 970 := by decide +kernel
    rw [Decimal.value, overflowBound, sub_mul, one_mul, lt_sub_iff_add_lt]
    dsimp only
    rw [zpow_ofNat]
    exact_mod_cast hnat
  have hbeyond : overflowBound ≤ (⟨1797693134862315808, 290⟩ : Decimal).value := by
    have hnat : 2 ^ 54 * 2 ^ 970 ≤ 1797693134862315808 * 10 ^ 290 + 2 ^ 970 := by decide +kernel
    rw [Decimal.value, overflowBound, sub_mul, one_mul, sub_le_iff_le_add]
    dsimp only
    rw [zpow_ofNat]
    exact_mod_cast hnat
  obtain ⟨d, x, hd, hx, hiff, -⟩ := literal_survives_iff hscan List.mem_cons_self rfl
  obtain ⟨d', x', hd', hx', hiff', -⟩ :=
    literal_survives_iff hscan (List.mem_cons_of_mem _ (List.mem_cons_of_mem _ List.mem_cons_self)) rfl
  obtain rfl : d = ⟨1797693134862315807, 290⟩ := Option.some_inj.1 (hd.symm.trans (by decide +kernel))
  obtain rfl : d' = ⟨1797693134862315808, 290⟩ := Option.some_inj.1 (hd'.symm.trans (by decide +kernel))
  exact ⟨⟨x, hx, hiff.2 hbelow⟩, x', hx', fun hsurvives => absurd (hiff'.1 hsurvives) (not_lt.2 hbeyond)⟩

/-- `1e999` is a number, and its text in a formula is a name. -/
theorem not_literal_survives : ¬ ∀ text ts, scan text = .ok ts → ∀ t ∈ ts, t.kind = .number →
    ∃ x, readDouble? t.text = some x ∧ Survives x := by
  intro hall
  have hscan : scan "1e999".toList = .ok [⟨.number, "1e999".toList, 0⟩] := by decide +kernel
  have hread : readDouble? "1e999".toList = some (infinity false) := by decide +kernel
  obtain ⟨x, hx, hsurvives⟩ := hall _ _ hscan _ List.mem_cons_self rfl
  obtain rfl : infinity false = x := Option.some_inj.1 (hread.symm.trans hx)
  exact not_survives_infinity hsurvives

end Abacus
