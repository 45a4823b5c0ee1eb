import Mathlib
import Abacus.Json.Print
import Abacus.Json.Read
/-!
# Strings read back

Every character of a string is written as itself or as an escape, and an escape as one or two code units of four
digits.  Reading takes them apart into pieces that join to the character again (`pieces_escaped`), so a string reads
back as it was (`string_flatMap_escaped`).
-/
namespace Abacus.Json

/-! ## Code units -/

theorem hexValue?_digitChar : ∀ n < 16, hexValue? (Nat.digitChar n) = some n := by decide

theorem codeUnit?_hexDigits {n : Nat} (h : n < 0x10000) : codeUnit? (hexDigits 4 n) = some n := by
  have hdigit (k : Nat) : hexValue? (Nat.digitChar (k % 16)) = some (k % 16) :=
    hexValue?_digitChar _ (Nat.mod_lt k (by decide))
  simp only [hexDigits, List.nil_append, List.cons_append, codeUnit?, hdigit, Option.bind_eq_bind, Option.bind_some,
    pure]
  congr 1
  omega

theorem pieces_unitEscape {n : Nat} (h : n < 0x10000) (cs : List Char) :
    pieces (unitEscape n ++ cs) = (pieces cs).map fun (more, rest) => (.unit n :: more, rest) := by
  obtain ⟨a, b, c, d, hhex⟩ : ∃ a b c d, hexDigits 4 n = [a, b, c, d] := ⟨_, _, _, _, rfl⟩
  have hunit := codeUnit?_hexDigits h
  rw [hhex] at hunit
  simp only [unitEscape, hhex, List.cons_append, List.nil_append]
  rw [pieces, hunit]
  cases pieces cs <;> rfl

theorem joined_unit {n : Nat} (hhigh : isHighSurrogate n = false) (hlow : isLowSurrogate n = false)
    (more : List Piece) : joined none (.unit n :: more) = Char.ofNat n :: joined none more := by
  simp [joined, hhigh, hlow, charOfUnit, alone]

theorem joined_pair {high low : Nat} (hhigh : isHighSurrogate high = true) (hlow : isLowSurrogate low = true)
    (more : List Piece) : joined none (.unit high :: .unit low :: more) = charOfPair high low :: joined none more := by
  have hother : isHighSurrogate low = false := by
    simp only [isHighSurrogate, isLowSurrogate, Bool.and_eq_true, Bool.and_eq_false_iff, decide_eq_true_eq,
      decide_eq_false_iff_not] at hlow ⊢
    omega
  simp [joined, hhigh, hlow, hother, alone]

theorem lt_of_isSurrogate {n : Nat} (h : isHighSurrogate n = true ∨ isLowSurrogate n = true) : n < 0x10000 := by
  simp only [isHighSurrogate, isLowSurrogate, Bool.and_eq_true, decide_eq_true_eq] at h
  omega

theorem not_isSurrogate (c : Char) : isHighSurrogate c.toNat = false ∧ isLowSurrogate c.toNat = false := by
  have hvalid := c.valid
  simp only [UInt32.isValidChar, Nat.isValidChar] at hvalid
  simp only [isHighSurrogate, isLowSurrogate, Bool.and_eq_false_iff, decide_eq_false_iff_not, Char.toNat]
  omega

theorem surrogates_of_beyond {c : Char} (h : ¬ c.toNat ≤ 0xFFFF) :
    isHighSurrogate (0xD800 + (c.toNat - 0x10000) / 0x400) = true ∧
    isLowSurrogate (0xDC00 + (c.toNat - 0x10000) % 0x400) = true ∧
    charOfPair (0xD800 + (c.toNat - 0x10000) / 0x400) (0xDC00 + (c.toNat - 0x10000) % 0x400) = c := by
  have hvalid := c.valid
  simp only [UInt32.isValidChar, Nat.isValidChar] at hvalid
  have hmax : c.toNat < 0x110000 := by
    simp only [Char.toNat]
    omega
  have hsum : 0x10000 + (c.toNat - 0x10000) / 0x400 * 0x400 + (c.toNat - 0x10000) % 0x400 = c.toNat := by omega
  simp only [isHighSurrogate, isLowSurrogate, Bool.and_eq_true, decide_eq_true_eq, charOfPair, Nat.add_sub_cancel_left,
    hsum, Char.ofNat_toNat, and_true]
  omega

/-! ## Characters -/

theorem pieces_plain {c : Char} (hcontrol : ¬ c.toNat < 0x20) (hquote : c ≠ '"') (hslash : c ≠ '\\') (cs : List Char) :
    pieces (c :: cs) = (pieces cs).map fun (more, rest) => (.char c :: more, rest) := by
  rw [pieces]
  · have htest : (decide (c.toNat < 0x20) || c == '\\') = false := by simp [hcontrol, hslash]
    rw [htest]
    cases pieces cs <;> rfl
  all_goals grind

theorem pieces_letterEscape {e c : Char} (h : letterEscape? e = some c) (cs : List Char) :
    pieces ('\\' :: e :: cs) = (pieces cs).map fun (more, rest) => (.char c :: more, rest) := by
  rw [pieces]
  · rw [h]
    cases pieces cs <;> rfl
  · rintro _ _ _ _ _ rfl
    cases h

theorem pieces_escaped (c : Char) : ∃ ps,
    (∀ cs, pieces (escaped c ++ cs) = (pieces cs).map fun (more, rest) => (ps ++ more, rest)) ∧
    ∀ more, joined none (ps ++ more) = c :: joined none more := by
  have hplain (more : List Piece) : joined none ([.char c] ++ more) = c :: joined none more := rfl
  have hletter {e d : Char} (hd : c = d) (he : letterEscape? e = some d) : ∃ ps,
      (∀ cs, pieces (['\\', e] ++ cs) = (pieces cs).map fun (more, rest) => (ps ++ more, rest)) ∧
      ∀ more, joined none (ps ++ more) = c :: joined none more := by
    subst hd
    exact ⟨[.char c], pieces_letterEscape he, hplain⟩
  unfold escaped
  split
  · rename_i h
    exact hletter (eq_of_beq h) rfl
  rename_i hquote
  split
  · rename_i h
    exact hletter (eq_of_beq h) rfl
  rename_i hslash
  split
  · rename_i h
    exact hletter (eq_of_beq h) rfl
  split
  · rename_i h
    exact hletter (eq_of_beq h) rfl
  split
  · rename_i h
    exact hletter (eq_of_beq h) rfl
  split
  · rename_i h
    exact hletter (by rw [← Char.ofNat_toNat c, h]) rfl
  split
  · rename_i h
    exact hletter (by rw [← Char.ofNat_toNat c, h]) rfl
  split
  · rename_i h
    exact ⟨[.char c], pieces_plain (by omega) (by simpa using hquote) (by simpa using hslash), hplain⟩
  split
  · rename_i h
    obtain ⟨hhigh, hlow⟩ := not_isSurrogate c
    refine ⟨[.unit c.toNat], pieces_unitEscape (by omega), fun more => ?_⟩
    rw [List.singleton_append, joined_unit hhigh hlow, Char.ofNat_toNat]
  · rename_i h
    obtain ⟨hhigh, hlow, hpair⟩ := surrogates_of_beyond h
    refine ⟨[.unit (0xD800 + (c.toNat - 0x10000) / 0x400), .unit (0xDC00 + (c.toNat - 0x10000) % 0x400)],
      fun cs => ?_, fun more => ?_⟩
    · rw [List.append_assoc, pieces_unitEscape (lt_of_isSurrogate (.inl hhigh)),
        pieces_unitEscape (lt_of_isSurrogate (.inr hlow))]
      cases pieces cs <;> rfl
    · rw [List.cons_append, List.singleton_append, joined_pair hhigh hlow, hpair]

/-! ## Strings -/

theorem pieces_flatMap_escaped (text rest : List Char) :
    ∃ ps, pieces (text.flatMap escaped ++ '"' :: rest) = some (ps, rest) ∧ joined none ps = text := by
  induction text with
  | nil => exact ⟨[], rfl, rfl⟩
  | cons c cs ih =>
    obtain ⟨more, hmore, hcs⟩ := ih
    obtain ⟨ps, hps, hc⟩ := pieces_escaped c
    refine ⟨ps ++ more, ?_, by rw [hc, hcs]⟩
    rw [List.flatMap_cons, List.append_assoc, hps, hmore]
    rfl

/-- **A string reads back**, whatever comes after its closing quote. -/
theorem string_flatMap_escaped (text rest : List Char) :
    string (text.flatMap escaped ++ '"' :: rest) = .ok (text, rest) := by
  obtain ⟨ps, hps, hjoined⟩ := pieces_flatMap_escaped text rest
  rw [string, hps]
  simp only [hjoined]

end Abacus.Json
