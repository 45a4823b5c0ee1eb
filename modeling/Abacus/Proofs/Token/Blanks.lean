import Abacus.Proofs.Token.Gaps
/-!
# Blanks around a text

A formula means the same with and without the blanks around it, and so do its errors (`parse_strip`).  A numeral has
no blanks in it, but of those around it the reader takes only some away: it leaves the four information separators
where they are, and then there is no numeral.  So a text with blanks around it reads as what is left when they are
stripped, or as nothing (`readDouble?_eq`).
-/
namespace Abacus

variable {p : Char → Bool} {blanks text : List Char}

/-! ## Trimming -/

theorem trim_append_left (h : ∀ c ∈ blanks, p c = true) (text : List Char) : trim p (blanks ++ text) = trim p text := by
  rw [trim, trim, List.dropWhile_append_of_pos h]

theorem trim_append_right (h : ∀ c ∈ blanks, p c = true) (text : List Char) :
    trim p (text ++ blanks) = trim p text := by
  have hreverse : ∀ c ∈ blanks.reverse, p c = true := fun c hc => h c (List.mem_reverse.1 hc)
  rw [trim, trim, List.dropWhile_append]
  split
  · rename_i hnone
    rw [List.isEmpty_iff] at hnone
    rw [hnone, List.dropWhile_eq_nil_iff.2 h]
  · rw [List.reverse_append, List.dropWhile_append_of_pos hreverse]

theorem exists_append_trim (p : Char → Bool) (text : List Char) :
    ∃ before after, text = before ++ (trim p text ++ after) ∧ (∀ c ∈ before, p c = true) ∧ ∀ c ∈ after, p c = true := by
  have hfront := List.takeWhile_append_dropWhile (p := p) (l := text)
  have hback := List.takeWhile_append_dropWhile (p := p) (l := (text.dropWhile p).reverse)
  refine ⟨text.takeWhile p, ((text.dropWhile p).reverse.takeWhile p).reverse, ?_, fun c hc => List.mem_takeWhile_imp hc,
    fun c hc => List.mem_takeWhile_imp (List.mem_reverse.1 hc)⟩
  rw [trim, ← List.reverse_append, hback, List.reverse_reverse, hfront]

/-! ## Blanks around a formula -/

theorem scanFrom_append_blanks (h : IsGap blanks) (position : Nat) (text : List Char) :
    scanFrom position (text ++ blanks) = scanFrom position text := by
  rw [scanFrom_append h.startsBlank, scanFrom_gap h]
  cases scanFrom position text with
  | error e => rfl
  | ok ts => exact congrArg Except.ok (List.append_nil ts)

theorem scan_strip (text : List Char) : scan (strip text) = scan text := by
  obtain ⟨before, after, htext, hbefore, hafter⟩ := exists_append_trim isBlank text
  conv_rhs => rw [scan, htext, scanFrom_blanks hbefore, scanFrom_append_blanks hafter]
  rfl

/-- **The blanks around a formula do not count**, neither for its tree nor for its errors. -/
theorem Expr.parse_strip (text : List Char) : parse (strip text) = parse text := by rw [parse, parse, scan_strip]

/-! ## Blanks around a numeral -/

theorem trim_trim (p : Char → Bool) (text : List Char) : trim p (trim p text) = trim p text := by
  obtain ⟨before, after, htext, hbefore, hafter⟩ := exists_append_trim p text
  conv_rhs => rw [htext, trim_append_left hbefore, trim_append_right hafter]

theorem strip_trim (text : List Char) : strip (trim isNumeralBlank text) = strip text := by
  have hblank : ∀ c, isNumeralBlank c = true → isBlank c = true := by
    intro c hc
    rw [isNumeralBlank, Bool.and_eq_true] at hc
    exact hc.1
  obtain ⟨before, after, htext, hbefore, hafter⟩ := exists_append_trim isNumeralBlank text
  conv_rhs => rw [htext]
  rw [strip, strip, trim_append_left fun c hc => hblank c (hbefore c hc),
    trim_append_right fun c hc => hblank c (hafter c hc)]

theorem covers_of_mem {ranges : List (Nat × Nat)} {r : Nat × Nat} {n : Nat}
    (hsorted : (ranges.map Prod.fst).IsChain (· ≤ ·))
    (hr : r ∈ ranges) (hlow : r.1 ≤ n) (hhigh : n ≤ r.2) : covers ranges n = true := by
  rw [List.isChain_iff_pairwise] at hsorted
  induction ranges with
  | nil => cases hr
  | cons s ranges ih =>
    rw [List.map_cons, List.pairwise_cons] at hsorted
    rw [covers]
    obtain rfl | hmem := List.mem_cons.1 hr
    · rw [if_neg (Nat.not_lt.2 hlow), decide_eq_true hhigh, Bool.true_or]
    · have hle : s.1 ≤ n := Nat.le_trans (hsorted.1 r.1 (List.mem_map_of_mem hmem)) hlow
      rw [if_neg (Nat.not_lt.2 hle), ih hsorted.2 hmem, Bool.or_true]

theorem toAsciiDigit_blank {c : Char} (h : isBlank c = true) : toAsciiDigit c = c := by
  have hsorted : (numericRanges.map Prod.fst).IsChain (· ≤ ·) := by decide +kernel
  have hall : digitZeros.all (fun z => numericRanges.any fun r => decide (r.1 ≤ z ∧ z + 9 ≤ r.2)) = true := by
    decide +kernel
  have hnone : digit? c = none := by
    rw [digit?, Option.map_eq_none_iff, List.find?_eq_none]
    intro z hz hin
    rw [Bool.and_eq_true, decide_eq_true_eq, decide_eq_true_eq] at hin
    obtain ⟨r, hr, hrange⟩ := List.any_eq_true.1 (List.all_eq_true.1 hall z hz)
    obtain ⟨hlow, hhigh⟩ := of_decide_eq_true hrange
    have halnum : isAlphanumeric c = true := by
      rw [isAlphanumeric, isNumeric, covers_of_mem hsorted hr (by omega) (by omega), Bool.or_true]
    rw [isAlphanumeric_blank h] at halnum
    cases halnum
  rw [toAsciiDigit, hnone]

theorem mem_dropUnderscores {previous : Char} {cs ds : List Char} (h : dropUnderscores previous cs = some ds) :
    ∀ c ∈ cs, c = '_' ∨ c ∈ ds := by
  induction cs generalizing previous ds with
  | nil => exact fun c hc => absurd hc List.not_mem_nil
  | cons d cs ih =>
    unfold dropUnderscores at h
    intro c hc
    by_cases hunderscore : (d == '_') = true
    · rw [if_pos hunderscore, Option.ite_none_right_eq_some] at h
      obtain rfl | hc := List.mem_cons.1 hc
      · exact .inl (eq_of_beq hunderscore)
      · exact ih h.2 c hc
    · rw [if_neg hunderscore] at h
      obtain ⟨rest, hrest, rfl⟩ := Option.map_eq_some_iff.1 h
      obtain rfl | hc := List.mem_cons.1 hc
      · exact .inr List.mem_cons_self
      · exact (ih hrest c hc).imp_right (List.mem_cons_of_mem d)

theorem toLower_blank {c : Char} (h : isBlank c = true) : c.toLower = c := by
  rw [Char.toLower]
  split
  · rename_i hupper
    have hlow : 65 ≤ c.toNat := UInt32.le_iff_toNat_le.1 hupper.1
    have hhigh : c.toNat ≤ 90 := UInt32.le_iff_toNat_le.1 hupper.2
    simp only [isBlank, Bool.or_eq_true, Bool.and_eq_true, decide_eq_true_eq, beq_iff_eq] at h
    omega
  · rfl

theorem isBlank_of_readNamed? {negative : Bool} {cs : List Char} {x : Float} (h : readNamed? negative cs = some x) :
    ∀ c ∈ cs, isBlank c = false := by
  have hletters :
      ["inf".toList, "infinity".toList, "nan".toList].all (fun name => name.all fun d => !isBlank d) = true := by
    decide
  have hname : cs.map Char.toLower ∈ ["inf".toList, "infinity".toList, "nan".toList] := by
    rw [List.mem_cons, List.mem_cons, List.mem_singleton]
    rw [readNamed?] at h
    split at h
    · rename_i hinf
      rw [Bool.or_eq_true, beq_iff_eq, beq_iff_eq] at hinf
      exact hinf.imp_right .inl
    split at h
    · rename_i hnan
      exact .inr (.inr (eq_of_beq hnan))
    · cases h
  intro c hc
  refine Bool.eq_false_iff.2 fun hblank => ?_
  have hmem : c ∈ cs.map Char.toLower := toLower_blank hblank ▸ List.mem_map_of_mem hc
  have hsolid := List.all_eq_true.1 (List.all_eq_true.1 hletters _ hname) c hmem
  rw [hblank] at hsolid
  cases hsolid

theorem isBlank_of_readDouble? {x : Float} (h : readDouble? text = some x) :
    ∀ c ∈ numeralOf text, isBlank c = false := by
  rw [readDouble?] at h
  have hunsigned : ∀ c ∈ (splitSign (numeralOf text)).2, isBlank c = false := by
    dsimp only [readUnsigned?] at h
    split at h
    · rename_i hnamed
      exact isBlank_of_readNamed? hnamed
    · obtain ⟨d, hd, -⟩ := Option.map_eq_some_iff.1 h
      obtain ⟨ds, hds, hdecimal⟩ := Option.bind_eq_some_iff.1 hd
      intro c hc
      obtain rfl | hc := mem_dropUnderscores hds c hc
      · decide
      · exact (decimalLiteral_of_readDecimal? (Option.isSome_iff_exists.2 ⟨d, hdecimal⟩)).isBlank c hc
  intro c hc
  obtain hnone | ⟨sign, hsign, hcs⟩ := splitSign_cases (numeralOf text)
  · exact hunsigned c (by rwa [hnone])
  · rw [hcs] at hc
    obtain rfl | hc := List.mem_cons.1 hc
    · obtain rfl | rfl := hsign <;> decide
    · exact hunsigned c hc

/-- **A text reads as what is left of it when it is stripped**, or as nothing, if a separator is among the blanks around
it. -/
theorem readDouble?_eq (text : List Char) :
    readDouble? text = if trim isNumeralBlank text = strip text then readDouble? (strip text) else none := by
  split
  · rename_i hsame
    rw [readDouble?, readDouble?, numeralOf, numeralOf, ← hsame, trim_trim]
  · rename_i hapart
    cases hread : readDouble? text with
    | none => rfl
    | some x =>
      have hsolid : ∀ c ∈ trim isNumeralBlank text, isBlank c = false := by
        intro c hc
        refine Bool.eq_false_iff.2 fun hblank => ?_
        have hmem : c ∈ numeralOf text := toAsciiDigit_blank hblank ▸ List.mem_map_of_mem hc
        rw [isBlank_of_readDouble? hread c hmem] at hblank
        cases hblank
      exact absurd ((trim_eq_self hsolid).symm.trans (strip_trim text)) hapart

end Abacus
