import Abacus.Expr.Canonical
import Abacus.Proofs.Decimal.Nearest
import Abacus.Proofs.Token.Literal
/-!
# Numbers read back

Writing puts the digits of a decimal around a point, pads them with zeros or moves them behind an exponent; reading
collects them again and counts the places.  What is read has the value of what was written
(`readDecimal?_decimalText`), if not always the same digits.  So the text of a double that is finite and not negative
reads as that double (`readDouble?_doubleText`), and so does its text in a formula (`readDouble?_numberText`).
-/
namespace Abacus

/-! ## Digits -/

theorem isDigit_natText {n : Nat} : ∀ c ∈ natText n, c.isDigit = true :=
  fun _ hc => Nat.isDigit_of_mem_toDigits (by decide) (by decide) hc

theorem isDigit_zeros {n : Nat} : ∀ c ∈ List.replicate n '0', c.isDigit = true := by
  intro c hc
  rw [List.eq_of_mem_replicate hc]
  decide

theorem isDigit_append {cs ds : List Char} (hcs : ∀ c ∈ cs, c.isDigit = true) (hds : ∀ c ∈ ds, c.isDigit = true) :
    ∀ c ∈ cs ++ ds, c.isDigit = true :=
  fun c hc => (List.mem_append.1 hc).elim (hcs c) (hds c)

theorem isDigit_paddedText {width n : Nat} : ∀ c ∈ paddedText width n, c.isDigit = true :=
  isDigit_append isDigit_zeros isDigit_natText

theorem natOfDigits_natText (n : Nat) : natOfDigits (natText n) = n := Nat.ofDigitChars_ten_toDigits

theorem natOfDigits_zeros_append (k : Nat) (ds : List Char) :
    natOfDigits (List.replicate k '0' ++ ds) = natOfDigits ds := by
  rw [natOfDigits, Nat.ofDigitChars_append, Nat.ofDigitChars_replicate_zero, Nat.mul_zero]
  rfl

theorem natOfDigits_append_zeros (ds : List Char) (k : Nat) :
    natOfDigits (ds ++ List.replicate k '0') = natOfDigits ds * 10 ^ k := by
  rw [natOfDigits, Nat.ofDigitChars_append, Nat.ofDigitChars_replicate_zero, Nat.mul_comm]
  rfl

theorem natOfDigits_paddedText (width n : Nat) : natOfDigits (paddedText width n) = n := by
  rw [paddedText, natOfDigits_zeros_append, natOfDigits_natText]

/-! ## Reading the parts of a decimal -/

theorem readExponent?_nil : readExponent? [] = some 0 := rfl

theorem head_of_readExponent? {tail : List Char} {e : Int} (h : readExponent? tail = some e) :
    ∀ c, tail.head? = some c → c = 'e' ∨ c = 'E' := by
  intro c hc
  obtain ⟨more, rfl⟩ : ∃ more, tail = c :: more := List.head?_eq_some_iff.1 hc
  simp only [readExponent?] at h
  split at h
  · rename_i hmark
    simpa using hmark
  · cases h

theorem not_isDigit_of_readExponent? {tail : List Char} {e : Int} (h : readExponent? tail = some e) :
    ∀ c, tail.head? = some c → c.isDigit = false := by
  intro c hc
  rcases head_of_readExponent? h c hc with rfl | rfl <;> rfl

theorem readDecimal?_whole {whole tail : List Char} {e : Int} (hwhole : ∀ c ∈ whole, c.isDigit = true)
    (hne : whole ≠ []) (htail : readExponent? tail = some e) :
    readDecimal? (whole ++ tail) = some ⟨natOfDigits whole, e⟩ := by
  obtain ⟨htake, hdrop⟩ := span_append hwhole (not_isDigit_of_readExponent? htail)
  have hempty : whole.isEmpty = false := by simpa using hne
  unfold readDecimal?
  dsimp only
  rw [htake, hdrop]
  split
  · rename_i heq
    have hmark := head_of_readExponent? htail '.' rfl
    exact absurd hmark (by decide)
  · simp [hempty, htail]

theorem readDecimal?_pointed {whole places tail : List Char} {e : Int} (hwhole : ∀ c ∈ whole, c.isDigit = true)
    (hplaces : ∀ c ∈ places, c.isDigit = true) (hne : whole ≠ []) (htail : readExponent? tail = some e) :
    readDecimal? (whole ++ '.' :: (places ++ tail)) = some ⟨natOfDigits (whole ++ places), e - places.length⟩ := by
  have hpoint : ∀ c, ('.' :: (places ++ tail)).head? = some c → c.isDigit = false := by
    intro c hc
    cases hc
    rfl
  obtain ⟨htake, hdrop⟩ := span_append hwhole hpoint
  obtain ⟨hptake, hpdrop⟩ := span_append hplaces (not_isDigit_of_readExponent? htail)
  have hempty : whole.isEmpty = false := by simpa using hne
  simp only [readDecimal?, htake, hdrop, hptake, hpdrop, hempty, htail, Bool.false_and, Bool.false_eq_true, if_false,
    Option.map_some]

theorem readExponent?_exponentText (e : Int) : readExponent? ('e' :: exponentText plainStyle e) = some e := by
  have hne : (paddedText plainStyle.exponentDigits e.natAbs).isEmpty = false := by
    simp [paddedText, natText, Nat.toDigits_ne_nil]
  have hdigits : (paddedText plainStyle.exponentDigits e.natAbs).all Char.isDigit = true :=
    List.all_eq_true.2 isDigit_paddedText
  rcases Int.lt_or_le e 0 with h | h
  · rw [exponentText, if_pos h, readExponent?]
    simp only [splitSign, hne, hdigits, natOfDigits_paddedText, beq_self_eq_true, Bool.true_or, Bool.not_false,
      Bool.and_self, if_true]
    congr 1
    omega
  · rw [exponentText, if_neg (Int.not_lt.2 h), readExponent?]
    simp only [splitSign, hne, hdigits, natOfDigits_paddedText, beq_self_eq_true, Bool.true_or, Bool.not_false,
      Bool.and_self, if_true, Bool.false_eq_true, if_false]
    congr 1
    omega

/-! ## The text of a decimal -/

theorem readDecimal?_point_before {d : Decimal} (h : d.order ≤ 0) :
    readDecimal? ('0' :: '.' :: List.replicate (-d.order).toNat '0' ++ natText d.digits) = some d := by
  have hplaces := isDigit_append (isDigit_zeros (n := (-d.order).toNat)) (isDigit_natText (n := d.digits))
  have hzero : ∀ c ∈ ['0'], c.isDigit = true := isDigit_zeros (n := 1)
  have hread := readDecimal?_pointed hzero hplaces (List.cons_ne_nil _ _) readExponent?_nil
  have hvalue : natOfDigits (['0'] ++ (List.replicate (-d.order).toNat '0' ++ natText d.digits)) = d.digits := by
    rw [show ['0'] = List.replicate 1 '0' from rfl, natOfDigits_zeros_append, natOfDigits_zeros_append,
      natOfDigits_natText]
  have hexponent : (0 : Int) - (List.replicate (-d.order).toNat '0' ++ natText d.digits).length = d.exponent := by
    rw [List.length_append, List.length_replicate]
    rw [Decimal.order] at *
    omega
  rw [List.append_nil, hvalue, hexponent] at hread
  exact hread

theorem readDecimal?_point_after {d : Decimal} (h : (natText d.digits).length ≤ d.order.toNat) :
    ∃ d' : Decimal, readDecimal? (natText d.digits ++
      List.replicate (d.order.toNat - (natText d.digits).length) '0' ++ ['.', '0']) = some d' ∧ d'.value = d.value := by
  obtain ⟨k, hk⟩ : ∃ k : Nat, d.exponent = k := by
    refine ⟨d.exponent.toNat, ?_⟩
    have hpos := length_natText_pos d.digits
    rw [Decimal.order] at h
    omega
  have hzeros : d.order.toNat - (natText d.digits).length = k := by
    rw [Decimal.order]
    omega
  -- the zeros are read as digits, so other digits come back under another exponent
  have hwhole := isDigit_append (isDigit_natText (n := d.digits)) (isDigit_zeros (n := k))
  have hne : natText d.digits ++ List.replicate k '0' ≠ [] := List.append_ne_nil_of_left_ne_nil Nat.toDigits_ne_nil _
  have hzero : ∀ c ∈ ['0'], c.isDigit = true := isDigit_zeros (n := 1)
  have hread := readDecimal?_pointed hwhole hzero hne readExponent?_nil
  rw [hzeros]
  refine ⟨_, hread, ?_⟩
  rw [show ['0'] = List.replicate 1 '0' from rfl, natOfDigits_append_zeros, natOfDigits_append_zeros,
    natOfDigits_natText, Decimal.value, Decimal.value, hk]
  push_cast
  rw [List.length_singleton, zpow_natCast, Nat.cast_one, zero_sub, zpow_neg, zpow_one]
  field_simp

theorem readDecimal?_point_within {d : Decimal} (hpos : 0 < d.order) (h : d.order.toNat < (natText d.digits).length) :
    readDecimal? ((natText d.digits).take d.order.toNat ++ '.' :: (natText d.digits).drop d.order.toNat) = some d := by
  have hwhole : ∀ c ∈ (natText d.digits).take d.order.toNat, c.isDigit = true :=
    fun c hc => isDigit_natText c (List.mem_of_mem_take hc)
  have hplaces : ∀ c ∈ (natText d.digits).drop d.order.toNat, c.isDigit = true :=
    fun c hc => isDigit_natText c (List.mem_of_mem_drop hc)
  have hne : (natText d.digits).take d.order.toNat ≠ [] := by
    rw [← List.length_pos_iff, List.length_take]
    omega
  have hread := readDecimal?_pointed hwhole hplaces hne readExponent?_nil
  have hexponent : (0 : Int) - ((natText d.digits).drop d.order.toNat).length = d.exponent := by
    rw [List.length_drop]
    rw [Decimal.order] at *
    omega
  rw [List.append_nil, List.take_append_drop, natOfDigits_natText, hexponent] at hread
  exact hread

theorem readDecimal?_scientific (d : Decimal) :
    readDecimal? ((match natText d.digits with
      | [only]        => [only]
      | first :: more => first :: '.' :: more
      | []            => []) ++ 'e' :: exponentText plainStyle (d.order - 1)) = some d := by
  have hdigits := isDigit_natText (n := d.digits)
  have hvalue := natOfDigits_natText d.digits
  have htail := readExponent?_exponentText (d.order - 1)
  split
  · rename_i only heq
    have hread := readDecimal?_whole hdigits Nat.toDigits_ne_nil htail
    have hexponent : d.order - 1 = d.exponent := by
      rw [Decimal.order, heq, List.length_singleton]
      omega
    rw [hvalue, hexponent, heq] at hread
    rw [hexponent]
    exact hread
  · rename_i first more hmany heq
    rw [heq] at hdigits hvalue
    have hfirst : ∀ c ∈ [first], c.isDigit = true :=
      fun c hc => hdigits c (List.mem_singleton.1 hc ▸ List.mem_cons_self)
    have hmore : ∀ c ∈ more, c.isDigit = true := fun c hc => hdigits c (List.mem_cons_of_mem first hc)
    have hread := readDecimal?_pointed hfirst hmore (List.cons_ne_nil _ _) htail
    have hexponent : d.order - 1 - (more.length : Int) = d.exponent := by
      rw [Decimal.order, heq, List.length_cons]
      omega
    have hjoined : natOfDigits ([first] ++ more) = d.digits := hvalue
    rw [hjoined, hexponent] at hread
    exact hread
  · rename_i heq
    exact absurd heq Nat.toDigits_ne_nil

theorem readDecimal?_decimalText (d : Decimal) :
    ∃ d' : Decimal, readDecimal? (decimalText plainStyle d) = some d' ∧ d'.value = d.value := by
  rw [decimalText]
  split
  · rw [withPoint]
    split
    · rename_i h
      exact ⟨d, readDecimal?_point_before h, rfl⟩
    split
    · rename_i h
      exact readDecimal?_point_after h
    · rename_i hpos h
      exact ⟨d, readDecimal?_point_within (Int.not_le.1 hpos) (Nat.lt_of_not_le h), rfl⟩
  · exact ⟨d, readDecimal?_scientific d, rfl⟩

/-! ## Its characters -/

theorem startsNumber_of_isDigit {c : Char} (h : c.isDigit = true) : startsNumber c = true := by
  rw [startsNumber, h, Bool.true_or]

theorem isLiteral_of_starts {cs : List Char} (hne : cs ≠ []) (h : ∀ c ∈ cs, startsNumber c = true) :
    isLiteral cs = true := by
  cases cs with
  | nil => exact absurd rfl hne
  | cons c cs =>
    rw [isLiteral, h c List.mem_cons_self, Bool.true_and]
    exact goesOn_of_starts (fun d hd => h d (List.mem_cons_of_mem c hd)) c

theorem isLiteral_natText (n : Nat) : isLiteral (natText n) = true :=
  isLiteral_of_starts Nat.toDigits_ne_nil fun c hc => startsNumber_of_isDigit (isDigit_natText c hc)

theorem goesOn_exponentText (previous : Char) (e : Int) :
    goesOn previous ('e' :: exponentText plainStyle e) = true := by
  have hmark : extendsNumber previous 'e' = true := by simp [extendsNumber, isExponentMark]
  have hsign : ∀ c, c = '+' ∨ c = '-' → extendsNumber 'e' c = true := by rintro c (rfl | rfl) <;> rfl
  have hdigits (c : Char) : goesOn c (paddedText plainStyle.exponentDigits e.natAbs) = true :=
    goesOn_of_starts (fun d hd => startsNumber_of_isDigit (isDigit_paddedText d hd)) c
  rw [goesOn, hmark, Bool.true_and, exponentText, goesOn, hdigits, Bool.and_true]
  apply hsign
  split
  · exact .inr rfl
  · exact .inl rfl

theorem isLiteral_exponentText {cs : List Char} (h : isLiteral cs = true) (e : Int) :
    isLiteral (cs ++ 'e' :: exponentText plainStyle e) = true := by
  cases cs with
  | nil => exact absurd h Bool.false_ne_true
  | cons c cs =>
    rw [isLiteral, Bool.and_eq_true] at h
    rw [List.cons_append, isLiteral, goesOn_append, h.1, h.2, goesOn_exponentText]
    rfl

theorem starts_withPoint {ds : List Char} (hds : ∀ c ∈ ds, c.isDigit = true) (whole : Int) :
    ∀ c ∈ withPoint ds whole, startsNumber c = true := by
  have hstart : ∀ c, c.isDigit = true ∨ c = '.' → startsNumber c = true := by
    rintro c (h | rfl)
    · exact startsNumber_of_isDigit h
    · rfl
  intro c hc
  apply hstart
  rw [withPoint] at hc
  split at hc
  · simp only [List.mem_cons, List.mem_append, List.cons_append] at hc
    rcases hc with rfl | rfl | hc | hc
    · exact .inl rfl
    · exact .inr rfl
    · exact .inl (isDigit_zeros c hc)
    · exact .inl (hds c hc)
  split at hc
  · simp only [List.mem_cons, List.mem_append, List.not_mem_nil, or_false] at hc
    rcases hc with (hc | hc) | rfl | rfl
    · exact .inl (hds c hc)
    · exact .inl (isDigit_zeros c hc)
    · exact .inr rfl
    · exact .inl rfl
  · rw [List.mem_append, List.mem_cons] at hc
    rcases hc with hc | rfl | hc
    · exact .inl (hds c (List.mem_of_mem_take hc))
    · exact .inr rfl
    · exact .inl (hds c (List.mem_of_mem_drop hc))

theorem withPoint_ne_nil (ds : List Char) (whole : Int) : withPoint ds whole ≠ [] := by
  rw [withPoint]
  split
  · exact List.cons_ne_nil _ _
  split <;> simp

theorem isLiteral_decimalText (d : Decimal) : isLiteral (decimalText plainStyle d) = true := by
  have hdigits := isDigit_natText (n := d.digits)
  rw [decimalText]
  split
  · exact isLiteral_of_starts (withPoint_ne_nil _ _) (starts_withPoint hdigits _)
  · apply isLiteral_exponentText
    split
    · rename_i only heq
      rw [← heq]
      exact isLiteral_natText d.digits
    · rename_i first more hmany heq
      rw [heq] at hdigits
      rw [isLiteral, startsNumber_of_isDigit (hdigits first List.mem_cons_self), Bool.true_and]
      apply goesOn_of_starts
      intro c hc
      rcases List.mem_cons.1 hc with rfl | hc
      · rfl
      · exact startsNumber_of_isDigit (hdigits c (List.mem_cons_of_mem first hc))
    · rename_i heq
      exact absurd heq Nat.toDigits_ne_nil

/-! ## Doubles -/

theorem readDouble?_of_bits {x : Float} {cs : List Char} {d : Decimal} {m : Nat} {e : Int}
    (hx : exact x = .finite false m e) (hcs : isLiteral cs = true) (hread : readDecimal? cs = some d)
    (hbits : d.nearestBits = encoded m e) : readDouble? cs = some x := by
  obtain ⟨hsign, -, hmagnitude⟩ := exact_eq_finite hx
  rw [readDouble?_literal hcs, hread, Option.map_some, Decimal.toDouble, hbits, ← hmagnitude, hsign,
    ofMagnitude_magnitudeBits]

theorem encoded_zero {e : Int} (h : IsFinite64 0 e) : encoded 0 e = 0 := by
  rcases h.normal with h | rfl
  · exact absurd h (by decide)
  · decide

theorem doubleText_of_finite {x : Float} {m : Nat} {e : Int} (hx : exact x = .finite false m e) :
    doubleText x = if m = 0 then "0.0".toList else decimalText plainStyle (shortest m e (magnitudeBits x)) := by
  rw [doubleText, hx]
  rfl

theorem isLiteral_doubleText {x : Float} (h : isUnsigned x = true) : isLiteral (doubleText x) = true := by
  obtain ⟨m, e, hx⟩ := exact_of_isUnsigned h
  rw [doubleText_of_finite hx]
  split
  · decide
  · exact isLiteral_decimalText _

/-- **The text of a double reads back**, if the double is finite and not negative. -/
theorem readDouble?_doubleText {x : Float} (h : isUnsigned x = true) : readDouble? (doubleText x) = some x := by
  have hliteral := isLiteral_doubleText h
  obtain ⟨m, e, hx⟩ := exact_of_isUnsigned h
  obtain ⟨-, hfinite, hmagnitude⟩ := exact_eq_finite hx
  rw [doubleText_of_finite hx] at hliteral ⊢
  split at hliteral
  · rename_i hzero
    rw [if_pos hzero]
    subst hzero
    exact readDouble?_of_bits hx hliteral (d := ⟨0, -1⟩) rfl (encoded_zero hfinite).symm
  · rename_i hpos
    rw [if_neg hpos]
    obtain ⟨d, hread, hvalue⟩ := readDecimal?_decimalText (shortest m e (magnitudeBits x))
    refine readDouble?_of_bits hx hliteral hread ?_
    rw [Decimal.nearestBits_congr hvalue, hmagnitude]
    exact shortest_nearestBits hfinite (Nat.pos_of_ne_zero hpos)

/-! ## Numbers in formulas -/

theorem wholePart_value {x : Float} {m : Nat} {e : Int} (hx : exact x = .finite false m e) (h : isWhole x = true) :
    (⟨wholePart m e, 0⟩ : Decimal).value = m * 2 ^ e := by
  rw [isWhole, hx] at h
  simp only [Bool.or_eq_true, decide_eq_true_eq, beq_iff_eq] at h
  rw [Decimal.value, zpow_zero, mul_one, wholePart]
  split
  · rename_i hpos
    obtain ⟨n, rfl⟩ := Int.eq_ofNat_of_zero_le hpos
    simp
  · rename_i hneg
    obtain ⟨n, rfl⟩ : ∃ n : Nat, e = -(n : Int) := ⟨(-e).toNat, by omega⟩
    have hmod : m % 2 ^ n = 0 := by simpa using h.resolve_left hneg
    have hdiv : m / 2 ^ n * 2 ^ n = m := Nat.div_mul_cancel (Nat.dvd_of_mod_eq_zero hmod)
    rw [neg_neg, Int.toNat_natCast, Nat.pow_eq, zpow_neg, zpow_natCast]
    field_simp
    exact_mod_cast hdiv

theorem numberText_of_finite {x : Float} {m : Nat} {e : Int} (hx : exact x = .finite false m e) :
    numberText x = if isWhole x && wholePart m e < wholeLimit then natText (wholePart m e) else doubleText x := by
  rw [numberText, truncated?, hx]
  rfl

theorem isLiteral_numberText {x : Float} (h : isUnsigned x = true) : isLiteral (numberText x) = true := by
  obtain ⟨m, e, hx⟩ := exact_of_isUnsigned h
  rw [numberText_of_finite hx]
  split
  · exact isLiteral_natText _
  · exact isLiteral_doubleText h

/-- **The text of a number in a formula reads back**, if the number is finite and not negative. -/
theorem readDouble?_numberText {x : Float} (h : isUnsigned x = true) : readDouble? (numberText x) = some x := by
  obtain ⟨m, e, hx⟩ := exact_of_isUnsigned h
  obtain ⟨-, hfinite, -⟩ := exact_eq_finite hx
  rw [numberText_of_finite hx]
  split
  · rename_i hwhole
    rw [Bool.and_eq_true] at hwhole
    have hread := readDecimal?_whole (isDigit_natText (n := wholePart m e)) Nat.toDigits_ne_nil readExponent?_nil
    rw [List.append_nil, natOfDigits_natText] at hread
    have hvalue := wholePart_value hx hwhole.1
    refine readDouble?_of_bits hx (isLiteral_natText _) hread ?_
    rcases Nat.eq_zero_or_pos m with rfl | hm
    · rw [encoded_zero hfinite]
      have hzero : wholePart 0 e = 0 := by simp [wholePart]
      rw [hzero]
      rfl
    · exact Decimal.nearestBits_eq_encoded_of_value hvalue hfinite hm
  · exact readDouble?_doubleText h

end Abacus
