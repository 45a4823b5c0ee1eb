import Abacus.Json.Print
import Abacus.Json.Read
import Abacus.Proofs.Decimal.ReadBack
/-!
# Numbers read back

A number of a value is followed by the end of the text or by a character that closes or separates, and goes on with
none of these.  So a whole number reads back unless it has too many digits (`number_intText`).  The text of a finite
double is a decimal with a point or an exponent and no needless zero in front, hence a double in JSON as well, and the
one it was (`number_doubleText`).
-/
namespace Abacus.Json

def closers : List Char := [',', ']', '}']

def Closed (rest : List Char) : Prop := ∀ c, rest.head? = some c → c ∈ closers

structure IsWholeText (ds : List Char) : Prop where
  ne_nil : ds ≠ []
  isDigit : ∀ c ∈ ds, c.isDigit = true
  lead : ds = ['0'] ∨ ds.head? ≠ some '0'

variable {whole places tail tail' rest ds : List Char} {negative : Bool}

theorem closed_nil : Closed [] := fun _ h => by cases h

theorem closed_cons {c : Char} (h : c ∈ closers) (cs : List Char) : Closed (c :: cs) := by
  intro d hd
  cases hd
  exact h

theorem Closed.passes {p : Char → Bool} (h : Closed rest) (hall : closers.all p = true) :
    ∀ c, rest.head? = some c → p c = true :=
  fun c hc => List.all_eq_true.1 hall c (h c hc)

theorem Closed.not_isDigit (h : Closed rest) : ∀ c, rest.head? = some c → c.isDigit = false := by
  intro c hc
  have hall : closers.all (fun c => !c.isDigit) = true := by decide
  simpa using h.passes hall c hc

/-! ## The parts of a number -/

theorem wholeDigits_append (h : IsWholeText whole) (htail : ∀ c, tail.head? = some c → c.isDigit = false) :
    wholeDigits (whole ++ tail) = (whole, tail) := by
  rcases h.lead with rfl | hlead
  · rfl
  · obtain ⟨htake, hdrop⟩ := span_append h.isDigit htail
    rw [wholeDigits, htake, hdrop]
    rintro cs heq
    obtain ⟨c, more, rfl⟩ := List.exists_cons_of_ne_nil h.ne_nil
    rw [List.cons_append, List.cons.injEq] at heq
    exact hlead (by rw [heq.1]; rfl)

theorem fraction_of_closed (h : Closed rest) : fraction rest = (none, rest) := by
  have hpoint : ∀ c, rest.head? = some c → (c != '.') = true := h.passes (by decide)
  rw [fraction]
  rintro cs rfl
  exact absurd (hpoint '.' rfl) (by decide)

theorem fraction_exponentText (e : Int) (rest : List Char) :
    fraction ('e' :: exponentText plainStyle e ++ rest) = (none, 'e' :: exponentText plainStyle e ++ rest) := rfl

theorem fraction_pointed (hplaces : ∀ c ∈ places, c.isDigit = true) (hne : places ≠ [])
    (htail : ∀ c, tail.head? = some c → c.isDigit = false) :
    fraction ('.' :: (places ++ tail)) = (some places, tail) := by
  obtain ⟨htake, hdrop⟩ := span_append hplaces htail
  have hempty : places.isEmpty = false := by simpa using hne
  simp only [fraction, htake, hdrop, hempty, Bool.false_eq_true, if_false]

theorem exponent_of_closed (h : Closed rest) : exponent rest = (none, rest) := by
  have hmark : ∀ c, rest.head? = some c → (!(c == 'e' || c == 'E')) = true := h.passes (by decide)
  cases rest with
  | nil => rfl
  | cons c cs =>
    have hc := hmark c rfl
    rw [Bool.not_eq_true'] at hc
    simp only [exponent, hc, Bool.false_and, Bool.false_eq_true, if_false]

theorem exponent_exponentText (e : Int) (h : Closed rest) :
    exponent ('e' :: exponentText plainStyle e ++ rest) = (some e, rest) := by
  have hdigits : ∀ c ∈ paddedText plainStyle.exponentDigits e.natAbs, c.isDigit = true := isDigit_paddedText
  obtain ⟨htake, hdrop⟩ := span_append hdigits h.not_isDigit
  have hempty : (paddedText plainStyle.exponentDigits e.natAbs).isEmpty = false := by
    simp [paddedText, natText, Nat.toDigits_ne_nil]
  rcases Int.lt_or_le e 0 with hneg | hpos
  · rw [exponentText, if_pos hneg, List.cons_append, List.cons_append, exponent]
    simp only [splitSign, htake, hdrop, hempty, natOfDigits_paddedText, beq_self_eq_true, Bool.true_or, Bool.not_false,
      Bool.and_self, if_true]
    congr 2
    omega
  · rw [exponentText, if_neg (Int.not_lt.2 hpos), List.cons_append, List.cons_append, exponent]
    simp only [splitSign, htake, hdrop, hempty, natOfDigits_paddedText, beq_self_eq_true, Bool.true_or, Bool.not_false,
      Bool.and_self, if_true, Bool.false_eq_true, if_false]
    congr 2
    omega

def ofParts (negative : Bool) (whole : List Char) (places : Option (List Char)) (e : Option Int) :
    Except ReadError Json :=
  match places, e with
  | none, none => wholeNumber negative whole
  | _, _       =>
    .ok (.double (Decimal.toDouble negative
      ⟨natOfDigits (whole ++ places.getD []), e.getD 0 - (places.getD []).length⟩))

theorem number_signed (negative : Bool) {places : Option (List Char)} {e : Option Int} (hwhole : IsWholeText whole)
    (htail : ∀ c, tail.head? = some c → c.isDigit = false) (hfraction : fraction tail = (places, tail'))
    (hexponent : exponent tail' = (e, rest)) :
    number (signed negative whole ++ tail) = (ofParts negative whole places e).map fun v => (v, rest) := by
  have hempty : whole.isEmpty = false := by simpa using hwhole.ne_nil
  have hdigits := wholeDigits_append hwhole htail
  cases negative with
  | true =>
    simp only [number, signed, if_true, List.cons_append, hdigits, hfraction, hexponent, hempty, Bool.false_eq_true,
      if_false]
    cases places <;> cases e <;> rfl
  | false =>
    obtain ⟨c, more, rfl⟩ := List.exists_cons_of_ne_nil hwhole.ne_nil
    unfold number
    split
    rename_i heq
    split at heq
    · rename_i hminus
      cases hminus
      exact absurd (hwhole.isDigit '-' List.mem_cons_self) (by decide)
    · cases heq
      simp only [signed, Bool.false_eq_true, if_false, hdigits, hfraction, hexponent, hempty]
      cases places <;> cases e <;> rfl

/-! ## Whole numbers -/

theorem head_natText {n : Nat} (h : 0 < n) : (natText n).head? ≠ some '0' := by
  induction n using Nat.strongRecOn with
  | ind n ih =>
    rcases Nat.lt_or_ge n 10 with hlt | hge
    · rw [natText, Nat.toDigits_of_lt_base hlt]
      have hall : ∀ k < 10, 0 < k → [Nat.digitChar k].head? ≠ some '0' := by decide
      exact hall n hlt h
    · have hmore := ih (n / 10) (Nat.div_lt_self h (by decide)) (Nat.div_pos hge (by decide))
      rw [natText] at hmore ⊢
      rw [Nat.toDigits_of_base_le (by decide) hge, List.head?_append_of_ne_nil _ Nat.toDigits_ne_nil]
      exact hmore

theorem isWholeText_natText (n : Nat) : IsWholeText (natText n) := by
  refine ⟨Nat.toDigits_ne_nil, isDigit_natText, ?_⟩
  rcases Nat.eq_zero_or_pos n with rfl | h
  · exact .inl rfl
  · exact .inr (head_natText h)

theorem wholeNumber_natText {n : Int} (h : isUnwritable n = false) :
    wholeNumber (decide (n < 0)) (natText n.natAbs) = .ok (.int n) := by
  -- said of any number of digits, so that the power is not computed
  have hbelow : ∀ k, ¬ Nat.pow 10 k ≤ n.natAbs → n.natAbs < 10 ^ k := fun _ hnot => Nat.lt_of_not_le hnot
  have hlength : (natText n.natAbs).length ≤ maxDigits :=
    (length_natText_le_iff (by decide)).2 (hbelow maxDigits (of_decide_eq_false h))
  have hvalue : (if decide (n < 0) = true then -(n.natAbs : Int) else n.natAbs) = n := by
    by_cases hn : n < 0
    · rw [decide_eq_true hn, if_pos rfl]
      omega
    · rw [decide_eq_false hn, if_neg Bool.false_ne_true]
      omega
  rw [wholeNumber, numberOfDigits, if_neg (Nat.not_lt.2 hlength), natOfDigits_natText]
  simp only [hvalue]

theorem intText_eq_signed (n : Int) : intText n = signed (decide (n < 0)) (natText n.natAbs) := by
  rw [intText, signed]
  simp only [decide_eq_true_eq]

/-- **A whole number reads back**, unless it has too many digits. -/
theorem number_intText {n : Int} (h : isUnwritable n = false) (hrest : Closed rest) :
    number (intText n ++ rest) = .ok (.int n, rest) := by
  have hnumber := number_signed (decide (n < 0)) (isWholeText_natText n.natAbs) hrest.not_isDigit
    (fraction_of_closed hrest) (exponent_of_closed hrest)
  rw [ofParts, wholeNumber_natText h] at hnumber
  rw [intText_eq_signed, hnumber]
  rfl

/-! ## Doubles -/

/-- In JSON the text is a double, the one that reading decimals makes of it. -/
def IsDoubleText (text : List Char) : Prop :=
  ∃ d : Decimal, readDecimal? text = some d ∧ ∀ negative rest, Closed rest →
    number (signed negative text ++ rest) = .ok (.double (d.toDouble negative), rest)

theorem signed_append (negative : Bool) (cs ds : List Char) :
    signed negative (cs ++ ds) = signed negative cs ++ ds := by
  cases negative <;> rfl

theorem isDoubleText_pointed {e : Int} (hwhole : IsWholeText whole) (hplaces : ∀ c ∈ places, c.isDigit = true)
    (hne : places ≠ []) (htail : tail = [] ∧ e = 0 ∨ tail = 'e' :: exponentText plainStyle e) :
    IsDoubleText (whole ++ '.' :: (places ++ tail)) := by
  have hread : readExponent? tail = some e := by
    rcases htail with ⟨rfl, rfl⟩ | rfl
    · rfl
    · exact readExponent?_exponentText e
  refine ⟨_, readDecimal?_pointed hwhole.isDigit hplaces hwhole.ne_nil hread, fun negative rest hrest => ?_⟩
  obtain ⟨hnext, e', hexponent, he⟩ : (∀ c, (tail ++ rest).head? = some c → c.isDigit = false) ∧
      ∃ e', exponent (tail ++ rest) = (e', rest) ∧ e'.getD 0 = e := by
    rcases htail with ⟨rfl, rfl⟩ | rfl
    · exact ⟨hrest.not_isDigit, none, exponent_of_closed hrest, rfl⟩
    · refine ⟨fun c hc => ?_, some e, exponent_exponentText e hrest, rfl⟩
      cases hc
      rfl
  have hpoint : ∀ c, ('.' :: (places ++ (tail ++ rest))).head? = some c → c.isDigit = false := by
    intro c hc
    cases hc
    rfl
  have hnumber := number_signed negative hwhole hpoint (fraction_pointed hplaces hne hnext) hexponent
  rw [signed_append, List.append_assoc, List.cons_append, List.append_assoc, hnumber, ← he]
  rfl

theorem isDoubleText_scientific {e : Int} (hwhole : IsWholeText whole) :
    IsDoubleText (whole ++ 'e' :: exponentText plainStyle e) := by
  refine ⟨_, readDecimal?_whole hwhole.isDigit hwhole.ne_nil (readExponent?_exponentText e),
    fun negative rest hrest => ?_⟩
  have hmark : ∀ c, ('e' :: exponentText plainStyle e ++ rest).head? = some c → c.isDigit = false := by
    intro c hc
    cases hc
    rfl
  have hnumber := number_signed negative hwhole hmark (fraction_exponentText e rest)
    (exponent_exponentText e hrest)
  have hparts :
      ofParts negative whole none (some e) = .ok (.double (Decimal.toDouble negative ⟨natOfDigits whole, e⟩)) := by
    simp [ofParts]
  rw [signed_append, List.append_assoc, hnumber, hparts]
  rfl

theorem isDoubleText_withPoint {ds : List Char} (hdigits : ∀ c ∈ ds, c.isDigit = true) (hne : ds ≠ [])
    (hlead : ds.head? ≠ some '0') (order : Int) : IsDoubleText (withPoint ds order) := by
  have hzero : ∀ c ∈ ['0'], c.isDigit = true := isDigit_zeros (n := 1)
  have hnil (cs : List Char) : cs = cs ++ [] := (List.append_nil cs).symm
  rw [withPoint]
  split
  · -- the point is before the digits
    have hplaces := isDigit_append (isDigit_zeros (n := (-order).toNat)) hdigits
    rw [List.cons_append, List.cons_append, hnil (List.replicate _ _ ++ _)]
    exact isDoubleText_pointed ⟨by decide, hzero, .inl rfl⟩ hplaces (List.append_ne_nil_of_right_ne_nil _ hne)
      (.inl ⟨rfl, rfl⟩)
  split
  · -- it is after them
    have hwhole := isDigit_append hdigits (isDigit_zeros (n := order.toNat - ds.length))
    refine isDoubleText_pointed ⟨List.append_ne_nil_of_left_ne_nil hne _, hwhole, .inr ?_⟩ hzero (by decide)
      (.inl ⟨rfl, rfl⟩)
    rw [List.head?_append_of_ne_nil _ hne]
    exact hlead
  · -- it is within them
    rename_i hpos hlt
    have hwhole : ∀ c ∈ ds.take order.toNat, c.isDigit = true := fun c hc => hdigits c (List.mem_of_mem_take hc)
    have hplaces : ∀ c ∈ ds.drop order.toNat, c.isDigit = true := fun c hc => hdigits c (List.mem_of_mem_drop hc)
    have hsome : ds.take order.toNat ≠ [] := by
      rw [← List.length_pos_iff, List.length_take]
      omega
    have hmore : ds.drop order.toNat ≠ [] := by
      rw [ne_eq, List.drop_eq_nil_iff]
      exact hlt
    rw [hnil (ds.drop _)]
    refine isDoubleText_pointed ⟨hsome, hwhole, .inr ?_⟩ hplaces hmore (.inl ⟨rfl, rfl⟩)
    rw [List.head?_take, if_neg (by omega)]
    exact hlead

theorem isDoubleText_decimalText {d : Decimal} (h : 0 < d.digits) : IsDoubleText (decimalText plainStyle d) := by
  have hdigits := isDigit_natText (n := d.digits)
  have hlead := head_natText h
  rw [decimalText]
  split
  · exact isDoubleText_withPoint hdigits Nat.toDigits_ne_nil hlead d.order
  split
  · rename_i only heq
    rw [← heq]
    exact isDoubleText_scientific (isWholeText_natText d.digits)
  · rename_i first more hmany heq
    rw [heq] at hdigits hlead
    have hmore : more ≠ [] := by
      rintro rfl
      exact hmany rfl
    have hwhole : IsWholeText [first] :=
      ⟨by simp, fun c hc => hdigits c (List.mem_singleton.1 hc ▸ List.mem_cons_self), .inr hlead⟩
    exact isDoubleText_pointed hwhole (fun c hc => hdigits c (List.mem_cons_of_mem first hc)) hmore (.inr rfl)
  · rename_i heq
    exact absurd heq Nat.toDigits_ne_nil

theorem doubleText_starts {x : Float} (h : x.isFinite = true) :
    ∃ negative c cs, startsNumber c = true ∧ doubleText x = signed negative (c :: cs) := by
  obtain ⟨negative, m, e, hx⟩ := exact_of_isFinite h
  rw [doubleText, hx]
  dsimp only
  split
  · exact ⟨negative, '0', ".0".toList, rfl, rfl⟩
  · have hliteral := isLiteral_decimalText (shortest m e (magnitudeBits x))
    cases hcs : decimalText plainStyle (shortest m e (magnitudeBits x)) with
    | nil => rw [hcs] at hliteral; cases hliteral
    | cons c cs =>
      rw [hcs, isLiteral, Bool.and_eq_true] at hliteral
      exact ⟨negative, c, cs, hliteral.1, rfl⟩

theorem doubleName_of_isFinite {x : Float} (h : x.isFinite = true) : doubleName x = doubleText x := by
  obtain ⟨negative, m, e, hx⟩ := exact_of_isFinite h
  rw [doubleName, hx]

theorem number_of_bits {x : Float} {m : Nat} {e : Int} {text : List Char} {d : Decimal}
    (hx : exact x = .finite negative m e) (htext : IsDoubleText text) (hread : readDecimal? text = some d)
    (hbits : d.nearestBits = encoded m e) (hrest : Closed rest) :
    number (signed negative text ++ rest) = .ok (.double x, rest) := by
  obtain ⟨hsign, -, hmagnitude⟩ := exact_eq_finite hx
  obtain ⟨d', hread', hnumber⟩ := htext
  obtain rfl : d' = d := Option.some.inj (hread'.symm.trans hread)
  rw [hnumber negative rest hrest, Decimal.toDouble, hbits, ← hmagnitude, hsign, ofMagnitude_magnitudeBits]

/-- **A finite double reads back.** -/
theorem number_doubleText {x : Float} (h : x.isFinite = true) (hrest : Closed rest) :
    number (doubleText x ++ rest) = .ok (.double x, rest) := by
  obtain ⟨negative, m, e, hx⟩ := exact_of_isFinite h
  obtain ⟨-, hfinite, hmagnitude⟩ := exact_eq_finite hx
  rw [doubleText, hx]
  dsimp only
  split
  · rename_i hm
    subst hm
    have hzero : ∀ c ∈ ['0'], c.isDigit = true := isDigit_zeros (n := 1)
    have hwhole : IsWholeText ['0'] := ⟨by decide, hzero, .inl rfl⟩
    have htext : IsDoubleText "0.0".toList := isDoubleText_pointed hwhole hzero (by decide) (.inl ⟨rfl, rfl⟩)
    exact number_of_bits hx htext rfl (encoded_zero hfinite).symm hrest
  · rename_i hm
    have hpos : 0 < m := Nat.pos_of_ne_zero hm
    have hbits := shortest_nearestBits hfinite hpos
    have hdigits : 0 < (shortest m e (encoded m e)).digits := by
      refine Nat.pos_of_ne_zero fun hzero => ?_
      rw [Decimal.nearestBits, if_pos hzero, encoded] at hbits
      omega
    obtain ⟨d, hread, hvalue⟩ := readDecimal?_decimalText (shortest m e (encoded m e))
    rw [hmagnitude]
    exact number_of_bits hx (isDoubleText_decimalText hdigits) hread ((Decimal.nearestBits_congr hvalue).trans hbits)
      hrest

end Abacus.Json
