import Abacus.Token.Scan
/-!
# Number literals

What the scanner takes for a number is a literal: a digit or a point, and then characters each of which goes on the
number after the one before it.  A literal has fifteen characters to choose from, none of them a blank, an underscore
or a digit of another script, and starts with no sign and no name; so reading it is reading a decimal
(`readDouble?_literal`).  It ends where a character stands that goes on no number (`numberTail_of_goesOn`).
-/
namespace Abacus

def literalChars : List Char := "0123456789.eE+-".toList

def goesOn (previous : Char) : List Char → Bool
  | []      => true
  | c :: cs => extendsNumber previous c && goesOn c cs

def isLiteral : List Char → Bool
  | []      => false
  | c :: cs => startsNumber c && goesOn c cs

/-- No number that ends as `text` does goes on into `rest`. -/
def StopsNumber (text rest : List Char) : Prop :=
  ∀ previous c, rest.head? = some c → extendsNumber (text.getLastD previous) c = false

/-! ## Where a run of characters ends -/

theorem span_append {p : Char → Bool} {cs rest : List Char} (h : ∀ c ∈ cs, p c = true)
    (hrest : ∀ c, rest.head? = some c → p c = false) :
    (cs ++ rest).takeWhile p = cs ∧ (cs ++ rest).dropWhile p = rest := by
  rw [List.takeWhile_append_of_pos h, List.dropWhile_append_of_pos h]
  cases rest with
  | nil => exact ⟨List.append_nil cs, rfl⟩
  | cons c rest =>
    have hc : ¬ p c = true := by rw [hrest c rfl]; exact Bool.false_ne_true
    rw [List.takeWhile_cons_of_neg hc, List.dropWhile_cons_of_neg hc, List.append_nil]
    exact ⟨rfl, rfl⟩

theorem goesOn_numberTail (previous : Char) (cs : List Char) : goesOn previous (numberTail previous cs).1 = true := by
  induction cs generalizing previous with
  | nil => rfl
  | cons c cs ih =>
    unfold numberTail
    split
    · rename_i h
      rw [goesOn, h, ih c, Bool.and_self]
    · rfl

theorem numberTail_of_goesOn {previous : Char} {cs rest : List Char} (h : goesOn previous cs = true)
    (hrest : ∀ c, rest.head? = some c → extendsNumber (cs.getLastD previous) c = false) :
    numberTail previous (cs ++ rest) = (cs, rest) := by
  induction cs generalizing previous with
  | nil =>
    cases rest with
    | nil => rfl
    | cons c rest =>
      have hc : extendsNumber previous c = false := hrest c rfl
      rw [List.nil_append, numberTail, hc, if_neg Bool.false_ne_true]
  | cons c cs ih =>
    rw [goesOn, Bool.and_eq_true] at h
    rw [List.getLastD_cons] at hrest
    rw [List.cons_append, numberTail, if_pos h.1, ih h.2 hrest]

theorem head_numberTail {previous c : Char} {cs : List Char} (h : (numberTail previous cs).2.head? = some c) :
    extendsNumber ((numberTail previous cs).1.getLastD previous) c = false := by
  induction cs generalizing previous with
  | nil => cases h
  | cons d ds ih =>
    unfold numberTail at h ⊢
    split at h
    · rename_i hextends
      rw [if_pos hextends]
      dsimp only at h ⊢
      rw [List.getLastD_cons]
      exact ih h
    · rename_i hends
      cases h
      rw [if_neg hends]
      exact Bool.eq_false_iff.2 hends

theorem goesOn_append (previous : Char) (cs ds : List Char) :
    goesOn previous (cs ++ ds) = (goesOn previous cs && goesOn (cs.getLastD previous) ds) := by
  induction cs generalizing previous with
  | nil => simp [goesOn]
  | cons c cs ih => rw [List.cons_append, goesOn, goesOn, ih c, Bool.and_assoc, List.getLastD_cons]

theorem goesOn_of_starts {cs : List Char} (h : ∀ c ∈ cs, startsNumber c = true) (previous : Char) :
    goesOn previous cs = true := by
  induction cs generalizing previous with
  | nil => rfl
  | cons c cs ih =>
    have hc := h c List.mem_cons_self
    rw [startsNumber] at hc
    rw [goesOn, extendsNumber, hc, Bool.true_or, Bool.true_or, Bool.true_and]
    exact ih (fun d hd => h d (List.mem_cons_of_mem c hd)) c

/-! ## The characters of a literal -/

theorem mem_literalChars_of_isDigit {c : Char} (h : c.isDigit = true) : c ∈ literalChars := by
  have hall : ∀ n < 58, 48 ≤ n → Char.ofNat n ∈ literalChars := by decide
  simp only [Char.isDigit, ge_iff_le, Bool.and_eq_true, decide_eq_true_eq] at h
  rw [← Char.ofNat_toNat c]
  exact hall c.toNat (Nat.lt_succ_of_le h.2) h.1

theorem mem_literalChars_of_starts {c : Char} (h : startsNumber c = true) : c ∈ literalChars := by
  rw [startsNumber, Bool.or_eq_true, beq_iff_eq] at h
  rcases h with h | rfl
  · exact mem_literalChars_of_isDigit h
  · decide

theorem mem_literalChars_of_extends {previous c : Char} (h : extendsNumber previous c = true) : c ∈ literalChars := by
  simp only [extendsNumber, isExponentMark, Bool.or_eq_true, Bool.and_eq_true, beq_iff_eq] at h
  rcases h with ((h | rfl) | rfl | rfl) | ⟨rfl | rfl, -⟩
  · exact mem_literalChars_of_isDigit h
  all_goals decide

theorem mem_literalChars_of_goesOn {previous : Char} {cs : List Char} (h : goesOn previous cs = true) :
    ∀ c ∈ cs, c ∈ literalChars := by
  induction cs generalizing previous with
  | nil => exact fun c hc => absurd hc List.not_mem_nil
  | cons c cs ih =>
    rw [goesOn, Bool.and_eq_true] at h
    intro d hd
    rcases List.mem_cons.1 hd with rfl | hd
    · exact mem_literalChars_of_extends h.1
    · exact ih h.2 d hd

theorem mem_literalChars {cs : List Char} (h : isLiteral cs = true) : ∀ c ∈ cs, c ∈ literalChars := by
  cases cs with
  | nil => exact fun c hc => absurd hc List.not_mem_nil
  | cons c cs =>
    rw [isLiteral, Bool.and_eq_true] at h
    intro d hd
    rcases List.mem_cons.1 hd with rfl | hd
    · exact mem_literalChars_of_starts h.1
    · exact mem_literalChars_of_goesOn h.2 d hd

theorem passes_of_literalChars {p : Char → Bool} (h : literalChars.all p = true) {c : Char} (hc : c ∈ literalChars) :
    p c = true := List.all_eq_true.1 h c hc

/-! ## Reading a literal -/

theorem trim_eq_self {p : Char → Bool} {text : List Char} (h : ∀ c ∈ text, p c = false) : trim p text = text := by
  have hkeep {cs : List Char} (hcs : ∀ c ∈ cs, p c = false) : cs.dropWhile p = cs := by
    cases cs with
    | nil => rfl
    | cons c cs => exact List.dropWhile_cons_of_neg (by rw [hcs c List.mem_cons_self]; exact Bool.false_ne_true)
  rw [trim, hkeep h, hkeep fun c hc => h c (List.mem_reverse.1 hc), List.reverse_reverse]

theorem numeralOf_literal {cs : List Char} (h : ∀ c ∈ cs, c ∈ literalChars) : numeralOf cs = cs := by
  have hall : literalChars.all (fun c => !isNumeralBlank c && toAsciiDigit c == c) = true := by decide
  have hplain : ∀ c ∈ cs, isNumeralBlank c = false ∧ toAsciiDigit c = c := by
    intro c hc
    simpa using passes_of_literalChars hall (h c hc)
  rw [numeralOf, trim_eq_self fun c hc => (hplain c hc).1]
  calc cs.map toAsciiDigit = cs.map id := List.map_congr_left fun c hc => (hplain c hc).2
    _ = cs := List.map_id cs

theorem dropUnderscores_eq_self {cs : List Char} (h : '_' ∉ cs) (previous : Char) :
    dropUnderscores previous cs = some cs := by
  induction cs generalizing previous with
  | nil => rfl
  | cons c cs ih =>
    rw [List.mem_cons, not_or] at h
    have hne : (c == '_') = false := beq_false_of_ne (Ne.symm h.1)
    unfold dropUnderscores
    rw [hne, if_neg Bool.false_ne_true, ih h.2, Option.map_some]

theorem splitSign_of_starts {c : Char} (h : startsNumber c = true) (cs : List Char) :
    splitSign (c :: cs) = (false, c :: cs) := by
  unfold splitSign
  split
  · rename_i heq
    cases heq
    exact absurd h (by decide)
  · rename_i heq
    cases heq
    exact absurd h (by decide)
  · rfl

theorem readNamed?_of_starts {c : Char} (h : startsNumber c = true) (cs : List Char) (negative : Bool) :
    readNamed? negative (c :: cs) = none := by
  have hall : literalChars.all (fun d => !startsNumber d || d.toLower != 'i' && d.toLower != 'n') = true := by decide
  have hname := passes_of_literalChars hall (mem_literalChars_of_starts h)
  rw [h, Bool.not_true, Bool.false_or, Bool.and_eq_true, bne_iff_ne, bne_iff_ne] at hname
  simp [readNamed?, hname.1, hname.2]

/-- **Reading a literal is reading a decimal.** -/
theorem readDouble?_literal {cs : List Char} (h : isLiteral cs = true) :
    readDouble? cs = (readDecimal? cs).map (Decimal.toDouble false) := by
  have hchars := mem_literalChars h
  have hunderscore : '_' ∉ cs := fun hmem => absurd (hchars '_' hmem) (by decide)
  cases cs with
  | nil => exact absurd h Bool.false_ne_true
  | cons c cs =>
    rw [isLiteral, Bool.and_eq_true] at h
    rw [readDouble?, numeralOf_literal hchars, splitSign_of_starts h.1]
    simp only [readUnsigned?]
    rw [readNamed?_of_starts h.1, dropUnderscores_eq_self hunderscore, Option.bind_some]

end Abacus
