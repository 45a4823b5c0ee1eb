import Abacus.Proofs.Decimal.ReadBack
/-!
# The grammar of literals

A decimal literal is digits with an optional point and digits, or a point and digits, and then perhaps an exponent.
What the scanner collects is more liberal than that, and what the reader of numerals takes is more liberal in other
ways; what both of them take is just the grammar (`decimalLiteral_iff_isLiteral`).
-/
namespace Abacus

structure IsDigits (ds : List Char) : Prop where
  ne_nil : ds ≠ []
  isDigit : ∀ c ∈ ds, c.isDigit = true

inductive ExponentPart : List Char → Prop
  | absent : ExponentPart []
  | unsigned {mark : Char} {ds : List Char} (hmark : isExponentMark mark = true) (hds : IsDigits ds) :
      ExponentPart (mark :: ds)
  | signed {mark sign : Char} {ds : List Char} (hmark : isExponentMark mark = true) (hsign : sign = '+' ∨ sign = '-')
      (hds : IsDigits ds) : ExponentPart (mark :: sign :: ds)

/-- A decimal literal: digits, perhaps with a point after them and more digits after that, or a point and digits, and an
exponent or none. -/
inductive DecimalLiteral : List Char → Prop
  | whole {ds tail : List Char} (hds : IsDigits ds) (htail : ExponentPart tail) : DecimalLiteral (ds ++ tail)
  | pointed {ds places tail : List Char} (hds : IsDigits ds) (hplaces : ∀ c ∈ places, c.isDigit = true)
      (htail : ExponentPart tail) : DecimalLiteral (ds ++ '.' :: (places ++ tail))
  | fraction {places tail : List Char} (hplaces : IsDigits places) (htail : ExponentPart tail) :
      DecimalLiteral ('.' :: (places ++ tail))

variable {cs ds places tail : List Char}

/-! ## The reader takes every literal -/

theorem isDigits_iff : IsDigits ds ↔ (!ds.isEmpty && ds.all Char.isDigit) = true := by
  rw [Bool.and_eq_true, Bool.not_eq_true', List.isEmpty_eq_false_iff, List.all_eq_true]
  exact ⟨fun h => ⟨h.ne_nil, h.isDigit⟩, fun h => ⟨h.1, h.2⟩⟩

theorem IsDigits.splitSign (h : IsDigits ds) : splitSign ds = (false, ds) := by
  cases ds with
  | nil => exact absurd rfl h.ne_nil
  | cons c cs => exact splitSign_of_starts (startsNumber_of_isDigit (h.isDigit c List.mem_cons_self)) cs

theorem readExponent?_mark {mark : Char} (hmark : isExponentMark mark = true) (cs : List Char) :
    (readExponent? (mark :: cs)).isSome ↔ IsDigits (splitSign cs).2 := by
  rw [readExponent?, ← isExponentMark, hmark, if_pos rfl, isDigits_iff]
  dsimp only
  split <;> simp [*]

theorem splitSign_cases (cs : List Char) :
    (splitSign cs).2 = cs ∨ ∃ sign, (sign = '+' ∨ sign = '-') ∧ cs = sign :: (splitSign cs).2 := by
  unfold splitSign
  split
  · exact .inr ⟨'+', .inl rfl, rfl⟩
  · exact .inr ⟨'-', .inr rfl, rfl⟩
  · exact .inl rfl

theorem exponentPart_iff : ExponentPart cs ↔ (readExponent? cs).isSome := by
  constructor
  · rintro (_ | ⟨hmark, hds⟩ | ⟨hmark, rfl | rfl, hds⟩)
    · rfl
    · rw [readExponent?_mark hmark, hds.splitSign]
      exact hds
    all_goals exact (readExponent?_mark hmark _).2 hds
  · intro h
    cases cs with
    | nil => exact .absent
    | cons mark cs =>
      have hmark : isExponentMark mark = true := by
        obtain ⟨e, he⟩ := Option.isSome_iff_exists.1 h
        simpa [isExponentMark] using head_of_readExponent? he mark rfl
      rw [readExponent?_mark hmark] at h
      obtain hnone | ⟨sign, hsign, hcs⟩ := splitSign_cases cs
      · exact .unsigned hmark (hnone ▸ h)
      · rw [hcs]
        exact .signed hmark hsign h

theorem DecimalLiteral.isSome_readDecimal? (h : DecimalLiteral cs) : (readDecimal? cs).isSome := by
  obtain ⟨hds, htail⟩ | ⟨hds, hplaces, htail⟩ | @⟨places, tail, hplaces, htail⟩ := h
  all_goals obtain ⟨e, he⟩ := Option.isSome_iff_exists.1 (exponentPart_iff.1 htail)
  · rw [readDecimal?_whole hds.isDigit hds.ne_nil he]
    rfl
  · rw [readDecimal?_pointed hds.isDigit hplaces hds.ne_nil he]
    rfl
  · obtain ⟨htake, hdrop⟩ := span_append hplaces.isDigit (not_isDigit_of_readExponent? he)
    have hpoint : Char.isDigit '.' = false := rfl
    have hne : places.isEmpty = false := List.isEmpty_eq_false_iff.2 hplaces.ne_nil
    simp [readDecimal?, hpoint, htake, hdrop, hne, he]

theorem decimalLiteral_of_readDecimal? (h : (readDecimal? cs).isSome) : DecimalLiteral cs := by
  have hsplit : cs.takeWhile Char.isDigit ++ cs.dropWhile Char.isDigit = cs := List.takeWhile_append_dropWhile
  have hwhole : ∀ c ∈ cs.takeWhile Char.isDigit, c.isDigit = true := fun c hc => List.mem_takeWhile_imp hc
  rw [← hsplit]
  unfold readDecimal? at h
  dsimp only at h
  split at h
  · rename_i more hpoint
    split at h
    · exact absurd h Bool.false_ne_true
    rename_i hsome
    rw [Option.isSome_map, ← exponentPart_iff] at h
    have hplaces : ∀ c ∈ more.takeWhile Char.isDigit, c.isDigit = true := fun c hc => List.mem_takeWhile_imp hc
    rw [hpoint, ← List.takeWhile_append_dropWhile (p := Char.isDigit) (l := more)]
    by_cases hnone : cs.takeWhile Char.isDigit = []
    · rw [hnone, List.nil_append]
      refine .fraction ⟨fun hempty => hsome ?_, hplaces⟩ h
      rw [hnone, hempty]
      rfl
    · exact .pointed ⟨hnone, hwhole⟩ hplaces h
  · split at h
    · exact absurd h Bool.false_ne_true
    rename_i hsome
    rw [Option.isSome_map, ← exponentPart_iff] at h
    refine .whole ⟨fun hempty => hsome ?_, hwhole⟩ h
    rw [hempty]
    rfl

/-! ## The scanner collects every literal -/

theorem ExponentPart.goesOn (h : ExponentPart tail) (previous : Char) : goesOn previous tail = true := by
  have hmarks {mark : Char} (hmark : isExponentMark mark = true) : extendsNumber previous mark = true := by
    simp [extendsNumber, hmark]
  have hdigits {ds : List Char} (hds : IsDigits ds) (c : Char) : Abacus.goesOn c ds = true :=
    goesOn_of_starts (fun d hd => startsNumber_of_isDigit (hds.isDigit d hd)) c
  obtain _ | ⟨hmark, hds⟩ | ⟨hmark, hsign, hds⟩ := h
  · rfl
  · rw [Abacus.goesOn, hmarks hmark, hdigits hds, Bool.and_self]
  · rw [Abacus.goesOn, Abacus.goesOn, hmarks hmark, hdigits hds, Bool.and_true, Bool.true_and]
    simp [extendsNumber, hmark, hsign]

theorem DecimalLiteral.parts (h : DecimalLiteral cs) : ∃ front tail, cs = front ++ tail ∧ front ≠ [] ∧
    (∀ c ∈ front, startsNumber c = true) ∧ ExponentPart tail := by
  obtain @⟨ds, tail, hds, htail⟩ | @⟨ds, places, tail, hds, hplaces, htail⟩ | @⟨places, tail, hplaces, htail⟩ := h
  · exact ⟨ds, tail, rfl, hds.ne_nil, fun c hc => startsNumber_of_isDigit (hds.isDigit c hc), htail⟩
  · refine ⟨ds ++ '.' :: places, tail, by simp, by simp, fun c hc => ?_, htail⟩
    rcases List.mem_append.1 hc with hc | hc
    · exact startsNumber_of_isDigit (hds.isDigit c hc)
    rcases List.mem_cons.1 hc with rfl | hc
    · rfl
    · exact startsNumber_of_isDigit (hplaces c hc)
  · refine ⟨'.' :: places, tail, rfl, List.cons_ne_nil _ _, fun c hc => ?_, htail⟩
    rcases List.mem_cons.1 hc with rfl | hc
    · rfl
    · exact startsNumber_of_isDigit (hplaces.isDigit c hc)

theorem DecimalLiteral.isLiteral (h : DecimalLiteral cs) : isLiteral cs = true := by
  obtain ⟨front, tail, rfl, hne, hfront, htail⟩ := h.parts
  cases front with
  | nil => exact absurd rfl hne
  | cons c front =>
    rw [List.cons_append, Abacus.isLiteral, hfront c List.mem_cons_self, Bool.true_and, goesOn_append,
      goesOn_of_starts (fun d hd => hfront d (List.mem_cons_of_mem c hd)), htail.goesOn, Bool.and_self]

/-- **What the scanner collects and the reader takes are the decimal literals.** -/
theorem decimalLiteral_iff_isLiteral : DecimalLiteral cs ↔ isLiteral cs = true ∧ (readDouble? cs).isSome := by
  constructor
  · intro h
    refine ⟨h.isLiteral, ?_⟩
    rw [readDouble?_literal h.isLiteral, Option.isSome_map]
    exact h.isSome_readDecimal?
  · rintro ⟨hliteral, hread⟩
    rw [readDouble?_literal hliteral, Option.isSome_map] at hread
    exact decimalLiteral_of_readDecimal? hread

/-! ## Where a literal ends -/

theorem ExponentPart.ends (h : ExponentPart tail) : tail = [] ∨ ∃ front ds, tail = front ++ ds ∧ IsDigits ds := by
  obtain _ | @⟨mark, ds, _, hds⟩ | @⟨mark, sign, ds, _, _, hds⟩ := h
  · exact .inl rfl
  · exact .inr ⟨[mark], ds, rfl, hds⟩
  · exact .inr ⟨[mark, sign], ds, rfl, hds⟩

theorem DecimalLiteral.startsNumber_last (h : DecimalLiteral cs) (previous : Char) :
    startsNumber (cs.getLastD previous) = true := by
  have hlast {front back : List Char} (hne : back ≠ []) (hback : ∀ c ∈ back, startsNumber c = true) :
      startsNumber ((front ++ back).getLastD previous) = true := by
    rw [List.getLastD_eq_getLast?, List.getLast?_append, List.getLast?_eq_some_getLast hne, Option.some_or,
      Option.getD_some]
    exact hback _ (List.getLast_mem hne)
  obtain ⟨front, tail, rfl, hne, hfront, htail⟩ := h.parts
  obtain rfl | ⟨middle, ds, rfl, hds⟩ := htail.ends
  · rw [List.append_nil, ← List.nil_append front]
    exact hlast hne hfront
  · rw [← List.append_assoc]
    exact hlast hds.ne_nil fun c hc => startsNumber_of_isDigit (hds.isDigit c hc)

def keepsOn (c : Char) : Bool := c.isDigit || c == '.' || isExponentMark c

theorem DecimalLiteral.extendsNumber_last (h : DecimalLiteral cs) (previous c : Char) :
    extendsNumber (cs.getLastD previous) c = keepsOn c := by
  have hmark : isExponentMark (cs.getLastD previous) = false := by
    have hall : literalChars.all (fun d => !startsNumber d || !isExponentMark d) = true := by decide
    have hstarts := h.startsNumber_last previous
    have hd := passes_of_literalChars hall (mem_literalChars_of_starts hstarts)
    rwa [hstarts, Bool.not_true, Bool.false_or, Bool.not_eq_true'] at hd
  rw [extendsNumber, hmark, Bool.and_false, Bool.or_false, keepsOn]

end Abacus
