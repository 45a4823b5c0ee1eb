import Abacus.Proofs.Expr.RoundTrip
/-!
# Which canonical texts are fixed points

The canonical text of a parsed tree says the tree, but for one thing: a literal that overflows is infinite, infinity is
written `inf`, and that is a name.  The tree that is said instead (`spoken`) has the same text, so the text is a fixed
point all the same, if it can be read at all.  It can as long as its nesting is within the limit
(`parse_text_fixed_point_iff`), and its nesting is not that of the text that was parsed: each sign and each operation
has got a pair of parentheses, and each pair is an operand more.
-/
namespace Abacus
namespace Expr

mutual
def spoken : Expr → Expr
  | .number x       => if x = infinity false then .var "inf".toList else .number x
  | .constant c     => .constant c
  | .var name       => .var name
  | .signed s x     => .signed s x.spoken
  | .binary op l r  => .binary op l.spoken r.spoken
  | .call name args => .call name (allSpoken args)

def allSpoken : List Expr → List Expr
  | []      => []
  | x :: xs => x.spoken :: allSpoken xs
end

theorem numberText_infinity : numberText (infinity false) = "inf".toList := by decide +kernel

theorem isSigned_spoken (e : Expr) : e.spoken.isSigned = e.isSigned := by
  cases e with
  | number x =>
    rw [spoken]
    split <;> rfl
  | _ => rfl

theorem text_spoken (e : Expr) : e.spoken.text = e.text := by
  induction e using inductionOn with
  | number x =>
    rw [spoken]
    split
    · rename_i hinf
      rw [hinf, text, text, numberText_infinity]
    · rfl
  | constant c => rfl
  | var name => rfl
  | signed s x hx => rw [spoken, text, text, hx]
  | binary op l r hl hr => rw [spoken, text, text, hl, hr, isSigned_spoken]
  | call name args h =>
    have hargs : texts (allSpoken args) = texts args := by
      clear name
      induction args with
      | nil => rfl
      | cons x xs ih =>
        rw [allSpoken, texts, texts, h x List.mem_cons_self, ih fun y hy => h y (List.mem_cons_of_mem x hy)]
    rw [spoken, text, text, hargs]

theorem need_spoken (e : Expr) : e.spoken.need = e.need := by
  induction e using inductionOn with
  | number x =>
    rw [spoken]
    split <;> rfl
  | constant c => rfl
  | var name => rfl
  | signed s x hx => rw [spoken, need, need, hx]
  | binary op l r hl hr => rw [spoken, need, need, hl, hr, isSigned_spoken]
  | call name args h =>
    have hargs : needs (allSpoken args) = needs args := by
      clear name
      induction args with
      | nil => rfl
      | cons x xs ih =>
        rw [allSpoken, needs, needs, h x List.mem_cons_self, ih fun y hy => h y (List.mem_cons_of_mem x hy)]
    rw [spoken, need, need, hargs]

def isLiteralValue (x : Float) : Bool := decide (x = infinity false) || isUnsigned x

theorem isReadable_spoken {e : Expr} (h : e.isWorded isLiteralValue = true) : e.spoken.isReadable = true := by
  induction e using inductionOn with
  | number x =>
    rw [isWorded, isLiteralValue, Bool.or_eq_true, decide_eq_true_eq] at h
    rw [spoken]
    split
    · decide +kernel
    · rename_i hfinite
      exact h.resolve_left hfinite
  | constant c => rfl
  | var name => exact h
  | signed s x hx => exact hx h
  | binary op l r hl hr =>
    rw [isWorded, Bool.and_eq_true] at h
    rw [isReadable, spoken, isWorded, Bool.and_eq_true]
    exact ⟨hl h.1, hr h.2⟩
  | call name args hargs =>
    rw [isWorded, Bool.and_eq_true, areWorded_iff] at h
    have hall : areWorded isUnsigned (allSpoken args) = true := by
      replace h := h.2
      induction args with
      | nil => rfl
      | cons x xs ih =>
        rw [allSpoken, areWorded, Bool.and_eq_true]
        exact ⟨hargs x List.mem_cons_self (h x List.mem_cons_self),
          ih (fun y hy => hargs y (List.mem_cons_of_mem x hy)) fun y hy => h y (List.mem_cons_of_mem x hy)⟩
    rw [isReadable, spoken, isWorded, h.1, hall]
    rfl

theorem parse_text_of_parse {text : List Char} {e : Expr} (h : parse text = .ok e) :
    (e.need ≤ maxNesting → parse e.text = .ok e.spoken) ∧
    (maxNesting < e.need → ∃ err, parse e.text = .error (.parse err) ∧ err.kind = .tooDeep) := by
  have hworded : e.isWorded isLiteralValue = true := by
    refine isWorded_of_parse h fun ts hscan t ht hk x hx => ?_
    rw [isLiteralValue, Bool.or_eq_true, decide_eq_true_eq]
    exact overflows_or_isUnsigned ((lexical_of_scan hscan t ht).literal hk).1 hx
  -- the text of the tree is that of the tree it says, and the latter can be read back
  have hspoken := parse_text (isReadable_spoken hworded)
  rwa [text_spoken, need_spoken] at hspoken

/-- **A canonical text is a fixed point just when its nesting is within the limit**; otherwise it is refused as too
deep, though it comes from a tree that was parsed. -/
theorem parse_text_fixed_point_iff {text : List Char} {e : Expr} (h : parse text = .ok e) :
    ((∃ u, parse e.text = .ok u ∧ u.text = e.text) ↔ e.need ≤ maxNesting) ∧
    (maxNesting < e.need → ∃ err, parse e.text = .error (.parse err) ∧ err.kind = .tooDeep) := by
  obtain ⟨hok, hdeep⟩ := parse_text_of_parse h
  refine ⟨⟨?_, fun hle => ⟨e.spoken, hok hle, text_spoken e⟩⟩, hdeep⟩
  rintro ⟨u, hu, -⟩
  refine Nat.le_of_not_lt fun hlt => ?_
  obtain ⟨err, herr, -⟩ := hdeep hlt
  rw [hu] at herr
  cases herr

/-! ## Where the two nestings part -/

/-- `x` behind fifty signs: fifty-one operands within each other as it stands, a hundred and one in its canonical
text. -/
def fiftySigns : List Char := List.replicate 50 '-' ++ ['x']

theorem exists_of_any {ε α : Type} {p : α → Bool} {x : Except ε α} (h : x.toOption.any p = true) :
    ∃ a, x = .ok a ∧ p a = true := by
  cases x with
  | error err => cases h
  | ok a => exact ⟨a, rfl, h⟩

theorem fixed_point_iff_fiftySigns :
    ∃ e, parse fiftySigns = .ok e ∧ maxNesting < e.need ∧ (∃ err, parse e.text = .error (.parse err) ∧
      err.kind = .tooDeep) ∧ ∃ u, parse fiftySigns.tail = .ok u ∧ ∃ v, parse u.text = .ok v ∧ v.text = u.text := by
  have hfifty : (parse fiftySigns).toOption.any (fun e => decide (maxNesting < e.need)) = true := by decide +kernel
  have hfewer : (parse fiftySigns.tail).toOption.any (fun e => decide (e.need ≤ maxNesting)) = true := by
    decide +kernel
  obtain ⟨e, he, hlt⟩ := exists_of_any hfifty
  obtain ⟨u, hu, hle⟩ := exists_of_any hfewer
  have hdeep := (parse_text_fixed_point_iff he).2 (of_decide_eq_true hlt)
  have hfixed := (parse_text_fixed_point_iff hu).1.2 (of_decide_eq_true hle)
  exact ⟨e, he, of_decide_eq_true hlt, hdeep, u, hu, hfixed⟩

theorem not_fixed_point_fiftySigns :
    ¬ ∀ text e, parse text = .ok e → ∃ u, parse e.text = .ok u ∧ u.text = e.text := by
  intro hfixed
  have hfifty : (parse fiftySigns).toOption.any (fun e => (parse e.text).toOption.isNone) = true := by decide +kernel
  obtain ⟨e, he, hnone⟩ := exists_of_any hfifty
  obtain ⟨u, hu, -⟩ := hfixed fiftySigns e he
  rw [hu] at hnone
  cases hnone

end Expr
end Abacus
