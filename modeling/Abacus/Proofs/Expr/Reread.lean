import Abacus.Expr.Value
import Abacus.Proofs.Decimal.Signs
import Abacus.Proofs.Expr.RoundTrip
/-!
# What the text of any tree means

A tree that was not parsed may hold numbers that no literal reads as.  A number below zero is written with a sign in
front, which is an operator to the parser: as the base of a power it gives its sign to the whole power.  A zero that has
a sign is written without it.  `reread` is the tree that such a text reads as (`says_reread`).  It has the value of the
tree that was written, in every context, if the tree has neither of the two (`evaluate_of_parse_text`).
-/
namespace Abacus
namespace Expr

open Grammar

def belowZero? : Expr → Option Float
  | .number x => if isBelowZero x then some x else none
  | _         => none

def ofNumber (x : Float) : Expr :=
  if isBelowZero x then .signed .minus (.number (unsigned x)) else .number (unsigned x)

mutual
/-- The tree that the canonical text reads as.  The sign of a number that is the base of a power is that of the
power. -/
def reread : Expr → Expr
  | .number x       => ofNumber x
  | .constant c     => .constant c
  | .var name       => .var name
  | .signed s x     => .signed s x.reread
  | .binary op l r  =>
    match if op = .pow then l.belowZero? else none with
    | some x => .signed .minus (.binary .pow (.number (unsigned x)) r.reread)
    | none   => .binary op l.reread r.reread
  | .call name args => .call name (allReread args)

def allReread : List Expr → List Expr
  | []      => []
  | x :: xs => x.reread :: allReread xs
end

mutual
/-- The operands that stand within each other in the canonical text, where the sign of a number is one. -/
def nesting : Expr → Nat
  | .number x      => if isBelowZero x then 2 else 1
  | .signed _ x    => 2 + x.nesting
  | .binary op l r =>
    if op = .pow then
      if l.belowZero?.isSome then 3 + r.nesting
      else max ((if l.isSigned then 2 else 1) + l.nesting) (2 + r.nesting)
    else 1 + max l.nesting r.nesting
  | .call _ args   => 1 + nestings args
  | _              => 1

def nestings : List Expr → Nat
  | []      => 0
  | x :: xs => max x.nesting (nestings xs)
end

mutual
/-- Whether no number is the zero with a sign, and no base of a power is a number below zero. -/
def keepsSigns : Expr → Bool
  | .number x      => !isSignedZero x
  | .signed _ x    => x.keepsSigns
  | .binary op l r => (if op = .pow then l.belowZero?.isNone else true) && l.keepsSigns && r.keepsSigns
  | .call _ args   => allKeepSigns args
  | _              => true

def allKeepSigns : List Expr → Bool
  | []      => true
  | x :: xs => x.keepsSigns && allKeepSigns xs
end

variable {e l r : Expr} {op : Operator} {x : Float}

theorem allReread_eq_map (args : List Expr) : allReread args = args.map reread := by
  induction args with
  | nil => rfl
  | cons a args ih => rw [allReread, ih, List.map_cons]

theorem nestings_eq_highest (args : List Expr) : nestings args = highest nesting args := by
  induction args with
  | nil => rfl
  | cons a args ih => rw [nestings, ih, highest, highest, List.map_cons, List.foldr_cons]

theorem allKeepSigns_iff {args : List Expr} : allKeepSigns args = true ↔ ∀ a ∈ args, a.keepsSigns = true := by
  induction args with
  | nil => simp [allKeepSigns]
  | cons a args ih => simp [allKeepSigns, ih]

theorem eq_number_of_belowZero? (h : e.belowZero? = some x) : e = .number x ∧ isBelowZero x = true := by
  cases e with
  | number y =>
    rw [belowZero?] at h
    split at h
    · rename_i hy
      cases h
      exact ⟨rfl, hy⟩
    · cases h
  | _ => cases h

/-! ## The text says it -/

structure Reads (e : Expr) : Prop where
  operand : Says (Operand e.nesting) e.text e.reread
  primary : e.belowZero? = none → ∃ n, e.nesting = n + 1 ∧ Says (Primary n) e.text e.reread

theorem Reads.of_primary {n : Nat} (hn : e.nesting = n + 1) (h : Says (Primary n) e.text e.reread) : Reads e :=
  ⟨hn ▸ h.operand, fun _ => ⟨n, hn, h⟩⟩

theorem reads_number (h : x.isFinite = true) : Reads (.number x) := by
  have hliteral := says_number (isUnsigned_unsigned h)
  have htext := numberText_eq_signed h
  cases hb : isBelowZero x with
  | false =>
    rw [hb, Abacus.signed, if_neg Bool.false_ne_true] at htext
    refine .of_primary (n := 0) ?_ ?_
    · rw [nesting, hb, if_neg Bool.false_ne_true]
    · rw [text, reread, ofNumber, hb, htext, if_neg Bool.false_ne_true]
      exact hliteral
  | true =>
    rw [hb, Abacus.signed, if_pos rfl] at htext
    refine ⟨?_, fun hnone => ?_⟩
    · rw [text, nesting, reread, ofNumber, hb, htext, if_pos rfl, if_pos rfl]
      exact hliteral.operand.signed .minus
    · rw [belowZero?, hb, if_pos rfl] at hnone
      cases hnone

/-- The base takes its sign to the front of the power. -/
theorem reads_power_of_belowZero (hx : x.isFinite = true) (hl : l.belowZero? = some x) (hr : Reads r) :
    Reads (.binary .pow l r) := by
  have hpower := Says.raised (says_number (isUnsigned_unsigned hx)) hr.operand
  refine .of_primary (n := max 0 r.nesting + 1 + 1) ?_ ?_
  · rw [nesting, if_pos rfl, hl, Option.isSome_some, if_pos rfl]
    omega
  · obtain ⟨rfl, hb⟩ := eq_number_of_belowZero? hl
    have htext := numberText_eq_signed hx
    rw [hb, Abacus.signed, if_pos rfl] at htext
    rw [reread, if_pos rfl, hl]
    simp only [text, isSigned, htext]
    exact (hpower.signed .minus).expression.group

theorem reads_power (hnone : l.belowZero? = none) (hl : Reads l) (hr : Reads r) : Reads (.binary .pow l r) := by
  obtain ⟨b, hb, hbase⟩ := says_base (hl.primary hnone)
  refine .of_primary (n := max b r.nesting + 1) ?_ ?_
  · rw [nesting, if_pos rfl, hnone, Option.isSome_none, if_neg Bool.false_ne_true]
    omega
  · rw [reread, if_pos rfl, hnone]
    exact (hbase.raised hr.operand).expression.group

theorem reads_joined (hop : op ≠ .pow) (hl : Reads l) (hr : Reads r) : Reads (.binary op l r) := by
  refine .of_primary (n := max l.nesting r.nesting) ?_ ?_
  · rw [nesting, if_neg hop, Nat.add_comm]
  · rw [reread, if_neg hop, text, if_neg fun hboth => hop hboth.1]
    exact (hl.operand.joined hop hr.operand).group

/-- **The canonical text of a tree of finite numbers says the tree it reads as.** -/
theorem says_reread (h : e.isWorded Float.isFinite = true) : Reads e := by
  induction e using inductionOn with
  | number x => exact reads_number h
  | constant c => exact .of_primary rfl (says_constant c)
  | var name =>
    rw [isWorded, Bool.and_eq_true, Option.isNone_iff_eq_none] at h
    exact .of_primary rfl (says_var h.1 h.2)
  | signed s x hx =>
    refine .of_primary (n := x.nesting + 1) ?_ ((hx h).operand.signed s).expression.group
    rw [nesting]
    omega
  | binary op l r hl hr =>
    rw [isWorded, Bool.and_eq_true] at h
    by_cases hop : op = .pow
    · subst hop
      cases hbelow : l.belowZero? with
      | none => exact reads_power hbelow (hl h.1) (hr h.2)
      | some x =>
        obtain ⟨rfl, -⟩ := eq_number_of_belowZero? hbelow
        exact reads_power_of_belowZero h.1 hbelow (hr h.2)
    · exact reads_joined hop (hl h.1) (hr h.2)
  | call name args hargs =>
    rw [isWorded, Bool.and_eq_true, areWorded_iff] at h
    have hcall := says_call h.1 fun a ha => (hargs a ha (h.2 a ha)).operand.expression
    rw [← allReread_eq_map, ← nestings_eq_highest] at hcall
    exact .of_primary (by rw [nesting, Nat.add_comm]) hcall

/-! ## It reads as that -/

theorem height_ofNumber_le (x : Float) : (ofNumber x).height ≤ nesting (.number x) := by
  rw [ofNumber, nesting]
  split <;> exact Nat.le_refl _

theorem height_reread_le (e : Expr) : e.reread.height ≤ e.nesting := by
  induction e using inductionOn with
  | number x => exact height_ofNumber_le x
  | constant c => exact Nat.le_refl 1
  | var name => exact Nat.le_refl 1
  | signed s x hx =>
    rw [reread, height, nesting]
    omega
  | binary op l r hl hr =>
    rw [reread, nesting]
    by_cases hop : op = .pow
    · rw [if_pos hop, if_pos hop]
      cases l.belowZero? with
      | none =>
        simp only [height]
        have hbase : 1 ≤ if l.isSigned then 2 else 1 := by split <;> decide
        rw [Option.isSome_none, if_neg Bool.false_ne_true]
        omega
      | some x =>
        simp only [height]
        rw [Option.isSome_some, if_pos rfl]
        omega
    · rw [if_neg hop, if_neg hop]
      simp only [height]
      omega
  | call name args h =>
    have hargs : heights (allReread args) ≤ nestings args := by
      clear name
      induction args with
      | nil => exact Nat.le_refl 0
      | cons x xs ih =>
        have hx := h x List.mem_cons_self
        have hxs := ih fun y hy => h y (List.mem_cons_of_mem x hy)
        rw [allReread, heights, nestings]
        omega
    rw [reread, height, nesting]
    omega

theorem parse_text_reread (h : e.isWorded Float.isFinite = true) :
    (e.nesting ≤ maxNesting → parse e.text = .ok e.reread) ∧
    (maxNesting < e.nesting → ∃ err, parse e.text = .error (.parse err) ∧ err.kind = .tooDeep) := by
  obtain ⟨ts, q, hspells, hrule⟩ := (says_reread h).operand.expression 0
  rw [parse_of_scan hspells.scan]
  exact parse_of_expression hrule (height_reread_le e)

/-! ## Its value -/

variable (r : Registry) (c : Context)

theorem evaluate_ofNumber (hfinite : x.isFinite = true) (h : isSignedZero x = false) :
    evaluate r c (ofNumber x) = .ok x := by
  rw [ofNumber]
  cases hn : isNegative x with
  | false =>
    rw [isBelowZero, hn, Bool.false_and, if_neg Bool.false_ne_true, evaluate, unsigned_of_not_isNegative hn]
  | true =>
    have hbelow : isBelowZero x = true := by
      rw [isSignedZero, hn, Bool.true_and] at h
      rw [isBelowZero, hn, Bool.true_and, bne, h, Bool.not_false]
    have hvalue : Sign.minus.apply (unsigned x) = x := neg_unsigned hfinite hn
    rw [if_pos hbelow, evaluate, evaluate]
    exact congrArg Except.ok hvalue

theorem evaluate_reread (h : e.isWorded Float.isFinite = true) (hkeeps : e.keepsSigns = true) :
    evaluate r c e.reread = evaluate r c e := by
  induction e using inductionOn with
  | number x =>
    rw [keepsSigns, Bool.not_eq_true'] at hkeeps
    rw [reread, evaluate_ofNumber r c h hkeeps, evaluate]
  | constant k => rfl
  | var name => rfl
  | signed s x hx => rw [reread, evaluate, evaluate, hx h hkeeps]
  | binary op l r' hl hr =>
    rw [isWorded, Bool.and_eq_true] at h
    rw [keepsSigns, Bool.and_eq_true, Bool.and_eq_true] at hkeeps
    obtain ⟨⟨hbase, hleft⟩, hright⟩ := hkeeps
    have hnone : (if op = .pow then l.belowZero? else none) = none := by
      split
      · rename_i hop
        rwa [if_pos hop, Option.isNone_iff_eq_none] at hbase
      · rfl
    rw [reread, hnone, evaluate, evaluate, hl h.1 hleft, hr h.2 hright]
  | call name args hargs =>
    rw [isWorded, Bool.and_eq_true, areWorded_iff] at h
    rw [keepsSigns, allKeepSigns_iff] at hkeeps
    replace h := h.2
    have hall : evaluateAll r c (allReread args) = evaluateAll r c args := by
      induction args with
      | nil => rfl
      | cons a args ih =>
        have ha := hargs a List.mem_cons_self (h a List.mem_cons_self) (hkeeps a List.mem_cons_self)
        have hmore :=
          ih (fun y hy => hargs y (List.mem_cons_of_mem a hy)) (fun y hy => hkeeps y (List.mem_cons_of_mem a hy))
            fun y hy => h y (List.mem_cons_of_mem a hy)
        rw [allReread, evaluateAll, evaluateAll, ha, hmore]
    rw [reread, evaluate, evaluate, hall]

omit r c in
/-- **Writing a tree keeps its meaning, but for signs.**  The text of a tree of finite numbers and of words reads,
within the nesting limit, as `reread` of the tree and is too deep otherwise.  What is read has the value of the
tree, or its error, in every context, if no number of the tree is the zero with a sign and no base of a power is a
number below zero. -/
theorem evaluate_of_parse_text (h : e.isWorded Float.isFinite = true) :
    (e.nesting ≤ maxNesting → parse e.text = .ok e.reread) ∧
    (maxNesting < e.nesting → ∃ err, parse e.text = .error (.parse err) ∧ err.kind = .tooDeep) ∧
    (e.keepsSigns = true → ∀ u, parse e.text = .ok u → ∀ r c, evaluate r c u = evaluate r c e) := by
  obtain ⟨hok, hdeep⟩ := parse_text_reread h
  refine ⟨hok, hdeep, fun hkeeps u hu r c => ?_⟩
  rcases Nat.lt_or_ge maxNesting e.nesting with hlt | hle
  · obtain ⟨err, herr, -⟩ := hdeep hlt
    rw [herr] at hu
    cases hu
  · rw [hok hle] at hu
    cases hu
    exact evaluate_reread r c h hkeeps

/-- `max(-2, x) - 2^-0.5 * -1e+300`: numbers below zero wherever they keep their sign. -/
def belowZeroes : Expr :=
  .binary .sub (.call "max".toList [.number (-2), .var ['x']])
    (.binary .mul (.binary .pow (.number 2) (.number (-0.5))) (.number (-1e300)))

theorem evaluate_of_parse_text_belowZeroes :
    belowZeroes.isWorded Float.isFinite = true ∧ parse belowZeroes.text = .ok belowZeroes.reread ∧
      belowZeroes.text = "(max(-2, x) - ((2 ^ -0.5) * -1e+300))".toList ∧
      ∀ r c, evaluate r c belowZeroes.reread = evaluate r c belowZeroes := by
  have hworded : belowZeroes.isWorded Float.isFinite = true := by decide +kernel
  obtain ⟨hok, -, hvalue⟩ := evaluate_of_parse_text hworded
  have hparse := hok (by decide +kernel)
  exact ⟨hworded, hparse, by decide +kernel, hvalue (by decide +kernel) _ hparse⟩

/-- `(-2)^2` as a tree whose base is a number. -/
def squareBelowZero : Expr := .binary .pow (.number (-2)) (.number 2)

/-- A square is read as the negation of one, and a zero with a sign as one without. -/
theorem evaluate_parse_text_ne :
    parse squareBelowZero.text = .ok (.signed .minus (.binary .pow (.number 2) (.number 2))) ∧
    ¬ ∀ e u, e.isWorded Float.isFinite = true → parse e.text = .ok u → ∀ r c, evaluate r c u = evaluate r c e := by
  constructor
  · have hbelow : (Expr.number (-2)).belowZero? = some (-2) := by decide +kernel
    have htwo : ofNumber 2 = .number (unsigned 2) := if_neg (by decide +kernel)
    have hread :
        squareBelowZero.reread = .signed .minus (.binary .pow (.number (unsigned (-2))) (.number (unsigned 2))) := by
      rw [squareBelowZero, reread, if_pos rfl, hbelow, reread, htwo]
    have hparse := (parse_text_reread (e := squareBelowZero) (by decide +kernel)).1 (by decide +kernel)
    have hmagnitude : unsigned (-2) = 2 := by decide +kernel
    have hmagnitude' : unsigned 2 = 2 := by decide +kernel
    rw [hparse, hread, hmagnitude, hmagnitude']
  · intro hsame
    have hworded : (Expr.number (-0.0)).isWorded Float.isFinite = true := by decide +kernel
    have hparse := (parse_text_reread hworded).1 (by decide +kernel)
    have hzero : ofNumber (-0.0) = .number 0 := by
      rw [ofNumber, if_neg (by decide +kernel)]
      exact congrArg Expr.number (by decide +kernel)
    rw [reread, hzero] at hparse
    have hvalue := hsame _ _ hworded hparse ⟨[]⟩ []
    rw [evaluate, evaluate, Except.ok.injEq] at hvalue
    exact absurd hvalue (by decide +kernel)

end Expr
end Abacus
