import Abacus.Proofs.Decimal.Signs
import Abacus.Proofs.Expr.Calls
import Abacus.Proofs.Expr.Parts
/-!
# Parsed trees are shallow

The parser counts the operands that stand within each other, and the tree shows fewer of them: parentheses count and
leave no node.  What stays is the operand of a sign, an argument and an exponent, each of which starts an operand of its
own (`Edge.nests`); sums, products and bases go on at the level where they stand.  So on no path from the root down are
there as many edges of these as levels are allowed (`Expression.operandDepth_lt`), and the height of the tree, which is
limited by itself, bounds how many calls of an evaluation are open at a time.
-/
namespace Abacus

theorem zero_le_of_isLiteral {cs : List Char} {x : Float} (h : isLiteral cs = true) (hx : readDouble? cs = some x) :
    0 ≤ x ∧ x.isNaN = false := by
  rw [readDouble?_literal h, Option.map_eq_some_iff] at hx
  obtain ⟨d, -, rfl⟩ := hx
  have hle := d.nearestBits_le
  refine zero_le_of_magnitudeBits_le (isNegative_ofMagnitude hle false) ?_
  exact (magnitudeBits_ofMagnitude hle false).trans_le hle

abbrev Edge := Expr × Nat

/-- Whether the edge leads to the operand of a sign, to an argument or to an exponent. -/
def Edge.nests : Edge → Bool
  | (.signed _ _, _)    => true
  | (.binary op _ _, i) => op == .pow && i == 1
  | (.call _ _, _)      => true
  | _                   => false

namespace Expr

/-- The edges of a path from the root of a tree down to a leaf, in order. -/
inductive Descent : Expr → List Edge → Prop
  | leaf {e} : e.children = [] → Descent e []
  | down {e child i edges} : e.children[i]? = some child → Descent child edges → Descent e ((e, i) :: edges)

theorem Descent.exists_path {e : Expr} {edges : List Edge} (h : Descent e edges) :
    ∃ p, Path e p ∧ p.length = edges.length + 1 := by
  induction h with
  | leaf hnone => exact ⟨_, .leaf hnone, rfl⟩
  | down hchild _ ih =>
    obtain ⟨p, hp, hlength⟩ := ih
    exact ⟨_, .down (List.mem_of_getElem? hchild) hp, by simp [hlength]⟩

mutual
def operandDepth : Expr → Nat
  | .signed _ x    => x.operandDepth + 1
  | .binary op l r => max l.operandDepth (if op = .pow then r.operandDepth + 1 else r.operandDepth)
  | .call _ args   => argumentDepth args
  | _              => 0

def argumentDepth : List Expr → Nat
  | []      => 0
  | x :: xs => max (x.operandDepth + 1) (argumentDepth xs)
end

theorem argumentDepth_le_iff {n : Nat} : ∀ {args : List Expr}, argumentDepth args ≤ n ↔ ∀ a ∈ args, a.operandDepth < n
  | []        => by simp [argumentDepth]
  | a :: args => by
    have ih := @argumentDepth_le_iff n args
    rw [argumentDepth, Nat.max_le, ih, List.forall_mem_cons, Nat.succ_le_iff]

theorem operandDepth_child {e child : Expr} {i : Nat} (h : e.children[i]? = some child) :
    child.operandDepth + (if Edge.nests (e, i) then 1 else 0) ≤ e.operandDepth := by
  cases e with
  | number x => cases h
  | constant c => cases h
  | var name => cases h
  | signed s x =>
    rcases i with _ | i
    · cases h
      exact Nat.le_refl _
    · cases h
  | binary op l r =>
    rcases i with _ | _ | i
    · cases h
      rw [operandDepth, Edge.nests, show ((0 : Nat) == 1) = false from rfl, Bool.and_false]
      exact Nat.le_max_left _ _
    · cases h
      refine Nat.le_trans ?_ (Nat.le_max_right _ _)
      cases op <;> exact Nat.le_refl _
    · cases h
  | call name args => exact argumentDepth_le_iff.1 (Nat.le_refl _) child (List.mem_of_getElem? h)

theorem Descent.countP_le {e : Expr} {edges : List Edge} (h : Descent e edges) :
    edges.countP Edge.nests ≤ e.operandDepth := by
  induction h with
  | leaf _ => exact Nat.zero_le _
  | down hchild _ ih =>
    rw [List.countP_cons]
    exact Nat.le_trans (Nat.add_le_add_right ih _) (operandDepth_child hchild)

end Expr

namespace Grammar

open Abacus.Expr

/-! ## Nesting in the text and in the tree -/

theorem ne_pow_of_sum {k : TokenKind} {op : Operator} (h : k.sum? = some op) : op ≠ .pow := by
  rintro rfl
  cases k <;> cases h

theorem ne_pow_of_product {k : TokenKind} {op : Operator} (h : k.product? = some op) : op ≠ .pow := by
  rintro rfl
  cases k <;> cases h

mutual

/-- **A tree has fewer operands within each other than its text.** -/
theorem Expression.operandDepth_lt {n : Nat} {ts : List Token} {e : Expr} : Expression n ts e → e.operandDepth < n
  | .term h          => h.operandDepth_lt
  | .sum hl hop hr => by
    rw [operandDepth, if_neg (ne_pow_of_sum hop)]
    exact max_lt_max hl.operandDepth_lt hr.operandDepth_lt

theorem Term.operandDepth_lt {n : Nat} {ts : List Token} {e : Expr} : Term n ts e → e.operandDepth < n
  | .operand h => h.operandDepth_lt
  | .product hl hop hr => by
    rw [operandDepth, if_neg (ne_pow_of_product hop)]
    exact max_lt_max hl.operandDepth_lt hr.operandDepth_lt

theorem Operand.operandDepth_lt {n : Nat} {ts : List Token} {e : Expr} : Operand n ts e → e.operandDepth < n
  | .signed _ h => Nat.succ_lt_succ h.operandDepth_lt
  | .power h    => Nat.lt_succ_of_le h.operandDepth_le

theorem Power.operandDepth_le {n : Nat} {ts : List Token} {e : Expr} : Power n ts e → e.operandDepth ≤ n
  | .primary h     => h.operandDepth_le
  | .raised hb _ hx => by
    rw [operandDepth, if_pos rfl]
    exact max_le_max hb.operandDepth_le hx.operandDepth_lt

theorem Primary.operandDepth_le {n : Nat} {ts : List Token} {e : Expr} : Primary n ts e → e.operandDepth ≤ n
  | .number _ _       => Nat.le_refl 0
  | .call _ _ hargs _ => argumentDepth_le_iff.2 hargs.operandDepth_lt
  | .constant _ _     => Nat.le_refl 0
  | .free _ _         => Nat.le_refl 0
  | .group _ h _      => Nat.le_of_lt h.operandDepth_lt

theorem Arguments.operandDepth_lt {n : Nat} {ts : List Token} {args : List Expr} :
    Arguments n ts args → ∀ a ∈ args, a.operandDepth < n
  | .none   => List.forall_mem_nil _
  | .some h => h.operandDepth_lt

theorem ArgumentList.operandDepth_lt {n : Nat} {ts : List Token} {args : List Expr} :
    ArgumentList n ts args → ∀ a ∈ args, a.operandDepth < n
  | .one h          => List.forall_mem_singleton.2 h.operandDepth_lt
  | .more h _ hmore => List.forall_mem_cons.2 ⟨lt_max_of_lt_left h.operandDepth_lt,
      fun a ha => lt_max_of_lt_right (hmore.operandDepth_lt a ha)⟩

end

theorem Expression.limits {n : Nat} {ts : List Token} {e : Expr} (h : Expression n ts e) (hok : ofTokens ts = .ok e) :
    n ≤ maxNesting ∧ e.height ≤ maxHeight := by
  by_contra hnot
  obtain ⟨err, herr, -⟩ := h.ofTokens_eq.2 hnot
  rw [hok] at herr
  cases herr

end Grammar

namespace Expr

/-- **What parsed trees are like**: their words are words, their numbers not below zero; they have no more levels
than `maxHeight`, and on every path down fewer than `maxNesting` edges into operands.  So a fixed number of calls of
evaluation within each other, or of writing, is enough for all of them. -/
structure IsShallow (e : Expr) : Prop where
  numbers : ∀ x, .number x ∈ e.parts → 0 ≤ x ∧ x.isNaN = false
  names : ∀ name, .var name ∈ e.parts → isName name = true ∧ ∀ k : Constant, name ≠ k.name
  functions : ∀ name args, .call name args ∈ e.parts → isName name = true
  descents : ∀ edges, Descent e edges → edges.length + 1 ≤ maxHeight ∧ edges.countP Edge.nests + 1 ≤ maxNesting
  evaluates : ∀ r c, evaluateWithin r c maxHeight e = ExceptT.mk (some (e.evaluate r c))
  writes : textWithin maxHeight e = some e.text

/-- **Every parsed tree is well formed and shallow**, however long the text is. -/
theorem isShallow_of_parse {text : List Char} {e : Expr} (h : parse text = .ok e) : e.IsShallow := by
  have hworded : e.isWorded (fun x => decide (0 ≤ x ∧ x.isNaN = false)) = true :=
    isWorded_of_parse h fun ts hscan t ht hk x hx =>
      decide_eq_true (zero_le_of_isLiteral ((lexical_of_scan hscan t ht).literal hk).1 hx)
  have hparts := isWorded_of_mem_parts hworded
  obtain ⟨ts, -, htokens⟩ := scan_of_parse h
  obtain ⟨n, hrule⟩ := Grammar.derives_of_ofTokens htokens
  obtain ⟨hnesting, hheight⟩ := hrule.limits htokens
  refine ⟨fun x hx => of_decide_eq_true (hparts _ hx), fun name hname => isName_of_var (hparts _ hname), ?_, ?_,
    fun r c => evaluateWithin_eq r c hheight, textWithin_eq hheight⟩
  · intro name args hcall
    have hfunction := hparts _ hcall
    rw [isWorded, Bool.and_eq_true] at hfunction
    exact hfunction.1
  · intro edges hedges
    obtain ⟨p, hp, hlength⟩ := hedges.exists_path
    refine ⟨hlength ▸ Nat.le_trans hp.length_le hheight, ?_⟩
    exact Nat.le_trans (Nat.lt_of_le_of_lt hedges.countP_le hrule.operandDepth_lt) hnesting

def overflowingPower : Expr :=
  .signed .minus (.binary .pow (.call ['f'] [.number 2.5, .var ['x']]) (.number (infinity false)))

theorem isShallow_of_parse_overflowingPower :
    ∃ e, parse "-f(2.5, (x))^1e999".toList = .ok e ∧ e.same overflowingPower = true ∧ e.IsShallow := by
  have hany : (parse "-f(2.5, (x))^1e999".toList).toOption.any (fun e => e.same overflowingPower) = true := by
    decide +kernel
  cases hparse : parse "-f(2.5, (x))^1e999".toList with
  | error err =>
    rw [hparse] at hany
    cases hany
  | ok e =>
    rw [hparse] at hany
    exact ⟨e, rfl, hany, isShallow_of_parse hparse⟩

end Expr
end Abacus
