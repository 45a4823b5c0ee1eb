import Abacus.Proofs.Decimal.Binary64
import Abacus.Proofs.Decimal.Nearest
import Abacus.Proofs.Token.Scan
import Abacus.Proofs.Expr.Acceptance
/-!
# The words of a tree

A tree may hold any name and any number; one that was parsed from a text holds the words of the text.  Its names are
names, its variables are not named like constants, and its numbers are what literals read as, which is finite and
without a sign, or infinite where the literal overflows (`isWorded_of_parse`).
-/
namespace Abacus

theorem overflows_or_isUnsigned {cs : List Char} {x : Float} (h : isLiteral cs = true) (hx : readDouble? cs = some x) :
    x = infinity false ∨ isUnsigned x = true := by
  rw [readDouble?_literal h, Option.map_eq_some_iff] at hx
  obtain ⟨d, -, rfl⟩ := hx
  rw [Decimal.toDouble]
  rcases Nat.eq_or_lt_of_le d.nearestBits_le with hmax | hlt
  · exact .inl (by rw [hmax, infinity])
  · exact .inr (isUnsigned_ofMagnitude hlt)

def overflows (text : List Char) : Bool :=
  match scan text with
  | .ok ts   => ts.any fun t => t.kind == .number && decide (readDouble? t.text = some (infinity false))
  | .error _ => false

theorem not_overflows {text : List Char} {ts : List Token} (hscan : scan text = .ok ts) (h : overflows text = false) :
    ∀ t ∈ ts, t.kind = .number → readDouble? t.text ≠ some (infinity false) := by
  rw [overflows, hscan, List.any_eq_false] at h
  intro t ht hk hx
  exact h t ht (by simp [hk, hx])

namespace Expr

mutual
/-- Whether names are names, no variable has the name of a constant, and all numbers pass. -/
def isWorded (passes : Float → Bool) : Expr → Bool
  | .number x       => passes x
  | .constant _     => true
  | .var name       => isName name && (Constant.ofName? name).isNone
  | .signed _ x     => x.isWorded passes
  | .binary _ l r   => l.isWorded passes && r.isWorded passes
  | .call name args => isName name && areWorded passes args

def areWorded (passes : Float → Bool) : List Expr → Bool
  | []      => true
  | x :: xs => x.isWorded passes && areWorded passes xs
end

def isReadable (e : Expr) : Bool := e.isWorded isUnsigned

theorem areWorded_iff {passes : Float → Bool} {xs : List Expr} :
    areWorded passes xs = true ↔ ∀ x ∈ xs, x.isWorded passes = true := by
  induction xs with
  | nil => simp [areWorded]
  | cons x xs ih => simp [areWorded, ih]

/-! ## From the words of the tokens to those of the tree -/

structure Suits (passes : Float → Bool) (t : Token) : Prop where
  number : t.kind = .number → ∀ x, readDouble? t.text = some x → passes x = true
  name : t.kind = .name → isName t.text = true

section

variable {passes : Float → Bool} {ls rs ts : List Token} {t c : Token}

theorem suits_sides (h : ∀ u ∈ ls ++ t :: rs, Suits passes u) :
    (∀ u ∈ ls, Suits passes u) ∧ ∀ u ∈ rs, Suits passes u :=
  ⟨fun u hu => h u (List.mem_append_left _ hu), fun u hu => h u (List.mem_append_right _ (List.mem_cons_of_mem t hu))⟩

theorem suits_within (h : ∀ u ∈ t :: (ts ++ [c]), Suits passes u) : ∀ u ∈ ts, Suits passes u :=
  fun u hu => h u (List.mem_cons_of_mem t (List.mem_append_left _ hu))

end

end Expr

namespace Grammar

open Abacus.Expr

mutual

theorem Expression.isWorded {passes : Float → Bool} {n : Nat} {ts : List Token} {e : Expr} :
    Expression n ts e → (∀ t ∈ ts, Suits passes t) → e.isWorded passes = true
  | .term h, hs      => h.isWorded hs
  | .sum hl _ hr, hs => by
    rw [Expr.isWorded, hl.isWorded (suits_sides hs).1, hr.isWorded (suits_sides hs).2]
    rfl

theorem Term.isWorded {passes : Float → Bool} {n : Nat} {ts : List Token} {e : Expr} :
    Term n ts e → (∀ t ∈ ts, Suits passes t) → e.isWorded passes = true
  | .operand h, hs       => h.isWorded hs
  | .product hl _ hr, hs => by
    rw [Expr.isWorded, hl.isWorded (suits_sides hs).1, hr.isWorded (suits_sides hs).2]
    rfl

theorem Operand.isWorded {passes : Float → Bool} {n : Nat} {ts : List Token} {e : Expr} :
    Operand n ts e → (∀ t ∈ ts, Suits passes t) → e.isWorded passes = true
  | .signed _ h, hs => by
    rw [Expr.isWorded]
    exact h.isWorded fun t ht => hs t (List.mem_cons_of_mem _ ht)
  | .power h, hs    => h.isWorded hs

theorem Power.isWorded {passes : Float → Bool} {n : Nat} {ts : List Token} {e : Expr} :
    Power n ts e → (∀ t ∈ ts, Suits passes t) → e.isWorded passes = true
  | .primary h, hs      => h.isWorded hs
  | .raised hb _ hx, hs => by
    rw [Expr.isWorded, hb.isWorded (suits_sides hs).1, hx.isWorded (suits_sides hs).2]
    rfl

theorem Primary.isWorded {passes : Float → Bool} {n : Nat} {ts : List Token} {e : Expr} :
    Primary n ts e → (∀ t ∈ ts, Suits passes t) → e.isWorded passes = true
  | .number hk hx, hs => (hs _ List.mem_cons_self).number hk _ hx
  | .call hk _ hargs _, hs => by
    have hwithin := suits_within fun u hu => hs u (List.mem_cons_of_mem _ hu)
    rw [Expr.isWorded, (hs _ List.mem_cons_self).name hk, areWorded_iff.2 (hargs.isWorded hwithin)]
    rfl
  | .constant _ _, _ => rfl
  | .free (t := t) hk hfree, hs => by
    have hnone : Constant.ofName? t.text = none := by rw [Constant.ofName?, if_neg (hfree .pi), if_neg (hfree .e)]
    rw [Expr.isWorded, (hs t List.mem_cons_self).name hk, hnone]
    rfl
  | .group _ h _, hs => h.isWorded (suits_within hs)

theorem Arguments.isWorded {passes : Float → Bool} {n : Nat} {ts : List Token} {args : List Expr} :
    Arguments n ts args → (∀ t ∈ ts, Suits passes t) → ∀ e ∈ args, e.isWorded passes = true
  | .none, _    => fun _ he => absurd he List.not_mem_nil
  | .some h, hs => h.isWorded hs

theorem ArgumentList.isWorded {passes : Float → Bool} {n : Nat} {ts : List Token} {args : List Expr} :
    ArgumentList n ts args → (∀ t ∈ ts, Suits passes t) → ∀ e ∈ args, e.isWorded passes = true
  | .one h, hs => by
    have hone := h.isWorded hs
    intro e he
    rwa [List.mem_singleton.1 he]
  | .more h _ hmore, hs => by
    have hone := h.isWorded (suits_sides hs).1
    have hothers := hmore.isWorded (suits_sides hs).2
    intro e he
    rcases List.mem_cons.1 he with rfl | he
    · exact hone
    · exact hothers e he

end

end Grammar

namespace Expr

open Grammar

/-! ## Parsed trees -/

theorem scan_of_parse {text : List Char} {e : Expr} (h : parse text = .ok e) :
    ∃ ts, scan text = .ok ts ∧ ofTokens ts = .ok e := by
  rw [parse] at h
  cases hscan : scan text with
  | error err =>
    rw [hscan] at h
    cases h
  | ok ts =>
    have hmap : (ofTokens ts).mapError FormulaError.parse = .ok e := by rwa [hscan] at h
    cases hparse : ofTokens ts with
    | error err =>
      rw [hparse] at hmap
      cases hmap
    | ok _ =>
      rw [hparse] at hmap
      cases hmap
      exact ⟨ts, rfl, hparse⟩

/-- **A parsed tree is worded** by any test that the numbers of its text pass. -/
theorem isWorded_of_parse {passes : Float → Bool} {text : List Char} {e : Expr} (h : parse text = .ok e)
    (hnumbers : ∀ ts, scan text = .ok ts → ∀ t ∈ ts, t.kind = .number → ∀ x, readDouble? t.text = some x →
      passes x = true) : e.isWorded passes = true := by
  obtain ⟨ts, hscan, hparse⟩ := scan_of_parse h
  obtain ⟨n, hrule⟩ := derives_of_ofTokens hparse
  refine hrule.isWorded fun t ht => ⟨hnumbers ts hscan t ht, ?_⟩
  exact (lexical_of_scan hscan t ht).name

theorem isReadable_of_parse {text : List Char} {e : Expr} (h : parse text = .ok e) (hfinite : overflows text = false) :
    e.isReadable = true := by
  refine isWorded_of_parse h fun ts hscan t ht hk x hx => ?_
  rcases overflows_or_isUnsigned ((lexical_of_scan hscan t ht).literal hk).1 hx with rfl | hunsigned
  · exact absurd hx (not_overflows hscan hfinite t ht hk)
  · exact hunsigned

end Expr
end Abacus
