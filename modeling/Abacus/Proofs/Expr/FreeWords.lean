import Abacus.Proofs.Expr.Parts
import Abacus.Proofs.Expr.Recognition
/-!
# The free names in the text

Which names a formula needs values for can be read off its tokens, without a tree: they are the name tokens that no
opening parenthesis follows and that are no constants.  Whatever the tree groups together, its variables come in the
order of the tokens, so each rule of the grammar keeps `freeWords ts = e.mentions`.
-/
namespace Abacus

/-- The names among tokens that stand for variables: no parenthesis follows them and they are no constants. -/
def freeWords : List Token → List (List Char)
  | []      => []
  | t :: ts =>
    if t.kind = .name ∧ ts.head?.map Token.kind ≠ some .opening ∧
        t.text ≠ Constant.pi.name ∧ t.text ≠ Constant.e.name then
      t.text :: freeWords ts
    else freeWords ts

namespace Grammar

open Abacus.Expr

variable {t u : Token} {ls rs ts us : List Token}

/-! ## Tokens side by side -/

theorem freeWords_cons_of_ne (h : t.kind ≠ .name) (ts : List Token) : freeWords (t :: ts) = freeWords ts := by
  rw [freeWords, if_neg fun hall => h hall.1]

theorem freeWords_append (h : Clear extendsPrimary us) : freeWords (ts ++ us) = freeWords ts ++ freeWords us := by
  induction ts with
  | nil => rfl
  | cons t ts ih =>
    -- only the last of the tokens is followed by one of the others, and that one is no parenthesis
    have hnext : (ts ++ us).head?.map Token.kind ≠ some .opening ↔ ts.head?.map Token.kind ≠ some .opening := by
      cases ts with
      | nil =>
        refine iff_of_true (fun hopening => ?_) (by simp)
        obtain ⟨u, hu, hk⟩ := Option.map_eq_some_iff.1 hopening
        exact h u hu (by simp [hk, extendsPrimary])
      | cons u ts => rfl
    simp only [List.cons_append, freeWords, ih, hnext]
    split <;> rfl

theorem freeWords_around (hname : t.kind ≠ .name) (hopening : t.kind ≠ .opening) :
    freeWords (ls ++ t :: rs) = freeWords ls ++ freeWords rs := by
  rw [freeWords_append (.cons (by simpa [extendsPrimary] using hopening) rs), freeWords_cons_of_ne hname]

theorem freeWords_concat (h : t.kind = .closing) : freeWords (ts ++ [t]) = freeWords ts := by
  rw [freeWords_around (by simp [h]) (by simp [h])]
  exact List.append_nil _

theorem neither_of_sum {op : Operator} (h : t.kind.sum? = some op) : t.kind ≠ .name ∧ t.kind ≠ .opening := by
  cases hk : t.kind <;> simp [hk, TokenKind.sum?] at h ⊢

theorem neither_of_product {op : Operator} (h : t.kind.product? = some op) : t.kind ≠ .name ∧ t.kind ≠ .opening := by
  cases hk : t.kind <;> simp [hk, TokenKind.product?] at h ⊢

theorem ne_name_of_sign {s : Sign} (h : t.kind.sign? = some s) : t.kind ≠ .name := by
  cases hk : t.kind <;> simp [hk, TokenKind.sign?] at h ⊢

theorem freeWords_function (h : u.kind = .opening) (ts : List Token) : freeWords (t :: u :: ts) = freeWords ts := by
  rw [freeWords, if_neg fun hall => hall.2.1 (by simp [h]), freeWords_cons_of_ne (by simp [h])]

/-! ## The induction -/

mutual

theorem Expression.freeWords_eq {n : Nat} {ts : List Token} {e : Expr} : Expression n ts e → freeWords ts = e.mentions
  | .term h => h.freeWords_eq
  | .sum hl hop hr => by
    obtain ⟨hname, hopening⟩ := neither_of_sum hop
    rw [freeWords_around hname hopening, hl.freeWords_eq, hr.freeWords_eq, mentions_binary]

theorem Term.freeWords_eq {n : Nat} {ts : List Token} {e : Expr} : Term n ts e → freeWords ts = e.mentions
  | .operand h => h.freeWords_eq
  | .product hl hop hr => by
    obtain ⟨hname, hopening⟩ := neither_of_product hop
    rw [freeWords_around hname hopening, hl.freeWords_eq, hr.freeWords_eq, mentions_binary]

theorem Operand.freeWords_eq {n : Nat} {ts : List Token} {e : Expr} : Operand n ts e → freeWords ts = e.mentions
  | .signed hs h => by rw [freeWords_cons_of_ne (ne_name_of_sign hs), h.freeWords_eq, mentions_signed]
  | .power h     => h.freeWords_eq

theorem Power.freeWords_eq {n : Nat} {ts : List Token} {e : Expr} : Power n ts e → freeWords ts = e.mentions
  | .primary h       => h.freeWords_eq
  | .raised hb hk hx => by
    rw [freeWords_around (by simp [hk]) (by simp [hk]), hb.freeWords_eq, hx.freeWords_eq, mentions_binary]

theorem Primary.freeWords_eq {n : Nat} {ts : List Token} {e : Expr} : Primary n ts e → freeWords ts = e.mentions
  | .number hk _ => freeWords_cons_of_ne (by simp [hk]) []
  | .call _ ho hargs hc => by rw [freeWords_function ho, freeWords_concat hc, hargs.freeWords_eq, mentions_call]
  | .constant (c := c) _ hc => by
    rw [freeWords, if_neg fun ⟨_, _, hpi, he⟩ => (by cases c; exacts [hpi hc, he hc])]
    rfl
  | .free hk hfree => by
    rw [freeWords, if_pos ⟨hk, by simp, by simp [hfree]⟩]
    rfl
  | .group ho h hc => by rw [freeWords_cons_of_ne (by simp [ho]), freeWords_concat hc, h.freeWords_eq]

theorem Arguments.freeWords_eq {n : Nat} {ts : List Token} {args : List Expr} :
    Arguments n ts args → freeWords ts = args.flatMap mentions
  | .none   => rfl
  | .some h => h.freeWords_eq

theorem ArgumentList.freeWords_eq {n : Nat} {ts : List Token} {args : List Expr} :
    ArgumentList n ts args → freeWords ts = args.flatMap mentions
  | .one h           => by rw [h.freeWords_eq, List.flatMap_singleton]
  | .more h hk hmore => by
    rw [freeWords_around (by simp [hk]) (by simp [hk]), h.freeWords_eq, hmore.freeWords_eq, List.flatMap_cons]

end

end Grammar

namespace Expr

/-- **The free names of a formula are in its text**: the names that no parenthesis follows and that are no constants,
each where it first stands. -/
theorem names_eq_freeWords {text : List Char} {e : Expr} (h : parse text = .ok e) :
    ∃ ts, scan text = .ok ts ∧ e.names = (freeWords ts).eraseDups := by
  obtain ⟨ts, hscan, htokens⟩ := scan_of_parse h
  obtain ⟨n, hrule⟩ := Grammar.derives_of_ofTokens htokens
  exact ⟨ts, hscan, by rw [names_eq_eraseDups, hrule.freeWords_eq]⟩

theorem names_eq_freeWords_grouped :
    ∃ e, parse "b - a*(f (a, pi) ^ -sin(b))".toList = .ok e ∧ e.names = [['b'], ['a']] ∧
      ∃ ts, scan "b - a*(f (a, pi) ^ -sin(b))".toList = .ok ts ∧ e.names = (freeWords ts).eraseDups := by
  have hparse : parse "b - a*(f (a, pi) ^ -sin(b))".toList = .ok (.binary .sub (.var ['b']) (.binary .mul (.var ['a'])
      (.binary .pow (.call ['f'] [.var ['a'], .constant .pi])
        (.signed .minus (.call "sin".toList [.var ['b']]))))) := by
    cbv
  exact ⟨_, hparse, by decide, names_eq_freeWords hparse⟩

end Expr
end Abacus
