import Abacus.Proofs.Expr.Reading
/-!
# The parser finds every derivation

What a rule of the grammar derives, the rule of the parser finds, whatever stands behind it that does not go on with
it: `Primary.yields` to `Expression.yields`, by induction on the derivation.  The nesting of the derivation decides
how the parser's levels end: `Yields levels n x y` says that `x` is `y` when `n` levels are allowed, and a complaint
about the nesting when they are not.  It composes, so the one induction gives both answers.
-/
namespace Abacus
namespace Grammar

open Abacus.Expr

/-- **`x` is `y`, as long as the levels reach the nesting**; if they do not, `x` complains about that. -/
def Yields {β : Type} (levels nesting : Nat) (x y : Except ParseError β) : Prop :=
  if nesting ≤ levels then x = y else ∃ t, x = .error (.tooNested t)

namespace Yields

variable {β γ : Type} {levels m n : Nat} {x y z : Except ParseError β}

theorem of_eq (h : x = y) : Yields levels 0 x y := by
  rw [Yields, if_pos (Nat.zero_le levels)]
  exact h

theorem eq (h : Yields levels n x y) (hn : n ≤ levels) : x = y := by
  rwa [Yields, if_pos hn] at h

theorem tooNested (h : Yields levels n x y) (hn : ¬ n ≤ levels) : ∃ t, x = .error (.tooNested t) := by
  rwa [Yields, if_neg hn] at h

theorem trans (h : Yields levels m x y) (h' : Yields levels n y z) : Yields levels (max m n) x z := by
  by_cases hm : m ≤ levels
  · rw [h.eq hm]
    by_cases hn : n ≤ levels
    · rw [Yields, if_pos (Nat.max_le.2 ⟨hm, hn⟩)]
      exact h'.eq hn
    · rw [Yields, if_neg fun hmax => hn (Nat.max_le.1 hmax).2]
      exact h'.tooNested hn
  · rw [Yields, if_neg fun hmax => hm (Nat.max_le.1 hmax).1]
    exact h.tooNested hm

theorem trans_eq (h : Yields levels n x y) (h' : y = z) : Yields levels n x z := h' ▸ h

theorem bind (h : Yields levels n x y) (f : β → Except ParseError γ) : Yields levels n (x >>= f) (y >>= f) := by
  by_cases hn : n ≤ levels
  · rw [Yields, if_pos hn, h.eq hn]
  · obtain ⟨t, ht⟩ := h.tooNested hn
    rw [Yields, if_neg hn, ht]
    exact ⟨t, rfl⟩

theorem succ (h : Yields levels n x y) : Yields (levels + 1) (n + 1) x y := by
  rw [Yields] at h ⊢
  simpa only [Nat.add_le_add_iff_right] using h

theorem zero {y : Except ParseError (Expr × List Token)} (ts : List Token) :
    Yields 0 (n + 1) (operand 0 ts) y := by
  rw [Yields, if_neg (Nat.not_succ_le_zero n), operand]
  exact ⟨ts.head?, rfl⟩

end Yields

/-! ## What may stand behind a phrase -/

def Clear (kinds : List TokenKind) (rest : List Token) : Prop := ∀ t ∈ rest.head?, t.kind ∉ kinds

theorem Clear.nil (kinds : List TokenKind) : Clear kinds [] := fun _ h => by cases h

theorem Clear.cons {kinds : List TokenKind} {t : Token} (h : t.kind ∉ kinds) (ts : List Token) :
    Clear kinds (t :: ts) := fun u hu => by
  cases hu
  exact h

theorem Clear.mono {kinds fewer : List TokenKind} {rest : List Token} (h : Clear kinds rest) (hsub : fewer ⊆ kinds) :
    Clear fewer rest := fun t ht hk => h t ht (hsub hk)

def extendsPrimary : List TokenKind := [.opening]

def extendsOperand : List TokenKind := .power :: extendsPrimary

def extendsTerm : List TokenKind := .times :: .divide :: extendsOperand

def extendsExpression : List TokenKind := .plus :: .minus :: extendsTerm

theorem chained_product_of_clear {item : Rule Expr} {left : Expr} :
    ∀ {rest : List Token}, Clear extendsTerm rest → chained TokenKind.product? item left rest = .ok (left, rest)
  | [], _ => rfl
  | t :: ts, h => by
    refine chained_none ?_ item left ts
    have := h t rfl
    cases hk : t.kind <;> simp [hk, extendsTerm] at this <;> rfl

theorem chained_sum_of_clear {item : Rule Expr} {left : Expr} :
    ∀ {rest : List Token}, Clear extendsExpression rest → chained TokenKind.sum? item left rest = .ok (left, rest)
  | [], _ => rfl
  | t :: ts, h => by
    refine chained_none ?_ item left ts
    have := h t rfl
    cases hk : t.kind <;> simp [hk, extendsExpression] at this <;> rfl

theorem clear_of_sum {t : Token} {op : Operator} (h : t.kind.sum? = some op) (ts : List Token) :
    Clear extendsTerm (t :: ts) := by
  refine .cons ?_ ts
  cases hk : t.kind <;> simp [hk, TokenKind.sum?, extendsTerm, extendsOperand, extendsPrimary] at h ⊢

theorem clear_of_product {t : Token} {op : Operator} (h : t.kind.product? = some op) (ts : List Token) :
    Clear extendsOperand (t :: ts) := by
  refine .cons ?_ ts
  cases hk : t.kind <;> simp [hk, TokenKind.product?, extendsOperand, extendsPrimary] at h ⊢

theorem clear_of_kind {t : Token} {k : TokenKind} (h : t.kind = k) (hk : k ∉ extendsExpression) (ts : List Token) :
    Clear extendsExpression (t :: ts) := .cons (h ▸ hk) ts

/-! ## Single steps -/

theorem operand_of_sign {t : Token} {s : Sign} (h : t.kind.sign? = some s) (levels : Nat) (ts : List Token) :
    operand (levels + 1) (t :: ts) = operand levels ts >>= fun p => .ok (.signed s p.1, p.2) := by
  simp only [operand, h]

theorem operand_of_startsWith {ts : List Token} (h : StartsWith primaryStarts ts) (levels : Nat) :
    operand (levels + 1) ts = Expr.power (operand levels) ts := by
  obtain ⟨t, us, rfl, hk⟩ := h
  cases ht : t.kind <;> simp [ht, primaryStarts] at hk <;> simp only [operand, ht, TokenKind.sign?]

/-- What may stand behind the base of a power. -/
def exponentOnto (operand : Rule Expr) (base : Expr) : Rule Expr
  | []      => .ok (base, [])
  | t :: ts =>
    if t.kind = .power then operand ts >>= fun p => .ok (.binary .pow base p.1, p.2) else .ok (base, t :: ts)

theorem power_eq (operand : Rule Expr) (ts : List Token) :
    Expr.power operand ts = primary operand ts >>= fun p => exponentOnto operand p.1 p.2 := by
  rw [Expr.power]
  cases primary operand ts with
  | error e => rfl
  | ok p => rcases p with ⟨base, _ | ⟨t, rest⟩⟩ <;> rfl

theorem exponentOnto_of_clear (operand : Rule Expr) {base : Expr} :
    ∀ {rest : List Token}, Clear extendsOperand rest → exponentOnto operand base rest = .ok (base, rest)
  | [], _     => rfl
  | t :: _, h => if_neg fun hk => h t rfl (by simp [hk, extendsOperand])

theorem exponentOnto_of_kind {t : Token} (hk : t.kind = .power) (operand : Rule Expr) (base : Expr)
    (ts : List Token) :
    exponentOnto operand base (t :: ts) = operand ts >>= fun p => .ok (.binary .pow base p.1, p.2) := if_pos hk

theorem primary_name_of_clear (operand : Rule Expr) {t : Token} (hk : t.kind = .name) :
    ∀ {rest : List Token}, Clear extendsPrimary rest → primary operand (t :: rest) = .ok (ofName t.text, rest)
  | [], _ => by simp only [primary, hk]
  | u :: us, h => by
    have hu : u.kind ≠ .opening := fun hu => h u rfl (by simp [hu, extendsPrimary])
    simp only [primary, hk, hu, if_false]

theorem closing_of_kind {c : Token} (h : c.kind = .closing) (function : Option (List Char)) (rest : List Token) :
    closing function (c :: rest) = .ok rest := by
  rw [closing, if_pos h]

theorem arguments_of_startsWith {ts : List Token} (h : StartsWith operandStarts ts) (operand : Rule Expr) :
    arguments operand ts = argumentList operand ts := by
  obtain ⟨t, us, rfl, hk⟩ := h
  exact arguments_eq (fun ht => by simp [ht, operandStarts, primaryStarts] at hk) operand us

theorem shrinks_operand (levels : Nat) : Shrinks (operand levels) := .of_reads (reads_operand levels)

theorem shrinks_term (levels : Nat) : Shrinks (term (operand levels)) := .of_reads (reads_term (reads_operand levels))

theorem shrinks_expression (levels : Nat) : Shrinks (expression (operand levels)) :=
  .of_reads (reads_expression (reads_operand levels))

/-! ## The induction -/

mutual

theorem Expression.yields {n : Nat} {ts : List Token} {e : Expr} : Expression n ts e →
    ∀ (levels : Nat) (rest : List Token), Clear extendsTerm rest →
      Yields levels n (expression (operand levels) (ts ++ rest))
        (chained TokenKind.sum? (term (operand levels)) e rest)
  | .term h, levels, rest, hrest => by
    have hterm := h.yields levels rest (hrest.mono (by simp [extendsTerm]))
    rw [chained_product_of_clear hrest] at hterm
    exact hterm.bind _
  | @Expression.sum _ _ _ _ t _ rs _ hl hop hr, levels, rest, hrest => by
    have hleft := hl.yields levels (t :: (rs ++ rest)) (clear_of_sum hop _)
    have hright := hr.yields levels rest (hrest.mono (by simp [extendsTerm]))
    rw [chained_some hop (shrinks_term levels)] at hleft
    rw [chained_product_of_clear hrest] at hright
    rw [List.append_assoc]
    exact hleft.trans (hright.bind _)

theorem Term.yields {n : Nat} {ts : List Token} {e : Expr} : Term n ts e →
    ∀ (levels : Nat) (rest : List Token), Clear extendsOperand rest →
      Yields levels n (term (operand levels) (ts ++ rest)) (chained TokenKind.product? (operand levels) e rest)
  | .operand h, levels, rest, hrest => (h.yields levels rest hrest).bind _
  | @Term.product _ _ _ _ t _ rs _ hl hop hr, levels, rest, hrest => by
    have hleft := hl.yields levels (t :: (rs ++ rest)) (clear_of_product hop _)
    have hright := hr.yields levels rest hrest
    rw [chained_some hop (shrinks_operand levels)] at hleft
    rw [List.append_assoc]
    exact hleft.trans (hright.bind _)

theorem Operand.yields {n : Nat} {ts : List Token} {e : Expr} : Operand n ts e →
    ∀ (levels : Nat) (rest : List Token), Clear extendsOperand rest →
      Yields levels n (operand levels (ts ++ rest)) (.ok (e, rest))
  | .signed hs h, 0, rest, _ => .zero _
  | .signed hs h, levels + 1, rest, hrest => by
    rw [List.cons_append, operand_of_sign hs]
    exact ((h.yields levels rest hrest).bind _).succ
  | .power h, 0, rest, _ => .zero _
  | .power h, levels + 1, rest, hrest => by
    rw [operand_of_startsWith (h.startsWith.append rest)]
    exact (h.yields levels rest hrest).succ

theorem Power.yields {n : Nat} {ts : List Token} {e : Expr} : Power n ts e →
    ∀ (levels : Nat) (rest : List Token), Clear extendsOperand rest →
      Yields levels n (Expr.power (operand levels) (ts ++ rest)) (.ok (e, rest))
  | .primary h, levels, rest, hrest => by
    have hprimary := h.yields levels rest (hrest.mono (by simp [extendsOperand]))
    rw [power_eq, ← exponentOnto_of_clear (operand levels) hrest]
    exact hprimary.bind _
  | @Power.raised _ _ _ b t xs _ hb hk hx, levels, rest, hrest => by
    have hbase := hb.yields levels (t :: (xs ++ rest)) (.cons (by simp [hk, extendsPrimary]) _)
    have hexponent := (hx.yields levels rest hrest).bind fun p => .ok (Expr.binary .pow b p.1, p.2)
    rw [← exponentOnto_of_kind hk] at hexponent
    rw [power_eq, List.append_assoc]
    exact (hbase.bind _).trans hexponent

theorem Primary.yields {n : Nat} {ts : List Token} {e : Expr} : Primary n ts e →
    ∀ (levels : Nat) (rest : List Token), Clear extendsPrimary rest →
      Yields levels n (primary (operand levels) (ts ++ rest)) (.ok (e, rest))
  | .number hk hx, levels, rest, _ => .of_eq (by simp only [List.cons_append, List.nil_append, primary, hk, hx])
  | @Primary.call _ f o ts _ c hf ho h hc, levels, rest, _ => by
    have hargs := h.yields levels c rest hc
    have hcall : primary (operand levels) (f :: o :: (ts ++ c :: rest)) =
        callOf (operand levels) f.text (ts ++ c :: rest) := by simp only [primary, hf, ho, if_true]
    rw [List.cons_append, List.cons_append, List.append_assoc, List.singleton_append, hcall]
    refine (hargs.bind _).trans_eq ?_
    show closing (some f.text) (c :: rest) >>= _ = _
    rw [closing_of_kind hc]
    rfl
  | .constant hk hc, levels, rest, hrest => by
    have hname := primary_name_of_clear (operand levels) hk hrest
    rw [hc, ofName_constant] at hname
    exact .of_eq hname
  | .free hk hc, levels, rest, hrest => by
    have hname := primary_name_of_clear (operand levels) hk hrest
    rw [ofName_free hc] at hname
    exact .of_eq hname
  | @Primary.group _ o ts _ c ho h hc, levels, rest, _ => by
    have hclear := clear_of_kind hc (by decide) rest
    have hinner := h.yields levels (c :: rest) (hclear.mono (by simp [extendsExpression]))
    have hgroup : primary (operand levels) (o :: (ts ++ c :: rest)) =
        expression (operand levels) (ts ++ c :: rest) >>= fun p =>
          closing none p.2 >>= fun us => .ok (p.1, us) := by simp only [primary, ho]
    rw [chained_sum_of_clear hclear] at hinner
    rw [List.cons_append, List.append_assoc, List.singleton_append, hgroup]
    refine (hinner.bind _).trans_eq ?_
    show closing none (c :: rest) >>= _ = _
    rw [closing_of_kind hc]
    rfl

theorem Arguments.yields {n : Nat} {ts : List Token} {args : List Expr} : Arguments n ts args →
    ∀ (levels : Nat) (c : Token) (rest : List Token), c.kind = .closing →
      Yields levels n (arguments (operand levels) (ts ++ c :: rest)) (.ok (args, c :: rest))
  | .none, levels, c, rest, hc => .of_eq (by simp only [List.nil_append, arguments, hc, if_true])
  | .some h, levels, c, rest, hc => by
    rw [arguments_of_startsWith (h.startsWith.append _)]
    exact h.yields levels c rest hc

theorem ArgumentList.yields {n : Nat} {ts : List Token} {args : List Expr} : ArgumentList n ts args →
    ∀ (levels : Nat) (c : Token) (rest : List Token), c.kind = .closing →
      Yields levels n (argumentList (operand levels) (ts ++ c :: rest)) (.ok (args, c :: rest))
  | .one (e := e) h, levels, c, rest, hc => by
    have hclear := clear_of_kind hc (by decide) rest
    have hfirst := h.yields levels (c :: rest) (hclear.mono (by simp [extendsExpression]))
    rw [chained_sum_of_clear hclear] at hfirst
    refine (hfirst.bind _).trans_eq ?_
    show argumentsAfter (operand levels) (c :: rest) >>= _ = _
    rw [argumentsAfter_of_ne (by simp [hc])]
    rfl
  | @ArgumentList.more _ _ _ e t us _ h hk hs, levels, c, rest, hc => by
    have hclear := clear_of_kind hk (by decide) (us ++ c :: rest)
    have hfirst := h.yields levels (t :: (us ++ c :: rest)) (hclear.mono (by simp [extendsExpression]))
    rw [chained_sum_of_clear hclear] at hfirst
    have hmore := (hs.yields levels c rest hc).bind fun q => Except.ok (e :: q.1, q.2)
    rw [← argumentsAfter_comma (shrinks_expression levels) hk] at hmore
    rw [List.append_assoc]
    exact (hfirst.bind _).trans hmore

end

end Grammar
end Abacus
