import Abacus.Proofs.Expr.Grammar
/-!
# What a rule reads

A rule of the parser goes from left to right and looks one token ahead.  `Reads` says all of that at once, whatever
the rule answers: it has consumed a prefix of its tokens and looked at the token after it; either the prefix is a
phrase of the rule's language, or it is the beginning of one and the answer is an error about that next token; and the
answer would be the same with anything else behind that token.  Every rule reads its language
(`reads_operand`, `reads_expression`), by one lemma for each way in which rules are put together.
-/
namespace Abacus

/-- The error is about the first of these tokens, or about there being none. -/
def ParseError.Blames : ParseError → List Token → Prop
  | .excessInput t, rest    => rest.head? = some t
  | .missingOperand, rest   => rest.head? = none
  | .unclosed _ found, rest => rest.head? = found
  | .unexpected t, rest     => rest.head? = some t
  | .tooNested found, rest  => rest.head? = found
  | .notANumeral text, rest =>
    ∃ t, rest.head? = some t ∧ t.kind = .number ∧ t.text = text ∧ readDouble? text = none
  | _, _                    => False

namespace Grammar

open Abacus.Expr

/-- The tokens can be extended to a phrase of the language. -/
def Completable {α : Type} (L : List Token → α → Prop) (ts : List Token) : Prop := ∃ more a, L (ts ++ more) a

/-- **What a rule reads at the front of some tokens**, and that it looks no further than the token after. -/
def Reads {α : Type} (L : List Token → α → Prop) (rule : Rule α) (ts : List Token) : Prop :=
  ∃ us rest, ts = us ++ rest ∧
    ((∃ a, L us a ∧ ∀ rest' : List Token, rest'.head? = rest.head? → rule (us ++ rest') = .ok (a, rest')) ∨
     (∃ e : ParseError, e.Blames rest ∧ Completable L us ∧
       ∀ rest' : List Token, rest'.head? = rest.head? → rule (us ++ rest') = .error e))

namespace Reads

variable {α β : Type} {L : List Token → α → Prop} {N : List Token → β → Prop} {rule : Rule α} {ts : List Token}

theorem nothing {a : α} (ha : L [] a)
    (h : ∀ ts' : List Token, ts'.head? = ts.head? → rule ts' = .ok (a, ts')) : Reads L rule ts :=
  ⟨[], ts, rfl, .inl ⟨a, ha, h⟩⟩

theorem fails {e : ParseError} (he : e.Blames ts) (hc : Completable L [])
    (h : ∀ ts' : List Token, ts'.head? = ts.head? → rule ts' = .error e) : Reads L rule ts :=
  ⟨[], ts, rfl, .inr ⟨e, he, hc, h⟩⟩

theorem cons {t : Token} {r : Rule α} (h : Reads (fun us a => L (t :: us) a) r ts)
    (hrule : ∀ ts', rule (t :: ts') = r ts') : Reads L rule (t :: ts) := by
  obtain ⟨us, rest, rfl, ⟨a, ha, hok⟩ | ⟨e, he, hc, herr⟩⟩ := h
  · exact ⟨t :: us, rest, rfl, .inl ⟨a, ha, fun rest' hr => (hrule _).trans (hok rest' hr)⟩⟩
  · exact ⟨t :: us, rest, rfl, .inr ⟨e, he, hc, fun rest' hr => (hrule _).trans (herr rest' hr)⟩⟩

theorem bind {f : α × List Token → Except ParseError (β × List Token)} (h : Reads L rule ts)
    (hmore : ∀ us a, L us a → Completable N us)
    (hf : ∀ us a rest, ts = us ++ rest → L us a → Reads (fun vs b => N (us ++ vs) b) (fun ts => f (a, ts)) rest) :
    Reads N (fun ts => rule ts >>= f) ts := by
  obtain ⟨us, rest, rfl, ⟨a, ha, hok⟩ | ⟨e, he, ⟨more, a, ha⟩, herr⟩⟩ := h
  · obtain ⟨vs, tail, rfl, hcase⟩ := hf us a rest rfl ha
    -- the first rule's lookahead is the first token of `vs`, or of what follows when the second consumes nothing
    have hhead : ∀ rest' : List Token, rest'.head? = tail.head? → (vs ++ rest').head? = (vs ++ tail).head? :=
      fun rest' hr => by rw [List.head?_append, List.head?_append, hr]
    refine ⟨us ++ vs, tail, (List.append_assoc us vs tail).symm, ?_⟩
    rcases hcase with ⟨b, hb, hfok⟩ | ⟨e, he, ⟨more, b, hb⟩, hferr⟩
    · refine .inl ⟨b, hb, fun rest' hr => ?_⟩
      show rule (us ++ vs ++ rest') >>= _ = _
      rw [List.append_assoc, hok _ (hhead rest' hr)]
      exact hfok rest' hr
    · refine .inr ⟨e, he, ⟨more, b, by rwa [List.append_assoc]⟩, fun rest' hr => ?_⟩
      show rule (us ++ vs ++ rest') >>= _ = _
      rw [List.append_assoc, hok _ (hhead rest' hr)]
      exact hferr rest' hr
  · obtain ⟨more', b, hb⟩ := hmore _ _ ha
    refine ⟨us, rest, rfl, .inr ⟨e, he, ⟨more ++ more', b, by rwa [← List.append_assoc]⟩, fun rest' hr => ?_⟩⟩
    show rule (us ++ rest') >>= _ = _
    rw [herr rest' hr]
    rfl

theorem mono {M : List Token → α → Prop} (h : Reads L rule ts) (hsub : ∀ us a, L us a → M us a) :
    Reads M rule ts := by
  obtain ⟨us, rest, rfl, ⟨a, ha, hok⟩ | ⟨e, he, ⟨more, a, ha⟩, herr⟩⟩ := h
  · exact ⟨us, rest, rfl, .inl ⟨a, hsub _ _ ha, hok⟩⟩
  · exact ⟨us, rest, rfl, .inr ⟨e, he, ⟨more, a, hsub _ _ ha⟩, herr⟩⟩

theorem congr {r : Rule α} (h : Reads L r ts)
    (hrule : ∀ ts' : List Token, ts'.head? = ts.head? → rule ts' = r ts') : Reads L rule ts := by
  obtain ⟨us, rest, rfl, hcase⟩ := h
  have hhead : ∀ rest' : List Token, rest'.head? = rest.head? → (us ++ rest').head? = (us ++ rest).head? :=
    fun rest' hr => by rw [List.head?_append, List.head?_append, hr]
  refine ⟨us, rest, rfl, ?_⟩
  rcases hcase with ⟨a, ha, hok⟩ | ⟨e, he, hc, herr⟩
  · exact .inl ⟨a, ha, fun rest' hr => (hrule _ (hhead rest' hr)).trans (hok rest' hr)⟩
  · exact .inr ⟨e, he, hc, fun rest' hr => (hrule _ (hhead rest' hr)).trans (herr rest' hr)⟩

theorem length_le (h : Reads L rule ts) {a : α} {rest : List Token} (hok : rule ts = .ok (a, rest)) :
    rest.length ≤ ts.length := by
  obtain ⟨us, rest₀, rfl, ⟨a₀, -, h₀⟩ | ⟨e, -, -, herr⟩⟩ := h
  · rw [h₀ rest₀ rfl] at hok
    cases hok
    simp
  · rw [herr rest₀ rfl] at hok
    cases hok

end Reads

/-! ## Rounds

A repetition is given as many rounds as there are tokens.  More rounds change nothing, so a repetition without its
count satisfies the equations that a loop has. -/

def Shrinks {α : Type} (rule : Rule α) : Prop :=
  ∀ ts a rest, rule ts = .ok (a, rest) → rest.length ≤ ts.length

theorem Shrinks.of_reads {α : Type} {L : List Token → α → Prop} {rule : Rule α} (h : ∀ ts, Reads L rule ts) :
    Shrinks rule := fun ts _ _ hok => (h ts).length_le hok

def chained (operator? : TokenKind → Option Operator) (item : Rule Expr) (left : Expr) : Rule Expr :=
  fun ts => chain operator? item ts.length left ts

theorem chain_rounds {operator? : TokenKind → Option Operator} {item : Rule Expr} (hitem : Shrinks item) :
    ∀ (m n : Nat) (left : Expr) (ts : List Token), ts.length ≤ m → ts.length ≤ n →
      chain operator? item m left ts = chain operator? item n left ts
  | 0, 0, left, ts, _, _                  => rfl
  | 0, n + 1, left, [], _, _              => rfl
  | m + 1, 0, left, [], _, _              => rfl
  | m + 1, n + 1, left, [], _, _          => rfl
  | m + 1, n + 1, left, t :: ts, hm, hn   => by
    simp only [List.length_cons, Nat.add_le_add_iff_right] at hm hn
    unfold chain
    cases operator? t.kind with
    | none => rfl
    | some op =>
      cases hr : item ts with
      | error e => rfl
      | ok p =>
        have hle := hitem ts p.1 p.2 hr
        exact chain_rounds hitem m n _ p.2 (Nat.le_trans hle hm) (Nat.le_trans hle hn)

theorem chained_nil (operator? : TokenKind → Option Operator) (item : Rule Expr) (left : Expr) :
    chained operator? item left [] = .ok (left, []) := rfl

theorem chained_none {operator? : TokenKind → Option Operator} {t : Token} (h : operator? t.kind = none)
    (item : Rule Expr) (left : Expr) (ts : List Token) :
    chained operator? item left (t :: ts) = .ok (left, t :: ts) := by
  simp only [chained, List.length_cons, chain, h]

theorem chained_some {operator? : TokenKind → Option Operator} {t : Token} {op : Operator}
    (h : operator? t.kind = some op) {item : Rule Expr} (hitem : Shrinks item) (left : Expr) (ts : List Token) :
    chained operator? item left (t :: ts) =
      item ts >>= fun p => chained operator? item (.binary op left p.1) p.2 := by
  simp only [chained, List.length_cons, chain, h]
  cases hr : item ts with
  | error e => rfl
  | ok p => exact chain_rounds hitem _ _ _ p.2 (hitem ts p.1 p.2 hr) (Nat.le_refl _)

def argumentsAfter (operand : Rule Expr) : Rule (List Expr) := fun ts => moreArguments operand ts.length ts

theorem moreArguments_rounds {operand : Rule Expr} (h : Shrinks (expression operand)) :
    ∀ (m n : Nat) (ts : List Token), ts.length ≤ m → ts.length ≤ n →
      moreArguments operand m ts = moreArguments operand n ts
  | 0, 0, ts, _, _                => rfl
  | 0, n + 1, [], _, _            => rfl
  | m + 1, 0, [], _, _            => rfl
  | m + 1, n + 1, [], _, _        => rfl
  | m + 1, n + 1, t :: ts, hm, hn => by
    simp only [List.length_cons, Nat.add_le_add_iff_right] at hm hn
    unfold moreArguments
    split
    · cases hr : expression operand ts with
      | error e => rfl
      | ok p =>
        have hle := h ts p.1 p.2 hr
        show moreArguments operand m p.2 >>= _ = moreArguments operand n p.2 >>= _
        rw [moreArguments_rounds h m n p.2 (Nat.le_trans hle hm) (Nat.le_trans hle hn)]
    · rfl

def argumentList (operand : Rule Expr) : Rule (List Expr) := fun ts =>
  expression operand ts >>= fun p => argumentsAfter operand p.2 >>= fun q => .ok (p.1 :: q.1, q.2)

theorem argumentsAfter_comma {operand : Rule Expr} (h : Shrinks (expression operand)) {t : Token}
    (hk : t.kind = .comma) (ts : List Token) : argumentsAfter operand (t :: ts) = argumentList operand ts := by
  simp only [argumentsAfter, argumentList, List.length_cons, moreArguments, hk]
  cases hr : expression operand ts with
  | error e => rfl
  | ok p =>
    show moreArguments operand ts.length p.2 >>= _ = moreArguments operand p.2.length p.2 >>= _
    rw [moreArguments_rounds h _ _ p.2 (h ts p.1 p.2 hr) (Nat.le_refl _)]

theorem argumentsAfter_of_ne {t : Token} (hk : t.kind ≠ .comma) (operand : Rule Expr) (ts : List Token) :
    argumentsAfter operand (t :: ts) = .ok ([], t :: ts) := by
  simp only [argumentsAfter, List.length_cons, moreArguments, hk, if_false]

theorem arguments_eq {t : Token} (hk : t.kind ≠ .closing) (operand : Rule Expr) (ts : List Token) :
    arguments operand (t :: ts) = argumentList operand (t :: ts) := by
  simp only [arguments, hk, if_false]
  rfl

/-! ## What each rule reads -/

def anyName : Token := ⟨.name, ['x'], 0⟩

theorem completable_primary : Completable (Phrase Primary) [] :=
  ⟨[anyName], _, 0, Primary.ofName rfl⟩

theorem completable_operand : Completable (Phrase Operand) [] :=
  ⟨[anyName], _, 1, .power (.primary (Primary.ofName rfl))⟩

/-- **A repetition reads what extends its left side.**  `C` says what the tokens before it and the left side are. -/
theorem reads_chained {operator? : TokenKind → Option Operator} {item : Rule Expr} {L C : List Token → Expr → Prop}
    (hitem : ∀ ts, Reads L item ts)
    (hC : ∀ us l t op vs r, C us l → operator? t.kind = some op → L vs r → C (us ++ t :: vs) (.binary op l r)) :
    ∀ (n : Nat) (us : List Token) (l : Expr) (ts : List Token), ts.length ≤ n → C us l →
      Reads (fun vs e => C (us ++ vs) e) (chained operator? item l) ts
  | _, us, l, [], _, hl => by
    refine .nothing (by simpa using hl) fun ts' h => ?_
    rw [List.head?_eq_none_iff.1 h]
    rfl
  | n + 1, us, l, t :: ts, hn, hl => by
    cases hop : operator? t.kind with
    | none =>
      refine .nothing (by simpa using hl) fun ts' h => ?_
      obtain ⟨ts', rfl⟩ := List.head?_eq_some_iff.1 h
      exact chained_none hop item l ts'
    | some op =>
      refine Reads.cons ?_ (chained_some hop (.of_reads hitem) l)
      refine (hitem ts).bind (fun vs r hr => ⟨[], _, by simpa using hC us l t op vs r hl hop hr⟩) ?_
      intro vs r rest hts hr
      have hlen : rest.length ≤ n := by simp [hts] at hn; omega
      have ih := reads_chained hitem hC n (us ++ t :: vs) (.binary op l r) rest hlen (hC us l t op vs r hl hop hr)
      exact ih.mono fun ws e h => by simpa using h

section Rules

variable {operand : Rule Expr}

theorem reads_term (h : ∀ ts, Reads (Phrase Operand) operand ts) (ts : List Token) :
    Reads (Phrase Term) (term operand) ts := by
  have hstep : ∀ us l t op vs r, Phrase Term us l → TokenKind.product? t.kind = some op → Phrase Operand vs r →
      Phrase Term (us ++ t :: vs) (.binary op l r) :=
    fun us l t op vs r ⟨m, hl⟩ hop ⟨n, hr⟩ => ⟨max m n, .product hl hop hr⟩
  refine (h ts).bind (fun us l ⟨n, hl⟩ => ⟨[], l, n, by simpa using .operand hl⟩) ?_
  intro us l rest _ ⟨n, hl⟩
  exact reads_chained h hstep rest.length us l rest (Nat.le_refl _) ⟨n, .operand hl⟩

theorem reads_expression (h : ∀ ts, Reads (Phrase Operand) operand ts) (ts : List Token) :
    Reads Derives (expression operand) ts := by
  have hstep : ∀ us l t op vs r, Derives us l → TokenKind.sum? t.kind = some op → Phrase Term vs r →
      Derives (us ++ t :: vs) (.binary op l r) :=
    fun us l t op vs r ⟨m, hl⟩ hop ⟨n, hr⟩ => ⟨max m n, .sum hl hop hr⟩
  refine (reads_term h ts).bind (fun us l ⟨n, hl⟩ => ⟨[], l, n, by simpa using .term hl⟩) ?_
  intro us l rest _ ⟨n, hl⟩
  exact reads_chained (reads_term h) hstep rest.length us l rest (Nat.le_refl _) ⟨n, .term hl⟩

def AfterArgument (vs : List Token) (args : List Expr) : Prop :=
  ∀ us e, Derives us e → Phrase ArgumentList (us ++ vs) (e :: args)

theorem reads_argumentList_of (h : ∀ ts, Reads (Phrase Operand) operand ts) (n : Nat)
    (hafter : ∀ ts : List Token, ts.length ≤ n → Reads AfterArgument (argumentsAfter operand) ts)
    (ts : List Token) (hn : ts.length ≤ n) : Reads (Phrase ArgumentList) (argumentList operand) ts := by
  have hone : ∀ us e, Derives us e → Phrase ArgumentList us [e] := fun us e ⟨n, he⟩ => ⟨n, .one he⟩
  refine (reads_expression h ts).bind (fun us e he => ⟨[], [e], by simpa using hone us e he⟩) ?_
  intro us e rest hts he
  have hlen : rest.length ≤ n := by simp [hts] at hn; omega
  show Reads _ (fun ts => argumentsAfter operand ts >>= fun q => .ok (e :: q.1, q.2)) rest
  refine (hafter rest hlen).bind (fun vs args hargs => ⟨[], e :: args, by simpa using hargs us e he⟩) ?_
  intro vs args rest' _ hargs
  exact .nothing (by simpa using hargs us e he) fun _ _ => rfl

theorem reads_argumentsAfter (h : ∀ ts, Reads (Phrase Operand) operand ts) :
    ∀ (n : Nat) (ts : List Token), ts.length ≤ n → Reads AfterArgument (argumentsAfter operand) ts
  | _, [], _ => by
    refine .nothing (fun us e ⟨n, he⟩ => ⟨n, by simpa using .one he⟩) fun ts' hts' => ?_
    rw [List.head?_eq_none_iff.1 hts']
    rfl
  | n + 1, t :: ts, hn => by
    by_cases hk : t.kind = .comma
    · refine Reads.cons ?_ (argumentsAfter_comma (.of_reads (reads_expression h)) hk)
      have hlist := reads_argumentList_of h n (reads_argumentsAfter h n) ts (by simpa using hn)
      exact hlist.mono fun vs args ⟨k, hargs⟩ us e ⟨m, he⟩ => ⟨max m k, .more he hk hargs⟩
    · refine .nothing (fun us e ⟨n, he⟩ => ⟨n, by simpa using .one he⟩) fun ts' hts' => ?_
      obtain ⟨ts', rfl⟩ := List.head?_eq_some_iff.1 hts'
      exact argumentsAfter_of_ne hk operand ts'

theorem reads_arguments (h : ∀ ts, Reads (Phrase Operand) operand ts) :
    ∀ ts : List Token, Reads (Phrase Arguments) (arguments operand) ts
  | [] => by
    refine .nothing ⟨0, .none⟩ fun ts' hts' => ?_
    rw [List.head?_eq_none_iff.1 hts']
    rfl
  | t :: ts => by
    by_cases hk : t.kind = .closing
    · refine .nothing ⟨0, .none⟩ fun ts' hts' => ?_
      obtain ⟨ts', rfl⟩ := List.head?_eq_some_iff.1 hts'
      simp only [arguments, hk, if_true]
    · have hlist := reads_argumentList_of h _ (reads_argumentsAfter h _) (t :: ts) (Nat.le_refl _)
      refine (hlist.mono fun us args ⟨n, ha⟩ => ⟨n, .some ha⟩).congr fun ts' hts' => ?_
      obtain ⟨ts', rfl⟩ := List.head?_eq_some_iff.1 hts'
      exact arguments_eq hk operand ts'

theorem reads_closing {α : Type} {L : List Token → α → Prop} {a : α} (function : Option (List Char))
    (h : ∀ c : Token, c.kind = .closing → L [c] a) :
    ∀ ts : List Token, Reads L (fun ts => closing function ts >>= fun rest => .ok (a, rest)) ts
  | [] => by
    refine .fails (e := .unclosed function none) rfl ⟨[⟨.closing, [')'], 0⟩], a, h _ rfl⟩ fun ts' hts' => ?_
    rw [List.head?_eq_none_iff.1 hts']
    rfl
  | t :: ts => by
    by_cases hk : t.kind = .closing
    · refine Reads.cons (r := fun ts => .ok (a, ts)) (.nothing (h t hk) fun _ _ => rfl) fun ts' => ?_
      simp only [closing, hk, if_true]
      rfl
    · refine .fails (e := .unclosed function (some t)) rfl ⟨[⟨.closing, [')'], 0⟩], a, h _ rfl⟩ fun ts' hts' => ?_
      obtain ⟨ts', rfl⟩ := List.head?_eq_some_iff.1 hts'
      simp only [closing, hk, if_false]
      rfl

theorem reads_callOf (h : ∀ ts, Reads (Phrase Operand) operand ts) {f o : Token} (hf : f.kind = .name)
    (ho : o.kind = .opening) (ts : List Token) :
    Reads (fun us e => Phrase Primary (f :: o :: us) e) (callOf operand f.text) ts := by
  have hcall : ∀ us args, Phrase Arguments us args → ∀ c : Token, c.kind = .closing →
      Phrase Primary (f :: o :: (us ++ [c])) (.call f.text args) :=
    fun us args ⟨n, ha⟩ c hc => ⟨n, .call hf ho ha hc⟩
  refine (reads_arguments h ts).bind (fun us args ha => ⟨[⟨.closing, [')'], 0⟩], _, hcall us args ha _ rfl⟩) ?_
  intro us args rest _ ha
  exact reads_closing (some f.text) (hcall us args ha) rest

theorem reads_primary (h : ∀ ts, Reads (Phrase Operand) operand ts) :
    ∀ ts : List Token, Reads (Phrase Primary) (primary operand) ts
  | [] => by
    refine .fails (e := .missingOperand) rfl completable_primary fun ts' hts' => ?_
    rw [List.head?_eq_none_iff.1 hts']
    rfl
  | t :: ts => by
    have hunexpected : t.kind ∉ primaryStarts → Reads (Phrase Primary) (primary operand) (t :: ts) := by
      intro hk
      refine .fails (e := .unexpected t) rfl completable_primary fun ts' hts' => ?_
      obtain ⟨ts', rfl⟩ := List.head?_eq_some_iff.1 hts'
      cases ht : t.kind <;> simp [primaryStarts, ht] at hk <;> simp only [primary, ht]
    cases hk : t.kind with
    | number =>
      cases hx : readDouble? t.text with
      | some x =>
        refine Reads.cons (r := fun ts => .ok (.number x, ts))
          (.nothing ⟨0, .number hk hx⟩ fun _ _ => rfl) fun ts' => ?_
        simp only [primary, hk, hx]
      | none =>
        refine .fails (e := .notANumeral t.text) ⟨t, rfl, hk, rfl, hx⟩ completable_primary fun ts' hts' => ?_
        obtain ⟨ts', rfl⟩ := List.head?_eq_some_iff.1 hts'
        simp only [primary, hk, hx]
    | name =>
      refine Reads.cons (r := fun ts => primary operand (t :: ts)) ?_ fun _ => rfl
      cases ts with
      | nil =>
        refine .nothing ⟨0, Primary.ofName hk⟩ fun ts' hts' => ?_
        rw [List.head?_eq_none_iff.1 hts']
        simp only [primary, hk]
      | cons u us =>
        by_cases hu : u.kind = .opening
        · refine (reads_callOf h hk hu us).cons fun us' => ?_
          simp only [primary, hk, hu, if_true]
        · refine .nothing ⟨0, Primary.ofName hk⟩ fun ts' hts' => ?_
          obtain ⟨ts', rfl⟩ := List.head?_eq_some_iff.1 hts'
          simp only [primary, hk, hu, if_false]
    | opening =>
      have hgroup : ∀ us e, Derives us e → ∀ c : Token, c.kind = .closing → Phrase Primary (t :: (us ++ [c])) e := by
        rintro us e ⟨n, he⟩ c hc
        exact ⟨n, .group hk he hc⟩
      refine Reads.cons ?_ fun ts' => by simp only [primary, hk]; rfl
      refine (reads_expression h ts).bind (fun us e he => ⟨[⟨.closing, [')'], 0⟩], e, hgroup us e he _ rfl⟩) ?_
      intro us e rest _ he
      exact reads_closing none (hgroup us e he) rest
    | plus | minus | times | divide | power | closing | comma =>
      exact hunexpected (by simp [primaryStarts, hk])

theorem reads_power (h : ∀ ts, Reads (Phrase Operand) operand ts) (ts : List Token) :
    Reads (Phrase Power) (Expr.power operand) ts := by
  refine (reads_primary h ts).bind (fun us b ⟨n, hb⟩ => ⟨[], b, n, by simpa using .primary hb⟩) ?_
  intro us b rest _ ⟨n, hb⟩
  match rest with
  | [] =>
    refine .nothing ⟨n, by simpa using .primary hb⟩ fun ts' hts' => ?_
    rw [List.head?_eq_none_iff.1 hts']
  | t :: rest =>
    by_cases hk : t.kind = .power
    · refine Reads.cons ?_ fun ts' => by simp only [hk, if_true]; rfl
      refine (h rest).bind (fun xs x ⟨k, hx⟩ => ⟨[], _, max n k, by simpa using .raised hb hk hx⟩) ?_
      intro xs x rest' _ ⟨k, hx⟩
      exact .nothing ⟨max n k, by simpa using .raised hb hk hx⟩ fun _ _ => rfl
    · refine .nothing ⟨n, by simpa using .primary hb⟩ fun ts' hts' => ?_
      obtain ⟨ts', rfl⟩ := List.head?_eq_some_iff.1 hts'
      simp only [hk, if_false]

end Rules

/-- **An operand reads operands**, however many levels it is allowed. -/
theorem reads_operand : ∀ (levels : Nat) (ts : List Token), Reads (Phrase Operand) (operand levels) ts
  | 0, ts => by
    refine .fails (e := .tooNested ts.head?) rfl completable_operand fun ts' hts' => ?_
    rw [operand, hts']
  | levels + 1, ts => by
    have hpower := (reads_power (reads_operand levels) ts).mono fun us e ⟨n, he⟩ =>
      (⟨n + 1, .power he⟩ : Phrase Operand us e)
    match ts with
    | [] =>
      refine hpower.congr fun ts' hts' => ?_
      rw [List.head?_eq_none_iff.1 hts', operand]
    | t :: ts =>
      cases hs : t.kind.sign? with
      | some s =>
        refine Reads.cons ?_ fun ts' => by simp only [operand, hs]; rfl
        refine (reads_operand levels ts).bind (fun us x ⟨n, hx⟩ => ⟨[], _, n + 1, by simpa using .signed hs hx⟩) ?_
        intro us x rest _ ⟨n, hx⟩
        exact .nothing ⟨n + 1, by simpa using .signed hs hx⟩ fun _ _ => rfl
      | none =>
        refine hpower.congr fun ts' hts' => ?_
        obtain ⟨ts', rfl⟩ := List.head?_eq_some_iff.1 hts'
        simp only [operand, hs]

end Grammar
end Abacus
