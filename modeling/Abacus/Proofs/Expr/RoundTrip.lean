import Abacus.Proofs.Decimal.ReadBack
import Abacus.Proofs.Expr.Worded
/-!
# Canonical texts read back

A canonical text is scanned as tokens that derive its tree (`says_text`): each part is scanned as if it stood alone,
because what follows it is a blank, a parenthesis or a comma, and each pair of parentheses is a group.  The nesting of
that derivation is known from the tree, and is `need` less one.  So the parser's answer is known as well: the tree, as
long as `need` is within the limit, and otherwise that the nesting is too deep.
-/
namespace Abacus
namespace Expr

open Grammar

mutual
/-- The operands that stand within each other in the canonical text. -/
def need : Expr → Nat
  | .signed _ x    => 2 + x.need
  | .binary op l r =>
    if op = .pow then max ((if l.isSigned then 2 else 1) + l.need) (2 + r.need) else 1 + max l.need r.need
  | .call _ args   => 1 + needs args
  | _              => 1

def needs : List Expr → Nat
  | []      => 0
  | x :: xs => max x.need (needs xs)
end

theorem height_le_need (e : Expr) : e.height ≤ e.need := by
  induction e using inductionOn with
  | number x => exact Nat.le_refl 1
  | constant c => exact Nat.le_refl 1
  | var name => exact Nat.le_refl 1
  | signed s x hx =>
    rw [height, need]
    omega
  | binary op l r hl hr =>
    rw [height, need]
    have hbase : 1 ≤ if l.isSigned then 2 else 1 := by split <;> decide
    split <;> omega
  | call name args h =>
    have hargs : heights args ≤ needs args := by
      clear name
      induction args with
      | nil => exact Nat.le_refl 0
      | cons x xs ih =>
        have hx := h x List.mem_cons_self
        have hxs := ih fun y hy => h y (List.mem_cons_of_mem x hy)
        rw [heights, needs]
        omega
    rw [height, need]
    omega

/-! ## Texts of phrases -/

/-- Wherever it stands, the text is scanned as tokens of the rule. -/
def Says {α : Type} (rule : List Token → α → Prop) (text : List Char) (a : α) : Prop :=
  ∀ p, ∃ ts q, Spells text p ts q ∧ rule ts a

section

variable {α β : Type} {rule : List Token → α → Prop} {m n : Nat} {text left right : List Char} {c : Char}
  {kind : TokenKind} {op : Operator} {e l r : Expr}

theorem Says.imp {rule' : List Token → β → Prop} {a : α} {b : β} (h : Says rule text a)
    (himp : ∀ ts, rule ts a → rule' ts b) : Says rule' text b := by
  intro p
  obtain ⟨ts, q, hspells, hrule⟩ := h p
  exact ⟨ts, q, hspells, himp ts hrule⟩

theorem Says.operand (h : Says (Primary n) text e) : Says (Operand (n + 1)) text e :=
  h.imp fun _ hp => .power (.primary hp)

theorem Says.expression (h : Says (Operand n) text e) : Says (Expression n) text e :=
  h.imp fun _ ho => .term (.operand ho)

theorem Says.group (h : Says (Expression n) text e) : Says (Primary n) (inParens text) e := by
  intro p
  obtain ⟨ts, q, hspells, hrule⟩ := h (p + 1)
  have hclosing : Spells [')'] q _ _ := .symbol rfl (.nil (q + 1))
  exact ⟨_, _, .symbol rfl (hspells.append (by decide) hclosing), .group rfl hrule rfl⟩

theorem Says.signed (s : Sign) (h : Says (Operand n) text e) :
    Says (Operand (n + 1)) (s.symbol :: text) (.signed s e) := by
  intro p
  obtain ⟨ts, q, hspells, hrule⟩ := h (p + 1)
  obtain ⟨kind, hc, hs⟩ : ∃ kind : TokenKind, TokenKind.ofChar? s.symbol = some kind ∧ kind.sign? = some s := by
    cases s
    · exact ⟨.plus, rfl, rfl⟩
    · exact ⟨.minus, rfl, rfl⟩
  exact ⟨_, _, .symbol hc hspells, .signed hs hrule⟩

theorem Says.sum (hc : TokenKind.ofChar? c = some kind) (hop : kind.sum? = some op) (hl : Says (Expression m) left l)
    (hr : Says (Operand n) right r) :
    Says (Expression (max m n)) (left ++ ' ' :: c :: ' ' :: right) (.binary op l r) := by
  intro p
  obtain ⟨ts, q, hleft, hls⟩ := hl p
  obtain ⟨us, s, hright, hrs⟩ := hr (q + 1)
  exact ⟨_, s, .around hc hleft hright, .sum hls hop (.operand hrs)⟩

theorem Says.product (hc : TokenKind.ofChar? c = some kind) (hop : kind.product? = some op)
    (hl : Says (Operand m) left l) (hr : Says (Operand n) right r) :
    Says (Expression (max m n)) (left ++ ' ' :: c :: ' ' :: right) (.binary op l r) := by
  intro p
  obtain ⟨ts, q, hleft, hls⟩ := hl p
  obtain ⟨us, s, hright, hrs⟩ := hr (q + 1)
  exact ⟨_, s, .around hc hleft hright, .term (.product (.operand hls) hop hrs)⟩

theorem Says.joined (hop : op ≠ .pow) (hl : Says (Operand m) left l) (hr : Says (Operand n) right r) :
    Says (Expression (max m n)) (left ++ ' ' :: op.symbol :: ' ' :: right) (.binary op l r) := by
  cases op with
  | add => exact .sum rfl rfl hl.expression hr
  | sub => exact .sum rfl rfl hl.expression hr
  | mul => exact .product rfl rfl hl hr
  | div => exact .product rfl rfl hl hr
  | pow => exact absurd rfl hop

theorem Says.raised (hl : Says (Primary m) left l) (hr : Says (Operand n) right r) :
    Says (Operand (max m n + 1)) (left ++ ' ' :: '^' :: ' ' :: right) (.binary .pow l r) := by
  intro p
  obtain ⟨ts, q, hleft, hls⟩ := hl p
  obtain ⟨us, s, hright, hrs⟩ := hr (q + 1)
  have hc : TokenKind.ofChar? '^' = some .power := rfl
  exact ⟨_, s, .around hc hleft hright, .power (.raised hls rfl hrs)⟩

end

/-! ## Words, arguments and bases -/

theorem says_number {x : Float} (h : isUnsigned x = true) : Says (Primary 0) (numberText x) (.number x) := by
  have hread := readDouble?_numberText h
  refine fun p => ⟨_, _, .literal (isLiteral_numberText h) ?_ p, .number rfl hread⟩
  rw [hread]
  rfl

theorem says_constant (c : Constant) : Says (Primary 0) c.name (.constant c) := by
  have hname : isName c.name = true := by cases c <;> decide
  exact fun p => ⟨_, _, .name hname p, .constant rfl rfl⟩

theorem says_var {name : List Char} (hname : isName name = true) (h : Constant.ofName? name = none) :
    Says (Primary 0) name (.var name) := by
  have hfree : ∀ c : Constant, name ≠ c.name := by
    rintro c rfl
    cases c <;> exact absurd h (by decide)
  exact fun p => ⟨_, _, .name hname p, .free rfl hfree⟩

def highest (level : Expr → Nat) (args : List Expr) : Nat := (args.map level).foldr max 0

theorem needs_eq_highest (args : List Expr) : needs args = highest need args := by
  induction args with
  | nil => rfl
  | cons a args ih => rw [needs, ih, highest, highest, List.map_cons, List.foldr_cons]

section

variable {level : Expr → Nat} {tree : Expr → Expr}

theorem says_arguments : ∀ {args : List Expr}, args ≠ [] →
    (∀ a ∈ args, Says (Expression (level a)) a.text (tree a)) →
    Says (ArgumentList (highest level args)) (commaSeparated (texts args)) (args.map tree)
  | [], hne, _ => absurd rfl hne
  | [a], _, h => by
    have ha := h a List.mem_cons_self
    rw [highest, List.map_singleton, List.foldr_cons, List.foldr_nil, Nat.max_zero]
    exact ha.imp fun _ he => .one he
  | a :: b :: args, _, h => by
    have ha := h a List.mem_cons_self
    have hmore := says_arguments (List.cons_ne_nil b args) fun x hx => h x (List.mem_cons_of_mem a hx)
    intro p
    obtain ⟨ts, q, hspells, hrule⟩ := ha p
    obtain ⟨us, r, hmorespells, hmorerule⟩ := hmore (q + 1)
    have hcomma : Spells (',' :: ' ' :: commaSeparated (texts (b :: args))) q (⟨.comma, [','], q⟩ :: us) r :=
      .symbol rfl (.blank hmorespells)
    exact ⟨_, r, hspells.append (by decide) hcomma, .more hrule rfl hmorerule⟩

theorem says_call {name : List Char} {args : List Expr} (hname : isName name = true)
    (h : ∀ a ∈ args, Says (Expression (level a)) a.text (tree a)) :
    Says (Primary (highest level args)) (name ++ inParens (commaSeparated (texts args)))
      (.call name (args.map tree)) := by
  have hargs : Says (Arguments (highest level args)) (commaSeparated (texts args)) (args.map tree) := by
    cases args with
    | nil => exact fun p => ⟨[], p, .nil p, .none⟩
    | cons a args => exact (says_arguments (List.cons_ne_nil a args) h).imp fun _ hlist => .some hlist
  intro p
  obtain ⟨ts, q, hspells, hrule⟩ := hargs (p + name.length + 1)
  have hclosing : Spells [')'] q _ _ := .symbol rfl (.nil (q + 1))
  have hparens : Spells (inParens (commaSeparated (texts args))) (p + name.length) _ _ :=
    .symbol rfl (hspells.append (by decide) hclosing)
  exact ⟨_, _, (Spells.name hname p).append (by decide) hparens, .call rfl rfl hrule rfl⟩

theorem says_base {e u : Expr} {k : Nat} (h : ∃ n, k = n + 1 ∧ Says (Primary n) e.text u) :
    ∃ n, (if e.isSigned then 2 else 1) + k = n + 2 ∧
      Says (Primary n) (if Operator.pow = .pow ∧ e.isSigned then inParens e.text else e.text) u := by
  obtain ⟨n, hk, hsays⟩ := h
  by_cases hs : e.isSigned = true
  · refine ⟨n + 1, ?_, ?_⟩
    · rw [if_pos hs, hk]
      omega
    · rw [if_pos ⟨rfl, hs⟩]
      exact hsays.operand.expression.group
  · refine ⟨n, ?_, ?_⟩
    · rw [if_neg hs, hk]
      omega
    · rw [if_neg fun hboth => hs hboth.2]
      exact hsays

end

/-- **The canonical text of a tree says the tree**, at a nesting of `need` less one. -/
theorem says_text {e : Expr} (h : e.isReadable = true) : ∃ n, e.need = n + 1 ∧ Says (Primary n) e.text e := by
  induction e using inductionOn with
  | number x =>
    rw [isReadable, isWorded] at h
    exact ⟨0, rfl, says_number h⟩
  | constant c => exact ⟨0, rfl, says_constant c⟩
  | var name =>
    rw [isReadable, isWorded, Bool.and_eq_true, Option.isNone_iff_eq_none] at h
    exact ⟨0, rfl, says_var h.1 h.2⟩
  | signed s x hx =>
    rw [isReadable, isWorded] at h
    obtain ⟨n, hneed, hsays⟩ := hx h
    refine ⟨n + 2, ?_, (Says.signed s hsays.operand).expression.group⟩
    rw [need, hneed]
    omega
  | binary op l r hl hr =>
    rw [isReadable, isWorded, Bool.and_eq_true] at h
    obtain ⟨m, hm, hleft⟩ := hl h.1
    obtain ⟨n, hn, hright⟩ := hr h.2
    by_cases hop : op = .pow
    · subst hop
      obtain ⟨b, hb, hbase⟩ := says_base ⟨m, hm, hleft⟩
      refine ⟨max b (n + 1) + 1, ?_, (Says.raised hbase hright.operand).expression.group⟩
      rw [need, if_pos rfl]
      omega
    · refine ⟨max (m + 1) (n + 1), ?_, ?_⟩
      · rw [need, if_neg hop]
        omega
      · rw [text, if_neg fun hboth => hop hboth.1]
        exact (hleft.operand.joined hop hright.operand).group
  | call name args hargs =>
    rw [isReadable, isWorded, Bool.and_eq_true, areWorded_iff] at h
    have hall : ∀ a ∈ args, Says (Expression a.need) a.text (id a) := by
      intro a ha
      obtain ⟨n, hneed, hsays⟩ := hargs a ha (h.2 a ha)
      rw [hneed]
      exact hsays.operand.expression
    have hcall := says_call h.1 hall
    rw [List.map_id, ← needs_eq_highest] at hcall
    exact ⟨needs args, by rw [need, Nat.add_comm], hcall⟩

/-! ## Reading the text -/

theorem parse_of_scan {text : List Char} {ts : List Token} (h : scan text = .ok ts) :
    parse text = (ofTokens ts).mapError .parse := by
  rw [parse, h]

theorem parse_of_expression {ts : List Token} {n : Nat} {e : Expr} (h : Expression n ts e) (hheight : e.height ≤ n) :
    (n ≤ maxNesting → (ofTokens ts).mapError FormulaError.parse = .ok e) ∧
    (maxNesting < n →
      ∃ err, (ofTokens ts).mapError FormulaError.parse = .error (.parse err) ∧ err.kind = .tooDeep) := by
  obtain ⟨hok, hdeep⟩ := h.ofTokens_eq
  constructor
  · intro hle
    have hlimit : maxNesting ≤ maxHeight := by decide
    rw [hok ⟨hle, by omega⟩]
    rfl
  · intro hlt
    obtain ⟨err, herr, hkind⟩ := hdeep fun hboth => absurd hboth.1 (Nat.not_le.2 hlt)
    rw [herr]
    exact ⟨err, rfl, hkind⟩

/-- **Parsing undoes writing**, and too many operands within each other are the only reason why it may not. -/
theorem parse_text {e : Expr} (h : e.isReadable = true) :
    (e.need ≤ maxNesting → parse e.text = .ok e) ∧
    (maxNesting < e.need → ∃ err, parse e.text = .error (.parse err) ∧ err.kind = .tooDeep) := by
  obtain ⟨n, hneed, hsays⟩ := says_text h
  obtain ⟨ts, q, hspells, hrule⟩ := hsays.operand.expression 0
  rw [parse_of_scan hspells.scan]
  rw [← hneed] at hrule
  exact parse_of_expression hrule (height_le_need e)

/-- **Parsing undoes writing, within the nesting limit.**  If the names of a tree are names, none of its variables is
named like a constant and its numbers are finite and have no sign, then its text reads as the tree itself as long as
`need` is within the limit, and is too deep otherwise.  All trees of texts without an overflow are of this sort. -/
theorem parse_text_within_nesting (e : Expr) :
    (e.isReadable = true →
      (e.need ≤ maxNesting → parse e.text = .ok e) ∧
      (maxNesting < e.need → ∃ err, parse e.text = .error (.parse err) ∧ err.kind = .tooDeep)) ∧
    (∀ text, parse text = .ok e → overflows text = false → e.isReadable = true) :=
  ⟨parse_text, fun _ h hfinite => isReadable_of_parse h hfinite⟩

/-- `clamp((-x)^1.5, pi)`: a signed base, a number with places, a constant and a call. -/
def clampedPower : Expr :=
  .call "clamp".toList [.binary .pow (.signed .minus (.var ['x'])) (.number 1.5), .constant .pi]

def fiftyfoldNegation : Expr := Nat.repeat (.signed .minus) 50 (.var ['x'])

theorem parse_text_clampedPower :
    (clampedPower.isReadable = true ∧ clampedPower.need ≤ maxNesting ∧ overflows clampedPower.text = false ∧
      parse clampedPower.text = .ok clampedPower) ∧
    maxNesting < fiftyfoldNegation.need ∧
      ∃ err, parse fiftyfoldNegation.text = .error (.parse err) ∧ err.kind = .tooDeep := by
  have hreadable : clampedPower.isReadable = true := by decide +kernel
  have hread := ((parse_text_within_nesting clampedPower).1 hreadable).1 (by decide)
  have hfinite : overflows clampedPower.text = false := by decide +kernel
  have hdeep : maxNesting < fiftyfoldNegation.need := by decide +kernel
  exact ⟨⟨(parse_text_within_nesting clampedPower).2 _ hread hfinite, by decide, hfinite, hread⟩,
    hdeep, ((parse_text_within_nesting fiftyfoldNegation).1 (by decide +kernel)).2 hdeep⟩

end Expr
end Abacus
