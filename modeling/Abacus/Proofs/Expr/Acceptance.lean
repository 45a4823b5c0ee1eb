import Abacus.Proofs.Expr.Recognition
import Abacus.Proofs.Expr.Height
/-!
# What the parser accepts

The parser against the grammar: a tree that it answers is derived (`derives_of_ofTokens`), and of a derivation the
nesting and the height alone decide its answer (`Expression.ofTokens_yields`).  `ofTokens_cases` lists all that can
happen, an error with the place where the reading stopped.
-/
namespace Abacus
namespace Grammar

open Abacus.Expr

def checked (e : Expr) : Except ParseError Expr := if maxHeight < e.depth then .error .tooHigh else .ok e

def concluded : Expr × List Token → Except ParseError Expr
  | (_, t :: _) => .error (.excessInput t)
  | (e, [])     => checked e

theorem ofTokens_of_ne_nil {ts : List Token} (hne : ts ≠ []) :
    ofTokens ts = expression (operand maxNesting) ts >>= concluded := by
  rw [ofTokens, if_neg (by simpa using hne)]
  cases expression (operand maxNesting) ts with
  | error err => rfl
  | ok p => rcases p with ⟨e, _ | ⟨t, rest⟩⟩ <;> rfl

/-- **The answer to a derivation**: its tree, checked, as long as the levels reach its nesting. -/
theorem Expression.ofTokens_yields {n : Nat} {ts : List Token} {e : Expr} (h : Expression n ts e) :
    Yields maxNesting n (ofTokens ts) (checked e) := by
  have hread := h.yields maxNesting [] (.nil _)
  rw [List.append_nil, chained_nil] at hread
  rw [ofTokens_of_ne_nil h.ne_nil]
  exact hread.bind concluded

theorem Expression.ofTokens_eq {n : Nat} {ts : List Token} {e : Expr} (h : Expression n ts e) :
    (n ≤ maxNesting ∧ e.height ≤ maxHeight → ofTokens ts = .ok e) ∧
    (¬ (n ≤ maxNesting ∧ e.height ≤ maxHeight) → ∃ err, ofTokens ts = .error err ∧ err.kind = .tooDeep) := by
  by_cases hn : n ≤ maxNesting
  · rw [h.ofTokens_yields.eq hn, checked, depth_eq_height]
    by_cases hh : e.height ≤ maxHeight
    · rw [if_neg (Nat.not_lt.2 hh)]
      exact ⟨fun _ => rfl, fun hnot => absurd ⟨hn, hh⟩ hnot⟩
    · rw [if_pos (Nat.not_le.1 hh)]
      exact ⟨fun hboth => absurd hboth.2 hh, fun _ => ⟨.tooHigh, rfl, rfl⟩⟩
  · obtain ⟨t, ht⟩ := h.ofTokens_yields.tooNested hn
    exact ⟨fun hboth => absurd hboth.1 hn, fun _ => ⟨.tooNested t, ht, rfl⟩⟩

theorem Derives.ofTokens {ts : List Token} {e : Expr} (h : Derives ts e) :
    ofTokens ts = .ok e ∨ ∃ err, ofTokens ts = .error err ∧ err.kind = .tooDeep := by
  obtain ⟨n, hn⟩ := h
  by_cases hlimits : n ≤ maxNesting ∧ e.height ≤ maxHeight
  · exact .inl (hn.ofTokens_eq.1 hlimits)
  · exact .inr (hn.ofTokens_eq.2 hlimits)

/-- **Tokens derive one tree at most**: enough levels find every derivation, and the parser has one answer. -/
theorem Derives.unique {ts : List Token} {a b : Expr} (ha : Derives ts a) (hb : Derives ts b) : a = b := by
  obtain ⟨m, hm⟩ := ha
  obtain ⟨n, hn⟩ := hb
  have hreada := (hm.yields (max m n) [] (.nil _)).eq (Nat.le_max_left m n)
  have hreadb := (hn.yields (max m n) [] (.nil _)).eq (Nat.le_max_right m n)
  rw [hreada, chained_nil, chained_nil] at hreadb
  cases hreadb
  rfl

/-- **All that can happen.**  There are no tokens; or they are a formula, whose tree is checked; or the reading
stops after tokens that can be completed to a formula, with an error about what comes next, whatever comes later. -/
theorem ofTokens_cases (ts : List Token) :
    (ts = [] ∧ ofTokens ts = .error .emptyInput) ∨
    (∃ e, Derives ts e ∧ ofTokens ts = checked e) ∨
    (∃ us rest err, ts = us ++ rest ∧ err.Blames rest ∧ Completable Derives us ∧
      ∀ rest' : List Token, rest'.head? = rest.head? → us ++ rest' ≠ [] → ofTokens (us ++ rest') = .error err) := by
  by_cases hts : ts = []
  · subst hts
    exact .inl ⟨rfl, rfl⟩
  obtain ⟨us, rest, rfl, ⟨e, he, hok⟩ | ⟨err, hblame, hc, herr⟩⟩ := reads_expression (reads_operand maxNesting) ts
  · match rest with
    | [] =>
      have hall := hok [] rfl
      rw [List.append_nil] at hall hts ⊢
      exact .inr (.inl ⟨e, he, by rw [ofTokens_of_ne_nil hts, hall]; rfl⟩)
    | t :: rest =>
      refine .inr (.inr ⟨us, t :: rest, .excessInput t, rfl, rfl, ⟨[], e, by simpa using he⟩, fun rest' h hne => ?_⟩)
      rw [ofTokens_of_ne_nil hne, hok rest' h]
      obtain ⟨rest', rfl⟩ := List.head?_eq_some_iff.1 h
      rfl
  · refine .inr (.inr ⟨us, rest, err, rfl, hblame, hc, fun rest' h hne => ?_⟩)
    rw [ofTokens_of_ne_nil hne, herr rest' h]
    rfl

theorem derives_of_ofTokens {ts : List Token} {e : Expr} (h : ofTokens ts = .ok e) : Derives ts e := by
  obtain ⟨-, herr⟩ | ⟨e', he', hcheck⟩ | ⟨us, rest, err, rfl, -, -, herr⟩ := ofTokens_cases ts
  · rw [herr] at h
    cases h
  · rw [hcheck, checked] at h
    split at h
    · cases h
    · cases h
      exact he'
  · rw [herr rest rfl (by rintro hnil; rw [hnil] at h; cases h)] at h
    cases h

theorem NumeralsRead.blames {us rest : List Token} {err : ParseError} (h : NumeralsRead (us ++ rest))
    (hblame : err.Blames rest) : err.kind ≠ .notANumeral := by
  intro hkind
  cases err <;> cases hkind
  obtain ⟨t, ht, hk, rfl, hnone⟩ := hblame
  have hread := h t (List.mem_append_right us (List.mem_of_mem_head? ht)) hk
  rw [hnone] at hread
  cases hread

/-- **The parser accepts the grammar, within its limits.**  For tokens whose numerals read as numbers: a tree that
it answers is derived; a derivation is answered with its tree when none of its points lies within more operands than
`maxNesting` and no path of the tree has more nodes than `maxHeight`, and is too deep otherwise; no tokens derive two
trees; and tokens that derive none are refused, never for a numeral. -/
theorem ofTokens_eq_ok_of_grammar (ts : List Token) (hnum : NumeralsRead ts) :
    (∀ e, ofTokens ts = .ok e → Derives ts e) ∧
    (∀ n e, Expression n ts e →
      (n ≤ maxNesting ∧ (∀ p, Expr.Path e p → p.length ≤ maxHeight) → ofTokens ts = .ok e) ∧
      (¬ (n ≤ maxNesting ∧ ∀ p, Expr.Path e p → p.length ≤ maxHeight) →
        ∃ err, ofTokens ts = .error err ∧ err.kind = .tooDeep)) ∧
    (∀ a b, Derives ts a → Derives ts b → a = b) ∧
    ((∀ e, ¬ Derives ts e) → ∃ err, ofTokens ts = .error err ∧ err.kind ≠ .notANumeral) := by
  refine ⟨fun e h => derives_of_ofTokens h, fun n e h => ?_, fun a b ha hb => ha.unique hb, fun hnone => ?_⟩
  · simp only [← height_le_iff]
    exact h.ofTokens_eq
  · obtain ⟨-, herr⟩ | ⟨e, he, -⟩ | ⟨us, rest, err, rfl, hblame, -, herr⟩ := ofTokens_cases ts
    · exact ⟨.emptyInput, herr, by decide⟩
    · exact absurd he (hnone e)
    · by_cases hne : us ++ rest = []
      · exact ⟨.emptyInput, by rw [hne]; rfl, by decide⟩
      · exact ⟨err, herr rest rfl hne, hnum.blames hblame⟩

def negatedPower : List Token :=
  [⟨.minus, ['-'], 7⟩, ⟨.number, ['2'], -1⟩, ⟨.power, ['^'], 0⟩, ⟨.name, ['x'], 0⟩]

theorem ofTokens_negatedPower :
    NumeralsRead negatedPower ∧
    Expression 3 negatedPower (.signed .minus (.binary .pow (.number 2) (.var ['x']))) ∧
    ofTokens negatedPower = .ok (.signed .minus (.binary .pow (.number 2) (.var ['x']))) := by
  have hnum : NumeralsRead negatedPower := by decide +kernel
  have htwo : Primary 0 [⟨.number, ['2'], -1⟩] (.number 2) := .number rfl (by decide +kernel)
  have hx : Primary 0 [⟨.name, ['x'], 0⟩] (.var ['x']) := .free rfl fun c => by cases c <;> decide
  have hpower : Power 1 _ _ := .raised (t := ⟨.power, ['^'], 0⟩) htwo rfl (.power (.primary hx))
  have hall : Expression 3 negatedPower _ := .term (.operand (.signed (s := .minus) rfl (.power hpower)))
  exact ⟨hnum, hall, ((ofTokens_eq_ok_of_grammar negatedPower hnum).2.1 3 _ hall).1
    ⟨by decide, (height_le_iff _).1 (by decide)⟩⟩

end Grammar
end Abacus
