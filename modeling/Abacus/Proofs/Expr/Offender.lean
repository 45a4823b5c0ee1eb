import Abacus.Proofs.Expr.Acceptance
/-!
# The token that an error names

An error of the parser that is not about depth names the first token that leaves no hope: the tokens before it begin
some formula, and with it they begin none.  If it names no token, the tokens themselves begin a formula and are none.
That the parser looks one token ahead gives the second half: had the tokens up to the named one been the beginning of
a formula, the parser would have stopped there all the same, and it stops in no formula but for depth.
-/
namespace Abacus
namespace Grammar

open Abacus.Expr

theorem blames_head? {err : ParseError} {rest : List Token} (h : err.Blames rest) (hkind : err.kind ≠ .notANumeral) :
    rest.head? = err.token? := by
  cases err with
  | emptyInput | tooHigh => cases h
  | notANumeral text => exact absurd rfl hkind
  | missingOperand | excessInput | unclosed | unexpected | tooNested => exact h

theorem shown_suffix_message {err : ParseError} {t : Token} (h : err.token? = some t) (hkind : err.kind ≠ .tooDeep) :
    t.shown <:+ err.message := by
  cases err with
  | excessInput u =>
    cases h
    exact ⟨_, rfl⟩
  | unexpected u =>
    cases h
    exact ⟨_, rfl⟩
  | unclosed function found =>
    cases h
    exact (List.suffix_append _ _).trans (List.suffix_append _ _)
  | tooNested u => exact absurd rfl hkind
  | emptyInput | missingOperand | tooHigh | notANumeral => cases h

theorem kind_of_blames_nil {err : ParseError} (h : err.Blames []) (hkind : err.kind ≠ .tooDeep) :
    err.kind = .expectedToken := by
  cases err with
  | missingOperand | unclosed => rfl
  | excessInput t | unexpected t => cases h
  | tooNested t => exact absurd rfl hkind
  | notANumeral text =>
    obtain ⟨t, ht, -⟩ := h
    cases ht
  | emptyInput | tooHigh => cases h

theorem kind_of_token {err : ParseError} {t : Token} (h : err.token? = some t) (hkind : err.kind ≠ .tooDeep) :
    err.kind ∈ [ParseErrorKind.excessInput, .unknownToken, .expectedToken] := by
  cases err with
  | excessInput | unexpected | unclosed => simp [ParseError.kind]
  | tooNested u => exact absurd rfl hkind
  | emptyInput | missingOperand | tooHigh | notANumeral => cases h

theorem not_sentence_of_error {ts : List Token} {err : ParseError} (h : ofTokens ts = .error err)
    (hkind : err.kind ≠ .tooDeep) : ¬ Sentence ts := by
  rintro ⟨e, he⟩
  rcases he.ofTokens with hok | ⟨err', herr, hdeep⟩
  · rw [hok] at h
    cases h
  · rw [herr] at h
    cases h
    exact hkind hdeep

theorem stops_of_error {ts : List Token} {err : ParseError} (hne : ts ≠ []) (h : ofTokens ts = .error err)
    (hkind : err.kind ≠ .tooDeep) :
    ∃ us rest, ts = us ++ rest ∧ err.Blames rest ∧ (∃ more, Sentence (us ++ more)) ∧
      ∀ rest' : List Token, rest'.head? = rest.head? → us ++ rest' ≠ [] → ¬ Sentence (us ++ rest') := by
  obtain ⟨hnil, -⟩ | ⟨e, -, hcheck⟩ | ⟨us, rest, err', rfl, hblame, ⟨more, hmore⟩, hlocal⟩ := ofTokens_cases ts
  · exact absurd hnil hne
  · rw [hcheck, checked] at h
    split at h
    · cases h
      exact absurd rfl hkind
    · cases h
  · have hsame := hlocal rest rfl hne
    rw [h] at hsame
    cases hsame
    exact ⟨us, rest, rfl, hblame, ⟨more, hmore⟩,
      fun rest' hr hne' => not_sentence_of_error (hlocal rest' hr hne') hkind⟩

/-- **Syntax errors have the correct prefix.**  An error, not about depth, on tokens whose numerals read as numbers:
if it has no position it says that a token is expected after the last one, and the tokens are no formula but can be
completed to one; otherwise it shows, and has the position of, the first token that no formula begins with, those
before it included. -/
theorem ofTokens_error_first_hopeless {ts : List Token} {err : ParseError} (hnum : NumeralsRead ts) (hne : ts ≠ [])
    (h : ofTokens ts = .error err) (hkind : err.kind ≠ .tooDeep) :
    (err.position? = none → err.kind = .expectedToken ∧ ¬ Sentence ts ∧ ∃ more, Sentence (ts ++ more)) ∧
    (∀ p, err.position? = some p →
      err.kind ∈ [ParseErrorKind.excessInput, .unknownToken, .expectedToken] ∧
      ∃ i t, ts[i]? = some t ∧ t.shown <:+ err.message ∧ p = t.position ∧
        (∃ more, Sentence (ts.take i ++ more)) ∧ ∀ more, ¬ Sentence (ts.take (i + 1) ++ more)) := by
  obtain ⟨us, rest, rfl, hblame, hmore, hstop⟩ := stops_of_error hne h hkind
  have hhead := blames_head? hblame (hnum.blames hblame)
  refine ⟨fun hp => ?_, fun p hp => ?_⟩
  · have hrest : rest = [] := List.head?_eq_none_iff.1 (hhead.trans (Option.map_eq_none_iff.1 hp))
    subst hrest
    rw [List.append_nil] at h ⊢
    exact ⟨kind_of_blames_nil hblame hkind, not_sentence_of_error h hkind, hmore⟩
  · obtain ⟨t, ht, rfl⟩ := Option.map_eq_some_iff.1 hp
    obtain ⟨rest, rfl⟩ := List.head?_eq_some_iff.1 (hhead.trans ht)
    refine ⟨kind_of_token ht hkind, us.length, t, by simp, shown_suffix_message ht hkind, rfl, by simpa using hmore, ?_⟩
    intro more
    have htake : (us ++ t :: rest).take (us.length + 1) = us ++ [t] := by
      simp [List.take_append, List.take_of_length_le (Nat.le_succ us.length)]
    rw [htake, List.append_assoc]
    exact hstop ([t] ++ more) rfl (by simp)

/-- `f(1 2)`: after `f(1` there may come a comma or a parenthesis, and no number. -/
def twoNumbers : List Token :=
  [⟨.name, ['f'], 0⟩, ⟨.opening, ['('], 1⟩, ⟨.number, ['1'], 2⟩, ⟨.number, ['2'], 3⟩, ⟨.closing, [')'], 4⟩]

theorem first_hopeless_twoNumbers :
    NumeralsRead twoNumbers ∧ twoNumbers ≠ [] ∧
    ofTokens twoNumbers = .error (.unclosed (some ['f']) (some ⟨.number, ['2'], 3⟩)) ∧
    ∃ i t, twoNumbers[i]? = some t ∧ 3 = t.position ∧
      (∃ more, Sentence (twoNumbers.take i ++ more)) ∧ ∀ more, ¬ Sentence (twoNumbers.take (i + 1) ++ more) := by
  have hnum : NumeralsRead twoNumbers := by decide +kernel
  have herr : ofTokens twoNumbers = .error (.unclosed (some ['f']) (some ⟨.number, ['2'], 3⟩)) := by rfl
  obtain ⟨-, i, t, hi, -, hp, hmore, hnone⟩ :=
    (ofTokens_error_first_hopeless hnum (List.cons_ne_nil _ _) herr (by decide)).2 3 rfl
  exact ⟨hnum, List.cons_ne_nil _ _, herr, i, t, hi, hp, hmore, hnone⟩

end Grammar
end Abacus
