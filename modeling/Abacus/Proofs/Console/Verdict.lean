import Abacus.Console.Prompt
import Abacus.Proofs.Console.Overrides
import Abacus.Proofs.Registry.Standard
import Abacus.Proofs.Token.Blanks
/-!
# What comes of a formula

A formula and the texts of its names' values have one verdict: the formula is refused, or the first value that is no
number is reported, or there is an answer (`judge`).  It depends on how a value is read, and the two readers of the
program differ in that the prompt strips a value first: a value with a separator at one of its ends is a number to the
prompt only (`readDouble?_eq_readTyped?_iff`).  Two readers of which the one reads less come to the same verdict exactly
if they read alike the values up to the first that the other cannot read (`judge_eq_iff`).
-/
namespace Abacus.Console

/-- What comes of a formula whose names have values. -/
inductive Verdict
  | refused (message : List Char)
  | misread (given : List Char × List Char)
  | answered (warning : Option (List Char)) (answer : List Char)

def settle (r : Registry) (s : Settings) (tree : Expr) (c : Context) : Except Crash Verdict :=
  match tree.evaluate r c with
  | .error (.refused e) => .ok (.refused e.message)
  | .error (.fault f)   => .error (.fault f)
  | .error .misapplied  => .error .misapplied
  | .ok x =>
    match answerText s.places x with
    | .ok text => .ok (.answered (Status.classify s.threshold x).warning? text)
    | .error e => .error (.places e)

def judgeTree (r : Registry) (s : Settings) (read : List Char → Option Float) (tree : Expr) (c : Context)
    (given : List (List Char × List Char)) : Except Crash Verdict :=
  match bindValues read c given with
  | .error given => .ok (.misread given)
  | .ok c        => settle r s tree c

/-- The verdict on a formula, its values in the order of its names. -/
def judge (r : Registry) (s : Settings) (read : List Char → Option Float) (formula : List Char)
    (values : List (List Char)) : Except Crash Verdict :=
  match Expr.parse formula with
  | .error e => .ok (.refused e.message)
  | .ok tree => judgeTree r s read tree [] (tree.names.zip values)

def namesOf (formula : List Char) : List (List Char) :=
  match Expr.parse formula with
  | .error _ => []
  | .ok tree => tree.names

def asked (read : List Char → Option Float) : List (List Char) → List (List Char)
  | []              => []
  | value :: values => value :: if (read value).isSome then asked read values else []

theorem mem_of_mem_asked {read : List Char → Option Float} {value : List Char} {values : List (List Char)}
    (h : value ∈ asked read values) : value ∈ values := by
  induction values with
  | nil => exact h
  | cons first values ih =>
    obtain rfl | h := List.mem_cons.1 h
    · exact List.mem_cons_self
    · split at h
      · exact List.mem_cons_of_mem first (ih h)
      · exact absurd h List.not_mem_nil

variable {r : Registry} {s : Settings} {read read' : List Char → Option Float} {formula : List Char}
  {values names : List (List Char)} {given : List (List Char × List Char)} {c : Context}

theorem exists_judge (hr : r.IsTotal) (hplaces : ∀ x, ∃ text, answerText s.places x = .ok text)
    (read : List Char → Option Float) (formula : List Char) (values : List (List Char)) :
    ∃ verdict, judge r s read formula values = .ok verdict := by
  rw [judge]
  cases Expr.parse formula with
  | error e => exact ⟨_, rfl⟩
  | ok tree =>
    dsimp only
    rw [judgeTree]
    cases bindValues read [] (tree.names.zip values) with
    | error given => exact ⟨_, rfl⟩
    | ok c =>
      dsimp only
      rw [settle]
      obtain ⟨x, heval⟩ | ⟨e, heval⟩ := Expr.decided_evaluate hr c tree
      · obtain ⟨text, htext⟩ := hplaces x
        rw [heval]
        dsimp only
        rw [htext]
        exact ⟨_, rfl⟩
      · rw [heval]
        exact ⟨_, rfl⟩

theorem cases_of_settle {tree : Expr} {verdict : Verdict} (h : settle r s tree c = .ok verdict) :
    (∃ e, tree.evaluate r c = .error (.refused e) ∧ verdict = .refused e.message) ∨
    ∃ x text, tree.evaluate r c = .ok x ∧ answerText s.places x = .ok text ∧
      verdict = .answered (Status.classify s.threshold x).warning? text := by
  rw [settle] at h
  split at h
  · rename_i e heval
    cases h
    exact .inl ⟨e, heval, rfl⟩
  · cases h
  · cases h
  · rename_i x heval
    split at h
    · rename_i text htext
      cases h
      exact .inr ⟨x, text, heval, htext, rfl⟩
    · cases h

/-! ## Two readers -/

def readTyped? (value : List Char) : Option Float := readDouble? (strip value)

/-- The value is a number but for a separator at one of its ends. -/
structure IsSeparated (value : List Char) : Prop where
  ends : trim isNumeralBlank value ≠ strip value
  number : (readTyped? value).isSome

theorem readTyped?_of_readDouble? {value : List Char} {x : Float} (h : readDouble? value = some x) :
    readTyped? value = some x := by
  rw [readDouble?_eq] at h
  split at h
  · exact h
  · cases h

/-- **The two readers differ on the values with a separator at one of their ends**, and on no others. -/
theorem readDouble?_eq_readTyped?_iff (value : List Char) :
    readDouble? value = readTyped? value ↔ ¬IsSeparated value := by
  rw [readDouble?_eq]
  split
  · rename_i hends
    exact iff_of_true rfl fun h => h.ends hends
  · rename_i hends
    cases hread : readTyped? value with
    | none => exact iff_of_true rfl fun h => by simpa [hread] using h.number
    | some x =>
      refine iff_of_false (fun h => by cases h) (not_not_intro ⟨hends, ?_⟩)
      rw [hread]
      rfl

theorem bindValues_congr (h : ∀ value ∈ asked read values, read' value = read value) :
    bindValues read' c (names.zip values) = bindValues read c (names.zip values) := by
  induction names generalizing values c with
  | nil => rfl
  | cons name names ih =>
    cases values with
    | nil => rfl
    | cons value values =>
      obtain ⟨hvalue, hvalues⟩ := List.forall_mem_cons.1 h
      rw [List.zip_cons_cons, bindValues, bindValues, hvalue]
      cases hread : read value with
      | none => rfl
      | some x =>
        rw [hread, Option.isSome_some, if_pos rfl] at hvalues
        exact ih hvalues

theorem misread_of_bindValues {g : List Char × List Char} (h : bindValues read c given = .error g) :
    read g.2 = none := by
  induction given generalizing c with
  | nil => cases h
  | cons first more ih =>
    rw [bindValues] at h
    cases hread : read first.2 with
    | none =>
      rw [hread] at h
      cases h
      exact hread
    | some x =>
      rw [hread] at h
      exact ih h

theorem bindValues_of_ne (hless : ∀ value x, read' value = some x → read value = some x)
    (hlength : values.length = names.length) {value : List Char} (hmem : value ∈ asked read values)
    (hne : read' value ≠ read value) :
    ∃ g, bindValues read' c (names.zip values) = .error g ∧ (read g.2).isSome := by
  induction names generalizing values c with
  | nil =>
    obtain rfl := List.length_eq_zero_iff.1 hlength
    exact absurd hmem List.not_mem_nil
  | cons name names ih =>
    cases values with
    | nil => exact absurd hmem List.not_mem_nil
    | cons first values =>
      rw [List.zip_cons_cons, bindValues]
      cases hread' : read' first with
      | some x =>
        have hread := hless first x hread'
        obtain rfl | hmem := List.mem_cons.1 hmem
        · exact absurd (hread'.trans hread.symm) hne
        · rw [hread, Option.isSome_some, if_pos rfl] at hmem
          exact ih (Nat.succ.inj hlength) hmem
      | none =>
        refine ⟨_, rfl, ?_⟩
        cases hread : read first with
        | some x => rfl
        | none =>
          obtain rfl | hmem := List.mem_cons.1 hmem
          · exact absurd (hread'.trans hread.symm) hne
          · rw [hread] at hmem
            exact absurd hmem List.not_mem_nil

/-- **Readers of which the one reads less come to the same verdict exactly if they read alike the values up to the first
that the other cannot read.** -/
theorem judge_eq_iff (hless : ∀ value x, read' value = some x → read value = some x)
    (hlength : values.length = (namesOf formula).length) :
    judge r s read' formula values = judge r s read formula values ↔
      ∀ value ∈ asked read values, read' value = read value := by
  rw [namesOf] at hlength
  rw [judge, judge]
  cases hparse : Expr.parse formula with
  | error e =>
    rw [hparse] at hlength
    obtain rfl := List.length_eq_zero_iff.1 hlength
    exact iff_of_true rfl (List.forall_mem_nil _)
  | ok tree =>
    rw [hparse] at hlength
    dsimp only
    constructor
    · intro hsame value hmem
      by_contra hne
      obtain ⟨g, hless', hsome⟩ := bindValues_of_ne (c := []) hless hlength hmem hne
      rw [judgeTree, judgeTree, hless'] at hsame
      cases hbind : bindValues read [] (tree.names.zip values) with
      | error g' =>
        rw [hbind] at hsame
        cases hsame
        rw [misread_of_bindValues hbind] at hsome
        cases hsome
      | ok c =>
        rw [hbind] at hsame
        obtain ⟨e, -, hverdict⟩ | ⟨x, text, -, -, hverdict⟩ := cases_of_settle hsame.symm <;> cases hverdict
    · intro halike
      rw [judgeTree, judgeTree, bindValues_congr halike]

end Abacus.Console
