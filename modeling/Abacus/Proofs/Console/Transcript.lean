import Mathlib.Computability.RegularExpressions
import Abacus.Console.Prompt
/-!
# What a sitting is to record

The lines that are typed at the prompt settle which events there are.  A formula is answered once its values have
been read, or when one of them cannot be (`Answers`); formulas, blank lines and the word that ends a sitting follow
one another until the lines are over (`Transcript`); and events of the session itself come first and last
(`Minutes`).  The kinds of those events make up a regular language (`Minutes.kinds`), whatever the lines are.
-/
namespace Abacus.Console

/-- The event is of this kind and carries this formula, which is cut when it is long. -/
structure IsAbout (kind : EventKind) (formula : List Char) (e : Event) : Prop where
  kind : e.kind = kind
  formula : List.lookup "expression".toList e.context = some (.str (Event.truncatedText formula))

/-- Whether a result is not a number, infinite, or above the threshold in magnitude. -/
def isRemarkable (threshold x : Float) : Bool := x.isNaN || x.isInf || x.abs > threshold

/-- The events after a formula has been parsed: the values of some names are known and those of others are still to be
read, each from a line of its own. -/
inductive Answers (r : Registry) (s : Settings) (formula : List Char) (tree : Expr) :
    Context → List (List Char) → List (List Char) → List Event → Prop
  | value {c : Context} {name line : List Char} {names lines : List (List Char)} {es : List Event} {x : Float}
      (hread : readDouble? (strip line) = some x) (h : Answers r s formula tree (Assoc.set name x c) names lines es) :
      Answers r s formula tree c (name :: names) (line :: lines) es
  | misread {c : Context} {name line : List Char} {names : List (List Char)} {e : Event}
      (hread : readDouble? (strip line) = none) (he : IsAbout .evalFailed formula e) :
      Answers r s formula tree c (name :: names) [line] [e]
  | refused {c : Context} {why : EvalError} {e : Event} (heval : tree.evaluate r c = .error (.refused why))
      (he : IsAbout .evalFailed formula e) : Answers r s formula tree c [] [] [e]
  | ordinary {c : Context} {x : Float} {e : Event} (heval : tree.evaluate r c = .ok x)
      (hx : isRemarkable s.threshold x = false) (he : IsAbout .evalCompleted formula e) :
      Answers r s formula tree c [] [] [e]
  | remarkable {c : Context} {x : Float} {e w : Event} (heval : tree.evaluate r c = .ok x)
      (hx : isRemarkable s.threshold x = true) (he : IsAbout .evalCompleted formula e)
      (hw : IsAbout .resultWarning formula w) : Answers r s formula tree c [] [] [e, w]

def IsExit (line : List Char) : Prop := lower (strip line) = "exit".toList

structure IsFormula (line : List Char) : Prop where
  not_blank : strip line ≠ []
  not_exit : ¬IsExit line

/-- The events of a sitting that asks for a formula and has these lines to come. -/
inductive Transcript (r : Registry) (s : Settings) : List (List Char) → List Event → Prop
  | ended : Transcript r s [] []
  | exit {line : List Char} {lines : List (List Char)} (h : IsExit line) : Transcript r s (line :: lines) []
  | blank {line : List Char} {lines : List (List Char)} {es : List Event} (h : strip line = [])
      (hrest : Transcript r s lines es) : Transcript r s (line :: lines) es
  | unparsed {line : List Char} {lines : List (List Char)} {es : List Event} {e : Event} {why : FormulaError}
      (h : IsFormula line) (hparse : Expr.parse (strip line) = .error why) (he : IsAbout .parseFailed (strip line) e)
      (hrest : Transcript r s lines es) : Transcript r s (line :: lines) (e :: es)
  | parsed {line : List Char} {values lines : List (List Char)} {es answers : List Event} {e : Event} {tree : Expr}
      (h : IsFormula line) (hparse : Expr.parse (strip line) = .ok tree) (he : IsAbout .parseCompleted (strip line) e)
      (hanswers : Answers r s (strip line) tree [] tree.names values answers) (hrest : Transcript r s lines es) :
      Transcript r s (line :: (values ++ lines)) (e :: (answers ++ es))
  | cutShort {line : List Char} {values : List (List Char)} {e : Event} {tree : Expr} (h : IsFormula line)
      (hparse : Expr.parse (strip line) = .ok tree) (he : IsAbout .parseCompleted (strip line) e)
      (hfew : values.length < tree.names.length) (hread : ∀ value ∈ values, (readDouble? (strip value)).isSome) :
      Transcript r s (line :: values) [e]

/-- The events of a whole sitting with these lines. -/
inductive Minutes (r : Registry) (s : Settings) (lines : List (List Char)) : List Event → Prop
  | mk {first last : Event} {es : List Event} (hfirst : first.kind = .sessionStarted) (h : Transcript r s lines es)
      (hlast : last.kind = .sessionEnded) : Minutes r s lines (first :: es ++ [last])

/-! ## Their kinds -/

open RegularExpression

/-- A formula that cannot be parsed, or one that can and is then refused or evaluated, perhaps with a warning. -/
def formulaKinds : RegularExpression EventKind :=
  char .parseFailed + char .parseCompleted * (char .evalFailed + char .evalCompleted * (1 + char .resultWarning))

/-- Formulas, and perhaps a last one whose values were not all read. -/
def transcriptKinds : RegularExpression EventKind := formulaKinds.star * (1 + char .parseCompleted)

def minutesKinds : RegularExpression EventKind := char .sessionStarted * transcriptKinds * char .sessionEnded

variable {r : Registry} {s : Settings} {lines : List (List Char)} {es : List Event}

theorem Answers.kinds {formula : List Char} {tree : Expr} {c : Context} {names : List (List Char)}
    (h : Answers r s formula tree c names lines es) :
    .parseCompleted :: es.map Event.kind ∈ formulaKinds.matches' := by
  induction h with
  | value _ _ ih => exact ih
  | misread _ he =>
    rw [← rmatch_iff_matches', List.map_singleton, he.kind]
    rfl
  | refused _ he =>
    rw [← rmatch_iff_matches', List.map_singleton, he.kind]
    rfl
  | ordinary _ _ he =>
    rw [← rmatch_iff_matches', List.map_singleton, he.kind]
    rfl
  | remarkable _ _ he hw =>
    rw [← rmatch_iff_matches', List.map_cons, List.map_singleton, he.kind, hw.kind]
    rfl

theorem append_mem_transcriptKinds {group rest : List EventKind} (hgroup : group ∈ formulaKinds.matches')
    (hrest : rest ∈ transcriptKinds.matches') : group ++ rest ∈ transcriptKinds.matches' := by
  obtain ⟨before, hbefore, last, hlast, rfl⟩ := Language.mem_mul.1 hrest
  obtain ⟨groups, rfl, hgroups⟩ := Language.mem_kstar.1 hbefore
  have hmore : (group :: groups).flatten ∈ formulaKinds.star.matches' :=
    Language.join_mem_kstar (List.forall_mem_cons.2 ⟨hgroup, hgroups⟩)
  rw [← List.append_assoc]
  exact Language.append_mem_mul hmore hlast

theorem Transcript.kinds (h : Transcript r s lines es) : es.map Event.kind ∈ transcriptKinds.matches' := by
  have hnil : [] ∈ transcriptKinds.matches' := (rmatch_iff_matches' _ _).1 rfl
  induction h with
  | ended => exact hnil
  | exit _ => exact hnil
  | blank _ _ ih => exact ih
  | unparsed _ _ he _ ih =>
    have hgroup : [.parseFailed] ∈ formulaKinds.matches' := (rmatch_iff_matches' _ _).1 rfl
    rw [List.map_cons, he.kind]
    exact append_mem_transcriptKinds hgroup ih
  | parsed _ _ he hanswers _ ih =>
    rw [List.map_cons, List.map_append, he.kind]
    exact append_mem_transcriptKinds hanswers.kinds ih
  | cutShort _ _ he _ _ =>
    rw [← rmatch_iff_matches', List.map_singleton, he.kind]
    rfl

theorem Minutes.ne_nil (h : Minutes r s lines es) : es ≠ [] := by
  obtain ⟨-, -, -⟩ := h
  exact List.cons_ne_nil _ _

/-- **The kinds of the events of a sitting are a word of the language**, whatever is typed. -/
theorem Minutes.kinds (h : Minutes r s lines es) : es.map Event.kind ∈ minutesKinds.matches' := by
  obtain ⟨hfirst, htranscript, hlast⟩ := h
  have hopening : [.sessionStarted] ∈ (char EventKind.sessionStarted).matches' := rfl
  have hclosing : [.sessionEnded] ∈ (char EventKind.sessionEnded).matches' := rfl
  rw [List.map_append, List.map_cons, List.map_singleton, hfirst, hlast]
  have hstart := Language.append_mem_mul hopening htranscript.kinds
  exact Language.append_mem_mul hstart hclosing

end Abacus.Console
