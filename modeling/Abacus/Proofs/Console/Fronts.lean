import Abacus.Proofs.Console.PromptRun
import Abacus.Proofs.Console.Silence
import Abacus.Proofs.Console.Verdict
/-!
# The two ways to evaluate

A formula can be evaluated by a command line of its own or at the prompt.  Either shows the verdict on it: the
command line with the values as they are given (`explained_runEval`), the prompt with the values as they are typed
(`Sitting.answering_feed`).  The prompt takes one line for each value that it asks for and then waits for the next
formula (`Sitting.Answering`).  All of this is computed at a desk without a journal, and holds at any other up to
warnings.  So the two come to the same exactly if no value that is asked for is a number to the prompt only
(`fronts_agree_iff`).
-/
namespace Abacus.Console

open Desk

variable {τ : Type} [Instant τ] {r : Registry} {s : Settings} {d entered : Desk τ} {formula session : List Char}
  {values : List (List Char)} {verdict : Verdict}

/-! ## What is shown -/

/-- Shows an answer, and the warning that it deserves before it. -/
def present (d : Desk τ) (warning : Option (List Char)) (answer : List Char) : Desk τ :=
  (match warning with
    | none      => d
    | some text => d.complainLine text).printLine ("Answer: ".toList ++ answer)

def Verdict.concluded (d : Desk τ) : Verdict → Run τ
  | .refused message         => explained (refuse d message)
  | .misread given           => explained (refuse d (OverrideError.notANumeral given.1 given.2).message)
  | .answered warning answer => done (present d warning answer)

def Verdict.resumed (d : Desk τ) : Verdict → Sitting τ
  | .refused message         => Sitting.excuse d message
  | .misread given           => Sitting.excuse d ("Incorrect value for the variable '".toList ++ given.1 ++ ['\''])
  | .answered warning answer => Sitting.askFormula ((present d warning answer).print ['\n'])

def askValues (d : Desk τ) (names : List (List Char)) : Desk τ :=
  names.foldl (fun d name => d.print (Sitting.valuePrompt name)) d

/-- What the prompt shows of a formula before its verdict: the canonical text and the questions for as many values. -/
def introduce (d : Desk τ) (formula : List Char) (count : Nat) : Desk τ :=
  match Expr.parse formula with
  | .error _ => d
  | .ok tree => askValues (d.printLine ("AST: ".toList ++ tree.text)) (tree.names.take count)

theorem report_of_journal (hd : d.journal = none) {x : Float} {text : List Char} (h : answerText s.places x = .ok text)
    (formula : List Char) (session : Option (List Char)) :
    report d s formula x session = (present d (Status.classify s.threshold x).warning? text, .ok ()) := by
  unfold report present
  dsimp only
  cases (Status.classify s.threshold x).warning? with
  | none =>
    dsimp only
    rw [h]
  | some warning =>
    have hwarned : (d.complainLine warning).journal = none := hd
    dsimp only
    rw [emit_of_journal hwarned, h]

/-! ## The command line -/

def evalLine (project : Option (List Char)) (formula : List Char) (values : List (List Char)) : List (List Char) :=
  projectArgs project ++ "eval".toList :: evalArgs formula ((namesOf formula).zip values)

theorem readOverrides_of_parse {tree : Expr} (hparse : Expr.parse formula = .ok tree) (values : List (List Char)) :
    readOverrides [] (((namesOf formula).zip values).map overrideItem) =
      (bindValues readDouble? [] (tree.names.zip values)).mapError fun g => .notANumeral g.1 g.2 := by
  have hnames : ∀ g ∈ tree.names.zip values, isName g.1 = true := fun g hg =>
    (Expr.isName_of_mem_names hparse (List.of_mem_zip hg).1).1
  rw [namesOf, hparse]
  exact readOverrides_items hnames []

theorem explained_runEval_settled (hd : d.journal = none) {tree : Expr} {c : Context} {items : List (List Char)}
    (hitems : readOverrides [] items = .ok c) (hparse : Expr.parse formula = .ok tree)
    (hsettle : settle r s tree c = .ok verdict) :
    explained (runEval r s d formula items false) = verdict.concluded d := by
  obtain ⟨e, heval, rfl⟩ | ⟨x, text, heval, htext, rfl⟩ := cases_of_settle hsettle
  · rw [runEval, hitems]
    dsimp only
    rw [hparse]
    dsimp only
    rw [heval]
    dsimp only
    rw [emit_of_journal hd]
    rfl
  · rw [runEval_of_ok hitems hparse heval, emit_of_journal hd, if_neg Bool.false_ne_true, report_of_journal hd htext]
    rfl

/-- **A command line ends with its verdict**, the values read as they are given. -/
theorem explained_runEval (hd : d.journal = none) (hverdict : judge r s readDouble? formula values = .ok verdict) :
    explained (runEval r s d formula (((namesOf formula).zip values).map overrideItem) false) =
      verdict.concluded d := by
  rw [judge] at hverdict
  cases hparse : Expr.parse formula with
  | error e =>
    rw [hparse] at hverdict
    cases hverdict
    have hnone : ((namesOf formula).zip values).map overrideItem = [] := by
      rw [namesOf, hparse]
      rfl
    rw [hnone, runEval, readOverrides]
    dsimp only
    rw [hparse]
    dsimp only
    rw [emit_of_journal hd]
    rfl
  | ok tree =>
    rw [hparse] at hverdict
    dsimp only at hverdict
    rw [judgeTree] at hverdict
    have hitems := readOverrides_of_parse hparse values
    cases hbind : bindValues readDouble? [] (tree.names.zip values) with
    | error g =>
      rw [hbind] at hverdict hitems
      cases hverdict
      rw [runEval, hitems]
      rfl
    | ok c =>
      rw [hbind] at hverdict hitems
      exact explained_runEval_settled hd hitems hparse hverdict

/-! ## The prompt -/

namespace Sitting

/-- The sitting takes these lines as values, one for each that it asks for, and then waits for a formula. -/
inductive Answering (r : Registry) (s : Settings) (session : List Char) :
    Sitting τ → List (List Char) → Sitting τ → Prop
  | done {a : Sitting τ} (h : a.waiting = .formula) : Answering r s session a [] a
  | value {a b : Sitting τ} {p : Pending} {line : List Char} {lines : List (List Char)} (h : a.waiting = .value p)
      (hrest : Answering r s session (feed r s session a line) lines b) : Answering r s session a (line :: lines) b

variable {a b a' : Sitting τ} {lines : List (List Char)} {s' : Settings} {session' : List Char}

theorem Answering.foldl_feed (h : Answering r s session a lines b) : lines.foldl (feed r s session) a = b := by
  induction h with
  | done _ => rfl
  | value _ _ ih => exact ih

theorem Answering.alike (hs : ShowAlike s s') (h : Answering r s session a lines b) (halike : Alike a a') :
    ∃ b', Answering r s' session' a' lines b' ∧ Alike b b' := by
  induction h generalizing a' with
  | done h => exact ⟨a', .done (halike.waiting.trans h), halike⟩
  | value h _ ih =>
    obtain ⟨b', hrest, hb'⟩ := ih (halike.feed hs _)
    exact ⟨b', .value (halike.waiting.trans h) hrest, hb'⟩

omit [Instant τ] in
theorem waiting_resumed (d : Desk τ) (verdict : Verdict) : (verdict.resumed d).waiting = .formula := by
  cases verdict <;> rfl

theorem evaluate_of_settle (hd : d.journal = none) {tree : Expr} {c : Context} (h : settle r s tree c = .ok verdict)
    (formula : List Char) : evaluate r s session d formula tree c = verdict.resumed d := by
  obtain ⟨e, heval, rfl⟩ | ⟨x, text, heval, htext, rfl⟩ := cases_of_settle h
  · rw [evaluate, heval]
    dsimp only
    rw [emit_of_journal hd]
    rfl
  · rw [evaluate_of_ok heval, emit_of_journal hd, report_of_journal hd htext]
    rfl

theorem answering_proceed (hd : d.journal = none) {tree : Expr} {c : Context} {names : List (List Char)}
    (hlength : values.length = names.length)
    (hverdict : judgeTree r s readTyped? tree c (names.zip values) = .ok verdict) (formula : List Char) :
    Answering r s session (proceed r s session d formula tree c names) (asked readTyped? values)
      (verdict.resumed (askValues d (names.take (asked readTyped? values).length))) := by
  induction names generalizing d c values with
  | nil =>
    obtain rfl := List.length_eq_zero_iff.1 hlength
    rw [List.zip_nil_left, judgeTree, bindValues] at hverdict
    dsimp only at hverdict
    rw [proceed, evaluate_of_settle hd hverdict]
    exact .done (waiting_resumed d verdict)
  | cons name names ih =>
    cases values with
    | nil => cases hlength
    | cons value values =>
      have hprinted : (d.print (valuePrompt name)).journal = none := hd
      rw [judgeTree, List.zip_cons_cons, bindValues] at hverdict
      rw [proceed, asked]
      refine .value rfl ?_
      cases hread : readTyped? value with
      | some x =>
        rw [hread] at hverdict
        rw [feed_number r s hread, Option.isSome_some, if_pos rfl]
        exact ih hprinted (Nat.succ.inj hlength) hverdict
      | none =>
        rw [hread] at hverdict
        cases hverdict
        have hfed : feed r s session ⟨d.print (valuePrompt name), .value ⟨formula, tree, c, name, names⟩⟩ value =
            (Verdict.misread (name, value)).resumed (d.print (valuePrompt name)) := by
          rw [feed_value, takeValue, ← readTyped?, hread]
          dsimp only
          rw [emit_of_journal hprinted]
          rfl
        rw [hfed, Option.isSome_none, if_neg Bool.false_ne_true]
        exact .done (waiting_resumed _ _)

/-- **A formula is answered once the values that it asks for have been typed.** -/
theorem answering_feed (hd : d.journal = none) (hformula : IsFormula formula)
    (hlength : values.length = (namesOf formula).length)
    (hverdict : judge r s readTyped? formula values = .ok verdict) :
    Answering r s session (feed r s session ⟨d, .formula⟩ formula) (asked readTyped? values)
      (verdict.resumed (introduce d formula (asked readTyped? values).length)) := by
  rw [judge] at hverdict
  rw [namesOf] at hlength
  rw [feed_formula r s hformula, takeFormula, Expr.parse_strip, introduce]
  cases hparse : Expr.parse formula with
  | error e =>
    rw [hparse] at hverdict hlength
    cases hverdict
    obtain rfl := List.length_eq_zero_iff.1 hlength
    dsimp only
    rw [emit_of_journal hd]
    exact .done (waiting_resumed d (.refused e.message))
  | ok tree =>
    rw [hparse] at hverdict hlength
    have hshown : (d.printLine ("AST: ".toList ++ tree.text)).journal = none := hd
    dsimp only
    rw [emit_of_journal hd]
    exact answering_proceed hshown hlength hverdict _

def first (r : Registry) (d : Desk τ) : Sitting τ := opened r d.newSession.2 d.newSession.1

theorem first_detach (r : Registry) (d : Desk τ) :
    first r d.detach = ⟨((d.detach.newSession.1.print (greeting r)).print formulaPrompt), .formula⟩ := by
  have hsilent : d.detach.newSession.1.journal = none := rfl
  rw [first, opened, started, emit_of_journal hsilent]
  rfl

theorem run_eq_close (d : Desk τ) (lines : List (List Char)) :
    run r s d lines = close d.newSession.2 (lines.foldl (feed r s d.newSession.2) (first r d)) := rfl

end Sitting

def promptOutcome : Desk τ × Except Crash Unit → Run τ
  | (d, .ok _)    => done d
  | (d, .error c) => crash d c

theorem run_of_prompt {args : List (List Char)} {path : Option Path}
    (hprepare : prepare d args = (entered, .ok (some (s, path, .prompt)))) (input : List Char) :
    run r d args input = promptOutcome (Sitting.run r s entered (inputLines input)) := by
  rw [run_eq_explained, start, hprepare]
  dsimp only
  rw [runCommand, runPrompt]
  generalize Sitting.run r s entered (inputLines input) = result
  obtain ⟨d', outcome⟩ := result
  cases outcome <;> rfl

/-! ## Both -/

/-- At the prompt, the formula and these values come to the verdict: each value is a line that was asked for, and
the next sitting shows the verdict and waits for a formula. -/
structure PromptSettles (r : Registry) (s : Settings) (d : Desk τ) (formula : List Char) (values : List (List Char))
    (verdict : Verdict) (next : Sitting τ) : Prop where
  answering : Sitting.Answering r s d.newSession.2
    (Sitting.feed r s d.newSession.2 (Sitting.first r d) formula) values next
  shows : Sitting.Alike (verdict.resumed (introduce (Sitting.first r d.detach).desk formula values.length)) next

omit [Instant τ] in
theorem alike_detach (d : Desk τ) : Desk.Alike d.detach d := ⟨rfl, rfl, rfl, .refl _⟩

theorem exists_promptSettles (hformula : IsFormula formula) (hlength : values.length = (namesOf formula).length)
    (hverdict : judge r s readTyped? formula values = .ok verdict) (d : Desk τ) :
    ∃ next, PromptSettles r s d formula (asked readTyped? values) verdict next := by
  have hshow : ShowAlike s s := ⟨rfl, rfl⟩
  have hstart : Sitting.Alike (Sitting.first r d.detach) (Sitting.first r d) :=
    Sitting.opened_alike (alike_detach d).newSession
  have hsilent : (Sitting.first r d.detach).desk.journal = none := by
    rw [Sitting.first_detach]
    rfl
  have hwaiting : (⟨(Sitting.first r d.detach).desk, .formula⟩ : Sitting τ) = Sitting.first r d.detach := by
    rw [Sitting.first_detach]
  have hanswered : Sitting.Answering r s d.newSession.2
      (Sitting.feed r s d.newSession.2 ⟨(Sitting.first r d.detach).desk, .formula⟩ formula) (asked readTyped? values)
      (verdict.resumed (introduce (Sitting.first r d.detach).desk formula (asked readTyped? values).length)) :=
    Sitting.answering_feed hsilent hformula hlength hverdict
  rw [hwaiting] at hanswered
  obtain ⟨next, hanswering, halike⟩ := hanswered.alike hshow (hstart.feed hshow formula)
  exact ⟨next, hanswering, halike⟩

/-- **The two ways to evaluate come to the same exactly if no value that is asked for is a number to the prompt only.**
Take a project under which the prompt can be opened, a single line that is a formula to the prompt, and as many single
lines as the formula has names, none if it cannot be parsed.  Then the command line of the formula and these values ends
with the verdict on the values as they are given; the prompt takes the formula and the values up to the first that it
cannot read, a line for each value that it asks for, shows the verdict on the values as they are typed, and goes on with
the lines after those.  What is shown may be mixed with warnings that an event was not recorded. -/
theorem fronts_agree_iff {project : Option (List Char)} {path : Option Path}
    (hprepare : prepare d (projectArgs project ++ ["repl".toList]) = (entered, .ok (some (s, path, .prompt))))
    (hplaces : ∀ x, ∃ text, answerText s.places x = .ok text) (hformula : IsFormula formula)
    (hline : IsSingleLine formula) (hvalues : ∀ value ∈ values, IsSingleLine value)
    (hlength : values.length = (namesOf formula).length) :
    ∃ (given typed : Verdict) (next : Sitting τ),
      judge .standard s readDouble? formula values = .ok given ∧
      judge .standard s readTyped? formula values = .ok typed ∧
      (∀ input, EndAlike (given.concluded entered.detach)
        (run .standard d (evalLine project formula values) input)) ∧
      PromptSettles .standard s entered formula (asked readTyped? values) typed next ∧
      (∀ more, run .standard d (projectArgs project ++ ["repl".toList])
          (typedText (formula :: asked readTyped? values) ++ more) =
        promptOutcome (Sitting.close entered.newSession.2
          ((inputLines more).foldl (Sitting.feed .standard s entered.newSession.2) next))) ∧
      (given = typed ↔ ∀ value ∈ asked readTyped? values, ¬IsSeparated value) := by
  have hshow : ShowAlike s s := ⟨rfl, rfl⟩
  have hlines : ∀ line ∈ formula :: asked readTyped? values, IsSingleLine line :=
    List.forall_mem_cons.2 ⟨hline, fun value hvalue => hvalues value (mem_of_mem_asked hvalue)⟩
  obtain ⟨given, hgiven⟩ := exists_judge Registry.isTotal_standard hplaces readDouble? formula values
  obtain ⟨typed, htyped⟩ := exists_judge Registry.isTotal_standard hplaces readTyped? formula values
  obtain ⟨next, hnext⟩ := exists_promptSettles hformula hlength htyped entered
  refine ⟨given, typed, next, hgiven, htyped, fun input => ?_, hnext, fun more => ?_, ?_⟩
  · have heval := prepare_eval hprepare (readEval?_evalArgs formula ((namesOf formula).zip values))
    rw [run_eq_explained, evalLine, start, heval]
    dsimp only
    rw [runCommand, ← explained_runEval rfl hgiven]
    exact explained_alike (runEval_alike hshow (alike_detach entered) _ _ _)
  · rw [run_of_prompt hprepare, inputLines_typedText hlines, Sitting.run_eq_close, List.cons_append, List.foldl_cons,
      List.foldl_append, hnext.answering.foldl_feed]
  · have hless (value : List Char) (x : Float) (hread : readDouble? value = some x) : readTyped? value = some x :=
      readTyped?_of_readDouble? hread
    have hsame := judge_eq_iff (r := .standard) (s := s) hless hlength
    rw [hgiven, htyped, Except.ok.injEq] at hsame
    rw [hsame]
    exact forall₂_congr fun value _ => readDouble?_eq_readTyped?_iff value

/-- A formula that looks like an option, and values with blanks around them. -/
theorem fronts_agree_iff_spacedValues : ∃ (verdict : Verdict) (next : Sitting Rat),
    judge .standard Settings.default readDouble? "-x / y".toList ["\u00a03".toList, "2\t".toList] = .ok verdict ∧
    judge .standard Settings.default readTyped? "-x / y".toList ["\u00a03".toList, "2\t".toList] = .ok verdict ∧
    (∀ input, EndAlike (verdict.concluded promptEntered.detach) (run .standard promptDesk
      (evalLine (some "p".toList) "-x / y".toList ["\u00a03".toList, "2\t".toList]) input)) ∧
    PromptSettles .standard Settings.default promptEntered "-x / y".toList ["\u00a03".toList, "2\t".toList]
      verdict next ∧
    ∀ more, run .standard promptDesk (projectArgs (some "p".toList) ++ ["repl".toList])
        ("-x / y\n\u00a03\n2\t\n".toList ++ more) =
      promptOutcome (Sitting.close promptEntered.newSession.2
        ((inputLines more).foldl (Sitting.feed .standard Settings.default promptEntered.newSession.2) next)) := by
  have hprepare : prepare promptDesk (projectArgs (some "p".toList) ++ ["repl".toList]) =
      (promptEntered, .ok (some (Settings.default, some promptProject, .prompt))) := rfl
  have hformula : IsFormula "-x / y".toList := ⟨by decide, by rw [IsExit]; decide +kernel⟩
  have hline : IsSingleLine "-x / y".toList := ⟨by decide, by decide⟩
  have hvalues : ∀ value ∈ ["\u00a03".toList, "2\t".toList], IsSingleLine value := by
    intro value hvalue
    exact ⟨by revert value; decide, by revert value; decide⟩
  have hlength : ["\u00a03".toList, "2\t".toList].length = (namesOf "-x / y".toList).length := by decide +kernel
  have hasked : asked readTyped? ["\u00a03".toList, "2\t".toList] = ["\u00a03".toList, "2\t".toList] := by
    decide +kernel
  have hends : ∀ value ∈ ["\u00a03".toList, "2\t".toList], trim isNumeralBlank value = strip value := by decide
  obtain ⟨given, typed, next, hgiven, htyped, heval, hprompt, hrun, hsame⟩ :=
    fronts_agree_iff hprepare answerText_defaultPlaces hformula hline hvalues hlength
  rw [hasked] at hprompt hrun hsame
  obtain rfl := hsame.2 fun value hvalue hseparated => hseparated.ends (hends value hvalue)
  exact ⟨given, next, hgiven, htyped, heval, hprompt, hrun⟩

theorem greeting_standard : Sitting.greeting .standard =
    ("Expression evaluator with functions(abs, clamp, cos, log, sin, sqrt, tan), ".toList ++
      "constants(pi, e) and variables\nEnter 'exit' to finish\n\n".toList) := by
  have hlist (names : List (List Char)) (h : Registry.standard.names = names) : Sitting.greeting .standard =
      "Expression evaluator with functions(".toList ++ List.intercalate [',', ' '] names ++
        "), constants(pi, e) and variables\nEnter 'exit' to finish\n\n".toList := h ▸ rfl
  exact (hlist _ Registry.names_standard).trans (by decide +kernel)

/-- A separator in front of a numeral: the command line reports the value, and the prompt answers. -/
theorem fronts_differ_unitSeparator :
    (run .standard promptDesk (evalLine (some "p".toList) "x".toList ["\x1f3".toList]) []).1.out = [] ∧
    (run .standard promptDesk (evalLine (some "p".toList) "x".toList ["\x1f3".toList]) []).1.err =
      "Error: Incorrect value for the variable 'x': '\\x1f3'\n".toList ∧
    (run .standard promptDesk promptArgs "x\n\x1f3\n".toList).1.out = Sitting.greeting .standard ++
      ("Expression: AST: x\nEnter value for the variable 'x': Answer: 3.0000000000\n\n".toList ++
        "Expression: \n".toList) ∧
    (run .standard promptDesk promptArgs "x\n\x1f3\n".toList).1.err = [] := by
  have hprepare : prepare promptDesk promptArgs =
      (promptEntered, .ok (some (Settings.default, some promptProject, .prompt))) := rfl
  refine ⟨by decide +kernel, by decide +kernel, ?_, by decide +kernel⟩
  rw [run_of_prompt hprepare, Sitting.run_eq_close, Sitting.first, Sitting.opened, greeting_standard]
  decide +kernel

end Abacus.Console
