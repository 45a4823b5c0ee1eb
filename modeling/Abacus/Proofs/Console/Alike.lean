import Abacus.Console.Run
/-!
# Desks that show the same

Desks are alike if they show the same but for warnings that an event was not recorded, and one of them has no journal at
all (`Alike`).  Every step of the commands that evaluate keeps them alike, whatever the events and the stores are: only
recording looks at the journal, and it shows nothing but such a warning (`Alike.emit`).
-/
namespace Abacus

def warningLine : List Char := "[exprcalc] logging failed\n".toList

/-- The second text is the first with warnings put in, each before a line or after the last one. -/
inductive Warned : List Char → List Char → Prop
  | refl (text : List Char) : Warned text text
  | line {plain warned : List Char} (h : Warned plain warned) (text : List Char) :
      Warned (plain ++ text ++ ['\n']) (warned ++ text ++ ['\n'])
  | warning {plain warned : List Char} (h : Warned plain warned) : Warned plain (warned ++ warningLine)

namespace Desk

variable {τ : Type} {silent logging : Desk τ}

/-- The desks show the same but for warnings, and the first has no journal. -/
structure Alike (silent logging : Desk τ) : Prop where
  journal : silent.journal = none
  out : logging.out = silent.out
  sessions : logging.sessions = silent.sessions
  err : Warned silent.err logging.err

theorem Alike.print (h : Alike silent logging) (text : List Char) : Alike (silent.print text) (logging.print text) :=
  ⟨h.journal, congrArg (· ++ withoutControls text) h.out, h.sessions, h.err⟩

theorem Alike.printLine (h : Alike silent logging) (text : List Char) :
    Alike (silent.printLine text) (logging.printLine text) := h.print _

theorem Alike.complainLine (h : Alike silent logging) (text : List Char) :
    Alike (silent.complainLine text) (logging.complainLine text) :=
  ⟨h.journal, h.out, h.sessions, h.err.line (withoutControls text)⟩

theorem Alike.newSession (h : Alike silent logging) : Alike silent.newSession.1 logging.newSession.1 :=
  ⟨h.journal, h.out, congrArg (· + 1) h.sessions, h.err⟩

section

variable [Instant τ]

theorem emit_of_journal (h : silent.journal = none) (e : Event) (session : Option (List Char)) :
    silent.emit e session = silent := by
  rw [emit, h]

theorem Alike.warn (h : Alike silent logging) : Alike silent (logging.warn "logging failed".toList) := by
  rw [Desk.warn]
  split
  · exact h
  · have hline : "[exprcalc] ".toList ++ ("logging failed".toList ++ ['\n']) = warningLine := by decide +kernel
    refine ⟨h.journal, h.out, h.sessions, ?_⟩
    rw [List.append_assoc, List.append_assoc, hline]
    exact h.err.warning

/-- **Recording shows nothing but a warning**, whatever is recorded and whatever the store is like. -/
theorem Alike.emit (h : Alike silent logging) (e e' : Event) (session session' : Option (List Char)) :
    Alike (silent.emit e session) (logging.emit e' session') := by
  rw [emit_of_journal h.journal, Desk.emit]
  split
  · exact h
  · rename_i j _
    have hfiles : Alike silent { logging with files := (j.write logging.files e'.truncated.attributed session').1 } :=
      ⟨h.journal, h.out, h.sessions, h.err⟩
    dsimp only
    split
    · exact hfiles
    · exact hfiles.warn

end

end Desk

namespace Console

open Desk

variable {τ : Type} [Instant τ] {s s' : Settings} {silent logging : Desk τ}

structure EndAlike {ε : Type} (a b : Desk τ × ε) : Prop where
  desk : Alike a.1 b.1
  outcome : b.2 = a.2

omit [Instant τ] in
theorem EndAlike.intro {ε : Type} (h : Alike silent logging) (outcome : ε) :
    EndAlike (silent, outcome) (logging, outcome) := ⟨h, rfl⟩

omit [Instant τ] in
theorem EndAlike.elim {ε : Type} {a b : Desk τ × ε} (h : EndAlike a b) :
    ∃ d d' outcome, a = (d, outcome) ∧ b = (d', outcome) ∧ Alike d d' := by
  obtain ⟨d, outcome⟩ := a
  obtain ⟨d', outcome'⟩ := b
  obtain ⟨hdesk, houtcome⟩ := h
  obtain rfl : outcome' = outcome := houtcome
  exact ⟨d, d', outcome', rfl, rfl, hdesk⟩

structure ShowAlike (s s' : Settings) : Prop where
  places : s'.places = s.places
  threshold : s'.threshold = s.threshold

theorem report_alike (hs : ShowAlike s s') (h : Alike silent logging) (formula : List Char) (x : Float)
    (session session' : Option (List Char)) :
    EndAlike (report silent s formula x session) (report logging s' formula x session') := by
  unfold report
  rw [hs.places, hs.threshold]
  dsimp only
  cases (Status.classify s.threshold x).warning? with
  | none =>
    dsimp only
    cases answerText s.places x with
    | ok text => exact .intro (h.printLine _) _
    | error e => exact .intro h _
  | some warning =>
    have hwarned (e e' : Event) := (h.complainLine warning).emit e e' session session'
    dsimp only
    cases answerText s.places x with
    | ok text => exact .intro ((hwarned _ _).printLine _) _
    | error e => exact .intro (hwarned _ _) _

namespace Sitting

structure Alike (a b : Sitting τ) : Prop where
  desk : Desk.Alike a.desk b.desk
  waiting : b.waiting = a.waiting

variable {r : Registry} {session session' : List Char} {a b : Sitting τ}

omit [Instant τ] in
theorem askFormula_alike (h : Desk.Alike silent logging) : Alike (askFormula silent) (askFormula logging) :=
  ⟨h.print _, rfl⟩

omit [Instant τ] in
theorem excuse_alike (h : Desk.Alike silent logging) (message : List Char) :
    Alike (excuse silent message) (excuse logging message) := askFormula_alike (h.complainLine _)

def reported : Desk τ × Except PlacesError Unit → Sitting τ
  | (d, .ok _)    => askFormula (d.print ['\n'])
  | (d, .error e) => ⟨d, .crashed (.places e)⟩

omit [Instant τ] in
theorem reported_alike {x y : Desk τ × Except PlacesError Unit} (h : EndAlike x y) :
    Alike (reported x) (reported y) := by
  obtain ⟨d, d', outcome, rfl, rfl, hdesk⟩ := h.elim
  cases outcome with
  | ok u => exact askFormula_alike (hdesk.print _)
  | error e => exact ⟨hdesk, rfl⟩

def valueEvent (d : Desk τ) (formula : List Char) (tree : Expr) (x : Float) : Event :=
  Event.aboutFormula d.stamp .evalCompleted .info "evaluated".toList formula (some tree.text) none none
    [("result".toList, resultJson x)]

theorem evaluate_of_ok {tree : Expr} {c : Context} {x : Float} (h : tree.evaluate r c = .ok x) (d : Desk τ)
    (formula : List Char) : evaluate r s session d formula tree c =
      reported (report (d.emit (valueEvent d formula tree x) (some session)) s formula x (some session)) := by
  unfold valueEvent
  rw [evaluate, h]
  dsimp only
  generalize report (d.emit _ _) s formula x _ = result
  obtain ⟨d', outcome⟩ := result
  cases outcome <;> rfl

theorem evaluate_alike (hs : ShowAlike s s') (h : Desk.Alike silent logging) (formula : List Char) (tree : Expr)
    (c : Context) :
    Alike (evaluate r s session silent formula tree c) (evaluate r s' session' logging formula tree c) := by
  cases heval : tree.evaluate r c with
  | error failure =>
    rw [evaluate, evaluate, heval]
    cases failure with
    | refused e => exact excuse_alike (h.emit _ _ _ _) _
    | fault f => exact ⟨h, rfl⟩
    | misapplied => exact ⟨h, rfl⟩
  | ok x =>
    rw [evaluate_of_ok heval, evaluate_of_ok heval]
    exact reported_alike (report_alike hs (h.emit _ _ _ _) formula x _ _)

theorem proceed_alike (hs : ShowAlike s s') (h : Desk.Alike silent logging) (formula : List Char) (tree : Expr)
    (c : Context) (names : List (List Char)) :
    Alike (proceed r s session silent formula tree c names) (proceed r s' session' logging formula tree c names) := by
  cases names with
  | nil =>
    rw [proceed, proceed]
    exact evaluate_alike hs h formula tree c
  | cons name more => exact ⟨h.print _, rfl⟩

theorem takeFormula_alike (hs : ShowAlike s s') (h : Desk.Alike silent logging) (formula : List Char) :
    Alike (takeFormula r s session silent formula) (takeFormula r s' session' logging formula) := by
  unfold takeFormula
  cases Expr.parse formula with
  | error e =>
    dsimp only
    exact excuse_alike (h.emit _ _ _ _) _
  | ok tree =>
    dsimp only
    exact proceed_alike hs ((h.emit _ _ _ _).printLine _) formula tree [] tree.names

theorem takeValue_alike (hs : ShowAlike s s') (h : Desk.Alike silent logging) (p : Pending) (text : List Char) :
    Alike (takeValue r s session silent p text) (takeValue r s' session' logging p text) := by
  unfold takeValue
  cases readDouble? text with
  | none =>
    dsimp only
    exact excuse_alike (h.emit _ _ _ _) _
  | some x => exact proceed_alike hs h p.formula p.tree _ p.more

/-- **A line of input keeps sittings alike.** -/
theorem Alike.feed (hs : ShowAlike s s') (h : Alike a b) (line : List Char) :
    Alike (feed r s session a line) (feed r s' session' b line) := by
  obtain ⟨d, waiting⟩ := a
  obtain ⟨d', waiting'⟩ := b
  obtain ⟨hdesk, hwaiting⟩ := h
  obtain rfl : waiting' = waiting := hwaiting
  cases waiting' with
  | formula =>
    unfold Sitting.feed
    dsimp only
    split
    · exact ⟨hdesk.printLine _, rfl⟩
    split
    · exact askFormula_alike (hdesk.complainLine _)
    · exact takeFormula_alike hs hdesk _
  | value p => exact takeValue_alike hs hdesk p _
  | finished => exact ⟨hdesk, rfl⟩
  | crashed c => exact ⟨hdesk, rfl⟩

theorem Alike.foldl_feed (hs : ShowAlike s s') (h : Alike a b) (lines : List (List Char)) :
    Alike (lines.foldl (Sitting.feed r s session) a) (lines.foldl (Sitting.feed r s' session') b) := by
  induction lines generalizing a b with
  | nil => exact h
  | cons line lines ih => exact ih (h.feed hs line)

theorem opened_alike (h : Desk.Alike silent logging) : Alike (opened r session silent) (opened r session' logging) :=
  askFormula_alike ((h.emit _ _ _ _).print _)

theorem ended_alike (h : Desk.Alike silent logging) : Desk.Alike (ended silent session) (ended logging session') := by
  unfold ended
  exact h.emit _ _ _ _

theorem close_alike (h : Alike a b) : EndAlike (close session a) (close session' b) := by
  obtain ⟨d, waiting⟩ := a
  obtain ⟨d', waiting'⟩ := b
  obtain ⟨hdesk, hwaiting⟩ := h
  obtain rfl : waiting' = waiting := hwaiting
  cases waiting' with
  | crashed c => exact ⟨hdesk, rfl⟩
  | finished =>
    rw [close, close]
    exact .intro (ended_alike hdesk) _
  | formula =>
    rw [close, close]
    exact .intro (ended_alike (hdesk.print _)) _
  | value p =>
    rw [close, close]
    exact .intro (ended_alike (hdesk.print _)) _

theorem run_alike (hs : ShowAlike s s') (h : Desk.Alike silent logging) (lines : List (List Char)) :
    EndAlike (run r s silent lines) (run r s' logging lines) :=
  close_alike ((opened_alike h.newSession).foldl_feed hs lines)

end Sitting

/-! ## Commands -/

omit [Instant τ] in
theorem refuse_alike (h : Alike silent logging) (message : List Char) :
    EndAlike (refuse silent message) (refuse logging message) := .intro h _

omit [Instant τ] in
theorem crash_alike (h : Alike silent logging) (c : Crash) : EndAlike (crash silent c) (crash logging c) := .intro h _

def concluded : Desk τ × Except PlacesError Unit → Run τ
  | (d, .ok _)    => done d
  | (d, .error e) => crash d (.places e)

omit [Instant τ] in
theorem concluded_alike {x y : Desk τ × Except PlacesError Unit} (h : EndAlike x y) :
    EndAlike (concluded x) (concluded y) := by
  obtain ⟨d, d', outcome, rfl, rfl, hdesk⟩ := h.elim
  cases outcome with
  | ok u => exact .intro hdesk _
  | error e => exact crash_alike hdesk _

def answerEvent (s : Settings) (d : Desk τ) (formula : List Char) (tree : Expr) (x : Float) : Event :=
  Event.aboutFormula d.stamp .evalCompleted .info "evaluated".toList formula (some tree.text) none none
    [("result".toList, resultJson x), ("status".toList, .str (Status.classify s.threshold x).label)]

def answerJson (s : Settings) (formula : List Char) (tree : Expr) (x : Float) : List Char :=
  Json.listing
    [("expression".toList, .str formula), ("ast".toList, .str tree.text), ("result".toList, resultJson x),
     ("status".toList, .str (Status.classify s.threshold x).label)]

section

variable {r : Registry} {formula : List Char} {values : List (List Char)} {tree : Expr} {c : Context}

theorem runEval_of_ok {x : Float} (hvalues : readOverrides [] values = .ok c) (hparse : Expr.parse formula = .ok tree)
    (heval : tree.evaluate r c = .ok x) (d : Desk τ) (asJson : Bool) : runEval r s d formula values asJson =
      if asJson then done ((d.emit (answerEvent s d formula tree x) none).printLine (answerJson s formula tree x))
      else concluded (report (d.emit (answerEvent s d formula tree x) none) s formula x none) := by
  unfold answerEvent answerJson
  rw [runEval, hvalues]
  dsimp only
  rw [hparse]
  dsimp only
  rw [heval]
  dsimp only
  split
  · rfl
  · generalize report (d.emit _ _) s formula x none = result
    obtain ⟨d', outcome⟩ := result
    cases outcome <;> rfl

theorem runEval_alike (hs : ShowAlike s s') (h : Alike silent logging) (formula : List Char)
    (values : List (List Char)) (asJson : Bool) :
    EndAlike (runEval r s silent formula values asJson) (runEval r s' logging formula values asJson) := by
  cases hvalues : readOverrides [] values with
  | error e =>
    rw [runEval, runEval, hvalues]
    exact refuse_alike h _
  | ok c =>
    cases hparse : Expr.parse formula with
    | error e =>
      rw [runEval, runEval, hvalues, hparse]
      exact refuse_alike (h.emit _ _ _ _) _
    | ok tree =>
      cases heval : tree.evaluate r c with
      | error failure =>
        rw [runEval, runEval, hvalues, hparse]
        dsimp only
        rw [heval]
        cases failure with
        | refused e => exact refuse_alike (h.emit _ _ _ _) _
        | fault f => exact crash_alike h _
        | misapplied => exact crash_alike h _
      | ok x =>
        rw [runEval_of_ok hvalues hparse heval, runEval_of_ok hvalues hparse heval]
        have hemit := h.emit (answerEvent s silent formula tree x) (answerEvent s' logging formula tree x) none none
        have hjson : answerJson s' formula tree x = answerJson s formula tree x := by
          rw [answerJson, answerJson, hs.threshold]
        split
        · rw [hjson]
          exact .intro (hemit.printLine _) _
        · exact concluded_alike (report_alike hs hemit formula x none none)

end

theorem runPrompt_alike (r : Registry) (hs : ShowAlike s s') (h : Alike silent logging) (input : List Char) :
    EndAlike (runPrompt r s silent input) (runPrompt r s' logging input) := by
  obtain ⟨d, d', outcome, hsilent, hlogging, hdesk⟩ := (Sitting.run_alike (r := r) hs h (inputLines input)).elim
  rw [runPrompt, runPrompt, hsilent, hlogging]
  cases outcome with
  | ok u => exact .intro hdesk _
  | error e => exact crash_alike hdesk _

end Console
end Abacus
