import Abacus.Proofs.Console.Emission
import Abacus.Proofs.Console.Fronts
import Abacus.Proofs.Console.PromptRun
import Abacus.Proofs.Console.Silence
import Abacus.Proofs.Journal.Lengths
/-!
# What the commands that evaluate tell

Every event of these commands says which of its texts are recorded whole, however long they are (`Uncut`): the
message of a failure, and the names of a formula that has been parsed.  All its other strings are short.  Each step
of the prompt and of the command line emits such events only (`Telling`), so the lines that a run appends to a log
are lines of such events, and a line is short exactly if the texts are that its event records whole
(`lines_of_run`).
-/
namespace Abacus.Console

open Desk Files Journal

/-! ## Texts that are not cut -/

/-- The texts that an event of this kind records whole, where these formulas are typed. -/
inductive Uncut (r : Registry) (formulas : List (List Char)) : EventKind → List (List Char) → Prop
  | unparsed {formula : List Char} {why : FormulaError} (hformula : formula ∈ formulas)
      (hparse : Expr.parse formula = .error why) : Uncut r formulas .parseFailed [why.message]
  | parsed {formula : List Char} {tree : Expr} (hformula : formula ∈ formulas)
      (hparse : Expr.parse formula = .ok tree) : Uncut r formulas .parseCompleted tree.names
  | refused {formula : List Char} {tree : Expr} {c : Context} {why : EvalError} (hformula : formula ∈ formulas)
      (hparse : Expr.parse formula = .ok tree) (heval : tree.evaluate r c = .error (.refused why)) :
      Uncut r formulas .evalFailed [why.message]
  | misread {formula name : List Char} {tree : Expr} (hformula : formula ∈ formulas)
      (hparse : Expr.parse formula = .ok tree) (hname : name ∈ tree.names) :
      Uncut r formulas .evalFailed ["Incorrect value for the variable '".toList ++ name ++ ['\'']]
  | nothing {kind : EventKind} (hkind : kind ∈ [.sessionStarted, .sessionEnded, .evalCompleted, .resultWarning]) :
      Uncut r formulas kind []

/-- What is recorded has such texts among its strings, and its strings are short exactly if these texts are. -/
def HasUncut (r : Registry) (formulas : List (List Char)) (k : Event) : Prop :=
  ∃ texts, Uncut r formulas k.kind texts ∧ texts ⊆ k.strings ∧
    (k.IsBounded ↔ ∀ text ∈ texts, text.length ≤ Event.maxRecorded)

variable {r : Registry} {formulas : List (List Char)} {e : Event}

theorem hasUncut_message (hcomplete : Event.missing e.kind e.context = []) (hflat : Json.listedFields e.context = [])
    (huncut : Uncut r formulas e.kind [e.message]) : HasUncut r formulas e.kept := by
  have hbounded := Event.isBounded_kept_iff hcomplete
  rw [hflat] at hbounded
  rw [Event.kept_of_complete hcomplete] at hbounded ⊢
  exact ⟨_, huncut, fun text htext => List.mem_singleton.1 htext ▸ List.mem_cons_self, by simpa using hbounded⟩

theorem hasUncut_listed (hcomplete : Event.missing e.kind e.context = [])
    (hmessage : e.message.length ≤ Event.maxRecorded) (huncut : Uncut r formulas e.kind (Json.listedFields e.context)) :
    HasUncut r formulas e.kept := by
  have hbounded := (Event.isBounded_kept_iff hcomplete).trans (and_iff_right hmessage)
  have hlisted := Event.listed_subset_truncatedValue (.obj e.context)
  rw [Event.kept_of_complete hcomplete] at hbounded ⊢
  exact ⟨_, huncut, fun text htext => List.mem_cons_of_mem _ (hlisted htext), hbounded⟩

theorem listed_resultJson (x : Float) : (resultJson x).listed = [] := by
  rw [resultJson]
  split <;> rfl

variable {τ : Type} [Instant τ] {d d' d'' : Desk τ} {s : Settings} {formula : List Char} {tree : Expr}
  {session : Option (List Char)}

/-! ## Steps -/

/-- From one moment to another only such events are emitted. -/
def Telling (r : Registry) (formulas : List (List Char)) (d d' : Desk τ) : Prop :=
  ∃ ws, Emits d ws d' ∧ ∀ w ∈ ws, HasUncut r formulas w.event.kept

theorem Telling.refl (d : Desk τ) : Telling r formulas d d := ⟨[], .refl, List.forall_mem_nil _⟩

theorem Telling.emit (h : Telling r formulas d d') (he : HasUncut r formulas e.kept) (session : Option (List Char)) :
    Telling r formulas d (d'.emit e session) := by
  obtain ⟨ws, hemits, hws⟩ := h
  exact ⟨_, hemits.emitted ⟨e, session⟩, List.forall_mem_append.2 ⟨hws, List.forall_mem_singleton.2 he⟩⟩

theorem Telling.shown (h : Telling r formulas d d') (hjournal : d''.journal = d'.journal)
    (hfiles : d''.files = d'.files) :
    Telling r formulas d d'' := by
  obtain ⟨ws, hemits, hws⟩ := h
  exact ⟨ws, hemits.shown hjournal hfiles, hws⟩

theorem hasUncut_unparsed {why : FormulaError} (hformula : formula ∈ formulas)
    (hparse : Expr.parse formula = .error why) (stamp : List Char) (code : Option (List Char)) : HasUncut r formulas
      (Event.aboutFormula stamp .parseFailed .error why.message formula none none code []).kept :=
  hasUncut_message rfl rfl (.unparsed hformula hparse)

theorem hasUncut_refused {c : Context} {why : EvalError} (hformula : formula ∈ formulas)
    (hparse : Expr.parse formula = .ok tree) (heval : tree.evaluate r c = .error (.refused why)) (stamp : List Char)
    (code : Option (List Char)) : HasUncut r formulas
      (Event.aboutFormula stamp .evalFailed .error why.message formula none none code []).kept :=
  hasUncut_message rfl rfl (.refused hformula hparse heval)

theorem Telling.report (h : Telling r formulas d d') (s : Settings) (formula : List Char) (x : Float)
    (session : Option (List Char)) : Telling r formulas d (report d' s formula x session).1 := by
  unfold Console.report
  dsimp only
  cases hwarning : (Status.classify s.threshold x).warning? with
  | none =>
    dsimp only
    split <;> exact h.shown rfl rfl
  | some text =>
    have hshort : text.length ≤ Event.maxRecorded := by
      cases hstatus : Status.classify s.threshold x <;> rw [hstatus] at hwarning <;> cases hwarning <;> decide
    have htold : HasUncut r formulas ((d'.complainLine text).eventOf .warning .resultWarning text
        [("expression".toList, .str formula),
          ("status".toList, .str (Status.classify s.threshold x).label)] none).kept :=
      hasUncut_listed rfl hshort (.nothing (by simp [Desk.eventOf]))
    have hcomplain : Telling r formulas d (d'.complainLine text) := h.shown rfl rfl
    have hemit := hcomplain.emit htold session
    dsimp only
    split
    · exact hemit.shown rfl rfl
    · exact hemit

namespace Sitting

variable {p : Pending} {sitting : Sitting τ} {line name : List Char}

/-- What a sitting waits for a value of is a formula that was typed. -/
structure IsPending (formulas : List (List Char)) (p : Pending) : Prop where
  formula : p.formula ∈ formulas
  parse : Expr.parse p.formula = .ok p.tree
  names : ∀ name ∈ p.name :: p.more, name ∈ p.tree.names

/-- A sitting that has only told what these formulas call for. -/
structure Keeps (r : Registry) (formulas : List (List Char)) (d : Desk τ) (sitting : Sitting τ) : Prop where
  telling : Telling r formulas d sitting.desk
  pending : ∀ p, sitting.waiting = .value p → IsPending formulas p

theorem keeps_excuse (h : Telling r formulas d d') (message : List Char) : Keeps r formulas d (excuse d' message) :=
  ⟨h.shown rfl rfl, fun _ hp => by cases hp⟩

theorem keeps_askFormula (h : Telling r formulas d d') : Keeps r formulas d (askFormula d') :=
  ⟨h.shown rfl rfl, fun _ hp => by cases hp⟩

theorem keeps_evaluate (h : Telling r formulas d d') (hformula : formula ∈ formulas)
    (hparse : Expr.parse formula = .ok tree) (s : Settings) (session : List Char) (c : Context) :
    Keeps r formulas d (evaluate r s session d' formula tree c) := by
  cases heval : tree.evaluate r c with
  | error failure =>
    rw [evaluate, heval]
    cases failure with
    | refused why =>
      refine keeps_excuse (h.emit ?_ _) _
      exact hasUncut_message rfl rfl (.refused hformula hparse heval)
    | fault f => exact ⟨h, fun _ hp => by cases hp⟩
    | misapplied => exact ⟨h, fun _ hp => by cases hp⟩
  | ok x =>
    have hshort : "evaluated".toList.length ≤ Event.maxRecorded := by decide
    have htold : HasUncut r formulas (valueEvent d' formula tree x).kept := by
      refine hasUncut_listed rfl hshort ?_
      have hflat : Json.listedFields (valueEvent d' formula tree x).context = (resultJson x).listed ++ [] := rfl
      rw [hflat, listed_resultJson]
      exact .nothing (by simp [valueEvent, Event.aboutFormula])
    rw [evaluate_of_ok heval]
    have hreport := (h.emit htold (some session)).report s formula x (some session)
    generalize Console.report (d'.emit _ _) s formula x _ = result at hreport ⊢
    obtain ⟨d'', _ | _⟩ := result
    · exact ⟨hreport, fun _ hp => by cases hp⟩
    · exact keeps_askFormula (hreport.shown rfl rfl)

theorem keeps_proceed (h : Telling r formulas d d') (hformula : formula ∈ formulas)
    (hparse : Expr.parse formula = .ok tree) (s : Settings) (session : List Char) (c : Context)
    {names : List (List Char)} (hnames : ∀ name ∈ names, name ∈ tree.names) :
    Keeps r formulas d (proceed r s session d' formula tree c names) := by
  cases names with
  | nil =>
    rw [proceed]
    exact keeps_evaluate h hformula hparse s session c
  | cons name more =>
    refine ⟨h.shown rfl rfl, fun p hp => ?_⟩
    cases hp
    exact ⟨hformula, hparse, hnames⟩

def parsedEvent (d : Desk τ) (formula : List Char) (tree : Expr) : Event :=
  Event.aboutFormula d.stamp .parseCompleted .info "parsed".toList formula (some tree.text) (some tree.names) none []

theorem takeFormula_of_ok (hparse : Expr.parse formula = .ok tree) (s : Settings) (session : List Char) (d : Desk τ) :
    takeFormula r s session d formula = proceed r s session
      ((d.emit (parsedEvent d formula tree) (some session)).printLine ("AST: ".toList ++ tree.text)) formula tree []
      tree.names := by
  rw [takeFormula, hparse]
  rfl

theorem keeps_takeFormula (h : Telling r formulas d d') (hformula : formula ∈ formulas) (s : Settings)
    (session : List Char) : Keeps r formulas d (takeFormula r s session d' formula) := by
  cases hparse : Expr.parse formula with
  | error why =>
    rw [takeFormula, hparse]
    exact keeps_excuse (h.emit (hasUncut_unparsed hformula hparse _ _) _) _
  | ok tree =>
    have hshort : "parsed".toList.length ≤ Event.maxRecorded := by decide
    have htold : HasUncut r formulas (parsedEvent d' formula tree).kept := by
      refine hasUncut_listed rfl hshort ?_
      have hflat :
          Json.listedFields (parsedEvent d' formula tree).context = Json.stringsAll (tree.names.map .str) ++ [] :=
        rfl
      rw [hflat, Json.stringsAll_texts, List.append_nil]
      exact .parsed hformula hparse
    have hemit := h.emit htold (some session)
    have hprinted : Telling r formulas d ((d'.emit (parsedEvent d' formula tree) (some session)).printLine
        ("AST: ".toList ++ tree.text)) := hemit.shown rfl rfl
    rw [takeFormula_of_ok hparse]
    exact keeps_proceed hprinted hformula hparse s session [] fun _ hname => hname

theorem keeps_takeValue (h : Telling r formulas d d') (hp : IsPending formulas p) (s : Settings)
    (session text : List Char) :
    Keeps r formulas d (takeValue r s session d' p text) := by
  have hname : p.name ∈ p.tree.names := hp.names p.name List.mem_cons_self
  unfold takeValue
  cases readDouble? text with
  | none =>
    dsimp only
    refine keeps_excuse (h.emit ?_ _) _
    exact hasUncut_message rfl rfl (.misread hp.formula hp.parse hname)
  | some x =>
    exact keeps_proceed h hp.formula hp.parse s session _ fun name hmem => hp.names name (List.mem_cons_of_mem _ hmem)

theorem Keeps.feed (h : Keeps r formulas d sitting) (hline : strip line ∈ formulas) (s : Settings)
    (session : List Char) :
    Keeps r formulas d (feed r s session sitting line) := by
  obtain ⟨d', waiting⟩ := sitting
  obtain ⟨htelling, hpending⟩ := h
  cases waiting with
  | formula =>
    unfold Sitting.feed
    dsimp only
    split
    · exact ⟨htelling.shown rfl rfl, fun _ hp => by cases hp⟩
    split
    · exact keeps_askFormula (htelling.shown rfl rfl)
    · exact keeps_takeFormula htelling hline s session
  | value p => exact keeps_takeValue htelling (hpending p rfl) s session _
  | finished => exact ⟨htelling, hpending⟩
  | crashed c => exact ⟨htelling, hpending⟩

theorem Keeps.foldl_feed {lines : List (List Char)} (h : Keeps r formulas d sitting)
    (hlines : ∀ line ∈ lines, strip line ∈ formulas) (s : Settings) (session : List Char) :
    Keeps r formulas d (lines.foldl (Sitting.feed r s session) sitting) := by
  induction lines generalizing sitting with
  | nil => exact h
  | cons line lines ih =>
    obtain ⟨hline, hlines⟩ := List.forall_mem_cons.1 hlines
    exact ih (h.feed hline s session) hlines

omit [Instant τ] in
theorem hasUncut_session {kind : EventKind} {message : List Char} (d : Desk τ)
    (hkind : kind = .sessionStarted ∨ kind = .sessionEnded) (hmessage : message.length ≤ Event.maxRecorded) :
    HasUncut r formulas (d.eventOf .info kind message [] none).kept := by
  obtain rfl | rfl := hkind
  · exact hasUncut_listed rfl hmessage (.nothing (by simp [Desk.eventOf]))
  · exact hasUncut_listed rfl hmessage (.nothing (by simp [Desk.eventOf]))

theorem telling_ended (h : Telling r formulas d d') (session : List Char) : Telling r formulas d (ended d' session) :=
  h.emit (hasUncut_session d' (.inr rfl) (by decide)) (some session)

theorem Keeps.close (h : Keeps r formulas d sitting) (session : List Char) :
    Telling r formulas d (close session sitting).1 := by
  obtain ⟨d', waiting⟩ := sitting
  have htelling : Telling r formulas d d' := h.telling
  have hprinted : Telling r formulas d (d'.print ['\n']) := htelling.shown rfl rfl
  unfold Sitting.close
  dsimp only
  cases waiting with
  | crashed c => exact htelling
  | finished => exact telling_ended htelling session
  | formula => exact telling_ended hprinted session
  | value p => exact telling_ended hprinted session

theorem keeps_fed (r : Registry) (s : Settings) (d : Desk τ) (lines : List (List Char)) :
    Keeps r (lines.map strip) d (lines.foldl (feed r s d.newSession.2) (first r d)) := by
  have hcounted : Telling r (lines.map strip) d d.newSession.1 := (Telling.refl d).shown rfl rfl
  have hstarted := hcounted.emit (hasUncut_session d.newSession.1 (.inl rfl)
    (by decide : "session started".toList.length ≤ Event.maxRecorded)) (some d.newSession.2)
  have hfirst : Keeps r (lines.map strip) d (first r d) := keeps_askFormula (hstarted.shown rfl rfl)
  exact hfirst.foldl_feed (fun line hline => List.mem_map_of_mem hline) s d.newSession.2

theorem telling_run (r : Registry) (s : Settings) (d : Desk τ) (lines : List (List Char)) :
    Telling r (lines.map strip) d (run r s d lines).1 := by
  rw [run_eq_close]
  exact (keeps_fed r s d lines).close d.newSession.2

end Sitting

/-! ## Command lines -/

theorem telling_runEval (r : Registry) (s : Settings) (d : Desk τ) (formula : List Char) (values : List (List Char))
    (asJson : Bool) : Telling r [formula] d (runEval r s d formula values asJson).1 := by
  have hformula : formula ∈ [formula] := List.mem_cons_self
  have hnone : Telling r [formula] d d := .refl d
  cases hvalues : readOverrides [] values with
  | error e =>
    rw [runEval, hvalues]
    exact hnone
  | ok c =>
    cases hparse : Expr.parse formula with
    | error why =>
      rw [runEval, hvalues]
      dsimp only
      rw [hparse]
      dsimp only [refuse]
      exact hnone.emit (hasUncut_unparsed hformula hparse _ _) none
    | ok tree =>
      cases heval : tree.evaluate r c with
      | error failure =>
        rw [runEval, hvalues]
        dsimp only
        rw [hparse]
        dsimp only
        rw [heval]
        cases failure with
        | refused why =>
          dsimp only [refuse]
          exact hnone.emit (hasUncut_refused hformula hparse heval _ _) none
        | fault f => exact hnone
        | misapplied => exact hnone
      | ok x =>
        have hshort : "evaluated".toList.length ≤ Event.maxRecorded := by decide
        have htold : HasUncut r [formula] (answerEvent s d formula tree x).kept := by
          refine hasUncut_listed rfl hshort ?_
          have hflat : Json.listedFields (answerEvent s d formula tree x).context = (resultJson x).listed ++ [] := rfl
          rw [hflat, listed_resultJson]
          exact .nothing (by simp [answerEvent, Event.aboutFormula])
        have hemit := hnone.emit htold none
        rw [runEval_of_ok hvalues hparse heval]
        split
        · exact hemit.shown rfl rfl
        · have hreport := hemit.report s formula x none
          generalize Console.report (d.emit _ _) s formula x _ = result at hreport ⊢
          obtain ⟨d', _ | _⟩ := result <;> exact hreport

/-! ## Runs -/

def Command.typed (input : List Char) : Command → List (List Char)
  | .eval formula _ _ => [formula]
  | .prompt           => (inputLines input).map strip
  | _                 => []

def formulasTyped (d : Desk τ) (args : List (List Char)) (input : List Char) : List (List Char) :=
  match prepare d args with
  | (_, .ok (some (_, _, command))) => command.typed input
  | _                               => []

omit [Instant τ] in
theorem makesDirs_attachAs (d : Desk τ) (project : Path) (s : Settings) :
    MakesDirs d.files (d.attachAs project s).1.files := by
  rw [attachAs]
  split
  · exact .refl _
  split
  · exact .refl _
  · rename_i tailBytes _
    have hmade := makesDirs_start d.files project s.syncs tailBytes
    generalize Journal.start d.files project s.syncs tailBytes = started at hmade ⊢
    obtain ⟨fs, _ | _⟩ := started <;> exact hmade

theorem makesDirs_attach (d : Desk τ) (dir : List Char) : MakesDirs d.files (d.attach dir).1.files := by
  rw [attach]
  split
  · exact makesDirs_attachAs d _ _
  split
  · exact .refl _
  · rw [← (warn_cases d ("could not read config in ".toList ++ dir ++ "; using defaults".toList)).1]
    exact makesDirs_attachAs _ _ _

theorem makesDirs_enter (d : Desk τ) (project : Option Path) : MakesDirs d.files (enter d project).1.files := by
  cases project with
  | none => exact .refl _
  | some project =>
    rw [enter]
    split
    · split
      · exact .refl _
      · split <;> exact .refl _
    · have hmade := makesDirs_attach d project.text
      generalize d.attach project.text = attached at hmade ⊢
      obtain ⟨d', e | _⟩ := attached
      · cases e <;> exact hmade
      · exact hmade

/-- **Until a command runs, at most directories have been made.** -/
theorem makesDirs_prepare (d : Desk τ) (args : List (List Char)) : MakesDirs d.files (prepare d args).1.files := by
  rw [prepare]
  split
  · exact .refl _
  · exact .refl _
  · rename_i project name rest _
    have hmade := makesDirs_enter d (project.map Path.ofText)
    dsimp only
    generalize enter d (project.map Path.ofText) = entered at hmade ⊢
    obtain ⟨d', stop | s⟩ := entered
    · exact hmade
    · dsimp only
      split <;> exact hmade

theorem telling_runCommand {command : Command} (r : Registry) (s : Settings) (d : Desk τ) (project : Option Path)
    (input : List Char)
    (hcommand : command = .prompt ∨ ∃ formula values asJson, command = .eval formula values asJson) :
    Telling r (command.typed input) d (runCommand r s d project input command).1 := by
  obtain rfl | ⟨formula, values, asJson, rfl⟩ := hcommand
  · have hsitting := Sitting.telling_run r s d (inputLines input)
    rw [runCommand, runPrompt]
    generalize Sitting.run r s d (inputLines input) = ran at hsitting ⊢
    obtain ⟨d', _ | _⟩ := ran <;> exact hsitting
  · exact telling_runEval r s d formula values asJson

omit [Instant τ] in
theorem files_explained (x : Run τ) : (explained x).1.files = x.1.files := by
  obtain ⟨d, stop | u⟩ := x
  · cases stop <;> rfl
  · rfl

variable {name : List Char} {args rest : List (List Char)} {project : Option (List Char)}

/-- **The lines that evaluating adds to a log are short but for the texts that are not cut.**  Whatever is typed and
whatever the settings are, a command that evaluates leaves every file with what it held and some lines behind it,
and each line is that of an event all of whose strings are short exactly if those are that the event takes whole:
the message of a formula that cannot be parsed or evaluated, or the names of one that has been parsed. -/
theorem lines_of_run (r : Registry) (hname : evaluates name)
    (hread : Request.read d.files args = .ok (.command project name rest)) (input : List Char) (place : Place) :
    ∃ ks, (run r d args input).1.files.contents place = d.files.contents place ++ bytesOf ks ∧
      ∀ k ∈ ks, HasUncut r (formulasTyped d args input) k := by
  have hmade := makesDirs_prepare d args
  obtain ⟨command, hcommand, hkinds⟩ := read_of_evaluates hname rest
  rw [run_eq_explained, files_explained, start, formulasTyped]
  rw [prepare, hread] at hmade ⊢
  dsimp only at hmade ⊢
  generalize enter d (project.map Path.ofText) = entered at hmade ⊢
  obtain ⟨d', stop | s⟩ := entered
  · exact ⟨[], (hmade.contents place).trans (List.append_nil _).symm, List.forall_mem_nil _⟩
  · dsimp only at hmade ⊢
    rw [hcommand] at hmade ⊢
    cases command with
    | none => exact ⟨[], (hmade.contents place).trans (List.append_nil _).symm, List.forall_mem_nil _⟩
    | some command =>
      obtain ⟨ws, hemits, hws⟩ := telling_runCommand r s d' (project.map Path.ofText) input (hkinds command rfl)
      obtain ⟨ks, hks, hcontents⟩ := hemits.contents place
      refine ⟨ks, hcontents.trans ?_, fun k hk => ?_⟩
      · rw [← hmade.contents place]
        rfl
      · obtain ⟨w, hw, rfl⟩ := List.mem_map.1 (hks.subset hk)
        exact hws w hw

/-- A sitting with a formula that has a name, its value, and a formula that cannot be parsed. -/
theorem lines_of_run_prompt : evaluates "repl".toList ∧
    Request.read promptDesk.files promptArgs = .ok (.command (some "p".toList) "repl".toList []) ∧
    ∃ ks, (run .standard promptDesk promptArgs "sqrt(x)\n4\n1 +\n".toList).1.files.contents
        ["p".toList, "logs".toList, "events.ndjson".toList] = bytesOf ks ∧
      ∀ k ∈ ks, HasUncut .standard ["sqrt(x)".toList, ['4'], "1 +".toList] k := by
  have hread : Request.read promptDesk.files promptArgs = .ok (.command (some "p".toList) "repl".toList []) := rfl
  have htyped : formulasTyped promptDesk promptArgs "sqrt(x)\n4\n1 +\n".toList =
      ["sqrt(x)".toList, ['4'], "1 +".toList] := by decide +kernel
  obtain ⟨ks, hcontents, hks⟩ := lines_of_run .standard (.inr rfl) hread "sqrt(x)\n4\n1 +\n".toList
    ["p".toList, "logs".toList, "events.ndjson".toList]
  rw [htyped] at hks
  exact ⟨.inr rfl, hread, ks, hcontents, hks⟩

def dots : List Char := List.replicate 260 '.'

def dotsEvent : Event :=
  Event.aboutFormula promptDesk.stamp .parseFailed .error ("invalid number: ".toList ++ dots) dots none none
    (some scanCode) []

theorem parse_unreadable {c : Char} {cs : List Char} (hstarts : startsNumber c = true)
    (htail : numberTail c cs = (cs, [])) (hread : (readDouble? (c :: cs)).isSome = false) :
    Expr.parse (c :: cs) = .error (.scan ⟨.invalidNumber (c :: cs), 0⟩) := by
  have hscan : scan (c :: cs) = .error ⟨.invalidNumber (c :: cs), 0⟩ := by
    rw [scan, scanFrom, isBlank_of_starts hstarts, if_neg Bool.false_ne_true, if_pos hstarts]
    simp [htail, hread]
  rw [Expr.parse, hscan]

theorem parse_dots : Expr.parse dots = .error (.scan ⟨.invalidNumber dots, 0⟩) :=
  parse_unreadable (by decide) (by decide +kernel) (by decide +kernel)

theorem prepare_dots : prepare promptDesk (evalLine (some "p".toList) dots []) =
    (promptEntered, .ok (some (Settings.default, some promptProject, .eval dots [] false))) := by
  have hprompt : prepare promptDesk (projectArgs (some "p".toList) ++ ["repl".toList]) =
      (promptEntered, .ok (some (Settings.default, some promptProject, .prompt))) := rfl
  have hvalues := readEval?_evalArgs dots ((namesOf dots).zip [])
  have hnone : ((namesOf dots).zip []).map overrideItem = [] := by rw [List.zip_nil_right, List.map_nil]
  rw [hnone] at hvalues
  exact prepare_eval hprompt hvalues

/-- **The line of a number that is none is as long as that number.** -/
theorem not_isBounded_dots :
    (run .standard promptDesk (evalLine (some "p".toList) dots []) []).1.files.contents
        ["p".toList, "logs".toList, "events.ndjson".toList] = dotsEvent.kept.bytes ∧
      ¬ dotsEvent.kept.IsBounded := by
  have hdirs : HasDirs promptEntered.files promptProject ["p".toList, "logs".toList] := ⟨⟨rfl, rfl⟩, rfl, rfl⟩
  have hglobal : promptEntered.files.writable (globalLog promptProject) =
      .ok (["p".toList, "logs".toList, "events.ndjson".toList], []) := rfl
  have hrecordable : dotsEvent.kept.isRecordable = true := by decide +kernel
  obtain ⟨fs, hwrite⟩ :=
    write_none_of_writable (j := ⟨promptProject, false, Journal.defaultTailBytes⟩) hdirs hrecordable hglobal
  have hadds := (adds_of_write_none hdirs hwrite).2
  have hrun : (run .standard promptDesk (evalLine (some "p".toList) dots []) []).1.files =
      (promptEntered.emit dotsEvent none).files := by
    rw [run_eq_explained, files_explained, start, prepare_dots]
    dsimp only
    rw [runCommand, runEval, readOverrides]
    dsimp only
    rw [parse_dots]
    rfl
  have hlong : ¬ ("invalid number: ".toList ++ dots).length ≤ Event.maxRecorded := by decide +kernel
  refine ⟨?_, fun h => hlong (h _ List.mem_cons_self)⟩
  rw [hrun, (emit_cases rfl _ _).1, hwrite]
  exact (hadds.contents _).trans rfl

end Abacus.Console
