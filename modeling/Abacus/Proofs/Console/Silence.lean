import Abacus.Proofs.Console.Alike
import Abacus.Proofs.Expr.FixedPoint
import Abacus.Proofs.Files.Written
/-!
# A journal changes no result

A command line that evaluates or opens the prompt has the same output, the same outcome and the same share of the
input whether its project logs or not, and complains of the same but for warnings (`run_unchanged_by_journal`).  How
much of the input it takes is counted in lines (`linesTaken`), and the lines it does not take have no part in the
run (`Sitting.foldl_feed_taken`).
-/
namespace Abacus.Console

open Desk

variable {τ : Type} [Instant τ] {s s' : Settings} {silent logging : Desk τ}

namespace Sitting

variable {r : Registry} {session session' : List Char} {a b : Sitting τ}

/-! ## How much is read -/

def taken (r : Registry) (s : Settings) (session : List Char) (sitting : Sitting τ) : List (List Char) → Nat
  | []            => 0
  | line :: lines => if sitting.isOver then 0 else taken r s session (feed r s session sitting line) lines + 1

theorem feed_of_isOver (h : a.isOver = true) (line : List Char) : feed r s session a line = a := by
  obtain ⟨d, waiting⟩ := a
  cases waiting with
  | formula => cases h
  | value p => cases h
  | finished => rfl
  | crashed c => rfl

/-- **The lines that are not taken have no part in a sitting.** -/
theorem foldl_feed_taken (a : Sitting τ) (lines : List (List Char)) :
    (lines.take (taken r s session a lines)).foldl (feed r s session) a = lines.foldl (feed r s session) a := by
  induction lines generalizing a with
  | nil => rfl
  | cons line lines ih =>
    rw [taken]
    split
    · rename_i hover
      have hstays : ∀ more : List (List Char), more.foldl (feed r s session) a = a := by
        intro more
        induction more with
        | nil => rfl
        | cons line more ih => rw [List.foldl_cons, feed_of_isOver hover, ih]
      rw [List.take_zero, List.foldl_nil, hstays]
    · rw [List.take_succ_cons, List.foldl_cons, ih, List.foldl_cons]

omit [Instant τ] in
theorem Alike.isOver (h : Alike a b) : b.isOver = a.isOver := by rw [Sitting.isOver, Sitting.isOver, h.waiting]

theorem Alike.taken (hs : ShowAlike s s') (h : Alike a b) (lines : List (List Char)) :
    taken r s' session' b lines = taken r s session a lines := by
  induction lines generalizing a b with
  | nil => rfl
  | cons line lines ih => rw [Sitting.taken, Sitting.taken, h.isOver, ih (h.feed hs line)]

end Sitting

/-! ## Command lines -/

def evaluates (name : List Char) : Prop := name = "eval".toList ∨ name = "repl".toList

/-- How many lines of the input a command takes. -/
def linesOf (r : Registry) (s : Settings) (d : Desk τ) (input : List Char) : Command → Nat
  | .prompt => Sitting.taken r s d.newSession.2 (Sitting.opened r d.newSession.2 d.newSession.1) (inputLines input)
  | _       => 0

def linesTaken (r : Registry) (d : Desk τ) (args : List (List Char)) (input : List Char) : Nat :=
  match prepare d args with
  | (d, .ok (some (s, _, command))) => linesOf r s d input command
  | _                               => 0

variable {dir name : List Char} {rest args : List (List Char)} {d : Desk τ}

theorem read_of_evaluates (h : evaluates name) (rest : List (List Char)) :
    ∃ command, (∀ fs, Command.read fs name rest = wellFormed command) ∧
      ∀ c, command = some c → c = .prompt ∨ ∃ formula values asJson, c = .eval formula values asJson := by
  obtain rfl | rfl := h
  · refine ⟨Command.readEval? rest, fun fs => rfl, fun c hc => .inr ?_⟩
    rw [Command.readEval?] at hc
    split at hc
    · split at hc
      · cases hc
        exact ⟨_, _, _, rfl⟩
      · cases hc
    · cases hc
  · refine ⟨if (Command.words? rest).any (·.isEmpty) then some .prompt else none, fun fs => ?_, fun c hc => .inl ?_⟩
    · cases hwords : (Command.words? rest).any (·.isEmpty) <;> simp [Command.read, hwords, wellFormed]
    · split at hc <;> cases hc
      rfl

theorem enter_of_not_logs (hload : Settings.load d.files (.ofText dir) = .ok s) (hlogs : s.logs = false) :
    enter d (some (.ofText dir)) = (d.detach, .ok s) := by
  rw [enter, hload]
  dsimp only
  rw [Desk.attach, Path.ofText_text_ofText, hload]
  dsimp only
  rw [attachAs, hlogs]
  rfl

theorem enter_of_logs {tailBytes : Option Int} {fs : Files} {j : Journal}
    (hload : Settings.load d.files (.ofText dir) = .ok s) (hlogs : s.logs = true) (htail : s.tailBytes = .ok tailBytes)
    (hstart : Journal.start d.files (.ofText dir) s.syncs tailBytes = (fs, .ok j)) :
    enter d (some (.ofText dir)) = ({ d with files := fs, journal := some j }, .ok s) := by
  rw [enter, hload]
  dsimp only
  rw [Desk.attach, Path.ofText_text_ofText, hload]
  dsimp only
  rw [attachAs, hlogs, htail]
  dsimp only
  rw [hstart]
  rfl

def explained : Run τ → Run τ
  | (d, .error (.refused message)) => (d.complainLine ("Error: ".toList ++ message), .error (.refused message))
  | other                          => other

omit [Instant τ] in
theorem explained_alike {x y : Run τ} (h : EndAlike x y) : EndAlike (explained x) (explained y) := by
  obtain ⟨d, d', outcome, rfl, rfl, hdesk⟩ := h.elim
  cases outcome with
  | ok u => exact h
  | error stop =>
    cases stop with
    | refused message => exact .intro (hdesk.complainLine _) _
    | usage => exact h
    | crashed c => exact h

theorem run_eq_explained (r : Registry) (d : Desk τ) (args : List (List Char)) (input : List Char) :
    run r d args input = explained (start r d args input) := by
  rw [run]
  generalize start r d args input = result
  obtain ⟨d', outcome⟩ := result
  cases outcome with
  | ok u => rfl
  | error stop => cases stop <;> rfl

theorem prepare_of_enter {entered : Desk τ} {command : Option Command}
    (hread : Request.read d.files args = .ok (.command (some dir) name rest))
    (henter : enter d (some (.ofText dir)) = (entered, .ok s))
    (hcommand : Command.read entered.files name rest = wellFormed command) :
    prepare d args = (entered, ((wellFormed command).map fun c => some (s, some (.ofText dir), c)).mapError
      Stop.ofArgumentError) := by
  rw [prepare, hread]
  dsimp only [Option.map_some]
  rw [henter]
  dsimp only
  rw [hcommand]
  cases command <;> rfl

theorem start_alike (r : Registry) {project : Path} {command : Option Command} (hs : ShowAlike s s')
    (h : Alike silent logging)
    (hkinds : ∀ c, command = some c → c = .prompt ∨ ∃ formula values asJson, c = .eval formula values asJson)
    {d d' : Desk τ} {args : List (List Char)}
    (hprepare : prepare d args = (silent, ((wellFormed command).map fun c => some (s, some project, c)).mapError
      Stop.ofArgumentError))
    (hprepare' : prepare d' args = (logging, ((wellFormed command).map fun c => some (s', some project, c)).mapError
      Stop.ofArgumentError)) (input : List Char) :
    EndAlike (start r d args input) (start r d' args input) ∧
      linesTaken r d' args input = linesTaken r d args input := by
  rw [start, start, linesTaken, linesTaken, hprepare, hprepare']
  cases command with
  | none => exact ⟨.intro h _, rfl⟩
  | some command =>
    obtain rfl | ⟨formula, values, asJson, rfl⟩ := hkinds command rfl
    · have hopened : Sitting.Alike (Sitting.opened r silent.newSession.2 silent.newSession.1)
          (Sitting.opened r logging.newSession.2 logging.newSession.1) := Sitting.opened_alike h.newSession
      exact ⟨runPrompt_alike r hs h input, hopened.taken hs (inputLines input)⟩
    · exact ⟨runEval_alike hs h formula values asJson, rfl⟩

/-- **A journal changes no result.**  Take a command line that evaluates or opens the prompt under a project, and
two desks that show the same so far, whose settings of the project present results in the same way but log on the
one and not on the other; the directories of the logs are there or can be made, and the stores, their logs included,
are any.  Then the runs have the same output, end in the same way and take the same lines of the input, and what
they complain of differs by warnings at most. -/
theorem run_unchanged_by_journal (r : Registry) {tailBytes : Option Int} {fs : Files} {j : Journal}
    (hname : evaluates name)
    (hread : Request.read silent.files args = .ok (.command (some dir) name rest))
    (hread' : Request.read logging.files args = .ok (.command (some dir) name rest))
    (hload : Settings.load silent.files (.ofText dir) = .ok s)
    (hload' : Settings.load logging.files (.ofText dir) = .ok s') (hlogs : s.logs = false) (hlogs' : s'.logs = true)
    (hs : ShowAlike s s') (htail : s'.tailBytes = .ok tailBytes)
    (hstart : Journal.start logging.files (.ofText dir) s'.syncs tailBytes = (fs, .ok j))
    (hout : logging.out = silent.out) (herr : logging.err = silent.err) (hsessions : logging.sessions = silent.sessions)
    (input : List Char) :
    (run r logging args input).1.out = (run r silent args input).1.out ∧
    (run r logging args input).2 = (run r silent args input).2 ∧
    linesTaken r logging args input = linesTaken r silent args input ∧
    Warned (run r silent args input).1.err (run r logging args input).1.err := by
  have hsilent := enter_of_not_logs hload hlogs
  have hlogging := enter_of_logs hload' hlogs' htail hstart
  have halike : Alike silent.detach { logging with files := fs, journal := some j } :=
    ⟨rfl, hout, hsessions, herr ▸ .refl _⟩
  obtain ⟨command, hcommand, hkinds⟩ := read_of_evaluates hname rest
  obtain ⟨hstarted, htaken⟩ := start_alike r hs halike hkinds (prepare_of_enter hread hsilent (hcommand _))
    (prepare_of_enter hread' hlogging (hcommand _)) input
  have hend := explained_alike hstarted
  rw [← run_eq_explained, ← run_eq_explained] at hend
  exact ⟨hend.desk.out, hend.outcome, htaken, hend.desk.err⟩

def deskWith (document : List Char) (others : Files → Files) : Desk Rat where
  files := others ((Files.empty.set ["p".toList] .dir).set ["p".toList, settingsName] (.file (Utf8.encode document)))
  journal := none
  lastWarned := none
  now := 0
  stamp := "2024-01-01T00:00:00.000000Z".toList
  sessions := 0
  out := []
  err := []

def quietDesk : Desk Rat := deskWith "logging_enabled: false\n".toList id

/-- The log of all events is a directory, so nothing can be appended to it. -/
def stuckDesk : Desk Rat :=
  deskWith "logging_enabled: yes\n".toList fun fs =>
    (fs.set ["p".toList, "logs".toList] .dir).set ["p".toList, "logs".toList, "events.ndjson".toList] .dir

def promptLine : List (List Char) := ["--project".toList, "p".toList, "repl".toList]

def typedLines : List Char := "x\n2\n1 +\nexit\nx".toList

theorem run_unchanged_by_journal_stuckDesk :
    (run .standard stuckDesk promptLine typedLines).1.out = (run .standard quietDesk promptLine typedLines).1.out ∧
    (run .standard stuckDesk promptLine typedLines).2 = (run .standard quietDesk promptLine typedLines).2 ∧
    linesTaken .standard stuckDesk promptLine typedLines = linesTaken .standard quietDesk promptLine typedLines ∧
    linesTaken .standard quietDesk promptLine typedLines = 4 ∧
    Warned (run .standard quietDesk promptLine typedLines).1.err (run .standard stuckDesk promptLine typedLines).1.err ∧
    (run .standard stuckDesk promptLine typedLines).1.err =
      warningLine ++ (run .standard quietDesk promptLine typedLines).1.err := by
  have hquiet : (Settings.load quietDesk.files (.ofText "p".toList)).toOption.any (fun s => !s.logs &&
      decide (s.places = defaultPlaces ∧ s.threshold = Status.defaultThreshold)) = true := by decide +kernel
  have hstuck : (Settings.load stuckDesk.files (.ofText "p".toList)).toOption.any (fun s => s.logs && !s.syncs &&
      decide (s.places = defaultPlaces ∧ s.threshold = Status.defaultThreshold) &&
        s.tailBytes.toOption.any (·.isNone)) = true := by decide +kernel
  obtain ⟨s, hload, hs⟩ := Expr.exists_of_any hquiet
  obtain ⟨s', hload', hs'⟩ := Expr.exists_of_any hstuck
  simp only [Bool.and_eq_true, Bool.not_eq_true', decide_eq_true_eq] at hs hs'
  obtain ⟨hlogs, hplaces, hthreshold⟩ := hs
  obtain ⟨⟨⟨hlogs', hsyncs⟩, hplaces', hthreshold'⟩, htail⟩ := hs'
  obtain ⟨tailBytes, htail, hnone⟩ := Expr.exists_of_any htail
  obtain rfl := Option.isNone_iff_eq_none.1 hnone
  have hstart : Journal.start stuckDesk.files (.ofText "p".toList) s'.syncs none =
      ((Journal.start stuckDesk.files (.ofText "p".toList) false none).1,
        .ok ⟨.ofText "p".toList, false, Journal.defaultTailBytes⟩) := by
    rw [hsyncs]
    exact Prod.ext rfl (by rfl)
  have hread : Request.read quietDesk.files promptLine = .ok (.command (some "p".toList) "repl".toList []) := rfl
  have hread' : Request.read stuckDesk.files promptLine = .ok (.command (some "p".toList) "repl".toList []) := rfl
  have hshow : ShowAlike s s' := ⟨hplaces'.trans hplaces.symm, hthreshold'.trans hthreshold.symm⟩
  -- by their values: compared as desks, their stores would be compared first
  have hout : stuckDesk.out = quietDesk.out := Eq.trans (b := []) rfl rfl
  have herr : stuckDesk.err = quietDesk.err := Eq.trans (b := []) rfl rfl
  have hsessions : stuckDesk.sessions = quietDesk.sessions := Eq.trans (b := 0) rfl rfl
  obtain ⟨hout, hend, htaken, herr⟩ := run_unchanged_by_journal .standard (.inr rfl) hread hread' hload hload' hlogs
    hlogs' hshow htail hstart hout herr hsessions typedLines
  exact ⟨hout, hend, htaken, by decide +kernel, herr, by decide +kernel⟩

end Abacus.Console
