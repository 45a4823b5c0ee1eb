import Abacus.Proofs.Console.Telling
import Abacus.Proofs.Journal.Whole
/-!
# Settings that can be used

Settings that have been read may still be of no use: a number of places that no answer can have, or a window that is
no number.  Without these (`Settings.IsUsable`) no command crashes that is given the project, whatever is typed and
whatever becomes of the logs, and the prompt always records the end of its session; and with one of these, some
command does crash (`never_crashes_iff_isUsable`).
-/
namespace Abacus

/-! ## Places -/

theorem isUnwritable_of_lt {n : Int} (hnonneg : 0 ≤ n) (hlt : n < 0x80000000) : isUnwritable n = false := by
  have hsmall : n.natAbs < Nat.pow 10 10 := by
    have hten : Nat.pow 10 10 = 10000000000 := rfl
    omega
  have hgrows {k : Nat} (hk : 10 ≤ k) : Nat.pow 10 10 ≤ Nat.pow 10 k := Nat.pow_le_pow_right (Nat.succ_pos 9) hk
  exact decide_eq_false (Nat.not_le.2 (Nat.lt_of_lt_of_le hsmall (hgrows (by decide))))

/-- **The places that an answer can have** do not depend on the answer. -/
theorem answerText_eq_ok_iff (places : Int) (x : Float) :
    (∃ text, answerText places x = .ok text) ↔ 0 ≤ places ∧ places < 0x80000000 := by
  rw [answerText]
  constructor
  · rintro ⟨text, htext⟩
    split at htext
    · cases htext
    split at htext
    · cases htext
    split at htext
    · cases htext
    split at htext
    · cases htext
    omega
  · rintro ⟨hnonneg, hlt⟩
    rw [isUnwritable_of_lt hnonneg hlt, if_neg Bool.false_ne_true, if_neg (by omega), if_neg (by omega),
      if_neg (by omega)]
    exact ⟨_, rfl⟩

/-- Settings that every command can be run under. -/
structure Settings.IsUsable (s : Settings) : Prop where
  window : s.logs = true → ∃ t, s.tailBytes = .ok t
  places : 0 ≤ s.places ∧ s.places < 0x80000000

namespace Console

open Desk Files Journal

variable {τ : Type} [Instant τ] {r : Registry} {s : Settings} {d d' : Desk τ} {session formula : List Char}

/-! ## The prompt -/

theorem report_ok (hplaces : ∀ x, ∃ text, answerText s.places x = .ok text) (d : Desk τ) (formula : List Char)
    (x : Float) (session : Option (List Char)) : ∃ d', report d s formula x session = (d', .ok ()) := by
  obtain ⟨text, htext⟩ := hplaces x
  unfold report
  dsimp only
  rw [htext]
  exact ⟨_, rfl⟩

namespace Sitting

variable {sitting : Sitting τ}

def IsLive (sitting : Sitting τ) : Prop := ∀ c, sitting.waiting ≠ .crashed c

omit [Instant τ] in
theorem isLive_askFormula (d : Desk τ) : IsLive (askFormula d) := fun _ h => by cases h

omit [Instant τ] in
theorem isLive_excuse (d : Desk τ) (message : List Char) : IsLive (excuse d message) := isLive_askFormula _

theorem IsLive.close (h : IsLive sitting) (session : List Char) :
    ∃ d', close session sitting = (ended d' session, .ok ()) ∧
    d'.journal = sitting.desk.journal ∧ d'.files = sitting.desk.files := by
  obtain ⟨d, waiting⟩ := sitting
  cases waiting with
  | crashed c => exact absurd rfl (h c)
  | finished => exact ⟨d, rfl, rfl, rfl⟩
  | formula => exact ⟨d.print ['\n'], rfl, rfl, rfl⟩
  | value p => exact ⟨d.print ['\n'], rfl, rfl, rfl⟩

section

variable (hr : r.IsTotal) (hplaces : ∀ x, ∃ text, answerText s.places x = .ok text)

include hr hplaces

theorem isLive_evaluate (d : Desk τ) (formula : List Char) (tree : Expr) (c : Context) :
    IsLive (evaluate r s session d formula tree c) := by
  obtain ⟨x, heval⟩ | ⟨why, heval⟩ := Expr.decided_evaluate hr c tree
  · obtain ⟨d', hreport⟩ :=
      report_ok hplaces (d.emit (valueEvent d formula tree x) (some session)) formula x (some session)
    rw [evaluate_of_ok heval, hreport]
    exact isLive_askFormula _
  · rw [evaluate, heval]
    exact isLive_excuse _ _

theorem isLive_proceed (d : Desk τ) (formula : List Char) (tree : Expr) (c : Context) (names : List (List Char)) :
    IsLive (proceed r s session d formula tree c names) := by
  cases names with
  | nil =>
    rw [proceed]
    exact isLive_evaluate hr hplaces d formula tree c
  | cons name more => exact fun _ h => by cases h

theorem IsLive.feed (h : IsLive sitting) (line : List Char) : IsLive (feed r s session sitting line) := by
  obtain ⟨d, waiting⟩ := sitting
  cases waiting with
  | formula =>
    unfold Sitting.feed
    dsimp only
    split
    · exact fun _ h => by cases h
    split
    · exact isLive_askFormula _
    unfold takeFormula
    cases Expr.parse (strip line) with
    | error why => exact isLive_excuse _ _
    | ok tree => exact isLive_proceed hr hplaces _ _ _ _ _
  | value p =>
    rw [feed_value, takeValue]
    cases readDouble? (strip line) with
    | none => exact isLive_excuse _ _
    | some x => exact isLive_proceed hr hplaces _ _ _ _ _
  | finished => exact h
  | crashed c => exact h

theorem IsLive.foldl_feed (h : IsLive sitting) (lines : List (List Char)) :
    IsLive (lines.foldl (Sitting.feed r s session) sitting) := by
  induction lines generalizing sitting with
  | nil => exact h
  | cons line lines ih => exact ih (h.feed hr hplaces line)

theorem run_of_places (d : Desk τ) (lines : List (List Char)) :
    ∃ d' ws, run r s d lines = (ended d' d.newSession.2, .ok ()) ∧ Emits d ws d' := by
  obtain ⟨ws, hemits, -⟩ := (keeps_fed r s d lines).telling
  have hlive : IsLive (lines.foldl (Sitting.feed r s d.newSession.2) (first r d)) :=
    IsLive.foldl_feed hr hplaces (isLive_askFormula _) lines
  obtain ⟨d', hclose, hjournal, hfiles⟩ := hlive.close d.newSession.2
  exact ⟨d', ws, (run_eq_close d lines).trans hclose, hemits.shown hjournal hfiles⟩

end

end Sitting

/-! ## The other commands -/

theorem runEval_ne_crashed (hr : r.IsTotal) (hplaces : ∀ x, ∃ text, answerText s.places x = .ok text) (d : Desk τ)
    (formula : List Char) (values : List (List Char)) (asJson : Bool) (c : Crash) :
    (runEval r s d formula values asJson).2 ≠ .error (.crashed c) := by
  cases hvalues : readOverrides [] values with
  | error e =>
    rw [runEval, hvalues]
    exact fun h => by cases h
  | ok context =>
    cases hparse : Expr.parse formula with
    | error why =>
      rw [runEval, hvalues]
      dsimp only
      rw [hparse]
      exact fun h => by cases h
    | ok tree =>
      obtain ⟨x, heval⟩ | ⟨why, heval⟩ := Expr.decided_evaluate hr context tree
      · obtain ⟨d', hreport⟩ := report_ok hplaces (d.emit (answerEvent s d formula tree x) none) formula x none
        rw [runEval_of_ok hvalues hparse heval, hreport]
        split <;> exact fun h => by cases h
      · rw [runEval, hvalues]
        dsimp only
        rw [hparse]
        dsimp only
        rw [heval]
        exact fun h => by cases h

omit [Instant τ] in
theorem runEvents_of_read {project : Path} {fs : Files} {j : Journal} {level kind : Option (List Char)} {limit : Int}
    {vs : List Json} (hstart : Journal.start d.files project false none = (fs, .ok j))
    (hread : j.readGlobal fs level kind limit = .ok vs) : runEvents d (some project) level kind limit =
      done (vs.foldl (fun d v => d.printLine v.sortedText) { d with files := fs }) := by
  rw [runEvents, hstart]
  dsimp only
  rw [hread]

/-! ## Projects -/

variable {dir name : List Char} {args rest : List (List Char)} {fs : Files} {j : Journal} {place : Place}
  {bytes : List UInt8} {vs : List Json}

omit [Instant τ] in
theorem start_of_start {project : Path} {syncs : Bool} {tailBytes : Option Int}
    (h : Journal.start d.files project syncs tailBytes = (fs, .ok j)) (syncs' : Bool) (tailBytes' : Option Int) :
    Journal.start d.files project syncs' tailBytes' =
      (fs, .ok ⟨project, syncs', tailBytes'.getD defaultTailBytes⟩) := by
  rw [Journal.start] at h ⊢
  generalize d.files.makeDirs (logsDir project) = made at h ⊢
  obtain ⟨made, _ | e⟩ := made
  · dsimp only at h ⊢
    cases hsessions : made.makeDir (sessionsDir project) with
    | error e =>
      rw [hsessions] at h
      cases h
    | ok fs' =>
      rw [hsessions] at h
      cases h
      rfl
  · cases h

theorem enter_of_window (hload : Settings.load d.files (.ofText dir) = .ok s)
    (hstart : Journal.start d.files (.ofText dir) false none = (fs, .ok j))
    (hwindow : s.logs = true → ∃ t, s.tailBytes = .ok t) : ∃ entered, enter d (some (.ofText dir)) = (entered, .ok s) ∧
      Journal.start entered.files (.ofText dir) false none = (fs, .ok ⟨.ofText dir, false, defaultTailBytes⟩) ∧
      (s.logs = true → entered.files = fs ∧ ∃ j', entered.journal = some j' ∧ j'.project = .ofText dir) := by
  cases hlogs : s.logs with
  | false => exact ⟨_, enter_of_not_logs hload hlogs, start_of_start hstart _ _, fun h => by cases h⟩
  | true =>
    obtain ⟨tailBytes, htail⟩ := hwindow hlogs
    obtain ⟨logs, hdirs⟩ := hasDirs_of_start hstart
    exact ⟨_, enter_of_logs hload hlogs htail (start_of_start hstart _ _), start_of_hasDirs hdirs _ _,
      fun _ => ⟨rfl, _, rfl, rfl⟩⟩

theorem read_of_ne_init (hname : name ≠ "init".toList) (rest : List (List Char)) :
    ∃ command, (∀ fs, Command.read fs name rest = wellFormed command) ∧ ∀ dir, command ≠ some (.init dir) := by
  by_cases heval : name = "eval".toList
  · refine ⟨Command.readEval? rest, fun fs => by rw [Command.read, if_pos heval], fun dir h => ?_⟩
    rw [Command.readEval?] at h
    split at h
    · split at h <;> cases h
    · cases h
  by_cases hast : name = "ast".toList
  · refine ⟨(Command.onlyWord? rest).map .canonical, fun fs => by rw [Command.read, if_neg heval, if_pos hast],
      fun dir h => ?_⟩
    obtain ⟨_, -, h⟩ := Option.map_eq_some_iff.1 h
    cases h
  by_cases hvars : name = "vars".toList
  · refine ⟨(Command.onlyWord? rest).map .names,
      fun fs => by rw [Command.read, if_neg heval, if_neg hast, if_pos hvars], fun dir h => ?_⟩
    obtain ⟨_, -, h⟩ := Option.map_eq_some_iff.1 h
    cases h
  by_cases hevents : name = "events".toList
  · refine ⟨Command.readEvents? rest,
      fun fs => by rw [Command.read, if_neg heval, if_neg hast, if_neg hvars, if_neg hname, if_pos hevents],
      fun dir h => ?_⟩
    rw [Command.readEvents?] at h
    split at h
    · dsimp only at h
      split at h
      · obtain ⟨_, -, h⟩ := Option.map_eq_some_iff.1 h
        cases h
      · cases h
    · cases h
  · refine ⟨if name = "repl".toList && (Command.words? rest).any (·.isEmpty) then some .prompt else none, fun fs => ?_,
      fun dir h => ?_⟩
    · rw [Command.read, if_neg heval, if_neg hast, if_neg hvars, if_neg hname, if_neg hevents]
      split <;> rfl
    · split at h <;> cases h

omit [Instant τ] in
theorem outcome_explained (x : Run τ) : (explained x).2 = x.2 := by
  obtain ⟨d, stop | u⟩ := x
  · cases stop <;> rfl
  · rfl

theorem runCommand_ne_crashed {project : Path} {command : Command} (hr : r.IsTotal)
    (hplaces : ∀ x, ∃ text, answerText s.places x = .ok text)
    (hstart : Journal.start d.files project false none = (fs, .ok j))
    (hread : ∀ level kind limit, ∃ vs, j.readGlobal fs level kind limit = .ok vs) (hinit : ∀ dir, command ≠ .init dir)
    (input : List Char) (c : Crash) : (runCommand r s d (some project) input command).2 ≠ .error (.crashed c) := by
  cases command with
  | eval formula values asJson => exact runEval_ne_crashed hr hplaces d formula values asJson c
  | canonical formula =>
    rw [runCommand, runCanonical]
    split <;> exact fun h => by cases h
  | names formula =>
    rw [runCommand, runNames]
    split <;> exact fun h => by cases h
  | init dir => exact absurd rfl (hinit dir)
  | events level kind limit =>
    obtain ⟨vs, hvs⟩ := hread level kind limit
    rw [runCommand, runEvents_of_read hstart hvs]
    exact fun h => by cases h
  | prompt =>
    obtain ⟨d', ws, hrun, -⟩ := Sitting.run_of_places hr hplaces d (inputLines input)
    rw [runCommand, runPrompt, hrun]
    exact fun h => by cases h

/-! ### Settings of no use -/

def oneLine (dir : List Char) : List (List Char) := projectArgs (some dir) ++ "eval".toList :: [['1']]

omit [Instant τ] in
theorem read_oneLine (hproject : readDirectory d.files dir = .ok dir) :
    Request.read d.files (oneLine dir) = .ok (.command (some dir) "eval".toList [['1']]) := by
  rw [oneLine, read_projectArgs rfl, readProject, hproject]
  rfl

theorem crashed_of_window {e : ConversionError} (hload : Settings.load d.files (.ofText dir) = .ok s)
    (hlogs : s.logs = true) (htail : s.tailBytes = .error e)
    (hread : Request.read d.files args = .ok (.command (some dir) name rest)) (input : List Char) :
    (run r d args input).2 = .error (.crashed (.conversion e)) := by
  have henter : enter d (some (.ofText dir)) = (d, .error (.crashed (.conversion e))) := by
    rw [enter, hload]
    dsimp only
    rw [Desk.attach, Path.ofText_text_ofText, hload]
    dsimp only
    rw [attachAs, hlogs, htail]
    rfl
  rw [run_eq_explained, outcome_explained, start, prepare, hread]
  dsimp only [Option.map_some]
  rw [henter]

theorem crashed_of_places {entered : Desk τ} (hproject : readDirectory d.files dir = .ok dir)
    (henter : enter d (some (.ofText dir)) = (entered, .ok s)) (hplaces : ¬ (0 ≤ s.places ∧ s.places < 0x80000000)) :
    ∃ why, (run .standard d (oneLine dir) []).2 = .error (.crashed (.places why)) := by
  have hone : (Expr.parse ['1']).toOption.any (fun tree => (tree.evaluate .standard []).toOption.any fun _ => true) =
      true := by decide +kernel
  obtain ⟨tree, hparse, heval⟩ := Expr.exists_of_any hone
  obtain ⟨x, heval, -⟩ := Expr.exists_of_any heval
  have hcommand : Command.read entered.files "eval".toList [['1']] = wellFormed (some (.eval ['1'] [] false)) := rfl
  have hprepare := prepare_of_enter (read_oneLine hproject) henter hcommand
  rw [run_eq_explained, outcome_explained, start, hprepare]
  dsimp only [wellFormed, Except.map, Except.mapError]
  rw [runCommand, runEval_of_ok rfl hparse heval, if_neg Bool.false_ne_true]
  cases htext : answerText s.places x with
  | ok text => exact absurd ((answerText_eq_ok_iff s.places x).1 ⟨text, htext⟩) hplaces
  | error why =>
    refine ⟨why, ?_⟩
    unfold report
    dsimp only
    rw [htext]
    rfl

/-! ### Settings of use -/

section

variable (hload : Settings.load d.files (.ofText dir) = .ok s)
  (hstart : Journal.start d.files (.ofText dir) false none = (fs, .ok j))
  (hlog : fs.writable (globalLog (.ofText dir)) = .ok (place, bytes))

include hload hstart hlog

theorem run_ne_crashed (hwhole : IsWhole bytes vs) (husable : s.IsUsable)
    (hread : Request.read d.files args = .ok (.command (some dir) name rest)) (hname : name ≠ "init".toList)
    (input : List Char) (c : Crash) : (run .standard d args input).2 ≠ .error (.crashed c) := by
  obtain ⟨entered, henter, hevents, -⟩ := enter_of_window hload hstart husable.window
  obtain ⟨command, hcommand, hinit⟩ := read_of_ne_init hname rest
  have hanswers (x : Float) := (answerText_eq_ok_iff s.places x).2 husable.places
  rw [run_eq_explained, outcome_explained, start, prepare_of_enter hread henter (hcommand _)]
  cases command with
  | none => exact fun h => by cases h
  | some command =>
    refine runCommand_ne_crashed Registry.isTotal_standard hanswers hevents (fun level kind limit => ?_)
      (fun dir heq => hinit dir (congrArg some heq)) input c
    have hwindow : 0 ≤ defaultTailBytes := by decide
    obtain ⟨kept, -, hkept⟩ := readGlobal_of_isWhole (j := ⟨.ofText dir, false, defaultTailBytes⟩) hwhole hlog hwindow
      level kind limit
    exact ⟨_, hkept⟩

/-- **The prompt always ends its session in the log**, whatever is typed. -/
theorem sessionEnded_of_run (husable : s.IsUsable) (hlogs : s.logs = true)
    (hread : Request.read d.files args = .ok (.command (some dir) "repl".toList rest))
    (hwords : Command.words? rest = some []) (input : List Char) :
    (run .standard d args input).2 = .ok () ∧ ∃ es last, last.kind = .sessionEnded ∧
      (run .standard d args input).1.files.read (globalLog (.ofText dir)) = .ok (bytes ++ bytesOf (es ++ [last])) := by
  obtain ⟨entered, henter, -, hentered⟩ := enter_of_window hload hstart husable.window
  obtain ⟨rfl, j', hjournal, hproject⟩ := hentered hlogs
  obtain ⟨logs, hdirs⟩ := hasDirs_of_start hstart
  have hanswers (x : Float) := (answerText_eq_ok_iff s.places x).2 husable.places
  have hprompt : Command.read entered.files "repl".toList rest = wellFormed (some .prompt) := by
    simp [Command.read, hwords, wellFormed]
  obtain ⟨d', ws, hrun, hemits⟩ := Sitting.run_of_places Registry.isTotal_standard hanswers entered (inputLines input)
  have hresult : run .standard d args input = (Sitting.ended d' entered.newSession.2, .ok ()) := by
    rw [run_of_prompt (prepare_of_enter hread henter hprompt), hrun]
    rfl
  rw [← hproject] at hdirs hlog ⊢
  obtain ⟨es, -, htold⟩ := hemits.writable hjournal hdirs hlog
  -- until here any of the events may have been lost, but the last one is recorded
  have hrecordable : (d'.eventOf .info .sessionEnded "session ended".toList [] none).kept.isRecordable = true :=
    Event.isRecordable_kept (isRecordable_eventOf (List.forall_mem_nil _))
  have hlast := writable_emit (hemits.journal.trans hjournal) (hdirs.of_keeps hemits.keepsDirs) htold
    (d'.eventOf .info .sessionEnded "session ended".toList [] none) (some entered.newSession.2)
  rw [if_pos hrecordable, List.append_assoc, ← bytesOf_concat] at hlast
  have hne : bytesOf (es ++ [(d'.eventOf .info .sessionEnded "session ended".toList [] none).kept]) ≠ [] :=
    bytesOf_ne_nil (List.append_ne_nil_of_right_ne_nil es (List.cons_ne_nil _ _))
  rw [hresult]
  exact ⟨rfl, es, _, Event.kind_kept _, Files.read_of_writable hlast (List.append_ne_nil_of_right_ne_nil bytes hne)⟩

end

/-- **Usable settings are those under which no command crashes.**  Take a project whose settings can be read, whose
logs are there or can be made, and whose log of all events, if it is there, holds whole lines.  No command but the
one that writes settings crashes, whatever its arguments and its input, exactly if logging is off or the window is a
number or none, and answers can have as many places as are set.  Then also, if the project logs, the prompt ends
well and the end of its session is the last that the log of all events gets. -/
theorem never_crashes_iff_isUsable (hproject : readDirectory d.files dir = .ok dir)
    (hload : Settings.load d.files (.ofText dir) = .ok s)
    (hstart : Journal.start d.files (.ofText dir) false none = (fs, .ok j))
    (hlog : fs.writable (globalLog (.ofText dir)) = .ok (place, bytes)) (hwhole : IsWhole bytes vs) :
    ((∀ args name rest input c, Request.read d.files args = .ok (.command (some dir) name rest) → name ≠ "init".toList →
      (run .standard d args input).2 ≠ .error (.crashed c)) ↔ s.IsUsable) ∧
    (s.IsUsable → s.logs = true → ∀ args rest input,
      Request.read d.files args = .ok (.command (some dir) "repl".toList rest) → Command.words? rest = some [] →
      (run .standard d args input).2 = .ok () ∧ ∃ es last, last.kind = .sessionEnded ∧
        (run .standard d args input).1.files.read (globalLog (.ofText dir)) =
          .ok (bytes ++ bytesOf (es ++ [last]))) := by
  refine ⟨⟨fun hnever => ?_, fun husable args name rest input c hread hname =>
    run_ne_crashed hload hstart hlog hwhole husable hread hname input c⟩,
    fun husable hlogs args rest input hread hwords =>
      sessionEnded_of_run hload hstart hlog husable hlogs hread hwords input⟩
  have hone (c : Crash) : (run .standard d (oneLine dir) []).2 ≠ .error (.crashed c) :=
    hnever _ _ _ _ c (read_oneLine hproject) (by decide)
  have hwindow : s.logs = true → ∃ t, s.tailBytes = .ok t := by
    intro hlogs
    cases htail : s.tailBytes with
    | ok t => exact ⟨t, rfl⟩
    | error e => exact absurd (crashed_of_window hload hlogs htail (read_oneLine hproject) []) (hone _)
  refine ⟨hwindow, ?_⟩
  by_contra hplaces
  obtain ⟨entered, henter, -⟩ := enter_of_window hload hstart hwindow
  obtain ⟨why, hcrashed⟩ := crashed_of_places hproject henter hplaces
  exact absurd hcrashed (hone _)

def usableDesk : Desk Rat :=
  deskWith "precision: 0\nlarge_result_threshold: 1\nlogging_fsync: on\nlogging_tail_bytes: -1\n".toList fun fs =>
    (fs.set ["p".toList, "logs".toList] .dir).set ["p".toList, "logs".toList, "events.ndjson".toList]
      (.file (bytesOf [secondSample]))

def usableFiles : Files :=
  usableDesk.files.set ["p".toList, "logs".toList, "sessions".toList] .dir

theorem never_crashes_iff_isUsable_usableDesk :
    ∃ s, Settings.load usableDesk.files (.ofText ['p']) = .ok s ∧ s.IsUsable ∧
    (∀ args name rest input c, Request.read usableDesk.files args = .ok (.command (some ['p']) name rest) →
      name ≠ "init".toList → (run .standard usableDesk args input).2 ≠ .error (.crashed c)) ∧
    ∀ input, (run .standard usableDesk promptLine input).2 = .ok () ∧ ∃ es last, last.kind = .sessionEnded ∧
      (run .standard usableDesk promptLine input).1.files.read (globalLog (.ofText ['p'])) =
        .ok (bytesOf [secondSample] ++ bytesOf (es ++ [last])) := by
  have hany : (Settings.load usableDesk.files (.ofText ['p'])).toOption.any (fun s => s.logs &&
      s.tailBytes.toOption.isSome && decide (0 ≤ s.places ∧ s.places < 0x80000000)) = true := by decide +kernel
  obtain ⟨s, hload, hs⟩ := Expr.exists_of_any hany
  simp only [Bool.and_eq_true, decide_eq_true_eq] at hs
  obtain ⟨⟨hlogs, htail⟩, hplaces⟩ := hs
  have hwindow : ∃ t, s.tailBytes = .ok t := by
    cases h : s.tailBytes with
    | ok t => exact ⟨t, rfl⟩
    | error e =>
      rw [h] at htail
      cases htail
  have husable : s.IsUsable := ⟨fun _ => hwindow, hplaces⟩
  have hstart : Journal.start usableDesk.files (.ofText ['p']) false none =
      (usableFiles, .ok ⟨.ofText ['p'], false, defaultTailBytes⟩) := Prod.ext rfl (by rfl)
  have hlog : usableFiles.writable (globalLog (.ofText ['p'])) =
      .ok (["p".toList, "logs".toList, "events.ndjson".toList], bytesOf [secondSample]) := rfl
  have hwhole : IsWhole (bytesOf [secondSample]) ([secondSample].map Event.recorded) :=
    isWhole_bytesOf (by decide +kernel)
  have hread : Request.read usableDesk.files promptLine = .ok (.command (some ['p']) "repl".toList []) := rfl
  obtain ⟨hnever, hends⟩ := never_crashes_iff_isUsable rfl hload hstart hlog hwhole
  exact ⟨s, hload, husable, hnever.2 husable, fun input => hends husable hlogs _ _ input hread rfl⟩

/-- A project whose settings can be read, but have a word for the window. -/
def wordyDesk : Desk Rat := deskWith "logging_tail_bytes: many\n".toList id

/-- **A word for the window makes every command crash**, also one that does not log. -/
theorem crashed_wordyDesk : (∃ s, Settings.load wordyDesk.files (.ofText ['p']) = .ok s) ∧
    (run .standard wordyDesk (projectArgs (some ['p']) ++ ["ast".toList, ['1']]) []).2 =
      .error (.crashed (.conversion (.notAnInt "many".toList))) := by
  have hany : (Settings.load wordyDesk.files (.ofText ['p'])).toOption.any (fun s => s.logs &&
      decide (s.tailBytes = .error (.notAnInt "many".toList))) = true := by decide +kernel
  obtain ⟨s, hload, hs⟩ := Expr.exists_of_any hany
  simp only [Bool.and_eq_true, decide_eq_true_eq] at hs
  have hread : Request.read wordyDesk.files (projectArgs (some ['p']) ++ ["ast".toList, ['1']]) =
      .ok (.command (some ['p']) "ast".toList [['1']]) := rfl
  exact ⟨⟨s, hload⟩, crashed_of_window hload hs.1 hs.2 hread []⟩

end Console
end Abacus
