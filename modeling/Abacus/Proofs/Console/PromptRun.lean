import Abacus.Console.Run
import Abacus.Proofs.Console.Sitting
import Abacus.Proofs.Files.Written
/-!
# The prompt on a project that logs

Entering a project whose settings ask for a log leaves a desk with a journal of that project (`journal_of_enter`).
So a run of the prompt there ends well whatever is typed, and its minutes are what it appends to the log of all
events and all that its own log holds (`minutes_of_prompt`).
-/
namespace Abacus.Console

open Journal Desk

variable {τ : Type} [Instant τ] {d d' entered : Desk τ} {s : Settings} {dir : List Char} {project : Path} {j : Journal}

theorem project_of_start {fs fs' : Files} {syncs : Bool} {tailBytes : Option Int}
    (h : Journal.start fs project syncs tailBytes = (fs', .ok j)) : j.project = project := by
  rw [Journal.start] at h
  split at h
  · cases h
  · split at h
    · cases h
    · cases h
      rfl

omit [Instant τ] in
theorem journal_of_attachAs (hlogs : s.logs = true) (h : d.attachAs project s = (d', .ok ())) :
    ∃ j, d'.journal = some j ∧ j.project = project ∧ ∃ logs, HasDirs d'.files project logs := by
  rw [attachAs, hlogs, Bool.not_true, if_neg Bool.false_ne_true] at h
  split at h
  · cases h
  · split at h
    · cases h
    · rename_i fs j hstart
      cases h
      exact ⟨j, rfl, project_of_start hstart, hasDirs_of_start hstart⟩

/-- **A project that is entered has its journal**, if its settings ask for one. -/
theorem journal_of_enter (hlogs : s.logs = true) (h : enter d (some (Path.ofText dir)) = (entered, .ok s)) :
    ∃ j, entered.journal = some j ∧ j.project = Path.ofText dir ∧
      ∃ logs, HasDirs entered.files (Path.ofText dir) logs := by
  rw [enter] at h
  cases hload : Settings.load d.files (Path.ofText dir) with
  | error e =>
    rw [hload] at h
    dsimp only at h
    split at h
    · cases h
    · split at h <;> cases h
  | ok s' =>
    rw [hload] at h
    dsimp only at h
    rw [attach, Path.ofText_text_ofText, hload] at h
    dsimp only at h
    cases hattach : d.attachAs (Path.ofText dir) s' with
    | mk d' outcome =>
      rw [hattach] at h
      cases outcome with
      | error e => cases e <;> cases h
      | ok u =>
        cases h
        exact journal_of_attachAs hlogs hattach

theorem enter_of_prepare {args : List (List Char)} {command : Command}
    (h : prepare d args = (entered, .ok (some (s, some project, command)))) :
    ∃ dir, project = Path.ofText dir ∧ enter d (some (Path.ofText dir)) = (entered, .ok s) := by
  rw [prepare] at h
  cases hread : Request.read d.files args with
  | error e => rw [hread] at h; cases h
  | ok request =>
    rw [hread] at h
    cases request with
    | version => cases h
    | command dir name rest =>
      dsimp only at h
      cases henter : enter d (dir.map Path.ofText) with
      | mk d' outcome =>
        rw [henter] at h
        cases outcome with
        | error stop => cases h
        | ok s' =>
          dsimp only at h
          split at h
          · cases h
          · cases dir with
            | none => cases h
            | some dir =>
              cases h
              exact ⟨dir, rfl, henter⟩

/-- **On a project that logs, the prompt records the minutes of whatever is typed and ends well**, if answers can
have as many places as is set and both logs can be appended to, that of the session holding nothing yet. -/
theorem minutes_of_prompt {args : List (List Char)} {place place' : Place} {old : List UInt8}
    (hprepare : prepare d args = (entered, .ok (some (s, some project, .prompt)))) (hlogs : s.logs = true)
    (hplaces : ∀ x, ∃ text, answerText s.places x = .ok text)
    (hglobal : entered.files.writable (globalLog project) = .ok (place, old))
    (hsession : entered.files.writable (sessionLog project entered.newSession.2) = .ok (place', []))
    (input : List Char) : ∃ es, Minutes .standard s (inputLines input) es ∧ es.map Event.kind ∈ minutesKinds.matches' ∧
      exitStatus (run .standard d args input).2 = 0 ∧
      (run .standard d args input).1.files.read (globalLog project) = .ok (old ++ bytesOf es) ∧
      (run .standard d args input).1.files.read (sessionLog project entered.newSession.2) =
        .ok (bytesOf es) := by
  obtain ⟨dir, rfl, henter⟩ := enter_of_prepare hprepare
  obtain ⟨j, hjournal, hproject, hdirs⟩ := journal_of_enter hlogs henter
  rw [← hproject] at hglobal hsession hdirs ⊢
  have hrecording : entered.IsRecording j entered.newSession.2 :=
    ⟨hjournal, hdirs, accepts_sessionName _, ⟨_, hglobal⟩, ⟨_, hsession⟩⟩
  obtain ⟨d', es, hrun, hminutes, hrecords⟩ :=
    Sitting.minutes_of_run Registry.isTotal_standard hplaces hrecording (inputLines input)
  have hresult : run .standard d args input = (d', .ok ()) := by
    rw [run, start, hprepare]
    dsimp only
    rw [runCommand, runPrompt, hrun]
    rfl
  obtain ⟨hglobal', hsession'⟩ := hrecording.writable_of_records hrecords hglobal hsession
  have hne := bytesOf_ne_nil hminutes.ne_nil
  rw [hresult]
  exact ⟨es, hminutes, hminutes.kinds, rfl,
    Files.read_of_writable hglobal' (List.append_ne_nil_of_right_ne_nil old hne), Files.read_of_writable hsession' hne⟩

def promptDesk : Desk Rat where
  files := Files.empty.set ["p".toList] .dir
  journal := none
  lastWarned := none
  now := 0
  stamp := "2024-01-01T00:00:00.000000Z".toList
  sessions := 0
  out := []
  err := []

def promptArgs : List (List Char) := ["--project".toList, "p".toList, "repl".toList]

def promptProject : Path := ⟨["p".toList]⟩

def promptEntered : Desk Rat where
  files := ((Files.empty.set ["p".toList] .dir).set ["p".toList, "logs".toList] .dir).set
    ["p".toList, "logs".toList, "sessions".toList] .dir
  journal := some ⟨promptProject, false, Journal.defaultTailBytes⟩
  lastWarned := none
  now := 0
  stamp := "2024-01-01T00:00:00.000000Z".toList
  sessions := 0
  out := []
  err := []

theorem answerText_defaultPlaces (x : Float) : ∃ text, answerText Settings.default.places x = .ok text := by
  have hwritable : isUnwritable Settings.default.places = false := by decide +kernel
  rw [answerText, hwritable]
  exact ⟨_, rfl⟩

/-- A formula with a name, its value, one that cannot be parsed, and one whose name gets no value. -/
theorem minutes_of_prompt_sample : ∃ es,
    Minutes .standard Settings.default (inputLines "sqrt(x)\n4\n1 +\ny".toList) es ∧
      es.map Event.kind ∈ minutesKinds.matches' ∧
      exitStatus (run .standard promptDesk promptArgs "sqrt(x)\n4\n1 +\ny".toList).2 = 0 ∧
      (run .standard promptDesk promptArgs "sqrt(x)\n4\n1 +\ny".toList).1.files.read (globalLog promptProject) =
        .ok (bytesOf es) ∧
      (run .standard promptDesk promptArgs "sqrt(x)\n4\n1 +\ny".toList).1.files.read
        (sessionLog promptProject "000000000001".toList) = .ok (bytesOf es) := by
  have hprepare : prepare promptDesk promptArgs =
      (promptEntered, .ok (some (Settings.default, some promptProject, .prompt))) := rfl
  have hglobal : promptEntered.files.writable (globalLog promptProject) =
      .ok (["p".toList, "logs".toList, "events.ndjson".toList], []) := rfl
  have hsession : promptEntered.files.writable (sessionLog promptProject promptEntered.newSession.2) =
      .ok (["p".toList, "logs".toList, "sessions".toList, "000000000001.ndjson".toList], []) := rfl
  exact minutes_of_prompt hprepare rfl answerText_defaultPlaces hglobal hsession _

end Abacus.Console
