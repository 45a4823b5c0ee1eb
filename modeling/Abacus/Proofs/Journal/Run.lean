import Abacus.Proofs.Files.Walk
import Abacus.Proofs.Journal.Lines
/-!
# Writing to the logs of a project

Once a journal has been set up, the directories of the logs are there and stay (`HasDirs`).  A write that succeeds adds
the line of its event to the log of all events, and to the log of its session if that is accepted, and changes nothing
else (`adds_of_write`).  So after any run of such writes, by however many journals, a log holds what it held and then
the lines of the events that went to it, in the order in which they were written (`Runs.grown`).
-/
namespace Abacus.Journal

open Files

variable {fs fs' : Files} {project : Path} {logs place : Place} {j : Journal} {syncs : Bool} {tailBytes : Option Int}

/-- The directories of the logs are there, at this place and in it. -/
structure HasDirs (fs : Files) (project : Path) (logs : Place) : Prop where
  main : fs.IsDir (logsDir project) logs
  sessions : fs.IsDir (sessionsDir project) (logs ++ ["sessions".toList])

theorem HasDirs.of_keeps (h : HasDirs fs project logs) (hkeeps : KeepsDirs fs fs') : HasDirs fs' project logs :=
  ⟨h.main.of_keeps hkeeps, h.sessions.of_keeps hkeeps⟩

theorem hasDirs_of_start (h : start fs project syncs tailBytes = (fs', .ok j)) : ∃ logs, HasDirs fs' project logs := by
  rw [start] at h
  split at h
  · cases h
  · split at h
    · cases h
    · rename_i hmake
      cases h
      obtain ⟨sessions, hsessions⟩ := isDir_of_makeDir hmake
      obtain ⟨logs, hlogs, rfl⟩ := hsessions.parent (by decide) (by decide)
      exact ⟨logs, hlogs, hsessions⟩

theorem start_of_hasDirs (h : HasDirs fs project logs) (syncs : Bool) (tailBytes : Option Int) :
    start fs project syncs tailBytes = (fs, .ok ⟨project, syncs, tailBytes.getD defaultTailBytes⟩) := by
  rw [start, makeDirs_of_isDir h.main]
  dsimp only
  rw [makeDir_of_isDir h.sessions]

/-! ## The places of the logs -/

/-- An event that is written, with the session that it is said to be of. -/
structure Entry where
  event : Event
  session : Option (List Char)

def globalName : List Char := "events.ndjson".toList

def sessionName (session : List Char) : List Char := session ++ ".ndjson".toList

def globalPlace (logs : Place) : Place := logs ++ [globalName]

def sessionPlace (logs : Place) (session : List Char) : Place := logs ++ ["sessions".toList] ++ [sessionName session]

def sessionPlaces (logs : Place) : Option (List Char) → List Place
  | none      => []
  | some name => if accepts name then [sessionPlace logs name] else []

/-- The places of the logs that the event goes to. -/
def Entry.places (logs : Place) (w : Entry) : List Place := globalPlace logs :: sessionPlaces logs w.session

theorem globalPlace_ne_sessionPlace (logs : Place) (session : List Char) :
    globalPlace logs ≠ sessionPlace logs session := by
  intro h
  have hlength := congrArg List.length h
  simp [globalPlace, sessionPlace] at hlength

theorem sessionPlace_inj {q r : List Char} : sessionPlace logs q = sessionPlace logs r ↔ q = r := by
  simp [sessionPlace, sessionName]

theorem sessionName_ne_upName (session : List Char) : sessionName session ≠ Path.upName := by
  intro h
  have hlength := congrArg List.length h
  simp [sessionName, Path.upName] at hlength

theorem HasDirs.locate_globalLog (h : HasDirs fs project logs) (hlocate : fs.locate (globalLog project) = .ok place) :
    place = globalPlace logs := h.main.eq_of_locate_child (by decide) hlocate

theorem HasDirs.locate_sessionLog {session : List Char} (h : HasDirs fs project logs)
    (hlocate : fs.locate (sessionLog project session) = .ok place) : place = sessionPlace logs session :=
  h.sessions.eq_of_locate_child (sessionName_ne_upName session) hlocate

theorem sessionName_ne_rootName (session : List Char) : sessionName session ≠ Path.rootName := by
  intro h
  have hlength := congrArg List.length h
  simp [sessionName, Path.rootName] at hlength

theorem mem_places_sessionPlace {w : Entry} {q : List Char} :
    sessionPlace logs q ∈ w.places logs ↔ w.session = some q ∧ accepts q = true := by
  rw [Entry.places, List.mem_cons, or_iff_right (globalPlace_ne_sessionPlace logs q).symm]
  cases w.session with
  | none => simp [sessionPlaces]
  | some name =>
    rw [sessionPlaces]
    split
    · rename_i haccepts
      rw [List.mem_singleton, sessionPlace_inj, Option.some.injEq]
      exact ⟨fun heq => ⟨heq.symm, heq ▸ haccepts⟩, fun h => h.1.symm⟩
    · rename_i hnot
      simp only [List.not_mem_nil, Option.some.injEq, false_iff, not_and]
      rintro rfl
      exact hnot

/-! ## One write -/

theorem adds_of_append {dir : Path} {d : Place} {name line : List Char} (hdir : fs.IsDir dir d)
    (hup : name ≠ Path.upName) (h : append fs (dir.child name) line = (fs', none)) :
    childError? dir name = none ∧ Adds [d ++ [name]] (Utf8.encode line) fs fs' := by
  rw [append, Path.parent_child, makeDirs_of_isDir hdir] at h
  dsimp only at h
  cases happend : fs.append (dir.child name) (Utf8.encode line) with
  | error e => rw [happend] at h; cases h
  | ok fs₁ =>
    rw [happend] at h
    cases h
    have hlocate := hdir.locate_child hup
    cases herror : childError? dir name with
    | none =>
      rw [herror] at hlocate
      exact ⟨rfl, Files.adds_of_append happend hlocate⟩
    | some e =>
      obtain ⟨place, hplace, -⟩ := append_eq_ok_iff.1 happend
      rw [herror, hplace] at hlocate
      cases hlocate

theorem append_of_writable {dir : Path} {d : Place} {name : List Char} (hdir : fs.IsDir dir d)
    {t : Place × List UInt8} (h : fs.writable (dir.child name) = .ok t) (line : List Char) :
    ∃ fs', append fs (dir.child name) line = (fs', none) := by
  have happend :
      fs.append (dir.child name) (Utf8.encode line) = .ok (fs.set t.1 (.file (t.2 ++ Utf8.encode line))) := by
    rw [Files.append, h]
    rfl
  rw [append, Path.parent_child, makeDirs_of_isDir hdir]
  dsimp only
  rw [happend]
  exact ⟨_, rfl⟩

theorem write_none (j : Journal) (fs : Files) (e : Event) : j.write fs e none =
    if e.isRecordable then
      match append fs (globalLog j.project) e.line with
      | (fs, some e) => (fs, some (.file e))
      | (fs, none)   => (fs, none)
    else (fs, some .unrecordable) := by
  rw [write]
  cases e.isRecordable <;> rfl

theorem write_of_not_accepts {name : List Char} (h : accepts name = false) (j : Journal) (fs : Files) (e : Event) :
    j.write fs e (some name) = j.write fs e none := by
  rw [write_none, write]
  cases e.isRecordable with
  | false => rfl
  | true =>
    simp only [h, Bool.false_eq_true, if_false]
    rfl

theorem write_eq_none_iff {e : Event} {name : List Char} (h : accepts name = true) :
    j.write fs e (some name) = (fs', none) ↔
      ∃ fs₁, j.write fs e none = (fs₁, none) ∧ append fs₁ (sessionLog j.project name) e.line = (fs', none) := by
  rw [write_none, write]
  cases e.isRecordable with
  | false => simp
  | true =>
    dsimp only [Bool.not_true, Bool.false_eq_true, if_false, if_true]
    generalize append fs (globalLog j.project) e.line = r
    obtain ⟨fs₁, _ | failure⟩ := r
    · simp [h, Prod.ext_iff]
    · simp

theorem write_none_of_writable {e : Event} {t : Place × List UInt8} (hdirs : HasDirs fs j.project logs)
    (hrecordable : e.isRecordable = true) (h : fs.writable (globalLog j.project) = .ok t) :
    ∃ fs', j.write fs e none = (fs', none) := by
  obtain ⟨fs', happend⟩ := append_of_writable hdirs.main h e.line
  rw [write_none, if_pos hrecordable]
  exact ⟨fs', by rw [globalLog, happend]⟩

theorem write_none_eq_or_adds (hdirs : HasDirs fs j.project logs) (e : Event) :
    (j.write fs e none).1 = fs ∨ Adds [globalPlace logs] e.bytes fs (j.write fs e none).1 := by
  rw [write_none]
  split
  · cases happend : append fs (globalLog j.project) e.line with
    | mk fs' failure =>
      cases failure with
      | none => exact .inr (adds_of_append hdirs.main (by decide) happend).2
      | some failure =>
        rw [append, globalLog, Path.parent_child, makeDirs_of_isDir hdirs.main] at happend
        dsimp only at happend
        split at happend <;> cases happend
        exact .inl rfl
  · exact .inl rfl

theorem adds_of_write_none {e : Event} (hdirs : HasDirs fs j.project logs) (h : j.write fs e none = (fs', none)) :
    e.isRecordable = true ∧ Adds [globalPlace logs] e.bytes fs fs' := by
  rw [write_none] at h
  split at h
  · rename_i hrecordable
    split at h
    · cases h
    · rename_i happend
      cases h
      exact ⟨hrecordable, (adds_of_append hdirs.main (by decide) happend).2⟩
  · cases h

theorem adds_of_write_some {e : Event} {name : List Char} (hdirs : HasDirs fs j.project logs)
    (haccepts : accepts name = true) (h : j.write fs e (some name) = (fs', none)) :
    childError? (sessionsDir j.project) (sessionName name) = none ∧ e.isRecordable = true ∧
      Adds [globalPlace logs, sessionPlace logs name] e.bytes fs fs' := by
  obtain ⟨fs₁, hwrite, happend⟩ := (write_eq_none_iff haccepts).1 h
  obtain ⟨hrecordable, hadds⟩ := adds_of_write_none hdirs hwrite
  obtain ⟨hfits, hnext⟩ := adds_of_append (hdirs.of_keeps hadds.keepsDirs).sessions (sessionName_ne_upName name) happend
  refine ⟨hfits, hrecordable, hadds.concat hnext ?_⟩
  rw [List.mem_singleton]
  exact (globalPlace_ne_sessionPlace logs name).symm

/-- **A write that succeeds adds the line of its event to its logs**, and changes nothing else. -/
theorem adds_of_write {w : Entry} (hdirs : HasDirs fs j.project logs) (h : j.write fs w.event w.session = (fs', none)) :
    w.event.isRecordable = true ∧ Adds (w.places logs) w.event.bytes fs fs' := by
  obtain ⟨e, _ | name⟩ := w
  · exact adds_of_write_none hdirs h
  · rw [Entry.places, sessionPlaces]
    cases haccepts : accepts name with
    | true => exact (adds_of_write_some hdirs haccepts h).2
    | false =>
      rw [write_of_not_accepts haccepts] at h
      exact adds_of_write_none hdirs h

/-! ## Runs of writes -/

/-- What journals of one project do, one after another: they are set up, and they write events.  Every write of the run
succeeds; the events are listed in the order in which they are written. -/
inductive Runs (project : Path) (fs : Files) : List Entry → Files → Prop
  | refl : Runs project fs [] fs
  | opened {ws : List Entry} {fs₁ fs₂ : Files} {syncs : Bool} {tailBytes : Option Int} {j : Journal}
      (h : Runs project fs ws fs₁) (hstart : start fs₁ project syncs tailBytes = (fs₂, .ok j)) : Runs project fs ws fs₂
  | written {ws : List Entry} {fs₁ fs₂ : Files} {j : Journal} {w : Entry} (h : Runs project fs ws fs₁)
      (hproject : j.project = project) (hwrite : j.write fs₁ w.event w.session = (fs₂, none)) :
      Runs project fs (ws ++ [w]) fs₂

theorem Runs.write {ws : List Entry} (h : Runs project fs ws fs') (hproject : j.project = project) {w : Entry}
    (hwrite : (j.write fs' w.event w.session).2 = none) :
    Runs project fs (ws ++ [w]) (j.write fs' w.event w.session).1 :=
  h.written hproject (Prod.ext rfl hwrite)

theorem Runs.trans {ws ws' : List Entry} {fs'' : Files} (h : Runs project fs ws fs')
    (hmore : Runs project fs' ws' fs'') :
    Runs project fs (ws ++ ws') fs'' := by
  induction hmore with
  | refl => rwa [List.append_nil]
  | opened _ hstart ih => exact ih.opened hstart
  | written _ hproject hwrite ih =>
    rw [← List.append_assoc]
    exact ih.written hproject hwrite

def eventsAt (logs place : Place) (ws : List Entry) : List Event :=
  (ws.filter fun w => place ∈ w.places logs).map Entry.event

theorem eventsAt_of_forall {ws : List Entry} (h : ∀ w ∈ ws, place ∈ w.places logs) :
    eventsAt logs place ws = ws.map Entry.event := by
  rw [eventsAt, List.filter_eq_self.2 fun w hw => decide_eq_true (h w hw)]

/-- What writes make of a store: each log gets the lines of its events, and nothing else changes. -/
structure Grown (project : Path) (logs : Place) (ws : List Entry) (fs fs' : Files) : Prop where
  isDir : ∀ place, fs'.node? place = some .dir ↔ fs.node? place = some .dir
  contents : ∀ place, fs'.contents place = fs.contents place ++ bytesOf (eventsAt logs place ws)
  recordable : ∀ w ∈ ws, w.event.isRecordable = true
  not_dir : ∀ w ∈ ws, ∀ place ∈ w.places logs, fs.node? place ≠ some .dir
  fits : ∀ w ∈ ws, ∀ name, w.session = some name → accepts name = true →
    childError? (sessionsDir project) (sessionName name) = none

theorem Grown.hasDirs {ws : List Entry} (h : Grown project logs ws fs fs') (hdirs : HasDirs fs project logs) :
    HasDirs fs' project logs := hdirs.of_keeps fun place => (h.isDir place).2

theorem Grown.writable {ws : List Entry} {p : Path} {old : List UInt8} (h : Grown project logs ws fs fs')
    (hwritable : fs.writable p = .ok (place, old)) :
    fs'.writable p = .ok (place, old ++ bytesOf (eventsAt logs place ws)) := by
  obtain ⟨hlocate, hnode, rfl⟩ := writable_eq_ok_iff.1 hwritable
  have hkeeps : KeepsDirs fs fs' := fun q => (h.isDir q).2
  exact writable_eq_ok_iff.2 ⟨locate_of_keeps hkeeps hlocate, fun hdir => hnode ((h.isDir place).1 hdir),
    h.contents place⟩

theorem eventsAt_concat (logs place : Place) (ws : List Entry) (w : Entry) : eventsAt logs place (ws ++ [w]) =
    eventsAt logs place ws ++ if place ∈ w.places logs then [w.event] else [] := by
  rw [eventsAt, List.filter_append, List.map_append, ← eventsAt]
  by_cases h : place ∈ w.places logs <;> simp [h]

theorem Grown.written {ws : List Entry} {fs₂ : Files} {w : Entry} (h : Grown project logs ws fs fs')
    (hdirs : HasDirs fs project logs) (hproject : j.project = project)
    (hwrite : j.write fs' w.event w.session = (fs₂, none)) : Grown project logs (ws ++ [w]) fs fs₂ := by
  subst hproject
  have hdirs' := h.hasDirs hdirs
  obtain ⟨hrecordable, hadds⟩ := adds_of_write hdirs' hwrite
  have hconcat {P : Entry → Prop} (hws : ∀ v ∈ ws, P v) (hw : P w) : ∀ v ∈ ws ++ [w], P v := by
    intro v hv
    rcases List.mem_append.1 hv with hv | hv
    · exact hws v hv
    · exact List.mem_singleton.1 hv ▸ hw
  refine ⟨fun place => (hadds.node_eq_dir_iff place).trans (h.isDir place), fun place => ?_,
    hconcat h.recordable hrecordable, hconcat h.not_dir fun place hplace hdir => ?_,
    hconcat h.fits fun name hname haccepts => ?_⟩
  · rw [hadds.contents place, h.contents place, eventsAt_concat, bytesOf, bytesOf, List.flatMap_append]
    split
    · rw [List.flatMap_singleton, List.append_assoc]
    · rw [List.flatMap_nil, List.append_nil]
  · exact hadds.not_dir place hplace ((h.isDir place).2 hdir)
  · rw [hname] at hwrite
    exact (adds_of_write_some hdirs' haccepts hwrite).1

/-- **A run of writes makes every log grow by the lines of its events**, in the order of the writes. -/
theorem Runs.grown {ws : List Entry} (h : Runs project fs ws fs') (hdirs : HasDirs fs project logs) :
    Grown project logs ws fs fs' := by
  induction h with
  | refl => exact ⟨fun _ => .rfl, fun place => (List.append_nil _).symm, by simp, by simp, by simp⟩
  | opened _ hstart ih =>
    rw [start_of_hasDirs (ih.hasDirs hdirs)] at hstart
    cases hstart
    exact ih
  | written _ hproject hwrite ih => exact ih.written hdirs hproject hwrite

end Abacus.Journal
