import Abacus.Proofs.Journal.Run
import Abacus.Proofs.Journal.Window
/-!
# Reading what has been written

A log that was absent or empty holds, after a run of writes, the lines of the events that went to it.  So the log of all
events reads as the events in the order in which they were written, the newest of them if they are more than the window
takes, and the log of a session as the events that were written for it.
-/
namespace Abacus.Journal

open Files

variable {fs fs' : Files} {project : Path} {logs place : Place} {j : Journal} {ws : List Entry}

/-! ## Logs that can be read -/

theorem exists?_of_locate {log : Path} (h : fs.locate log = .ok place) :
    fs.exists? log = .ok (fs.node? place).isSome := by
  rw [exists?, stat, h]
  cases hnode : fs.node? place <;> simp [hnode]

theorem readLog_of_locate {log : Path} (hlocate : fs.locate log = .ok place) (hnode : fs.node? place ≠ some .dir)
    (hwindow : 0 ≤ j.tailBytes) : j.readLog fs log = valuesIn (tail j.tailBytes.toNat (fs.contents place)) := by
  rw [readLog, exists?_of_locate hlocate]
  cases hplace : fs.node? place with
  | none =>
    rw [contents, hplace, tail_of_le (Nat.zero_le _), valuesIn_nil]
    rfl
  | some n =>
    cases n with
    | dir => exact absurd hplace hnode
    | file bytes =>
      have hread : fs.read log = .ok bytes := by
        rw [Files.read, stat, hlocate]
        simp [hplace]
      have hcontents : fs.contents place = bytes := by rw [contents, hplace]
      dsimp only [Option.isSome]
      rw [if_neg (by omega), hread, hcontents]
      rfl

theorem size_of_locate {log : Path} (h : fs.locate log = .ok place) : fs.size log = (fs.contents place).length := by
  rw [size, Files.read, stat, h, contents]
  dsimp only
  cases fs.node? place with
  | none => rfl
  | some n => cases n <;> rfl

/-- The log is not there, or holds nothing. -/
def IsBlankLog (fs : Files) (log : Path) : Prop := fs.exists? log = .ok false ∨ fs.read log = .ok []

theorem childError?_eq {dir : Path} {name : List Char} (hroot : name ≠ Path.rootName) (hnull : Char.ofNat 0 ∉ name)
    (h : textError? dir.text = none) : childError? dir name =
      if byteLength (dir.child name).text ≤ maxPathBytes ∧ byteLength name ≤ maxNameBytes then none
      else some .tooLong := by
  rw [childError?, textError?_child hroot hnull h]
  grind

theorem locate_of_isBlankLog {dir : Path} {d : Place} {name : List Char} (hdir : fs.IsDir dir d)
    (hup : name ≠ Path.upName) (hroot : name ≠ Path.rootName) (hnull : Char.ofNat 0 ∉ name)
    (h : IsBlankLog fs (dir.child name)) :
    childError? dir name = none ∧ fs.locate (dir.child name) = .ok (d ++ [name]) ∧
      fs.node? (d ++ [name]) ≠ some .dir ∧ fs.contents (d ++ [name]) = [] := by
  have hlocate := hdir.locate_child hup
  have herror := childError?_eq hroot hnull (locate_eq_ok_iff.1 hdir.locate).1
  cases hchild : childError? dir name with
  | some e =>
    rw [hchild] at hlocate herror
    have htoo : e = .tooLong := by split at herror <;> simp_all
    subst htoo
    rcases h with h | h
    · simp [exists?, stat, hlocate] at h
    · simp [Files.read, stat, hlocate] at h
  | none =>
    rw [hchild] at hlocate
    refine ⟨rfl, hlocate, ?_⟩
    rcases h with h | h
    · rw [exists?_of_locate hlocate, Except.ok.injEq, Option.isSome_eq_false_iff, Option.isNone_iff_eq_none] at h
      simp [contents, h]
    · rw [Files.read, stat, hlocate] at h
      cases hnode : fs.node? (d ++ [name]) with
      | none => simp [hnode] at h
      | some n => cases n <;> simp_all [contents]

theorem Grown.readLog {dir : Path} {d : Place} {name : List Char} (h : Grown project logs ws fs fs')
    (hdir : fs.IsDir dir d) (hup : name ≠ Path.upName) (hroot : name ≠ Path.rootName) (hnull : Char.ofNat 0 ∉ name)
    (hblank : IsBlankLog fs (dir.child name)) (hwindow : 0 ≤ j.tailBytes) : j.readLog fs' (dir.child name) =
      valuesIn (tail j.tailBytes.toNat (bytesOf (eventsAt logs (d ++ [name]) ws))) := by
  obtain ⟨-, hlocate, hnode, hcontents⟩ := locate_of_isBlankLog hdir hup hroot hnull hblank
  have hgrown := h.contents (d ++ [name])
  have hnode' : fs'.node? (d ++ [name]) ≠ some .dir := fun hdir => hnode ((h.isDir _).1 hdir)
  rw [readLog_of_locate (locate_of_keeps (fun q => (h.isDir q).2) hlocate) hnode' hwindow, hgrown, hcontents,
    List.nil_append]

theorem Grown.valuesIn (h : Grown project logs ws fs fs') (hkeys : ∀ w ∈ ws, w.event.hasUniqueKeys = true)
    {es : List Event} (hes : es ⊆ ws.map Entry.event) : valuesIn (bytesOf es) = .ok (es.map Event.recorded) := by
  refine valuesIn_bytesOf fun e he => ?_
  obtain ⟨w, hw, rfl⟩ := List.mem_map.1 (hes he)
  exact ⟨hkeys w hw, h.recordable w hw⟩

/-! ## The log of all events -/

theorem null_not_mem_globalName : Char.ofNat 0 ∉ globalName := by decide

theorem eventsAt_globalPlace (logs : Place) (ws : List Entry) :
    eventsAt logs (globalPlace logs) ws = ws.map Entry.event := by
  rw [eventsAt, List.filter_eq_self.2]
  simp [Entry.places]

/-- The events that a window keeps: all if their lines fit, otherwise the newest with fewer bytes than it. -/
def windowed (window : Nat) (es : List Event) : List Event :=
  if (bytesOf es).length ≤ window then es else newest window es

theorem windowed_suffix (window : Nat) (es : List Event) : windowed window es <:+ es := by
  rw [windowed]
  split
  · exact List.suffix_rfl
  · exact newest_suffix window es

theorem tail_eq_windowed (window : Nat) (es : List Event) :
    tail window (bytesOf es) = bytesOf (windowed window es) := by
  rw [windowed]
  split
  · exact tail_of_le ‹_›
  · exact tail_bytesOf (by omega)

theorem Grown.readLog_global (h : Grown project logs ws fs fs') (hdirs : HasDirs fs project logs)
    (hblank : IsBlankLog fs (globalLog project)) (hkeys : ∀ w ∈ ws, w.event.hasUniqueKeys = true)
    (hwindow : 0 ≤ j.tailBytes) : j.readLog fs' (globalLog project) =
      .ok ((windowed j.tailBytes.toNat (ws.map Entry.event)).map Event.recorded) := by
  have hread := h.readLog hdirs.main (by decide) (by decide) null_not_mem_globalName hblank hwindow
  rw [← globalPlace, eventsAt_globalPlace, tail_eq_windowed, h.valuesIn hkeys (windowed_suffix _ _).subset] at hread
  exact hread

theorem Grown.size_global (h : Grown project logs ws fs fs') (hdirs : HasDirs fs project logs)
    (hblank : IsBlankLog fs (globalLog project)) :
    fs'.size (globalLog project) = (bytesOf (ws.map Entry.event)).length := by
  obtain ⟨-, hlocate, -, hcontents⟩ :=
    locate_of_isBlankLog hdirs.main (by decide) (by decide) null_not_mem_globalName hblank
  have hgrown := h.contents (globalPlace logs)
  rw [globalPlace, hcontents, List.nil_append, ← globalPlace, eventsAt_globalPlace] at hgrown
  have hsize := size_of_locate (locate_of_keeps (fun q => (h.isDir q).2) hlocate)
  rw [← globalPlace, hgrown] at hsize
  exact hsize

theorem readGlobal_of_readLog {vs : List Json} (h : j.readLog fs (globalLog j.project) = .ok vs) (k : Nat) :
    j.readGlobal fs none none k = .ok (vs.reverse.take (min k 2000)) := by
  have hmin : min (k : Int) maxEvents = (min k 2000 : Nat) := by
    rw [maxEvents]
    omega
  rw [readGlobal, h]
  simp only [filterBy, bind, Except.bind, takeLimit, hmin, Int.natCast_nonneg, if_true, Int.toNat_natCast]

/-- **Reading back loses nothing but what the window cuts off.**  The log of all events was absent when a journal of the
project had been set up, and journals wrote events, each of which succeeded.  Then any journal reads the latest of an
end of these events, each as it was written: of all of them if their lines fit the window, and otherwise of the longest
end with fewer bytes than the window.  And an event that can be recorded can be written next. -/
theorem readGlobal_of_runs {fs₀ : Files} {syncs : Bool} {tailBytes : Option Int} {j₀ : Journal}
    (hstart : start fs₀ project syncs tailBytes = (fs, .ok j₀)) (habsent : fs.exists? (globalLog project) = .ok false)
    (hruns : Runs project fs ws fs') (hkeys : ∀ w ∈ ws, w.event.hasUniqueKeys = true) (hproject : j.project = project)
    (hwindow : 1 ≤ j.tailBytes) (k : Nat) :
    (∃ kept, kept <:+ ws.map Entry.event ∧
      ((bytesOf (ws.map Entry.event)).length ≤ j.tailBytes → kept = ws.map Entry.event) ∧
      (j.tailBytes < (bytesOf (ws.map Entry.event)).length → (bytesOf kept).length < j.tailBytes ∧
        ∀ es, es <:+ ws.map Entry.event → (bytesOf es).length < j.tailBytes → es <:+ kept) ∧
      j.readGlobal fs' none none k = .ok ((kept.reverse.take (min k 2000)).map Event.recorded)) ∧
    (∀ e ∈ ws.map Entry.event, Json.Same e.toJson e.recorded) ∧
    ∀ e : Event, e.isRecordable = true → ∃ fs'', j.write fs' e none = (fs'', none) := by
  obtain ⟨logs, hdirs⟩ := hasDirs_of_start hstart
  have hgrown := hruns.grown hdirs
  have hblank : IsBlankLog fs (globalLog project) := .inl habsent
  refine ⟨⟨windowed j.tailBytes.toNat (ws.map Entry.event), windowed_suffix _ _, fun hle => ?_,
    fun hlt => ⟨?_, ?_⟩, ?_⟩, ?_, fun e he => ?_⟩
  · exact if_pos (by omega)
  · have hlength := length_newest_lt (by omega : 0 < j.tailBytes.toNat) (ws.map Entry.event)
    rw [windowed, if_neg (by omega)]
    omega
  · intro es hes hlength
    rw [windowed, if_neg (by omega)]
    exact suffix_newest hes (by omega)
  · have hread := hgrown.readLog_global (j := j) hdirs hblank hkeys (by omega)
    rw [← hproject] at hread
    rw [readGlobal_of_readLog hread, List.map_take, List.map_reverse]
  · rintro e he
    obtain ⟨w, hw, rfl⟩ := List.mem_map.1 he
    exact Event.same_recorded (hkeys w hw)
  · subst hproject
    obtain ⟨-, hlocate, hnode, -⟩ :=
      locate_of_isBlankLog hdirs.main (by decide) (by decide) null_not_mem_globalName hblank
    have hwritable := writable_eq_ok_iff.2 ⟨locate_of_keeps (fun q => (hgrown.isDir q).2) hlocate,
      fun hdir => hnode ((hgrown.isDir _).1 hdir), rfl⟩
    exact write_none_of_writable (hgrown.hasDirs hdirs) he hwritable

/-! Two journals of a project write three events; a window of 400 bytes takes the last two. -/

def sampleProject : Path := ⟨["p".toList]⟩

def sampleJournal (tailBytes : Int) : Journal := ⟨sampleProject, false, tailBytes⟩

def sampleFiles : Files := (start Files.empty sampleProject false none).1

def sampleEvent (kind : EventKind) (message : List Char) (context : Fields) : Event :=
  ⟨Event.currentVersion, "2026-01-01T00:00:00.000000Z".toList, .info, kind, context, message, none⟩

def firstSample : Event := sampleEvent .sessionStarted "é\u2028".toList []

def secondSample : Event := sampleEvent .evalCompleted [] []

def thirdSample : Event := sampleEvent .sessionEnded "\"".toList [("n".toList, .arr [.null, .int (-1)])]

def sampleEntries : List Entry := [⟨firstSample, some "a".toList⟩, ⟨secondSample, none⟩, ⟨thirdSample, some "b".toList⟩]

theorem start_sampleProject :
    start Files.empty sampleProject false none = (sampleFiles, .ok (sampleJournal defaultTailBytes)) := rfl

theorem hasDirs_sampleFiles : HasDirs sampleFiles sampleProject [['p'], "logs".toList] := ⟨⟨rfl, rfl⟩, ⟨rfl, rfl⟩⟩

theorem runs_sampleEntries : ∃ fs, Runs sampleProject sampleFiles sampleEntries fs := by
  have hnone : Runs sampleProject sampleFiles [] sampleFiles := .refl
  have hfirst := hnone.write (j := sampleJournal 1) rfl
    (w := ⟨firstSample, some "a".toList⟩) (by decide +kernel)
  have hsecond := hfirst.write (j := sampleJournal 2) rfl (w := ⟨secondSample, none⟩) (by decide +kernel)
  exact ⟨_, hsecond.write (j := sampleJournal 1) rfl (w := ⟨thirdSample, some "b".toList⟩) (by decide +kernel)⟩

theorem length_bytes_samples :
    firstSample.bytes.length = 171 ∧ secondSample.bytes.length = 158 ∧ thirdSample.bytes.length = 174 := by
  rw [Event.bytes_eq_encode_recorded, Event.bytes_eq_encode_recorded, Event.bytes_eq_encode_recorded, Event.recorded_eq,
    Event.recorded_eq, Event.recorded_eq]
  decide +kernel

theorem length_bytesOf_samples : (bytesOf [firstSample, secondSample, thirdSample]).length = 503 := by
  obtain ⟨hfirst, hsecond, hthird⟩ := length_bytes_samples
  simp only [bytesOf, List.flatMap_cons, List.flatMap_nil, List.length_append, List.length_nil, hfirst, hsecond, hthird]

theorem readGlobal_of_runs_sampleEntries : ∃ fs, Runs sampleProject sampleFiles sampleEntries fs ∧
    (sampleJournal 400).readGlobal fs none none 7 = .ok [thirdSample.recorded, secondSample.recorded] := by
  obtain ⟨fs, hruns⟩ := runs_sampleEntries
  obtain ⟨⟨kept, hsuffix, -, hlt, hread⟩, -⟩ :=
    readGlobal_of_runs (j := sampleJournal 400) start_sampleProject rfl hruns (by decide) rfl (by decide) 7
  have hall := length_bytesOf_samples
  have hlast : (bytesOf [secondSample, thirdSample]).length = 332 := by simp [bytesOf, length_bytes_samples]
  have hlt' : (sampleJournal 400).tailBytes < (bytesOf (sampleEntries.map Entry.event)).length := by
    change (400 : Int) < (bytesOf [firstSample, secondSample, thirdSample]).length
    omega
  obtain ⟨hkept, hlongest⟩ := hlt hlt'
  have hend : [secondSample, thirdSample] <:+ kept := by
    refine hlongest _ (List.suffix_cons firstSample _) ?_
    change ((bytesOf [secondSample, thirdSample]).length : Int) < 400
    omega
  rcases List.suffix_cons_iff.1 hsuffix with rfl | hsuffix'
  · change ((bytesOf [firstSample, secondSample, thirdSample]).length : Int) < 400 at hkept
    omega
  · obtain rfl : kept = [secondSample, thirdSample] := hsuffix'.eq_of_length_le hend.length_le
    exact ⟨fs, hruns, hread⟩

/-! ## The logs of sessions -/

def sessionEvents (session : List Char) (ws : List Entry) : List Event :=
  (ws.filter fun w => w.session = some session).map Entry.event

/-- Whether the system can have the log of a session: neither its name nor its path is too long. -/
def isWithinLimits (project : Path) (session : List Char) : Bool :=
  byteLength (sessionLog project session).text ≤ maxPathBytes && byteLength (sessionName session) ≤ maxNameBytes

variable {q : List Char}

theorem null_not_mem_sessionName (h : accepts q = true) : Char.ofNat 0 ∉ sessionName q := by
  have hend : Char.ofNat 0 ∉ ".ndjson".toList := by decide
  rw [sessionName, List.mem_append, or_iff_left hend]
  intro hmem
  rw [accepts] at h
  simp only [Bool.and_eq_true, List.all_eq_true] at h
  have hname : isNameChar (Char.ofNat 0) = true := by
    split at h
    · rename_i hlast
      exact h.2 _ (List.mem_dropLast_of_mem_of_ne_getLast? hmem (by rw [hlast]; decide))
    · exact h.2 _ hmem
  exact absurd hname (by decide)

theorem childError?_session (h : accepts q = true) (htext : textError? (sessionsDir project).text = none) :
    childError? (sessionsDir project) (sessionName q) = if isWithinLimits project q then none else some .tooLong := by
  rw [childError?_eq (sessionName_ne_rootName q) (null_not_mem_sessionName h) htext, isWithinLimits, ← Bool.decide_and]
  simp only [decide_eq_true_eq]
  rfl

theorem eventsAt_sessionPlace (h : accepts q = true) (logs : Place) (ws : List Entry) :
    eventsAt logs (sessionPlace logs q) ws = sessionEvents q ws := by
  rw [eventsAt, sessionEvents]
  refine congrArg _ (List.filter_congr fun w _ => ?_)
  rw [decide_eq_decide, mem_places_sessionPlace, and_iff_left h]

theorem length_sessionEvents_le (q : List Char) (ws : List Entry) :
    (bytesOf (sessionEvents q ws)).length ≤ (bytesOf (ws.map Entry.event)).length := by
  have hsublist : (sessionEvents q ws).Sublist (ws.map Entry.event) := (List.filter_sublist).map _
  exact (hsublist.flatMap _).length_le

theorem Grown.readSession (h : Grown project logs ws fs fs') (hdirs : HasDirs fs project logs)
    (hproject : j.project = project) (haccepts : accepts q = true) (hblank : IsBlankLog fs (sessionLog project q))
    (hkeys : ∀ w ∈ ws, w.event.hasUniqueKeys = true)
    (hsize : (bytesOf (ws.map Entry.event)).length ≤ j.tailBytes) :
    j.readSession fs' q = .ok ((sessionEvents q ws).map Event.recorded) := by
  have hlength := length_sessionEvents_le q ws
  have hmem : sessionEvents q ws ⊆ ws.map Entry.event := (List.filter_sublist.map Entry.event).subset
  have hread := h.readLog (j := j) hdirs.sessions (sessionName_ne_upName q) (sessionName_ne_rootName q)
    (null_not_mem_sessionName haccepts) hblank (by omega)
  rw [← sessionPlace, eventsAt_sessionPlace haccepts, tail_of_le (by omega), h.valuesIn hkeys hmem] at hread
  rw [Journal.readSession, if_pos haccepts, hproject]
  exact hread

theorem Grown.readSession_of_not_fits (h : Grown project logs ws fs fs') (hdirs : HasDirs fs project logs)
    (hproject : j.project = project) (haccepts : accepts q = true) (hfits : isWithinLimits project q = false) :
    j.readSession fs' q = .error (.file .tooLong) ∧ ∀ w ∈ ws, w.session ≠ some q := by
  have hchild := childError?_session haccepts (locate_eq_ok_iff.1 hdirs.sessions.locate).1
  rw [hfits, if_neg Bool.false_ne_true] at hchild
  constructor
  · have hlocate := (h.hasDirs hdirs).sessions.locate_child (sessionName_ne_upName q)
    rw [hchild] at hlocate
    have hexists : fs'.exists? (sessionLog project q) = .error .tooLong := by
      rw [exists?, stat, sessionLog, ← sessionName, hlocate]
    rw [Journal.readSession, if_pos haccepts, hproject, Journal.readLog, hexists]
  · intro w hw hsession
    have hnone := h.fits w hw q hsession haccepts
    rw [hchild] at hnone
    cases hnone

/-- **The log of a session is the part of the log of all events that was written for it**, however the writes of
several journals follow each other, as long as the reader's window takes the log of all events.  A session whose log the
system cannot have is never written for, and reading it fails.  One that is not accepted reads as empty, and a write for
it changes the log of no session. -/
theorem readSession_of_runs {fs₀ : Files} {syncs : Bool} {tailBytes : Option Int} {j₀ : Journal}
    (hstart : start fs₀ project syncs tailBytes = (fs, .ok j₀)) (hglobal : IsBlankLog fs (globalLog project))
    (hsessions : ∀ q, accepts q = true → isWithinLimits project q = true → IsBlankLog fs (sessionLog project q))
    (hruns : Runs project fs ws fs') (hkeys : ∀ w ∈ ws, w.event.hasUniqueKeys = true) (hproject : j.project = project)
    (hsize : fs'.size (globalLog project) ≤ j.tailBytes) :
    (∀ q, accepts q = true → isWithinLimits project q = true →
      j.readSession fs' q = .ok ((sessionEvents q ws).map Event.recorded)) ∧
    (∀ q, accepts q = true → isWithinLimits project q = false →
      j.readSession fs' q = .error (.file .tooLong) ∧ ∀ w ∈ ws, w.session ≠ some q) ∧
    (∀ q, accepts q = false → j.readSession fs' q = .ok [] ∧
      ∀ vs fs₁ (j₁ : Journal) e r, Runs project fs vs fs₁ → j₁.project = project →
        (j₁.write fs₁ e (some q)).1.read (sessionLog project r) = fs₁.read (sessionLog project r)) ∧
    j.readLog fs' (globalLog project) = .ok ((ws.map Entry.event).map Event.recorded) ∧
    ∀ q, (sessionEvents q ws).Sublist (ws.map Entry.event) := by
  obtain ⟨logs, hdirs⟩ := hasDirs_of_start hstart
  have hgrown := hruns.grown hdirs
  have hlength : (bytesOf (ws.map Entry.event)).length ≤ j.tailBytes := by rwa [← hgrown.size_global hdirs hglobal]
  refine ⟨fun q haccepts hfits => ?_, fun q haccepts hfits => ?_, fun q hrefused => ⟨?_, ?_⟩, ?_, fun q => ?_⟩
  · exact hgrown.readSession hdirs hproject haccepts (hsessions q haccepts hfits) hkeys hlength
  · exact hgrown.readSession_of_not_fits hdirs hproject haccepts hfits
  · rw [Journal.readSession, hrefused]
    rfl
  · rintro vs fs₁ j₁ e r hvs rfl
    have hdirs₁ := (hvs.grown hdirs).hasDirs hdirs
    rw [write_of_not_accepts hrefused]
    rcases write_none_eq_or_adds hdirs₁ e with heq | hadds
    · rw [heq]
    · refine hadds.read_child hdirs₁.sessions (sessionName_ne_upName r) ?_
      rw [List.mem_singleton]
      exact (globalPlace_ne_sessionPlace logs r).symm
  · have hread := hgrown.readLog_global (j := j) hdirs hglobal hkeys (by omega)
    rw [windowed, if_pos (by omega)] at hread
    exact hread
  · exact List.filter_sublist.map _

theorem isBlankLog_sampleFiles (hfits : isWithinLimits sampleProject q = true) (haccepts : accepts q = true) :
    IsBlankLog sampleFiles (sessionLog sampleProject q) := by
  have hdir := hasDirs_sampleFiles.sessions
  have hchild := childError?_session haccepts (locate_eq_ok_iff.1 hdir.locate).1
  have hlocate := hdir.locate_child (sessionName_ne_upName q)
  rw [hchild, if_pos hfits] at hlocate
  have hnode : sampleFiles.node? ([['p'], "logs".toList] ++ ["sessions".toList] ++ [sessionName q]) = none := by
    rw [node?, isRoot_concat _ (sessionName_ne_upName q)]
    rfl
  have hexists := exists?_of_locate hlocate
  rw [hnode] at hexists
  exact .inl hexists

theorem readSession_of_runs_sampleEntries : ∃ fs, Runs sampleProject sampleFiles sampleEntries fs ∧
    (sampleJournal 1000).readSession fs "a".toList = .ok [firstSample.recorded] ∧
    (sampleJournal 1000).readSession fs "b".toList = .ok [thirdSample.recorded] ∧
    (sampleJournal 1000).readSession fs "../a".toList = .ok [] ∧
    (sampleJournal 1000).readLog fs (globalLog sampleProject) =
      .ok [firstSample.recorded, secondSample.recorded, thirdSample.recorded] := by
  obtain ⟨fs, hruns⟩ := runs_sampleEntries
  have hsize : fs.size (globalLog sampleProject) ≤ (sampleJournal 1000).tailBytes := by
    rw [(hruns.grown hasDirs_sampleFiles).size_global hasDirs_sampleFiles (.inl rfl)]
    change ((bytesOf [firstSample, secondSample, thirdSample]).length : Int) ≤ 1000
    rw [length_bytesOf_samples]
    decide
  obtain ⟨haccepted, -, hrefused, hglobal, -⟩ := readSession_of_runs (j := sampleJournal 1000) start_sampleProject
    (.inl rfl) (fun q haccepts hfits => isBlankLog_sampleFiles hfits haccepts) hruns (by decide) rfl hsize
  exact ⟨fs, hruns, haccepted _ (by decide) (by decide), haccepted _ (by decide) (by decide),
    (hrefused _ (by decide)).1, hglobal⟩

/-- A session may be accepted although its name is too long for a log: reading fails where nothing has been written. -/
theorem readSession_longName : accepts (List.replicate 300 's') = true ∧
    Runs sampleProject sampleFiles [] sampleFiles ∧
    (sampleJournal defaultTailBytes).readSession sampleFiles (List.replicate 300 's') ≠
      .ok ((sessionEvents (List.replicate 300 's') []).map Event.recorded) := by
  have hrefl : Runs sampleProject sampleFiles [] sampleFiles := .refl
  have haccepts : accepts (List.replicate 300 's') = true := by decide +kernel
  have hread := ((hrefl.grown hasDirs_sampleFiles).readSession_of_not_fits (j := sampleJournal defaultTailBytes)
    hasDirs_sampleFiles rfl haccepts (by decide +kernel)).1
  refine ⟨haccepts, hrefl, fun heq => ?_⟩
  rw [hread] at heq
  cases heq

end Abacus.Journal
