import Abacus.Proofs.Console.Alike
import Abacus.Proofs.Journal.Reach
import Abacus.Proofs.Journal.Reading
/-!
# Events in any store

Emitting an event never fails, whatever the store holds: at worst a warning is given.  The journal stays as it is,
no file is touched but the logs that the event goes to, and each of these keeps what it held and gets one whole line
at most (`emit_appends`).  So over any stretch of time in which events are emitted (`Emits`) every file keeps what
it held and gets lines of those events (`Emits.contents`).
-/
namespace Abacus.Desk

open Files Journal

variable {τ : Type} [Instant τ] {d d' : Desk τ} {e : Event} {j : Journal} {ws : List Entry}
  {session : Option (List Char)} {old : List UInt8} {p : Path}

/-! ## One event -/

theorem warn_cases (d : Desk τ) (text : List Char) : (d.warn text).files = d.files ∧ (d.warn text).journal = d.journal ∧
    (d.warn text).out = d.out ∧
    ((d.warn text).err = d.err ∨ (d.warn text).err = d.err ++ "[exprcalc] ".toList ++ text ++ ['\n']) := by
  rw [warn]
  split
  · exact ⟨rfl, rfl, rfl, .inl rfl⟩
  · exact ⟨rfl, rfl, rfl, .inr rfl⟩

theorem emit_cases (h : d.journal = some j) (e : Event) (session : Option (List Char)) :
    (d.emit e session).files = (j.write d.files e.kept session).1 ∧ (d.emit e session).journal = d.journal ∧
    (d.emit e session).out = d.out ∧
    ((d.emit e session).err = d.err ∨ (d.emit e session).err = d.err ++ warningLine) := by
  have hwarning : "[exprcalc] ".toList ++ ("logging failed".toList ++ ['\n']) = warningLine := by decide +kernel
  cases hwrite : j.write d.files e.kept session with
  | mk fs failure =>
    cases failure with
    | none =>
      have hemit : d.emit e session = { d with files := fs } := by
        rw [emit, h, ← Event.kept]
        dsimp only
        rw [hwrite]
      rw [hemit]
      exact ⟨rfl, rfl, rfl, .inl rfl⟩
    | some why =>
      have hemit : d.emit e session = { d with files := fs }.warn "logging failed".toList := by
        rw [emit, h, ← Event.kept]
        dsimp only
        rw [hwrite]
      obtain ⟨hfiles, hjournal, hout, herr⟩ := warn_cases { d with files := fs } "logging failed".toList
      rw [List.append_assoc, List.append_assoc, hwarning] at herr
      rw [hemit]
      exact ⟨hfiles, hjournal, hout, herr⟩

theorem journal_emit (d : Desk τ) (e : Event) (session : Option (List Char)) :
    (d.emit e session).journal = d.journal := by
  cases hjournal : d.journal with
  | none => rw [emit_of_journal hjournal, hjournal]
  | some j => exact (emit_cases hjournal e session).2.1.trans hjournal

theorem emit_extends (d : Desk τ) (e : Event) (session : Option (List Char)) :
    ∃ places, Extends places e.kept.bytes d.files (d.emit e session).files := by
  cases hjournal : d.journal with
  | none =>
    rw [emit_of_journal hjournal]
    exact ⟨[], (MakesDirs.refl _).extends _⟩
  | some j =>
    obtain ⟨places, -, hextends, -⟩ := write_extends j d.files e.kept session
    rw [(emit_cases hjournal e session).1]
    exact ⟨places, hextends⟩

/-! ## Stretches of time -/

/-- From one moment to another these events are emitted; whatever else happens leaves the store and the journal
alone. -/
inductive Emits (d : Desk τ) : List Entry → Desk τ → Prop
  | refl : Emits d [] d
  | emitted {ws : List Entry} {d' : Desk τ} (h : Emits d ws d') (w : Entry) :
      Emits d (ws ++ [w]) (d'.emit w.event w.session)
  | shown {ws : List Entry} {d' d'' : Desk τ} (h : Emits d ws d') (hjournal : d''.journal = d'.journal)
      (hfiles : d''.files = d'.files) : Emits d ws d''

theorem Emits.journal (h : Emits d ws d') : d'.journal = d.journal := by
  induction h with
  | refl => rfl
  | emitted _ w ih => exact (journal_emit _ _ _).trans ih
  | shown _ hjournal _ ih => exact hjournal.trans ih

theorem Emits.keepsDirs (h : Emits d ws d') : KeepsDirs d.files d'.files := by
  induction h with
  | refl => exact fun _ hdir => hdir
  | @emitted ws d' _ w ih =>
    obtain ⟨places, hextends⟩ := emit_extends d' w.event w.session
    exact fun place hdir => hextends.keepsDirs place (ih place hdir)
  | shown _ _ hfiles ih =>
    rw [hfiles]
    exact ih

theorem sublist_concat {es : List Event} {w : Entry} (h : es.Sublist (ws.map fun w => w.event.kept)) :
    es.Sublist ((ws ++ [w]).map fun w => w.event.kept) ∧
      (es ++ [w.event.kept]).Sublist ((ws ++ [w]).map fun w => w.event.kept) := by
  rw [List.map_append, List.map_singleton]
  exact ⟨h.trans (List.sublist_append_left _ _), h.append (.refl _)⟩

/-- **Every file keeps what it held and gets lines of the events that are emitted**, in their order. -/
theorem Emits.contents (h : Emits d ws d') (place : Place) : ∃ es, es.Sublist (ws.map fun w => w.event.kept) ∧
    d'.files.contents place = d.files.contents place ++ bytesOf es := by
  induction h with
  | refl => exact ⟨[], List.nil_sublist _, (List.append_nil _).symm⟩
  | @emitted ws d' _ w ih =>
    obtain ⟨es, hes, hcontents⟩ := ih
    obtain ⟨places, hextends⟩ := emit_extends d' w.event w.session
    obtain ⟨hskipped, hadded⟩ := sublist_concat (w := w) hes
    rw [hextends.contents place, hcontents]
    split
    · exact ⟨_, hadded, by rw [bytesOf_concat, List.append_assoc]⟩
    · exact ⟨_, hskipped, List.append_nil _⟩
  | shown _ _ hfiles ih =>
    rw [hfiles]
    exact ih

theorem Emits.read (h : Emits d ws d') (hread : d.files.read p = .ok old) :
    ∃ es, es.Sublist (ws.map fun w => w.event.kept) ∧ d'.files.read p = .ok (old ++ bytesOf es) := by
  induction h with
  | refl => exact ⟨[], List.nil_sublist _, by rw [hread]; simp [bytesOf]⟩
  | @emitted ws d' _ w ih =>
    obtain ⟨es, hes, hread'⟩ := ih
    obtain ⟨places, hextends⟩ := emit_extends d' w.event w.session
    obtain ⟨hskipped, hadded⟩ := sublist_concat (w := w) hes
    obtain ⟨more, rfl | rfl, hmore⟩ := hextends.read hread'
    · exact ⟨_, hskipped, by rw [hmore, List.append_nil]⟩
    · exact ⟨_, hadded, by rw [hmore, bytesOf_concat, List.append_assoc]⟩
  | shown _ _ hfiles ih =>
    rw [hfiles]
    exact ih

theorem writable_emit {logs place : Place} (hjournal : d.journal = some j) (hdirs : HasDirs d.files j.project logs)
    (hglobal : d.files.writable (globalLog j.project) = .ok (place, old)) (e : Event) (session : Option (List Char)) :
    (d.emit e session).files.writable (globalLog j.project) =
      .ok (place, old ++ if e.kept.isRecordable then e.kept.bytes else []) := by
  rw [(emit_cases hjournal e session).1]
  exact writable_write hdirs hglobal e.kept session

theorem Emits.writable {logs place : Place} (h : Emits d ws d') (hjournal : d.journal = some j)
    (hdirs : HasDirs d.files j.project logs) (hglobal : d.files.writable (globalLog j.project) = .ok (place, old)) :
    ∃ es, es.Sublist (ws.map fun w => w.event.kept) ∧
      d'.files.writable (globalLog j.project) = .ok (place, old ++ bytesOf es) := by
  induction h with
  | refl => exact ⟨[], List.nil_sublist _, by rw [hglobal]; simp [bytesOf]⟩
  | @emitted ws d' h w ih =>
    obtain ⟨es, hes, hwritable⟩ := ih
    obtain ⟨hskipped, hadded⟩ := sublist_concat (w := w) hes
    rw [writable_emit (h.journal.trans hjournal) (hdirs.of_keeps h.keepsDirs) hwritable]
    split
    · exact ⟨_, hadded, by rw [bytesOf_concat, List.append_assoc]⟩
    · exact ⟨_, hskipped, by rw [List.append_nil]⟩
  | shown _ _ hfiles ih =>
    rw [hfiles]
    exact ih

/-- **Emitting is safe, only appends and touches no file but its logs.**  Whatever the store holds, the journal
stays as it is, nothing is printed, and at worst a warning is given.  Without a journal no file changes.  With one,
the line of the event, as it is kept, is added to neither log, to the log of all events, or to that and the log of
the session, and other than that at most directories are made.  The line ends in its only newline and reads as the
event, whose context alone is cut, and which is a warning that names the missing keys exactly if required keys are
absent.  And from any moment on, whatever is emitted, every file that could be read goes on with what was read. -/
theorem emit_appends (d : Desk τ) (session : Option (List Char)) (hkeys : e.hasUniqueKeys = true) :
    (d.emit e session).journal = d.journal ∧ (d.emit e session).out = d.out ∧
    ((d.emit e session).err = d.err ∨ (d.emit e session).err = d.err ++ warningLine) ∧
    (d.journal = none → (d.emit e session).files = d.files) ∧
    (∀ j, d.journal = some j → ∃ places, Logged j.project session (d.emit e session).files places ∧
      Extends places e.kept.bytes d.files (d.emit e session).files ∧
      (places ≠ [] → valuesIn e.kept.bytes = .ok [e.kept.recorded])) ∧
    (∃ body, e.kept.bytes = body ++ [10] ∧ 10 ∉ body) ∧
    e.IsKeptAs e.kept ∧ Json.Same e.kept.toJson e.kept.recorded ∧
    ∀ ws d', Emits d ws d' → ∀ p old, d.files.read p = .ok old →
      ∃ es, es.Sublist (ws.map fun w => w.event.kept) ∧ d'.files.read p = .ok (old ++ bytesOf es) := by
  have hkept := Event.hasUniqueKeys_kept hkeys
  have hshown : (d.emit e session).out = d.out ∧
      ((d.emit e session).err = d.err ∨ (d.emit e session).err = d.err ++ warningLine) := by
    cases hjournal : d.journal with
    | none =>
      rw [emit_of_journal hjournal]
      exact ⟨rfl, .inl rfl⟩
    | some j => exact (emit_cases hjournal e session).2.2
  refine ⟨journal_emit d e session, hshown.1, hshown.2, fun hnone => ?_, fun j hjournal => ?_,
    ⟨_, e.kept.bytes_eq, e.kept.newline_not_mem_body⟩, e.isKeptAs_kept, Event.same_recorded hkept,
    fun ws d' h p old hread => h.read hread⟩
  · rw [emit_of_journal hnone]
  · obtain ⟨places, hlogged, hextends, hrecordable, -⟩ := write_extends j d.files e.kept session
    rw [(emit_cases hjournal e session).1]
    refine ⟨places, hlogged, hextends, fun hne => ?_⟩
    have hline : ∀ k ∈ [e.kept], k.hasUniqueKeys = true ∧ k.isRecordable = true :=
      List.forall_mem_singleton.2 ⟨hkept, hrecordable hne⟩
    have hvalues := valuesIn_bytesOf hline
    rwa [bytesOf, List.flatMap_singleton] at hvalues

/-! A desk where a directory is in the way of a session's log, and a warning that does not say what it is about. -/

def blockedDesk : Desk Rat where
  files := sampleFiles.set [['p'], "logs".toList, "sessions".toList, "a.ndjson".toList] .dir
  journal := some (sampleJournal defaultTailBytes)
  lastWarned := none
  now := 0
  stamp := "2026-01-01T00:00:00.000000Z".toList
  sessions := 0
  out := []
  err := []

def unclearWarning : Event :=
  sampleEvent .resultWarning "large".toList [("expression".toList, .str (List.replicate 300 'x'))]

theorem emit_appends_blockedSession : unclearWarning.hasUniqueKeys = true ∧
    (∃ places,
      Logged sampleProject (some ['a']) (blockedDesk.emit unclearWarning (some ['a'])).files places ∧
      Extends places unclearWarning.kept.bytes blockedDesk.files
        (blockedDesk.emit unclearWarning (some ['a'])).files) ∧
    unclearWarning.kept.level = .warning ∧
    ∀ ws d', Emits blockedDesk ws d' →
      d'.files.node? [['p'], "logs".toList, "sessions".toList, "a.ndjson".toList] = some .dir := by
  have hkeys : unclearWarning.hasUniqueKeys = true := by decide
  obtain ⟨-, -, -, -, hlogs, -, hkept, -, -⟩ := emit_appends blockedDesk (some ['a']) hkeys
  obtain ⟨places, hlogged, hextends, -⟩ := hlogs _ rfl
  refine ⟨hkeys, ⟨places, hlogged, hextends⟩, ?_, fun ws d' h => ?_⟩
  · obtain ⟨hall, -⟩ | ⟨absent, -, -, -, hlevel, -⟩ := hkept.attributed
    · exact absurd (hall "status".toList List.mem_cons_self) (by decide)
    · exact hlevel
  · exact h.keepsDirs _ rfl

end Abacus.Desk
