import Abacus.Desk
import Abacus.Proofs.Decimal.ReadBack
import Abacus.Proofs.Journal.Kept
import Abacus.Proofs.Journal.Run
/-!
# Recording at the desk

A desk whose logs can be appended to (`IsRecording`) records every event that can be recorded, in the log of all
events and in that of the session, and stays so.  What it records from one moment to another is a list of events
(`Records`), and the events of one stretch of time come before those of the next (`Records.trans`).
-/
namespace Abacus.Desk

open Files Journal

variable {τ : Type} {j : Journal} {session : List Char} {d d' d'' : Desk τ} {es es' : List Event}

/-- The logs that events of the session go to can be appended to. -/
structure IsRecording (j : Journal) (session : List Char) (d : Desk τ) : Prop where
  journal : d.journal = some j
  hasDirs : ∃ logs, HasDirs d.files j.project logs
  accepts : accepts session = true
  globalLog : ∃ t, d.files.writable (globalLog j.project) = .ok t
  sessionLog : ∃ t, d.files.writable (sessionLog j.project session) = .ok t

/-- Between two moments, the desk records these events in the log of all events and in that of the session. -/
structure Records (j : Journal) (session : List Char) (d d' : Desk τ) (es : List Event) : Prop where
  journal : d'.journal = d.journal
  runs : Runs j.project d.files (es.map fun e => ⟨e, some session⟩) d'.files

theorem Records.of_eq (hjournal : d'.journal = d.journal) (hfiles : d'.files = d.files) : Records j session d d' [] :=
  ⟨hjournal, hfiles ▸ .refl⟩

theorem Records.trans (h : Records j session d d' es) (hmore : Records j session d' d'' es') :
    Records j session d d'' (es ++ es') := by
  refine ⟨hmore.journal.trans h.journal, ?_⟩
  rw [List.map_append]
  exact h.runs.trans hmore.runs

theorem Records.shown (h : Records j session d d' es) (hjournal : d''.journal = d'.journal)
    (hfiles : d''.files = d'.files) :
    Records j session d d'' es :=
  ⟨hjournal.trans h.journal, hfiles ▸ h.runs⟩

theorem Records.print (h : Records j session d d' es) (text : List Char) :
    Records j session d (d'.print text) es := h.shown rfl rfl

theorem Records.printLine (h : Records j session d d' es) (text : List Char) :
    Records j session d (d'.printLine text) es := h.shown rfl rfl

theorem IsRecording.of_records (h : IsRecording j session d) (hrecords : Records j session d d' es) :
    IsRecording j session d' := by
  obtain ⟨logs, hdirs⟩ := h.hasDirs
  obtain ⟨⟨place, old⟩, hglobal⟩ := h.globalLog
  obtain ⟨⟨place', old'⟩, hsession⟩ := h.sessionLog
  have hgrown := hrecords.runs.grown hdirs
  exact ⟨hrecords.journal.trans h.journal, ⟨logs, hgrown.hasDirs hdirs⟩, h.accepts, ⟨_, hgrown.writable hglobal⟩,
    ⟨_, hgrown.writable hsession⟩⟩

/-- **An event that can be recorded is recorded**, and no warning is given. -/
theorem IsRecording.emit [Instant τ] (h : IsRecording j session d) {e : Event} (hrecordable : e.isRecordable = true) :
    Records j session d (d.emit e (some session)) [e.kept] := by
  obtain ⟨logs, hdirs⟩ := h.hasDirs
  obtain ⟨t, hglobal⟩ := h.globalLog
  obtain ⟨⟨place, old⟩, hsession⟩ := h.sessionLog
  obtain ⟨fs₁, hwrite⟩ := write_none_of_writable hdirs (Event.isRecordable_kept hrecordable) hglobal
  have hadds := (adds_of_write_none hdirs hwrite).2
  obtain ⟨new, hsession'⟩ := hadds.writable hsession
  obtain ⟨fs₂, happend⟩ := append_of_writable (hdirs.of_keeps hadds.keepsDirs).sessions hsession' e.kept.line
  have hboth : j.write d.files e.kept (some session) = (fs₂, none) :=
    (write_eq_none_iff h.accepts).2 ⟨fs₁, hwrite, happend⟩
  have hemit : d.emit e (some session) = { d with files := fs₂ } := by
    rw [Desk.emit, h.journal]
    dsimp only
    rw [← Event.kept, hboth]
  rw [hemit]
  exact ⟨rfl, Runs.refl.written rfl hboth⟩

theorem IsRecording.writable_of_records {place place' : Place} {old old' : List UInt8} (h : IsRecording j session d)
    (hrecords : Records j session d d' es) (hglobal : d.files.writable (Journal.globalLog j.project) = .ok (place, old))
    (hsession : d.files.writable (Journal.sessionLog j.project session) = .ok (place', old')) :
    d'.files.writable (Journal.globalLog j.project) = .ok (place, old ++ bytesOf es) ∧
      d'.files.writable (Journal.sessionLog j.project session) = .ok (place', old' ++ bytesOf es) := by
  obtain ⟨logs, hdirs⟩ := h.hasDirs
  have hgrown := hrecords.runs.grown hdirs
  have hevents {q : Place} (hq : ∀ e : Event, q ∈ Entry.places logs ⟨e, some session⟩) :
      eventsAt logs q (es.map fun e => ⟨e, some session⟩) = es := by
    rw [eventsAt_of_forall (List.forall_mem_map.2 fun e _ => hq e), List.map_map]
    exact List.map_id es
  have hplace : place = globalPlace logs := hdirs.locate_globalLog (writable_eq_ok_iff.1 hglobal).1
  have hplace' : place' = sessionPlace logs session := hdirs.locate_sessionLog (writable_eq_ok_iff.1 hsession).1
  have hglobal' := hgrown.writable hglobal
  have hsession' := hgrown.writable hsession
  rw [hevents fun e => hplace ▸ List.mem_cons_self] at hglobal'
  rw [hevents fun e => hplace' ▸ mem_places_sessionPlace.2 ⟨rfl, h.accepts⟩] at hsession'
  exact ⟨hglobal', hsession'⟩

/-! ## The name of a session -/

theorem isNameChar_of_isDigit {c : Char} (h : c.isDigit = true) : isNameChar c = true := by
  rw [isNameChar, Char.isAlphanum, h]
  simp

theorem accepts_sessionName (n : Nat) : accepts (sessionName n) = true := by
  have hdigits : ∀ c ∈ sessionName n, c.isDigit = true := isDigit_paddedText
  have hne : sessionName n ≠ [] := by simp [sessionName, paddedText, natText, Nat.toDigits_ne_nil]
  have hlast : (sessionName n).getLast? ≠ some '\n' := by
    intro hlast
    exact absurd (hdigits '\n' (List.mem_of_getLast? hlast)) (by decide)
  rw [Journal.accepts, if_neg hlast, Bool.and_eq_true, Bool.not_eq_true', List.isEmpty_eq_false_iff, List.all_eq_true]
  exact ⟨hne, fun c hc => isNameChar_of_isDigit (hdigits c hc)⟩

end Abacus.Desk
