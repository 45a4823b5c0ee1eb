import Abacus.Proofs.Console.Usable
import Abacus.Proofs.Journal.Legible
/-!
# Logs that hold anything

A log may hold any bytes, and what is no JSON on it is skipped.  But a value need not be an event.  One that is no
object is answered like an event where nothing is filtered, and no filter gets past it; and some lines no reading
gets past.  Readings answer events and nothing else just if every line in the window is an object or is skipped
(`answers_events_iff`).
-/
namespace Abacus.Journal

open Files

variable {fs : Files} {j : Journal} {bytes : List UInt8} {lines : List (List Char)} {vs us : List Json}
  {level kind : Option (List Char)} {limit : Int}

/-! ## Filters -/

def isFilter (text : Option (List Char)) : Bool := text.any fun text => !text.isEmpty

theorem forall_of_filterAuxM {ε : Type} {f : Json → Except ε Bool} {done : List Json}
    (h : vs.filterAuxM f done = .ok us) :
    ∀ v ∈ vs, ∃ b, f v = .ok b := by
  induction vs generalizing done with
  | nil => exact List.forall_mem_nil _
  | cons v vs ih =>
    rw [List.filterAuxM] at h
    cases hv : f v with
    | error e =>
      rw [hv] at h
      cases h
    | ok b =>
      rw [hv] at h
      exact List.forall_mem_cons.2 ⟨⟨b, hv⟩, ih h⟩

theorem areObjects_of_filterBy {key : List Char} {text : Option (List Char)} (htext : isFilter text = true)
    (h : filterBy key text vs = .ok us) : AreObjects vs := by
  cases text with
  | none => cases htext
  | some text =>
    have hne : ¬ text.isEmpty = true := by simpa [isFilter] using htext
    rw [filterBy, if_neg hne, List.filterM] at h
    cases haux : vs.filterAuxM (fun v => (fieldOf key v).map (isText text)) [] with
    | error e =>
      rw [haux] at h
      cases h
    | ok done =>
      intro v hv
      obtain ⟨b, hb⟩ := forall_of_filterAuxM haux v hv
      cases v with
      | obj fields => exact ⟨fields, rfl⟩
      | _ => cases hb

theorem filterBy_of_not_isFilter {text : Option (List Char)} (h : isFilter text = false) (key : List Char)
    (vs : List Json) :
    filterBy key text vs = .ok vs ∧ vs.filter (passes key text) = vs := by
  have hpasses (v : Json) : passes key text v = true := by
    cases text with
    | none => rfl
    | some text =>
      have hempty : text.isEmpty = true := by simpa [isFilter] using h
      simp [passes, hempty]
  refine ⟨?_, List.filter_eq_self.2 fun v _ => hpasses v⟩
  cases text with
  | none => rfl
  | some text =>
    have hempty : text.isEmpty = true := by simpa [isFilter] using h
    rw [filterBy, if_pos hempty]

theorem readGlobal_of_filters (h : j.readLog fs (globalLog j.project) = .ok vs)
    (hobjects : (isFilter level || isFilter kind) = true → AreObjects vs) (limit : Int) :
    j.readGlobal fs level kind limit = .ok (selected level kind limit vs) := by
  cases hfilter : isFilter level || isFilter kind with
  | true => exact readGlobal_of_objects (hobjects hfilter) h level kind limit
  | false =>
    obtain ⟨hlevel, hkind⟩ := Bool.or_eq_false_iff.1 hfilter
    obtain ⟨hfirst, hfirst'⟩ := filterBy_of_not_isFilter hlevel "level".toList vs
    obtain ⟨hsecond, hsecond'⟩ := filterBy_of_not_isFilter hkind "event_type".toList vs
    simp only [readGlobal, h, bind, Except.bind, hfirst, hsecond, selected, hfirst', hsecond']

theorem areObjects_of_readGlobal (h : j.readLog fs (globalLog j.project) = .ok vs)
    (hread : j.readGlobal fs level kind limit = .ok us) (hfilter : (isFilter level || isFilter kind) = true) :
    AreObjects vs := by
  simp only [readGlobal, h, bind, Except.bind] at hread
  cases hlevel : filterBy "level".toList level vs with
  | error e =>
    rw [hlevel] at hread
    cases hread
  | ok kept =>
    rw [hlevel] at hread
    dsimp only at hread
    cases hkind : filterBy "event_type".toList kind kept with
    | error e =>
      rw [hkind] at hread
      cases hread
    | ok left =>
      cases hfirst : isFilter level with
      | true => exact areObjects_of_filterBy hfirst hlevel
      | false =>
        rw [hfirst, Bool.false_or] at hfilter
        obtain rfl := Except.ok.inj ((filterBy_of_not_isFilter hfirst _ vs).1.symm.trans hlevel)
        exact areObjects_of_filterBy hfilter hkind

/-! ## Readings -/

/-- The lines that a window leaves of a log. -/
def windowLines (window : Nat) (bytes : List UInt8) : List (List Char) := logLines (Utf8.decode (tail window bytes))

/-- Reading gets past all lines, and the filters, if there are any, past all values. -/
structure CanAnswer (lines : List (List Char)) (level kind : Option (List Char)) : Prop where
  legible : ∀ line ∈ lines, isLegible line = true
  objects : (isFilter level || isFilter kind) = true → AreObjects (lines.filterMap valueOf?)

theorem readGlobal_eq_ok_iff (hlog : fs.read (globalLog j.project) = .ok bytes) (hwindow : 0 ≤ j.tailBytes) :
    j.readGlobal fs level kind limit = .ok us ↔ CanAnswer (windowLines j.tailBytes.toNat bytes) level kind ∧
      us = selected level kind limit ((windowLines j.tailBytes.toNat bytes).filterMap valueOf?) := by
  have hread := readLog_of_read hlog hwindow
  constructor
  · intro h
    cases hvalues : valuesIn (tail j.tailBytes.toNat bytes) with
    | error e =>
      rw [readGlobal, hread, hvalues] at h
      cases h
    | ok vs =>
      rw [hvalues] at hread
      obtain ⟨hlegible, rfl⟩ := valuesOn_eq_ok_iff.1 hvalues
      have hobjects := areObjects_of_readGlobal hread h
      exact ⟨⟨hlegible, hobjects⟩, Except.ok.inj (h.symm.trans (readGlobal_of_filters hread hobjects limit))⟩
  · rintro ⟨hcan, rfl⟩
    have hvalues : valuesIn (tail j.tailBytes.toNat bytes) = .ok _ := valuesOn_eq_ok_iff.2 ⟨hcan.legible, rfl⟩
    exact readGlobal_of_filters (hread.trans hvalues) hcan.objects limit

/-- The reading answers, and all that it answers are objects that pass the filters. -/
def AnswersEvents (j : Journal) (fs : Files) (level kind : Option (List Char)) (limit : Int) : Prop :=
  ∃ vs, j.readGlobal fs level kind limit = .ok vs ∧
    ∀ v ∈ vs, (∃ fields, v = .obj fields) ∧ passes "level".toList level v = true ∧
      passes "event_type".toList kind v = true

theorem takeLimit_subset (limit : Int) (vs : List Json) : takeLimit limit vs ⊆ vs := by
  rw [takeLimit]
  split <;> exact List.take_subset _ _

theorem passes_of_mem_selected {v : Json} (h : v ∈ selected level kind limit vs) :
    v ∈ vs ∧ passes "level".toList level v = true ∧ passes "event_type".toList kind v = true := by
  have hmem := takeLimit_subset _ _ h
  rw [List.mem_reverse, List.mem_filter, List.mem_filter] at hmem
  exact ⟨hmem.1.1, hmem.1.2, hmem.2⟩

theorem answersEvents_iff (hlog : fs.read (globalLog j.project) = .ok bytes) (hwindow : 0 ≤ j.tailBytes) :
    AnswersEvents j fs level kind limit ↔ CanAnswer (windowLines j.tailBytes.toNat bytes) level kind ∧
      AreObjects (selected level kind limit ((windowLines j.tailBytes.toNat bytes).filterMap valueOf?)) := by
  constructor
  · rintro ⟨vs, hread, hvs⟩
    obtain ⟨hcan, rfl⟩ := (readGlobal_eq_ok_iff hlog hwindow).1 hread
    exact ⟨hcan, fun v hv => (hvs v hv).1⟩
  · rintro ⟨hcan, hobjects⟩
    exact ⟨_, (readGlobal_eq_ok_iff hlog hwindow).2 ⟨hcan, rfl⟩,
      fun v hv => ⟨hobjects v hv, (passes_of_mem_selected hv).2⟩⟩

/-- The line holds an object, or is skipped. -/
def IsEventLine (line : List Char) : Prop :=
  Json.read (strip line) = .error .malformed ∨ ∃ fields, Json.read (strip line) = .ok (.obj fields)

theorem forall_isEventLine_iff : (∀ line ∈ lines, IsEventLine line) ↔
    (∀ line ∈ lines, isLegible line = true) ∧ AreObjects (lines.filterMap valueOf?) := by
  rw [AreObjects, List.forall_mem_filterMap, ← forall₂_and]
  refine forall₂_congr fun line _ => ?_
  rw [IsEventLine, isLegible, valueOf?]
  cases Json.read (strip line) with
  | ok v => simp [Except.toOption]
  | error e => cases e <;> simp [Except.toOption]

end Abacus.Journal

namespace Abacus.Console

open Desk Files Journal

variable {τ : Type} {d : Desk τ} {fs : Files} {project : Path} {j own : Journal} {bytes : List UInt8}

theorem runEvents_eq_ok_iff {level kind : Option (List Char)} {limit : Int}
    (hstart : Journal.start d.files project false none = (fs, .ok own)) :
    (runEvents d (some project) level kind limit).2 = .ok () ↔ ∃ vs, own.readGlobal fs level kind limit = .ok vs := by
  constructor
  · intro h
    rw [runEvents, hstart] at h
    dsimp only at h
    cases hread : own.readGlobal fs level kind limit with
    | ok vs => exact ⟨vs, rfl⟩
    | error e =>
      rw [hread] at h
      cases h
  · rintro ⟨vs, hvs⟩
    rw [runEvents_of_read hstart hvs]
    rfl

/-- **Readings answer events and nothing else exactly if every line in the window is an object or no JSON.**  Take
any bytes in the log of all events, and any window.  A reading answers exactly if it gets past every line in the
window, and, if something is filtered, every value there is an object.  Its answers are then events that pass the
filters, unless it filters nothing and one of the latest values is no object.  So all readings do what they should
exactly if every line in the window is an object or skipped.  The command that prints events ends well exactly if
its own reading, which has the default window, answers. -/
theorem answers_events_iff (hstart : Journal.start d.files project false none = (fs, .ok own))
    (hlog : fs.read (globalLog project) = .ok bytes) (hproject : j.project = project) (hwindow : 0 ≤ j.tailBytes) :
    (∀ level kind limit, ((∃ vs, j.readGlobal fs level kind limit = .ok vs) ↔
      CanAnswer (windowLines j.tailBytes.toNat bytes) level kind)) ∧
    (∀ level kind limit, (AnswersEvents j fs level kind limit ↔
      CanAnswer (windowLines j.tailBytes.toNat bytes) level kind ∧
      AreObjects (selected level kind limit ((windowLines j.tailBytes.toNat bytes).filterMap valueOf?)))) ∧
    ((∀ level kind limit, AnswersEvents j fs level kind limit) ↔
      ∀ line ∈ windowLines j.tailBytes.toNat bytes, IsEventLine line) ∧
    ∀ level kind limit, ((runEvents d (some project) level kind limit).2 = .ok () ↔
      CanAnswer (windowLines defaultTailBytes.toNat bytes) level kind) := by
  subst hproject
  have hreturns (j' : Journal) (hproject : j'.project = j.project) (hwindow : 0 ≤ j'.tailBytes)
      (level kind : Option (List Char)) (limit : Int) : (∃ vs, j'.readGlobal fs level kind limit = .ok vs) ↔
        CanAnswer (windowLines j'.tailBytes.toNat bytes) level kind := by
    rw [← hproject] at hlog
    simp only [readGlobal_eq_ok_iff hlog hwindow, exists_and_left, exists_eq, and_true]
  refine ⟨hreturns j rfl hwindow, fun level kind limit => answersEvents_iff hlog hwindow, ?_,
    fun level kind limit => ?_⟩
  · rw [forall_isEventLine_iff]
    simp only [answersEvents_iff hlog hwindow]
    constructor
    · intro h
      -- one filter is enough to meet every value
      have hfiltered := (h (some "info".toList) none 0).1
      exact ⟨hfiltered.legible, hfiltered.objects rfl⟩
    · rintro ⟨hlegible, hobjects⟩ level kind limit
      exact ⟨⟨hlegible, fun _ => hobjects⟩, fun v hv => hobjects v (passes_of_mem_selected hv).1⟩
  · have hsame := (start_of_start hstart false none).symm.trans hstart
    obtain rfl := Except.ok.inj (Prod.mk.inj hsame).2
    have hdefault : 0 ≤ defaultTailBytes := by decide
    exact (runEvents_eq_ok_iff hstart).trans
      (hreturns ⟨j.project, false, defaultTailBytes⟩ rfl hdefault level kind limit)

def deskWithLog (bytes : List UInt8) : Desk Rat := { blockedDesk with files := filesWithLog bytes }

/-- A log with a line that is no JSON, one that is no text, and an object reads as that object. -/
theorem answers_events_iff_brokenBytes :
    (∀ level kind limit, AnswersEvents (sampleJournal 1000) (filesWithLog brokenBytes) level kind limit) ∧
    ∀ level kind limit, (runEvents (deskWithLog brokenBytes) (some sampleProject) level kind limit).2 = .ok () := by
  have hvalues : valuesIn brokenBytes = .ok [.obj [("n".toList, .int 1)]] := by cbv
  obtain ⟨hlegible, hobjects⟩ := valuesOn_eq_ok_iff.1 hvalues
  have hlines (window : Nat) (hle : brokenBytes.length ≤ window) :
      ∀ line ∈ windowLines window brokenBytes, IsEventLine line := by
    rw [windowLines, tail_of_le hle, forall_isEventLine_iff, ← hobjects]
    exact ⟨hlegible, by simp [AreObjects]⟩
  obtain ⟨-, -, hall, hcommand⟩ := answers_events_iff (d := deskWithLog brokenBytes) (j := sampleJournal 1000)
    (start_filesWithLog brokenBytes) rfl rfl (by decide)
  refine ⟨hall.2 (hlines _ (by decide)), fun level kind limit => (hcommand level kind limit).2 ?_⟩
  obtain ⟨hlegible', hobjects'⟩ := forall_isEventLine_iff.1 (hlines defaultTailBytes.toNat (by decide))
  exact ⟨hlegible', fun _ => hobjects'⟩

def strayBytes : List UInt8 := Utf8.encode "42\n".toList

/-- **A number on a line is answered like an event**, and a filter fails on it. -/
theorem readGlobal_strayBytes :
    (sampleJournal 1000).readGlobal (filesWithLog strayBytes) none none 200 = .ok [.int 42] ∧
    ∀ vs, (sampleJournal 1000).readGlobal (filesWithLog strayBytes) (some "info".toList) none 200 ≠ .ok vs := by
  have hlog : (filesWithLog strayBytes).read (globalLog (sampleJournal 1000).project) = .ok strayBytes := rfl
  have hvalues : valuesIn strayBytes = .ok [.int 42] := by cbv
  have hread : (sampleJournal 1000).readLog (filesWithLog strayBytes) (globalLog sampleProject) = .ok [.int 42] := by
    rw [← hvalues]
    exact readLog_of_read hlog (by decide)
  refine ⟨readGlobal_of_readLog hread 200, fun vs hvs => ?_⟩
  obtain ⟨fields, hfields⟩ := areObjects_of_readGlobal hread hvs rfl (.int 42) List.mem_cons_self
  cases hfields

end Abacus.Console
