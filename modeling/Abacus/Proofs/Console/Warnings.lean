import Abacus.Proofs.Console.Emission
import Abacus.Proofs.Console.Silence
/-!
# How often the desk warns

What the desk cannot record, and settings that it cannot read, it warns about, but not twice within a minute.  Only
a warning that is given starts the minute (`step_cases`), so in a run of calls the warnings are those failures that
come a minute or more after the last one that was warned about (`warningTimes_eq_spaced`).  None is ever put off by
what is kept back, and they are spread out over the time of the run (`spread_spaced`).

The clock shows exact numbers here, and it never goes back.
-/
namespace Abacus.Desk

open Journal

inductive Call
  | emit (e : Event) (session : Option (List Char))
  | attach (dir : List Char)

structure Moment where
  now : Rat
  files : Files
  call : Call

section

variable {τ : Type} [Instant τ]

def perform (d : Desk τ) : Call → Desk τ
  | .emit e session => d.emit e session
  | .attach dir     => (d.attach dir).1

/-- Whether the call meets a failure that it does not raise: the journal cannot record the event, or the settings of the
project cannot be read, so that the defaults have to do. -/
def fails (d : Desk τ) : Call → Bool
  | .emit e session => d.journal.any fun j => (j.write d.files e.kept session).2.isSome
  | .attach dir     =>
    match Settings.load d.files (.ofText dir) with
    | .ok _    => false
    | .error e => e.overflow?.isNone

/-- Nothing is printed, and the next warning is not put off. -/
structure IsStill (d d' : Desk τ) : Prop where
  err : d'.err = d.err
  lastWarned : d'.lastWarned = d.lastWarned

structure IsWarned (d d' : Desk τ) : Prop where
  err : ∃ text, d'.err = d.err ++ "[exprcalc] ".toList ++ text ++ ['\n']
  lastWarned : d'.lastWarned = some d.now

/-! ## One call -/

variable {d d' d'' : Desk τ}

omit [Instant τ] in
theorem IsStill.refl (d : Desk τ) : IsStill d d := ⟨rfl, rfl⟩

omit [Instant τ] in
theorem IsStill.trans (h : IsStill d d') (hmore : IsStill d' d'') : IsStill d d'' :=
  ⟨hmore.err.trans h.err, hmore.lastWarned.trans h.lastWarned⟩

omit [Instant τ] in
theorem IsWarned.trans (h : IsWarned d d') (hmore : IsStill d' d'') : IsWarned d d'' := by
  obtain ⟨text, htext⟩ := h.err
  exact ⟨⟨text, hmore.err.trans htext⟩, hmore.lastWarned.trans h.lastWarned⟩

/-- What a failure comes to: nothing while the desk is quiet, and otherwise a warning. -/
structure IsReported (d d' : Desk τ) : Prop where
  quiet : d.isQuiet = true → IsStill d d'
  loud : d.isQuiet = false → IsWarned d d'

theorem IsReported.trans (h : IsReported d d') (hmore : IsStill d' d'') : IsReported d d'' :=
  ⟨fun hquiet => (h.quiet hquiet).trans hmore, fun hloud => (h.loud hloud).trans hmore⟩

theorem isReported_warn (d : Desk τ) (text : List Char) : IsReported d (d.warn text) := by
  constructor
  · intro hquiet
    rw [warn, if_pos hquiet]
    exact .refl d
  · intro hloud
    rw [warn, hloud, if_neg Bool.false_ne_true]
    exact ⟨⟨text, rfl⟩, rfl⟩

omit [Instant τ] in
theorem isStill_attachAs (d : Desk τ) (project : Path) (s : Settings) : IsStill d (d.attachAs project s).1 := by
  rw [attachAs]
  split
  · exact ⟨rfl, rfl⟩
  split
  · exact .refl d
  split <;> exact ⟨rfl, rfl⟩

theorem isStill_perform {c : Call} (h : d.fails c = false) : IsStill d (d.perform c) := by
  cases c with
  | emit e session =>
    rw [fails] at h
    rw [perform, emit]
    cases hjournal : d.journal with
    | none => exact .refl d
    | some j =>
      rw [hjournal, Option.any_some, Option.isSome_eq_false_iff, Option.isNone_iff_eq_none, Event.kept] at h
      dsimp only
      rw [h]
      exact ⟨rfl, rfl⟩
  | attach dir =>
    rw [fails] at h
    rw [perform, attach]
    cases hload : Settings.load d.files (.ofText dir) with
    | ok s => exact isStill_attachAs d _ s
    | error why =>
      rw [hload] at h
      dsimp only at h ⊢
      cases hoverflow : why.overflow? with
      | none =>
        rw [hoverflow] at h
        cases h
      | some o => exact .refl d

theorem isReported_perform {c : Call} (h : d.fails c = true) : IsReported d (d.perform c) := by
  cases c with
  | emit e session =>
    rw [fails] at h
    rw [perform, emit]
    cases hjournal : d.journal with
    | none =>
      rw [hjournal] at h
      cases h
    | some j =>
      rw [hjournal, Option.any_some, Option.isSome_iff_exists, Event.kept] at h
      obtain ⟨why, hwhy⟩ := h
      dsimp only
      rw [hwhy]
      dsimp only
      have hwarn := isReported_warn
        { d with files := (j.write d.files e.truncated.attributed session).1, journal := some j }
        "logging failed".toList
      exact ⟨fun hquiet => ⟨(hwarn.quiet hquiet).err, (hwarn.quiet hquiet).lastWarned⟩,
        fun hloud => ⟨(hwarn.loud hloud).err, (hwarn.loud hloud).lastWarned⟩⟩
  | attach dir =>
    rw [fails] at h
    rw [perform, attach]
    cases hload : Settings.load d.files (.ofText dir) with
    | ok s =>
      rw [hload] at h
      cases h
    | error why =>
      rw [hload] at h
      dsimp only at h ⊢
      rw [Option.isNone_iff_eq_none.1 h]
      exact (isReported_warn d _).trans (isStill_attachAs _ _ _)

end

/-! ## Runs of calls -/

variable {d : Desk Rat} {ms : List Moment}

def reach (d : Desk Rat) (m : Moment) : Desk Rat := { d with now := m.now, files := m.files }

def step (d : Desk Rat) (m : Moment) : Desk Rat := (d.reach m).perform m.call

/-- The desk after all calls. -/
def runAll (d : Desk Rat) (ms : List Moment) : Desk Rat := ms.foldl step d

def failureTimes (d : Desk Rat) : List Moment → List Rat
  | []      => []
  | m :: ms => (if (d.reach m).fails m.call then [m.now] else []) ++ failureTimes (d.step m) ms

def warningTimes (d : Desk Rat) : List Moment → List Rat
  | []      => []
  | m :: ms => (if (d.step m).err = d.err then [] else [m.now]) ++ warningTimes (d.step m) ms

/-- The times that come a minute or more after the last one that was taken. -/
def spaced : Option Rat → List Rat → List Rat
  | _, []         => []
  | last, t :: ts =>
    if last.any fun s => t - s < 60 then spaced last ts else t :: spaced (some t) ts

theorem spaced_cons (last : Option Rat) (t : Rat) (ts : List Rat) : spaced last (t :: ts) =
    if last.any fun s => t - s < 60 then spaced last ts else t :: spaced (some t) ts := rfl

def warnedLately (d : Desk Rat) (m : Moment) : Bool := d.lastWarned.any fun s => m.now - s < 60

theorem isQuiet_reach (d : Desk Rat) (m : Moment) : (d.reach m).isQuiet = d.warnedLately m := by
  rw [isQuiet, warnedLately, reach]
  cases d.lastWarned <;> rfl

/-- **A call warns exactly if it fails and the last warning is not a minute ago**, and else nothing is printed. -/
theorem step_cases (d : Desk Rat) (m : Moment) :
    ((d.reach m).fails m.call = true ∧ d.warnedLately m = false ∧ IsWarned (d.reach m) (d.step m)) ∨
      (((d.reach m).fails m.call = false ∨ d.warnedLately m = true) ∧ IsStill d (d.step m)) := by
  have hreach : IsStill d (d.reach m) := ⟨rfl, rfl⟩
  rw [← isQuiet_reach]
  cases hfails : (d.reach m).fails m.call with
  | false => exact .inr ⟨.inl rfl, hreach.trans (isStill_perform hfails)⟩
  | true =>
    have hreported := isReported_perform hfails
    cases hquiet : (d.reach m).isQuiet with
    | true => exact .inr ⟨.inr rfl, hreach.trans (hreported.quiet hquiet)⟩
    | false => exact .inl ⟨rfl, rfl, hreported.loud hquiet⟩

theorem IsWarned.err_ne {d' : Desk Rat} {m : Moment} (h : IsWarned (d.reach m) d') : d'.err ≠ d.err := by
  obtain ⟨text, htext⟩ := h.err
  have herr : (d.reach m).err = d.err := rfl
  rw [htext, herr, List.append_assoc, List.append_assoc]
  exact fun heq => absurd (List.append_right_eq_self.1 heq) (by simp)

/-- **The warnings of a run are among its failures those that come a minute or more after the last one.** -/
theorem warningTimes_eq_spaced (d : Desk Rat) (ms : List Moment) :
    warningTimes d ms = spaced d.lastWarned (failureTimes d ms) := by
  induction ms generalizing d with
  | nil => rfl
  | cons m ms ih =>
    rw [warningTimes, failureTimes, ih]
    -- a warning starts the minute anew; a failure that is kept back leaves it as it was
    rcases step_cases d m with ⟨hfails, hlately, hwarned⟩ | ⟨hwhy, hstill⟩
    · rw [if_neg hwarned.err_ne, if_pos hfails, List.singleton_append,
        List.singleton_append, spaced_cons, ← warnedLately, hlately,
        if_neg Bool.false_ne_true, hwarned.lastWarned]
      rfl
    · rw [if_pos hstill.err, hstill.lastWarned]
      cases hfails : (d.reach m).fails m.call with
      | false => rfl
      | true =>
        have hlately : d.warnedLately m = true := hwhy.resolve_left (by simp [hfails])
        rw [if_pos rfl, List.singleton_append, spaced_cons, ← warnedLately, hlately]
        rfl

theorem lastWarned_runAll (d : Desk Rat) (ms : List Moment) :
    (d.runAll ms).lastWarned = (warningTimes d ms).getLast?.or d.lastWarned := by
  induction ms generalizing d with
  | nil => rfl
  | cons m ms ih =>
    have hstep : d.runAll (m :: ms) = (d.step m).runAll ms := rfl
    rw [hstep, ih, warningTimes]
    rcases step_cases d m with ⟨-, -, hwarned⟩ | ⟨-, hstill⟩
    · rw [if_neg hwarned.err_ne, hwarned.lastWarned, List.singleton_append, List.getLast?_cons]
      cases (warningTimes (d.step m) ms).getLast? <;> rfl
    · rw [if_pos hstill.err, hstill.lastWarned, List.nil_append]

theorem mem_warningTimes {s : Rat} (h : s ∈ warningTimes d ms) : ∃ m ∈ ms, m.now = s := by
  induction ms generalizing d with
  | nil => cases h
  | cons m ms ih =>
    rw [warningTimes, List.mem_append] at h
    rcases h with h | h
    · split at h
      · cases h
      · exact ⟨m, List.mem_cons_self, (List.mem_singleton.1 h).symm⟩
    · obtain ⟨m', hm', hnow⟩ := ih h
      exact ⟨m', List.mem_cons_of_mem m hm', hnow⟩

/-! ## Times that are a minute apart -/

def AreSpread (ts : List Rat) : Prop := ts.Pairwise fun s t => 60 ≤ t - s

theorem spread_spaced (last : Option Rat) (ts : List Rat) :
    AreSpread (spaced last ts) ∧ ∀ s ∈ last, ∀ t ∈ spaced last ts, 60 ≤ t - s := by
  induction ts generalizing last with
  | nil => exact ⟨.nil, fun s _ t ht => by cases ht⟩
  | cons t ts ih =>
    rw [spaced_cons]
    cases hlately : last.any fun s => t - s < 60 with
    | true => exact ih last
    | false =>
      obtain ⟨hspread, hlater⟩ := ih (some t)
      have hlast : ∀ s ∈ last, 60 ≤ t - s := by
        rintro s rfl
        simpa using hlately
      refine ⟨List.pairwise_cons.2 ⟨hlater t rfl, hspread⟩, fun s hs u hu => ?_⟩
      rcases List.mem_cons.1 hu with rfl | hu
      · exact hlast s hs
      · have hfirst := hlast s hs
        have hthen := hlater t rfl u hu
        linarith

theorem AreSpread.length_le {ts : List Rat} {a b : Rat} (h : AreSpread ts) (hall : ∀ t ∈ ts, a ≤ t ∧ t ≤ b)
    (hab : a ≤ b + 60) : 60 * (ts.length : Rat) ≤ b - a + 60 := by
  induction ts generalizing a with
  | nil =>
    rw [List.length_nil, Nat.cast_zero]
    linarith
  | cons t ts ih =>
    obtain ⟨hlater, hspread⟩ := List.pairwise_cons.1 h
    obtain ⟨ht, hall⟩ := List.forall_mem_cons.1 hall
    have hrest := ih hspread (a := t + 60) (fun u hu => ⟨by linarith [hlater u hu], (hall u hu).2⟩) (by linarith)
    rw [List.length_cons, Nat.cast_succ]
    linarith

theorem AreSpread.length_filter_le {ts : List Rat} (h : AreSpread ts) (a : Rat) {D : Rat} (hD : 0 ≤ D) :
    ((ts.filter fun t => a ≤ t ∧ t ≤ a + D).length : Int) ≤ ⌊D / 60⌋ + 1 := by
  have hwithin : ∀ t ∈ ts.filter fun t => a ≤ t ∧ t ≤ a + D, a ≤ t ∧ t ≤ a + D :=
    fun t ht => of_decide_eq_true (List.mem_filter.1 ht).2
  have hlength := AreSpread.length_le (List.Pairwise.filter _ h) hwithin (by linarith)
  have hle : (((ts.filter fun t => a ≤ t ∧ t ≤ a + D).length : Int) - 1 : Int) ≤ ⌊D / 60⌋ := by
    rw [Int.le_floor, le_div_iff₀ (by norm_num)]
    push_cast
    linarith
  omega

/-! ## Warnings of a run -/

theorem fails_attach_or_error {τ : Type} [Instant τ] {d : Desk τ} {dir : List Char} {why : SettingsError}
    (h : Settings.load d.files (.ofText dir) = .error why) :
    d.fails (.attach dir) = true ∨ ∃ e, (d.attach dir).2 = .error e := by
  rw [fails, attach, h]
  dsimp only
  cases why.overflow? with
  | none => exact .inl rfl
  | some o => exact .inr ⟨_, rfl⟩

/-- **Warnings are limited to one a minute, and no failure goes unseen for want of one.**  Take any calls that emit
events or attach journals, at times that do not decrease, on a desk that has not warned before; whatever others do
to the store between them.  The first failure is warned about, and a failure is not only if there was a warning less
than a minute before.  What does not fail prints nothing and puts off no warning: the warnings are those failures
that come a minute or more after the last one that was warned about.  So any two warnings are at least a minute
apart, and in `D` seconds there are no more than `D / 60`, rounded down, and one.  Settings that cannot be read are
such a failure unless the call ends in an error itself. -/
theorem warnings_limited (d : Desk Rat) (hnever : d.lastWarned = none) (ms : List Moment)
    (hclock : ms.Pairwise fun m m' => m.now ≤ m'.now) :
    (∀ before m later, ms = before ++ m :: later →
      (((d.runAll before).reach m).fails m.call = true → failureTimes d before = [] →
        IsWarned ((d.runAll before).reach m) ((d.runAll before).step m)) ∧
      (((d.runAll before).reach m).fails m.call = true →
        IsWarned ((d.runAll before).reach m) ((d.runAll before).step m) ∨
          IsStill (d.runAll before) ((d.runAll before).step m) ∧
            ∃ s ∈ warningTimes d before, s ≤ m.now ∧ m.now - s < 60) ∧
      (((d.runAll before).reach m).fails m.call = false → IsStill (d.runAll before) ((d.runAll before).step m))) ∧
    warningTimes d ms = spaced none (failureTimes d ms) ∧
    AreSpread (warningTimes d ms) ∧
    (∀ a D, 0 ≤ D → (((warningTimes d ms).filter fun t => a ≤ t ∧ t ≤ a + D).length : Int) ≤ ⌊D / 60⌋ + 1) ∧
    ∀ (d' : Desk Rat) dir why, Settings.load d'.files (.ofText dir) = .error why →
      d'.fails (.attach dir) = true ∨ ∃ e, (d'.attach dir).2 = .error e := by
  have hspaced (ms : List Moment) : warningTimes d ms = spaced none (failureTimes d ms) :=
    hnever ▸ warningTimes_eq_spaced d ms
  have hnoted (ms : List Moment) : (d.runAll ms).lastWarned = (warningTimes d ms).getLast? := by
    rw [lastWarned_runAll, hnever, Option.or_none]
  have hspread : AreSpread (warningTimes d ms) := hspaced ms ▸ (spread_spaced none _).1
  refine ⟨?_, hspaced ms, hspread, fun a D hD => hspread.length_filter_le a hD, fun _ _ _ => fails_attach_or_error⟩
  rintro before m later rfl
  have hearlier : ∀ s ∈ warningTimes d before, s ≤ m.now := by
    intro s hs
    obtain ⟨m', hm', rfl⟩ := mem_warningTimes hs
    exact (List.pairwise_append.1 hclock).2.2 m' hm' m List.mem_cons_self
  refine ⟨fun hfails hfirst => ?_, fun hfails => ?_, fun hfails => ?_⟩
  · rcases step_cases (d.runAll before) m with ⟨-, -, hwarned⟩ | ⟨hwhy, -⟩
    · exact hwarned
    · have hlately := hwhy.resolve_left (by simp [hfails])
      rw [warnedLately, hnoted, hspaced, hfirst] at hlately
      cases hlately
  · rcases step_cases (d.runAll before) m with ⟨-, -, hwarned⟩ | ⟨hwhy, hstill⟩
    · exact .inl hwarned
    · have hlately := hwhy.resolve_left (by simp [hfails])
      rw [warnedLately, hnoted, Option.any_eq_true] at hlately
      obtain ⟨s, hlast, hrecent⟩ := hlately
      have hs := List.mem_of_getLast? hlast
      exact .inr ⟨hstill, s, hs, hearlier s hs, of_decide_eq_true hrecent⟩
  · rcases step_cases (d.runAll before) m with ⟨hfails', -, -⟩ | ⟨-, hstill⟩
    · rw [hfails] at hfails'
      cases hfails'
    · exact hstill

/-- A project that has a list for its settings, and a directory where its log has to be. -/
def brokenDesk : Desk Rat :=
  Console.deskWith "- 1\n".toList fun fs =>
    (fs.set ["p".toList, "logs".toList] .dir).set ["p".toList, "logs".toList, "events.ndjson".toList] .dir

/-- A journal is attached, and half a minute and a minute later an event cannot be recorded. -/
def threeFailures : List Moment :=
  [⟨0, brokenDesk.files, .attach ['p']⟩, ⟨30, brokenDesk.files, .emit firstSample none⟩,
    ⟨60, brokenDesk.files, .emit secondSample none⟩]

theorem warnings_limited_threeFailures : failureTimes brokenDesk threeFailures = [0, 30, 60] ∧
    warningTimes brokenDesk threeFailures = [0, 60] ∧ AreSpread [0, 60] ∧
    ∀ a D, 0 ≤ D → ((([0, 60] : List Rat).filter fun t => a ≤ t ∧ t ≤ a + D).length : Int) ≤ ⌊D / 60⌋ + 1 := by
  have hclock : threeFailures.Pairwise fun m m' => m.now ≤ m'.now := by decide +kernel
  have hfailures : failureTimes brokenDesk threeFailures = [0, 30, 60] := by decide +kernel
  obtain ⟨-, hspaced, hspread, hcount, -⟩ := warnings_limited brokenDesk rfl threeFailures hclock
  have hwarnings : warningTimes brokenDesk threeFailures = [0, 60] := by
    rw [hspaced, hfailures]
    decide +kernel
  rw [hwarnings] at hspread hcount
  exact ⟨hfailures, hwarnings, hspread, hcount⟩

end Abacus.Desk
