import Abacus.Proofs.Journal.Reach
import Abacus.Proofs.Journal.Reading
/-!
# The names of logs

Whatever is written and whatever becomes of it, the only files that are made or changed are the log of all events
and the logs of sessions that were given and accepted.  Those names are made of letters, digits, underscores and
hyphens, but one newline after them is accepted as well (`accepts_iff`).  So the names are as they should be just if
no session was given with such a newline (`logs_named_safely_iff`).
-/
namespace Abacus.Journal

open Files

variable {fs fs' : Files} {j : Journal} {logs place : Place} {ws : List Entry} {w : Entry} {name : List Char}

/-! ## Names -/

/-- The name has letters, digits, underscores and hyphens only, and is not empty. -/
structure IsSafeName (name : List Char) : Prop where
  ne_nil : name ≠ []
  chars : ∀ c ∈ name, isNameChar c = true

theorem isSafeName_iff : IsSafeName name ↔ (!name.isEmpty && name.all isNameChar) = true := by
  rw [Bool.and_eq_true, Bool.not_eq_true', List.isEmpty_eq_false_iff, List.all_eq_true]
  exact ⟨fun h => ⟨h.ne_nil, h.chars⟩, fun h => ⟨h.1, h.2⟩⟩

theorem not_isSafeName_newline (safe : List Char) : ¬ IsSafeName (safe ++ ['\n']) := fun h =>
  absurd (h.chars '\n' (by simp)) (by decide)

/-- **A newline after a safe name is accepted**, and nothing else but safe names. -/
theorem accepts_iff : accepts name = true ↔ IsSafeName name ∨ ∃ safe, IsSafeName safe ∧ name = safe ++ ['\n'] := by
  rw [accepts]
  split
  · rename_i hlast
    obtain ⟨safe, rfl⟩ := List.getLast?_eq_some_iff.1 hlast
    rw [List.dropLast_concat, ← isSafeName_iff, or_iff_right (not_isSafeName_newline safe)]
    refine ⟨fun h => ⟨safe, h, rfl⟩, ?_⟩
    rintro ⟨safe', h, heq⟩
    rwa [List.append_cancel_right heq]
  · rename_i hlast
    rw [← isSafeName_iff, or_iff_left]
    rintro ⟨safe, -, rfl⟩
    exact hlast List.getLast?_concat

/-! ## Runs of writes -/

def writeAll (j : Journal) (fs : Files) : List Entry → Files × List WriteFailure
  | []      => (fs, [])
  | w :: ws =>
    let (fs, failure) := j.write fs w.event w.session
    let (fs, failures) := writeAll j fs ws
    (fs, failure.toList ++ failures)

/-- The place is that of the log of all events, or of the log of a session that was given and accepted. -/
inductive IsGivenLog (j : Journal) (fs : Files) (ws : List Entry) (place : Place) : Prop
  | globally (hlocate : fs.locate (globalLog j.project) = .ok place)
  | named {w : Entry} {name : List Char} (hw : w ∈ ws) (hsession : w.session = some name)
      (haccepts : accepts name = true) (hlocate : fs.locate (sessionLog j.project name) = .ok place)

theorem IsGivenLog.of_keeps {vs : List Entry} (h : IsGivenLog j fs ws place) (hkeeps : KeepsDirs fs fs')
    (hsubset : ws ⊆ vs) :
    IsGivenLog j fs' vs place := by
  cases h with
  | globally hlocate => exact .globally (locate_of_keeps hkeeps hlocate)
  | named hw hsession haccepts hlocate => exact .named (hsubset hw) hsession haccepts (locate_of_keeps hkeeps hlocate)

def IsKeptOrGiven (j : Journal) (ws : List Entry) (fs fs' : Files) (place : Place) : Prop :=
  fs'.node? place ≠ fs.node? place →
    (fs.node? place = none ∧ fs'.node? place = some .dir) ∨
      (∃ bytes, fs'.node? place = some (.file bytes)) ∧ IsGivenLog j fs' ws place

theorem write_isKeptOrGiven (j : Journal) (fs : Files) (w : Entry) (place : Place) :
    KeepsDirs fs (j.write fs w.event w.session).1 ∧ IsKeptOrGiven j [w] fs (j.write fs w.event w.session).1 place := by
  obtain ⟨places, hlogged, hextends, -, -⟩ := write_extends j fs w.event w.session
  refine ⟨hextends.keepsDirs, fun hchanged => ?_⟩
  by_cases hplace : place ∈ places
  · refine .inr ⟨⟨_, hextends.grown place hplace⟩, ?_⟩
    cases hlogged with
    | nowhere => cases hplace
    | globally hglobal =>
      obtain rfl := List.mem_singleton.1 hplace
      exact .globally hglobal
    | fully hglobal hsession haccepts hlocate =>
      rcases List.mem_cons.1 hplace with rfl | hplace
      · exact .globally hglobal
      · obtain rfl := List.mem_singleton.1 hplace
        exact .named List.mem_cons_self hsession haccepts hlocate
  · exact .inl ((hextends.others place hplace).resolve_left hchanged)

theorem writeAll_isKeptOrGiven (j : Journal) (fs : Files) (ws : List Entry) (place : Place) :
    KeepsDirs fs (writeAll j fs ws).1 ∧ IsKeptOrGiven j ws fs (writeAll j fs ws).1 place := by
  induction ws generalizing fs with
  | nil => exact ⟨fun _ h => h, fun h => absurd rfl h⟩
  | cons w ws ih =>
    obtain ⟨hkeeps, hstep⟩ := write_isKeptOrGiven j fs w place
    obtain ⟨hkeeps', hrest⟩ := ih (j.write fs w.event w.session).1
    have hlast : (writeAll j fs (w :: ws)).1 = (writeAll j (j.write fs w.event w.session).1 ws).1 := rfl
    rw [hlast]
    refine ⟨fun q hq => hkeeps' q (hkeeps q hq), fun hchanged => ?_⟩
    by_cases hsame :
        (writeAll j (j.write fs w.event w.session).1 ws).1.node? place = (j.write fs w.event w.session).1.node? place
    · rw [hsame] at hchanged ⊢
      refine (hstep hchanged).imp id fun hgiven => ⟨hgiven.1, hgiven.2.of_keeps hkeeps' ?_⟩
      exact List.cons_subset.2 ⟨List.mem_cons_self, List.nil_subset _⟩
    · rcases hrest hsame with ⟨hnone, hdir⟩ | ⟨hfile, hgiven⟩
      · by_cases hsame' : (j.write fs w.event w.session).1.node? place = fs.node? place
        · exact .inl ⟨hsame' ▸ hnone, hdir⟩
        · rcases hstep hsame' with ⟨-, hdir'⟩ | ⟨⟨bytes, hfile⟩, -⟩
          · rw [hnone] at hdir'
            cases hdir'
          · rw [hnone] at hfile
            cases hfile
      · exact .inr ⟨hfile, hgiven.of_keeps (fun _ h => h) (List.subset_cons_self w ws)⟩

theorem runs_writeAll (h : (writeAll j fs ws).2 = []) : Runs j.project fs ws (writeAll j fs ws).1 := by
  induction ws generalizing fs with
  | nil => exact .refl
  | cons w ws ih =>
    obtain ⟨hfirst, hrest⟩ := List.append_eq_nil_iff.1 h
    have hwrite : (j.write fs w.event w.session).2 = none := Option.toList_eq_nil_iff.1 hfirst
    have hone : Runs j.project fs [] fs := .refl
    exact (hone.write rfl hwrite).trans (ih hrest)

/-! ## The logs that are touched -/

/-- All files that are made or changed are the log of all events and logs of sessions that were given with a safe
name. -/
def TouchesSafeLogs (logs : Place) (ws : List Entry) (fs fs' : Files) : Prop :=
  ∀ place bytes, fs'.node? place = some (.file bytes) → fs.node? place ≠ some (.file bytes) →
    place = globalPlace logs ∨
      ∃ w ∈ ws, ∃ name, w.session = some name ∧ IsSafeName name ∧ place = sessionPlace logs name

def GivesNoNewline (ws : List Entry) : Prop := ∀ w ∈ ws, ∀ safe, IsSafeName safe → w.session ≠ some (safe ++ ['\n'])

theorem touchesSafeLogs_of_givesNoNewline (hdirs : HasDirs fs j.project logs) (h : GivesNoNewline ws) :
    TouchesSafeLogs logs ws fs (writeAll j fs ws).1 := by
  intro place bytes hfile hnew
  obtain ⟨hkeeps, hchange⟩ := writeAll_isKeptOrGiven j fs ws place
  have hdirs' := hdirs.of_keeps hkeeps
  rcases hchange (by rw [hfile]; exact hnew.symm) with ⟨-, hdir⟩ | ⟨-, hgiven⟩
  · rw [hfile] at hdir
    cases hdir
  · cases hgiven with
    | globally hlocate => exact .inl (hdirs'.locate_globalLog hlocate)
    | named hw hsession haccepts hlocate =>
      refine .inr ⟨_, hw, _, hsession, ?_, hdirs'.locate_sessionLog hlocate⟩
      refine (accepts_iff.1 haccepts).resolve_right ?_
      rintro ⟨safe, hsafe, rfl⟩
      exact h _ hw safe hsafe hsession

theorem Grown.changed (h : Grown j.project logs ws fs fs') (hw : w ∈ ws) (hplace : place ∈ w.places logs) :
    ∃ bytes, fs'.node? place = some (.file bytes) ∧ fs.node? place ≠ some (.file bytes) := by
  have hevents : eventsAt logs place ws ≠ [] := by
    refine List.ne_nil_of_mem (a := w.event) (List.mem_map.2 ⟨w, List.mem_filter.2 ⟨hw, ?_⟩, rfl⟩)
    exact decide_eq_true hplace
  have hcontents := h.contents place
  have hadded := bytesOf_ne_nil hevents
  have hne : fs'.contents place ≠ [] := by
    rw [hcontents]
    simp [hadded]
  cases hnode : fs'.node? place with
  | none =>
    rw [Files.contents, hnode] at hne
    exact absurd rfl hne
  | some n =>
    cases n with
    | dir =>
      rw [Files.contents, hnode] at hne
      exact absurd rfl hne
    | file bytes =>
      refine ⟨bytes, rfl, fun hold => hadded ?_⟩
      rw [Files.contents, hnode, Files.contents, hold] at hcontents
      exact List.append_right_eq_self.1 hcontents.symm

theorem givesNoNewline_of_touchesSafeLogs (hdirs : HasDirs fs j.project logs) (hwritten : (writeAll j fs ws).2 = [])
    (h : TouchesSafeLogs logs ws fs (writeAll j fs ws).1) : GivesNoNewline ws := by
  intro w hw safe hsafe hsession
  have haccepts : accepts (safe ++ ['\n']) = true := accepts_iff.2 (.inr ⟨safe, hsafe, rfl⟩)
  have hplace : sessionPlace logs (safe ++ ['\n']) ∈ w.places logs := mem_places_sessionPlace.2 ⟨hsession, haccepts⟩
  obtain ⟨bytes, hfile, hnew⟩ := ((runs_writeAll hwritten).grown hdirs).changed hw hplace
  rcases h _ bytes hfile hnew with heq | ⟨-, -, name, -, hname, heq⟩
  · exact globalPlace_ne_sessionPlace logs _ heq.symm
  · rw [← sessionPlace_inj.1 heq] at hname
    exact not_isSafeName_newline safe hname

/-- **The names of logs.**  A session is accepted if its name is safe, or is safe but for one newline after it.
Whatever is written, in any store and whatever fails, no file is made or changed but the log of all events and the
logs of sessions that were given and accepted.  So where the directories of the logs are there, all files that are
made or changed are as they should be if no session is given with a newline after a safe name, and, if nothing
fails, only then. -/
theorem logs_named_safely_iff (j : Journal) (fs : Files) (ws : List Entry) :
    (∀ name, accepts name = true ↔ IsSafeName name ∨ ∃ safe, IsSafeName safe ∧ name = safe ++ ['\n']) ∧
    (∀ place, IsKeptOrGiven j ws fs (writeAll j fs ws).1 place) ∧
    ∀ logs, HasDirs fs j.project logs →
      (GivesNoNewline ws → TouchesSafeLogs logs ws fs (writeAll j fs ws).1) ∧
      ((writeAll j fs ws).2 = [] → (TouchesSafeLogs logs ws fs (writeAll j fs ws).1 ↔ GivesNoNewline ws)) :=
  ⟨fun _ => accepts_iff, fun place => (writeAll_isKeptOrGiven j fs ws place).2, fun _ hdirs =>
    ⟨touchesSafeLogs_of_givesNoNewline hdirs, fun hwritten =>
      ⟨givesNoNewline_of_touchesSafeLogs hdirs hwritten, touchesSafeLogs_of_givesNoNewline hdirs⟩⟩⟩

/-! One event is written for a session that is accepted and one for a session that is not. -/

def namedEntries : List Entry := [⟨firstSample, some "a-1".toList⟩, ⟨secondSample, some "../a".toList⟩]

theorem logs_named_safely_iff_namedEntries :
    TouchesSafeLogs [['p'], "logs".toList] namedEntries sampleFiles
      (writeAll (sampleJournal 1) sampleFiles namedEntries).1 := by
  obtain ⟨-, -, hnames⟩ := logs_named_safely_iff (sampleJournal 1) sampleFiles namedEntries
  have hwritten : (writeAll (sampleJournal 1) sampleFiles namedEntries).2 = [] := by decide +kernel
  have hlast {name safe : List Char} (h : name.getLast? ≠ some '\n') : some name ≠ some (safe ++ ['\n']) := by
    intro heq
    rw [Option.some.inj heq, List.getLast?_concat] at h
    exact h rfl
  refine ((hnames _ hasDirs_sampleFiles).2 hwritten).2 fun w hw safe _ => ?_
  simp only [namedEntries, List.mem_cons, List.not_mem_nil, or_false] at hw
  rcases hw with rfl | rfl <;> exact hlast (by decide)

/-- **A session that is given with a newline has a log with a newline in its name.** -/
theorem not_touchesSafeLogs_newline :
    ¬ TouchesSafeLogs [['p'], "logs".toList] [⟨firstSample, some "abc\n".toList⟩] sampleFiles
      (writeAll (sampleJournal 1) sampleFiles [⟨firstSample, some "abc\n".toList⟩]).1 := by
  intro h
  have hwritten :
      (writeAll (sampleJournal 1) sampleFiles [⟨firstSample, some "abc\n".toList⟩]).2 = [] := by decide +kernel
  have hsafe : IsSafeName "abc".toList := isSafeName_iff.2 (by decide)
  exact givesNoNewline_of_touchesSafeLogs hasDirs_sampleFiles hwritten h _ List.mem_cons_self _ hsafe rfl

end Abacus.Journal
