import Abacus.Proofs.Console.Usable
/-!
# The list of events

The command that lists events reads the log through a journal of its own, whose window is the default one, and not
through the journal that the project has set up.  Both answer the latest of the same events, so what is printed is
what the project's journal answers exactly if it answers as many events (`printed_eq_answered_iff`).  A small window
that the log has outgrown tells them apart (`printed_ne_answered`).
-/
namespace Abacus.Console

open Desk Files Journal

variable {τ : Type} [Instant τ] {s : Settings} {d : Desk τ} {dir : List Char} {args rest : List (List Char)}
  {fs : Files} {place : Place} {es : List Event} {t : Option Int} {level kind : Option (List Char)} {limit : Int}
  {vs us : List Json}

def eventLines (vs : List Json) : List Char := vs.flatMap fun v => v.sortedText ++ ['\n']

omit [Instant τ] in
theorem out_printLines (d : Desk τ) (vs : List Json) :
    (vs.foldl (fun d v => d.printLine v.sortedText) d).out = d.out ++ eventLines vs ∧
      (vs.foldl (fun d v => d.printLine v.sortedText) d).files = d.files := by
  induction vs generalizing d with
  | nil => exact ⟨(List.append_nil _).symm, rfl⟩
  | cons v vs ih =>
    have hescape : escapeChar ∉ v.sortedText ++ ['\n'] := by
      intro hmem
      rcases List.mem_append.1 hmem with hmem | hmem
      · exact absurd (List.all_eq_true.1 (Json.isPlain_text v.sorted) _ hmem) (by decide)
      · exact absurd (List.mem_singleton.1 hmem) (by decide)
    have hprint : (d.printLine v.sortedText).out = d.out ++ (v.sortedText ++ ['\n']) := by
      rw [Desk.printLine, Desk.print, withoutControls_eq_self hescape]
    obtain ⟨hout, hfiles⟩ := ih (d.printLine v.sortedText)
    rw [List.foldl_cons, hout, hfiles, hprint, eventLines, eventLines, List.flatMap_cons, List.append_assoc]
    exact ⟨rfl, rfl⟩

theorem eq_of_eventLines (h : vs <+: us) (hlines : eventLines vs = eventLines us) : vs = us := by
  obtain ⟨more, rfl⟩ := h
  cases more with
  | nil => rw [List.append_nil]
  | cons v more =>
    rw [eventLines, eventLines, List.flatMap_append, List.self_eq_append_right, List.flatMap_cons] at hlines
    simp at hlines

theorem eventLines_answered_iff (window window' : Nat) (level kind : Option (List Char)) (limit : Int)
    (es : List Event) :
    eventLines (answered window level kind limit es) = eventLines (answered window' level kind limit es) ↔
      (answered window level kind limit es).length = (answered window' level kind limit es).length := by
  have heq : answered window level kind limit es = answered window' level kind limit es ↔
      (answered window level kind limit es).length = (answered window' level kind limit es).length := by
    refine ⟨congrArg List.length, fun hlength => ?_⟩
    rcases answered_comparable window window' level kind limit es with h | h
    · exact h.eq_of_length hlength
    · exact (h.eq_of_length hlength.symm).symm
  rw [← heq]
  refine ⟨fun hlines => ?_, congrArg eventLines⟩
  rcases answered_comparable window window' level kind limit es with h | h
  · exact eq_of_eventLines h hlines
  · exact (eq_of_eventLines h hlines.symm).symm

omit [Instant τ] in
theorem readGlobal_of_start {syncs : Bool} {j : Journal} (hwindow : ∀ T, t = some T → 0 ≤ T)
    (hstart : Journal.start d.files (.ofText dir) syncs t = (fs, .ok j))
    (hlog : fs.writable (globalLog (.ofText dir)) = .ok (place, bytesOf es))
    (hes : ∀ e ∈ es, e.hasUniqueKeys = true ∧ e.isRecordable = true) (level kind : Option (List Char)) (limit : Int) :
    j.tailBytes = t.getD defaultTailBytes ∧ j.readGlobal fs level kind limit =
      .ok (answered j.tailBytes.toNat level kind limit es) := by
  have hsame := (start_of_start hstart syncs t).symm.trans hstart
  obtain rfl := Except.ok.inj (Prod.mk.inj hsame).2
  have hnonneg : 0 ≤ t.getD defaultTailBytes := by
    cases t with
    | none => decide
    | some T => exact hwindow T rfl
  exact ⟨rfl,
    readGlobal_of_events (j := ⟨.ofText dir, syncs, t.getD defaultTailBytes⟩) hes hlog hnonneg level kind limit⟩

section

variable {j : Journal} (hread : Request.read d.files args = .ok (.command (some dir) "events".toList rest))
  (hcommand : Command.readEvents? rest = some (.events level kind limit))
  (hload : Settings.load d.files (.ofText dir) = .ok s) (hlogs : s.logs = true) (htail : s.tailBytes = .ok t)
  (hstart : Journal.start d.files (.ofText dir) s.syncs t = (fs, .ok j))
  (hlog : fs.writable (globalLog (.ofText dir)) = .ok (place, bytesOf es))
  (hes : ∀ e ∈ es, e.hasUniqueKeys = true ∧ e.isRecordable = true)

include hread hcommand hload hlogs htail hstart

theorem prepare_events : prepare d args =
    ({ d with files := fs, journal := some j }, .ok (some (s, some (.ofText dir), .events level kind limit))) :=
  prepare_of_enter hread (enter_of_logs hload hlogs htail hstart)
    (congrArg wellFormed hcommand : Command.read fs "events".toList rest = wellFormed (some (.events level kind limit)))

include hlog hes

/-- **The command prints what a reading with the default window answers**, whatever window the project has set. -/
theorem run_events (input : List Char) : (run .standard d args input).2 = .ok () ∧
    (run .standard d args input).1.files = fs ∧ (run .standard d args input).1.out =
      d.out ++ eventLines (answered defaultTailBytes.toNat level kind limit es) := by
  obtain ⟨logs, hdirs⟩ := hasDirs_of_start hstart
  have hwindow : 0 ≤ defaultTailBytes := by decide
  have hprinted := readGlobal_of_events (j := ⟨.ofText dir, false, defaultTailBytes⟩) hes hlog hwindow level kind limit
  have hlisted := runEvents_of_read (d := { d with files := fs, journal := some j }) (start_of_hasDirs hdirs false none)
    hprinted
  have hrun : run .standard d args input = done ((answered defaultTailBytes.toNat level kind limit es).foldl
      (fun d v => d.printLine v.sortedText) { d with files := fs, journal := some j }) := by
    rw [run_eq_explained, start, prepare_events hread hcommand hload hlogs htail hstart]
    dsimp only
    rw [runCommand, hlisted]
    rfl
  obtain ⟨hout, hfiles⟩ := out_printLines { d with files := fs, journal := some j }
    (answered defaultTailBytes.toNat level kind limit es)
  rw [hrun]
  exact ⟨rfl, hfiles, hout⟩

/-- **What is printed is what the project's journal answers exactly if that answers as many events.**  Take a
project that logs, whose settings have a window or none and whose log of all events, if it is there, holds events.
Whatever filters and limit it is given, the command ends well and prints, as lines with their fields in order, the
events that a reading with the default window answers, latest first; the journal of the project answers those of its
own window; and these are the same exactly if they are equally many. -/
theorem printed_eq_answered_iff (hwindow : ∀ T, t = some T → 0 ≤ T) (input : List Char) :
    (prepare d args).1.journal = some j ∧ j.tailBytes = t.getD defaultTailBytes ∧
    j.readGlobal fs level kind limit = .ok (answered j.tailBytes.toNat level kind limit es) ∧
    (run .standard d args input).2 = .ok () ∧ (run .standard d args input).1.files = fs ∧
    (run .standard d args input).1.out =
      d.out ++ eventLines (answered defaultTailBytes.toNat level kind limit es) ∧
    ((run .standard d args input).1.out = d.out ++ eventLines (answered j.tailBytes.toNat level kind limit es) ↔
      (answered j.tailBytes.toNat level kind limit es).length =
        (answered defaultTailBytes.toNat level kind limit es).length) := by
  have hprepare := prepare_events hread hcommand hload hlogs htail hstart
  obtain ⟨htailBytes, hanswered⟩ := readGlobal_of_start hwindow hstart hlog hes level kind limit
  obtain ⟨houtcome, hfiles, hout⟩ := run_events hread hcommand hload hlogs htail hstart hlog hes input
  refine ⟨by rw [hprepare], htailBytes, hanswered, houtcome, hfiles, hout, ?_⟩
  rw [← eventLines_answered_iff, hout, List.append_cancel_left_eq, eq_comm]

end

/-! A project whose log has outgrown the window of 400 bytes that is set. -/

def outgrownDesk : Desk Rat :=
  deskWith "logging_tail_bytes: 400\n".toList fun fs =>
    (fs.set ["p".toList, "logs".toList] .dir).set ["p".toList, "logs".toList, "events.ndjson".toList]
      (.file (bytesOf [firstSample, secondSample, thirdSample]))

def outgrownFiles : Files := outgrownDesk.files.set ["p".toList, "logs".toList, "sessions".toList] .dir

theorem settings_outgrownDesk : ∃ s, Settings.load outgrownDesk.files (.ofText ['p']) = .ok s ∧ s.logs = true ∧
    s.tailBytes = .ok (some 400) := by
  have hany : (Settings.load outgrownDesk.files (.ofText ['p'])).toOption.any (fun s => s.logs &&
      decide (s.tailBytes = .ok (some 400))) = true := by decide +kernel
  obtain ⟨s, hload, hs⟩ := Expr.exists_of_any hany
  simp only [Bool.and_eq_true, decide_eq_true_eq] at hs
  exact ⟨s, hload, hs⟩

theorem start_outgrownDesk (syncs : Bool) : Journal.start outgrownDesk.files (.ofText ['p']) syncs (some 400) =
    (outgrownFiles, .ok ⟨.ofText ['p'], syncs, 400⟩) := by
  have hstart : Journal.start outgrownDesk.files (.ofText ['p']) false none =
      (outgrownFiles, .ok ⟨.ofText ['p'], false, defaultTailBytes⟩) := Prod.ext rfl (by rfl)
  exact start_of_start hstart syncs (some 400)

theorem windowed_samples : windowed 400 [firstSample, secondSample, thirdSample] = [secondSample, thirdSample] ∧
    windowed defaultTailBytes.toNat [firstSample, secondSample, thirdSample] =
      [firstSample, secondSample, thirdSample] := by
  have hall := length_bytesOf_samples
  have hlast : (bytesOf [secondSample, thirdSample]).length = 332 := by simp [bytesOf, length_bytes_samples]
  have hdefault : defaultTailBytes.toNat = 2097152 := by decide
  constructor
  · rw [windowed, if_neg (by omega), newest, if_neg (by omega), newest, if_pos (by omega)]
  · rw [windowed, if_pos (by omega)]

theorem answered_samples (limit : Int) :
    answered 400 none none limit [firstSample, secondSample, thirdSample] =
      takeLimit (min limit maxEvents) [thirdSample.recorded, secondSample.recorded] ∧
    answered defaultTailBytes.toNat none none limit [firstSample, secondSample, thirdSample] =
      takeLimit (min limit maxEvents) [thirdSample.recorded, secondSample.recorded, firstSample.recorded] := by
  have hpasses (key : List Char) (vs : List Json) : vs.filter (passes key none) = vs :=
    List.filter_eq_self.2 fun _ _ => rfl
  obtain ⟨hsmall, hdefault⟩ := windowed_samples
  rw [answered, answered, hsmall, hdefault, selected, selected, hpasses, hpasses, hpasses, hpasses]
  exact ⟨rfl, rfl⟩

theorem recordable_samples : ∀ e ∈ [firstSample, secondSample, thirdSample],
    e.hasUniqueKeys = true ∧ e.isRecordable = true := by decide +kernel

/-- The two latest events, which the window of the project takes. -/
theorem printed_eq_answered_iff_twoEvents : ∃ j : Journal, j.tailBytes = 400 ∧
    j.readGlobal outgrownFiles none none 2 = .ok [thirdSample.recorded, secondSample.recorded] ∧
    (run .standard outgrownDesk (projectArgs (some ['p']) ++ ["events".toList, "--limit=2".toList]) []).1.out =
      eventLines [thirdSample.recorded, secondSample.recorded] := by
  obtain ⟨s, hload, hlogs, htail⟩ := settings_outgrownDesk
  have hread : Request.read outgrownDesk.files (projectArgs (some ['p']) ++ ["events".toList, "--limit=2".toList]) =
      .ok (.command (some ['p']) "events".toList ["--limit=2".toList]) := rfl
  have hcommand : Command.readEvents? ["--limit=2".toList] = some (.events none none 2) := rfl
  have hlog : outgrownFiles.writable (globalLog (.ofText ['p'])) =
      .ok (["p".toList, "logs".toList, "events.ndjson".toList], bytesOf [firstSample, secondSample, thirdSample]) := rfl
  obtain ⟨-, -, hanswered, -, -, -, hprinted⟩ := printed_eq_answered_iff hread hcommand hload hlogs htail
    (start_outgrownDesk s.syncs) hlog recordable_samples (fun T hT => by cases hT; decide) []
  obtain ⟨hsmall, hdefault⟩ := answered_samples 2
  have hlength : (answered 400 none none 2 [firstSample, secondSample, thirdSample]).length =
      (answered defaultTailBytes.toNat none none 2 [firstSample, secondSample, thirdSample]).length := by
    rw [hsmall, hdefault]
    rfl
  exact ⟨_, rfl, hanswered.trans (congrArg Except.ok hsmall),
    (hprinted.2 hlength).trans (congrArg eventLines hsmall)⟩

/-- **An event that the project's window has lost is still printed.** -/
theorem printed_ne_answered : ∃ j : Journal,
    (prepare outgrownDesk (projectArgs (some ['p']) ++ ["events".toList])).1.journal = some j ∧
    j.readGlobal outgrownFiles none none defaultLimit = .ok [thirdSample.recorded, secondSample.recorded] ∧
    (run .standard outgrownDesk (projectArgs (some ['p']) ++ ["events".toList]) []).1.out =
      eventLines [thirdSample.recorded, secondSample.recorded, firstSample.recorded] ∧
    (run .standard outgrownDesk (projectArgs (some ['p']) ++ ["events".toList]) []).1.out ≠
      eventLines [thirdSample.recorded, secondSample.recorded] := by
  obtain ⟨s, hload, hlogs, htail⟩ := settings_outgrownDesk
  have hread : Request.read outgrownDesk.files (projectArgs (some ['p']) ++ ["events".toList]) =
      .ok (.command (some ['p']) "events".toList []) := rfl
  have hcommand : Command.readEvents? [] = some (.events none none defaultLimit) := rfl
  have hlog : outgrownFiles.writable (globalLog (.ofText ['p'])) =
      .ok (["p".toList, "logs".toList, "events.ndjson".toList], bytesOf [firstSample, secondSample, thirdSample]) := rfl
  have hstart := start_outgrownDesk s.syncs
  obtain ⟨-, hanswered⟩ :=
    readGlobal_of_start (fun T hT => by cases hT; decide) hstart hlog recordable_samples none none defaultLimit
  obtain ⟨-, -, hout⟩ := run_events hread hcommand hload hlogs htail hstart hlog recordable_samples []
  obtain ⟨hsmall, hdefault⟩ := answered_samples defaultLimit
  rw [hdefault] at hout
  refine ⟨_, by rw [prepare_events hread hcommand hload hlogs htail hstart],
    hanswered.trans (congrArg Except.ok hsmall), hout, fun heq => ?_⟩
  have hlines : eventLines [thirdSample.recorded, secondSample.recorded] =
      eventLines [thirdSample.recorded, secondSample.recorded, firstSample.recorded] := heq.symm.trans hout
  cases eq_of_eventLines
    (List.prefix_append [thirdSample.recorded, secondSample.recorded] [firstSample.recorded]) hlines

end Abacus.Console
