import Abacus.Proofs.Console.Recording
import Abacus.Proofs.Console.Transcript
import Abacus.Proofs.Registry.Standard
/-!
# What a sitting records

A sitting whose logs can be appended to, with functions that decide and a number of places that answers can have,
never crashes.  Each line records the events that it calls for; the lines of a formula's values record its answers
(`answers_of_proceed`); and whatever lines are typed, the sitting ends well with its minutes recorded
(`minutes_of_run`).
-/
namespace Abacus.Console

open Desk

/-! ## Events of the prompt -/

theorem isAbout_kept {kind : EventKind} {formula : List Char} {e : Event} (hkind : e.kind = kind)
    (h : List.lookup "expression".toList e.context = some (.str formula)) : IsAbout kind formula e.kept := by
  refine ⟨(Event.kind_kept e).trans hkind, ?_⟩
  rw [Event.lookup_kept e (by decide), h]
  rfl

theorem fits_resultJson (x : Float) : Event.Fits (resultJson x) := by
  rw [resultJson]
  split
  · exact Event.fits_double x
  · exact Event.fits_str _

theorem isRecordable_eventOf {τ : Type} {d : Desk τ} {level : Level} {kind : EventKind} {message : List Char}
    {context : Fields} {code : Option (List Char)} (h : ∀ f ∈ context, Event.Fits f.2) :
    (d.eventOf level kind message context code).isRecordable = true :=
  Event.isRecordable_iff.2 ⟨Event.isUnwritable_currentVersion, h⟩

theorem warning?_eq_none_iff (threshold x : Float) :
    (Status.classify threshold x).warning? = none ↔ isRemarkable threshold x = false := by
  rw [Status.classify, isRemarkable]
  cases x.isNaN with
  | true => simp [Status.warning?]
  | false =>
    cases x.isInf with
    | true => simp [Status.warning?]
    | false => by_cases h : x.abs > threshold <;> simp [Status.warning?, h]

variable {τ : Type} [Instant τ] {r : Registry} {s : Settings} {j : Journal} {session formula : List Char} {d : Desk τ}

theorem records_aboutFormula (h : d.IsRecording j session) (kind : EventKind) (level : Level)
    (message formula : List Char) (canonical : Option (List Char)) (names : Option (List (List Char)))
    (code : Option (List Char)) {extra : Fields} (hfits : ∀ f ∈ extra, Event.Fits f.2)
    (hkey : "expression".toList ∉ extra.map Prod.fst) :
    ∃ e, IsAbout kind formula e ∧ Records j session d
      (d.emit (Event.aboutFormula d.stamp kind level message formula canonical names code extra) (some session)) [e] :=
  ⟨_, isAbout_kept rfl (Event.lookup_aboutFormula _ _ _ _ _ _ _ _ hkey),
    h.emit (Event.isRecordable_aboutFormula _ _ _ _ _ _ _ _ hfits)⟩

theorem records_eventOf (h : d.IsRecording j session) (kind : EventKind) (message : List Char) :
    ∃ e, e.kind = kind ∧ Records j session d (d.emit (d.eventOf .info kind message [] none) (some session)) [e] :=
  ⟨_, Event.kind_kept _, h.emit (isRecordable_eventOf (List.forall_mem_nil _))⟩

theorem report_of_isRecording (h : d.IsRecording j session) (hplaces : ∀ x, ∃ text, answerText s.places x = .ok text)
    (x : Float) : ∃ d' es, report d s formula x (some session) = (d', .ok ()) ∧ Records j session d d' es ∧
      (isRemarkable s.threshold x = false ∧ es = [] ∨
        isRemarkable s.threshold x = true ∧ ∃ w, IsAbout .resultWarning formula w ∧ es = [w]) := by
  obtain ⟨text, htext⟩ := hplaces x
  unfold report
  dsimp only
  cases hwarning : (Status.classify s.threshold x).warning? with
  | none =>
    dsimp only
    rw [htext]
    exact ⟨_, [], rfl, .of_eq rfl rfl, .inl ⟨(warning?_eq_none_iff _ _).1 hwarning, rfl⟩⟩
  | some warning =>
    have hremarkable : isRemarkable s.threshold x = true := by
      rw [← Bool.not_eq_false, ← warning?_eq_none_iff, hwarning]
      exact Option.some_ne_none warning
    have hcomplain : Records j session d (d.complainLine warning) [] := .of_eq rfl rfl
    have hemit := (h.of_records hcomplain).emit (e := (d.complainLine warning).eventOf .warning .resultWarning warning
      [("expression".toList, .str formula), ("status".toList, .str (Status.classify s.threshold x).label)] none)
      (isRecordable_eventOf (by simp [Event.fits_str]))
    dsimp only
    rw [htext]
    exact ⟨_, _, rfl, (hcomplain.trans hemit).shown rfl rfl, .inr ⟨hremarkable, _, isAbout_kept rfl rfl, rfl⟩⟩

namespace Sitting

/-! ## One line -/

theorem excuse_aboutFormula (h : d.IsRecording j session) (kind : EventKind) (level : Level)
    (message formula : List Char) (canonical : Option (List Char)) (names : Option (List (List Char)))
    (code : Option (List Char)) {extra : Fields} (hfits : ∀ f ∈ extra, Event.Fits f.2)
    (hkey : "expression".toList ∉ extra.map Prod.fst) :
    ∃ d' e, excuse (d.emit (Event.aboutFormula d.stamp kind level message formula canonical names code extra)
        (some session)) message = ⟨d', .formula⟩ ∧ IsAbout kind formula e ∧ Records j session d d' [e] := by
  obtain ⟨e, he, hemit⟩ := records_aboutFormula h kind level message formula canonical names code hfits hkey
  exact ⟨_, e, rfl, he, hemit.shown rfl rfl⟩

variable {line : List Char} {lines : List (List Char)} {tree : Expr} {p : Pending}

variable (r s)

theorem feed_exit (hexit : IsExit line) (d : Desk τ) :
    ∃ d', feed r s session ⟨d, .formula⟩ line = ⟨d', .finished⟩ ∧ Records j session d d' [] := by
  rw [feed]
  exact ⟨_, if_pos hexit, .of_eq rfl rfl⟩

theorem feed_blank (hblank : strip line = []) (d : Desk τ) :
    ∃ d', feed r s session ⟨d, .formula⟩ line = ⟨d', .formula⟩ ∧ Records j session d d' [] := by
  rw [feed]
  dsimp only
  rw [hblank]
  exact ⟨_, rfl, .of_eq rfl rfl⟩

theorem feed_formula (hline : IsFormula line) (d : Desk τ) :
    feed r s session ⟨d, .formula⟩ line = takeFormula r s session d (strip line) := by
  have hexit : lower (strip line) ≠ "exit".toList := hline.not_exit
  have hempty : (strip line).isEmpty = false := List.isEmpty_eq_false_iff.2 hline.not_blank
  rw [feed]
  dsimp only
  rw [if_neg hexit, hempty]
  rfl

theorem feed_unparsed (h : d.IsRecording j session) (hline : IsFormula line) {why : FormulaError}
    (hparse : Expr.parse (strip line) = .error why) : ∃ d' e, feed r s session ⟨d, .formula⟩ line = ⟨d', .formula⟩ ∧
      IsAbout .parseFailed (strip line) e ∧ Records j session d d' [e] := by
  rw [feed_formula r s hline, takeFormula, hparse]
  exact excuse_aboutFormula h _ _ _ _ _ _ _ (List.forall_mem_nil _) List.not_mem_nil

theorem feed_parsed (h : d.IsRecording j session) (hline : IsFormula line)
    (hparse : Expr.parse (strip line) = .ok tree) :
    ∃ d' e, feed r s session ⟨d, .formula⟩ line = proceed r s session d' (strip line) tree [] tree.names ∧
      IsAbout .parseCompleted (strip line) e ∧ Records j session d d' [e] := by
  obtain ⟨e, he, hemit⟩ := records_aboutFormula h .parseCompleted .info "parsed".toList (strip line)
    (some tree.text) (some tree.names) none (List.forall_mem_nil _) List.not_mem_nil
  rw [feed_formula r s hline, takeFormula, hparse]
  exact ⟨_, e, rfl, he, hemit.printLine _⟩

theorem feed_value (d : Desk τ) (p : Pending) (line : List Char) :
    feed r s session ⟨d, .value p⟩ line = takeValue r s session d p (strip line) := by
  rw [feed]

theorem feed_number {x : Float} (hread : readDouble? (strip line) = some x) (d : Desk τ) :
    feed r s session ⟨d, .value p⟩ line =
      proceed r s session d p.formula p.tree (Assoc.set p.name x p.context) p.more := by
  rw [feed_value r s, takeValue, hread]

theorem feed_misread (h : d.IsRecording j session) (hread : readDouble? (strip line) = none) :
    ∃ d' e, feed r s session ⟨d, .value p⟩ line = ⟨d', .formula⟩ ∧ IsAbout .evalFailed p.formula e ∧
      Records j session d d' [e] := by
  rw [feed_value r s, takeValue, hread]
  exact excuse_aboutFormula h _ _ _ _ _ _ _ (List.forall_mem_nil _) List.not_mem_nil

theorem foldl_feed_finished (d : Desk τ) (lines : List (List Char)) :
    lines.foldl (feed r s session) ⟨d, .finished⟩ = ⟨d, .finished⟩ := by
  induction lines with
  | nil => rfl
  | cons line lines ih => rw [List.foldl_cons]; exact ih

theorem records_close (sitting : Sitting τ) (h : sitting.desk.IsRecording j session)
    (hwaiting : ∀ c, sitting.waiting ≠ .crashed c) : ∃ d' last, close session sitting = (d', .ok ()) ∧
      last.kind = .sessionEnded ∧ Records j session sitting.desk d' [last] := by
  obtain ⟨d, waiting⟩ := sitting
  have hended {d' : Desk τ} (h : d'.IsRecording j session) :
      ∃ last, last.kind = .sessionEnded ∧ Records j session d' (ended d' session) [last] := records_eventOf h _ _
  have hprint : Records j session d (d.print ['\n']) [] := .of_eq rfl rfl
  cases waiting with
  | crashed c => exact absurd rfl (hwaiting c)
  | finished =>
    obtain ⟨last, hlast, hrecords⟩ := hended h
    exact ⟨_, last, rfl, hlast, hrecords⟩
  | formula =>
    obtain ⟨last, hlast, hrecords⟩ := hended (h.of_records hprint)
    exact ⟨_, last, rfl, hlast, hprint.trans hrecords⟩
  | value p =>
    obtain ⟨last, hlast, hrecords⟩ := hended (h.of_records hprint)
    exact ⟨_, last, rfl, hlast, hprint.trans hrecords⟩

variable {r s}

/-! ## Answers -/

section

variable (hr : r.IsTotal) (hplaces : ∀ x, ∃ text, answerText s.places x = .ok text)

include hr hplaces

theorem answers_of_evaluate (h : d.IsRecording j session) (formula : List Char) (tree : Expr) (c : Context) :
    ∃ d' es, evaluate r s session d formula tree c = ⟨d', .formula⟩ ∧ Answers r s formula tree c [] [] es ∧
      Records j session d d' es := by
  unfold evaluate
  obtain ⟨x, heval⟩ | ⟨why, heval⟩ := Expr.decided_evaluate hr c tree <;> rw [heval] <;> dsimp only
  · have hfits : ∀ f ∈ [("result".toList, resultJson x)], Event.Fits f.2 := by simp [fits_resultJson]
    obtain ⟨e, he, hemit⟩ := records_aboutFormula h .evalCompleted .info "evaluated".toList formula (some tree.text)
      none none hfits (by simp)
    obtain ⟨d', es, hreport, hrecords, hwarns⟩ := report_of_isRecording (h.of_records hemit) hplaces x
    rw [hreport]
    refine ⟨_, _, rfl, ?_, (hemit.trans hrecords).shown rfl rfl⟩
    obtain ⟨hx, rfl⟩ | ⟨hx, w, hw, rfl⟩ := hwarns
    · exact .ordinary heval hx he
    · exact .remarkable heval hx he hw
  · have hfits : ∀ f ∈ [("kind".toList, Json.str why.kind.label)], Event.Fits f.2 := by simp [Event.fits_str]
    obtain ⟨d', e, hexcuse, he, hrecords⟩ :=
      excuse_aboutFormula h .evalFailed .error why.message formula (some tree.text) none (some evalCode) hfits (by simp)
    exact ⟨d', [e], hexcuse, .refused heval he, hrecords⟩

/-- **Values are asked for until the formula is answered or the lines are over.** -/
theorem answers_of_proceed (h : d.IsRecording j session) (formula : List Char) (tree : Expr) (c : Context)
    (names lines : List (List Char)) :
    (∃ d' p, lines.foldl (feed r s session) (proceed r s session d formula tree c names) = ⟨d', .value p⟩ ∧
        lines.length < names.length ∧ (∀ line ∈ lines, (readDouble? (strip line)).isSome) ∧ Records j session d d' []) ∨
      ∃ values more d' es, lines = values ++ more ∧
        values.foldl (feed r s session) (proceed r s session d formula tree c names) = ⟨d', .formula⟩ ∧
        Answers r s formula tree c names values es ∧ Records j session d d' es := by
  induction names generalizing d c lines with
  | nil =>
    obtain ⟨d', es, heval, hanswers, hrecords⟩ := answers_of_evaluate hr hplaces h formula tree c
    refine .inr ⟨[], lines, d', es, rfl, ?_, hanswers, hrecords⟩
    rw [List.foldl_nil, proceed]
    exact heval
  | cons name names ih =>
    have hasks : Records j session d (d.print (valuePrompt name)) [] := .of_eq rfl rfl
    rw [proceed]
    cases lines with
    | nil => exact .inl ⟨_, _, rfl, Nat.succ_pos _, by simp, hasks⟩
    | cons line lines =>
      rw [List.foldl_cons]
      cases hread : readDouble? (strip line) with
      | some x =>
        rw [feed_number r s hread]
        obtain ⟨d', p, hfed, hfew, hnumbers, hrecords⟩ | ⟨values, more, d', es, rfl, hfed, hanswers, hrecords⟩ :=
          ih (h.of_records hasks) (Assoc.set name x c) lines
        · exact .inl ⟨d', p, hfed, Nat.succ_lt_succ hfew, List.forall_mem_cons.2 ⟨hread ▸ rfl, hnumbers⟩,
            hasks.trans hrecords⟩
        · refine .inr ⟨line :: values, more, d', es, rfl, ?_, .value hread hanswers, hasks.trans hrecords⟩
          rw [List.foldl_cons, feed_number r s hread]
          exact hfed
      | none =>
        obtain ⟨d', e, hfed, he, hrecords⟩ := feed_misread r s (h.of_records hasks) hread
        exact .inr ⟨[line], lines, d', [e], rfl, hfed, .misread hread he, hasks.trans hrecords⟩

/-! ## Sittings -/

variable (r s j session) in
/-- A sitting that asks for a formula and is fed these lines ends well, and its transcript is recorded. -/
def EndsWell (d : Desk τ) (lines : List (List Char)) : Prop :=
  ∃ d' es last, close session (lines.foldl (feed r s session) ⟨d, .formula⟩) = (d', .ok ()) ∧ Transcript r s lines es ∧
    last.kind = .sessionEnded ∧ Records j session d d' (es ++ [last])

omit hr hplaces

theorem endsWell_nil (h : d.IsRecording j session) : EndsWell r s j session d [] := by
  obtain ⟨d', last, hclose, hlast, hrecords⟩ := records_close ⟨d, .formula⟩ h (by simp)
  exact ⟨d', [], last, hclose, .ended, hlast, hrecords⟩

theorem endsWell_exit (h : d.IsRecording j session) (hexit : IsExit line) :
    EndsWell r s j session d (line :: lines) := by
  obtain ⟨d₁, hfed, hfirst⟩ := feed_exit r s hexit d
  obtain ⟨d', last, hclose, hlast, hrecords⟩ := records_close ⟨d₁, .finished⟩ (h.of_records hfirst) (by simp)
  refine ⟨d', [], last, ?_, .exit hexit, hlast, hfirst.trans hrecords⟩
  rw [List.foldl_cons, hfed, foldl_feed_finished r s]
  exact hclose

theorem endsWell_blank (h : d.IsRecording j session) (hblank : strip line = [])
    (hrest : ∀ d' : Desk τ, d'.IsRecording j session → EndsWell r s j session d' lines) :
    EndsWell r s j session d (line :: lines) := by
  obtain ⟨d₁, hfed, hfirst⟩ := feed_blank r s hblank d
  obtain ⟨d', es, last, hclose, hes, hlast, hrecords⟩ := hrest d₁ (h.of_records hfirst)
  refine ⟨d', es, last, ?_, .blank hblank hes, hlast, hfirst.trans hrecords⟩
  rw [List.foldl_cons, hfed]
  exact hclose

theorem endsWell_unparsed (h : d.IsRecording j session) (hline : IsFormula line) {why : FormulaError}
    (hparse : Expr.parse (strip line) = .error why)
    (hrest : ∀ d' : Desk τ, d'.IsRecording j session → EndsWell r s j session d' lines) :
    EndsWell r s j session d (line :: lines) := by
  obtain ⟨d₁, e, hfed, he, hfirst⟩ := feed_unparsed r s h hline hparse
  obtain ⟨d', es, last, hclose, hes, hlast, hrecords⟩ := hrest d₁ (h.of_records hfirst)
  refine ⟨d', e :: es, last, ?_, .unparsed hline hparse he hes, hlast, hfirst.trans hrecords⟩
  rw [List.foldl_cons, hfed]
  exact hclose

include hr hplaces

theorem endsWell_parsed (h : d.IsRecording j session) (hline : IsFormula line)
    (hparse : Expr.parse (strip line) = .ok tree)
    (hrest : ∀ (d' : Desk τ) (more : List (List Char)), d'.IsRecording j session → more.length ≤ lines.length →
      EndsWell r s j session d' more) : EndsWell r s j session d (line :: lines) := by
  obtain ⟨d₁, e, hfed, he, hfirst⟩ := feed_parsed r s h hline hparse
  obtain ⟨d₂, p, hvalues, hfew, hnumbers, hnone⟩ | ⟨values, more, d₂, answers, rfl, hvalues, hanswers, hrecorded⟩ :=
    answers_of_proceed hr hplaces (h.of_records hfirst) (strip line) tree [] tree.names lines
  · have hlines := hfirst.trans hnone
    obtain ⟨d', last, hclose, hlast, hrecords⟩ := records_close ⟨d₂, .value p⟩ (h.of_records hlines) (by simp)
    refine ⟨d', [e], last, ?_, .cutShort hline hparse he hfew hnumbers, hlast, hlines.trans hrecords⟩
    rw [List.foldl_cons, hfed, hvalues]
    exact hclose
  · have hgroup := hfirst.trans hrecorded
    have hshorter : more.length ≤ (values ++ more).length := by simp
    obtain ⟨d', es, last, hclose, hes, hlast, hrecords⟩ := hrest d₂ more (h.of_records hgroup) hshorter
    refine ⟨d', e :: (answers ++ es), last, ?_, .parsed hline hparse he hanswers hes, hlast, ?_⟩
    · rw [List.foldl_cons, hfed, List.foldl_append, hvalues]
      exact hclose
    · rw [← List.cons_append, List.append_assoc]
      exact hgroup.trans hrecords

/-- **Whatever is typed, a sitting ends well and its transcript is recorded.** -/
theorem endsWell (h : d.IsRecording j session) (lines : List (List Char)) : EndsWell r s j session d lines := by
  -- the lines of a formula's values go with it, so the rest need not be the tail
  induction hlength : lines.length using Nat.strong_induction_on generalizing d lines with
  | _ n ih =>
    subst hlength
    cases lines with
    | nil => exact endsWell_nil h
    | cons line lines =>
      have hrest (d' : Desk τ) (more : List (List Char)) (h' : d'.IsRecording j session)
          (hmore : more.length ≤ lines.length) : EndsWell r s j session d' more :=
        ih more.length (Nat.lt_succ_of_le hmore) h' more rfl
      by_cases hexit : IsExit line
      · exact endsWell_exit h hexit
      by_cases hblank : strip line = []
      · exact endsWell_blank h hblank fun d' h' => hrest d' lines h' (Nat.le_refl _)
      cases hparse : Expr.parse (strip line) with
      | error why => exact endsWell_unparsed h ⟨hblank, hexit⟩ hparse fun d' h' => hrest d' lines h' (Nat.le_refl _)
      | ok tree => exact endsWell_parsed hr hplaces h ⟨hblank, hexit⟩ hparse hrest

/-- **A whole sitting ends well and records its minutes**, in the log of all events and in its own. -/
theorem minutes_of_run (h : d.IsRecording j d.newSession.2) (lines : List (List Char)) :
    ∃ d' es, run r s d lines = (d', .ok ()) ∧ Minutes r s lines es ∧ Records j d.newSession.2 d d' es := by
  have hcounted : Records j d.newSession.2 d d.newSession.1 [] := .of_eq rfl rfl
  obtain ⟨first, hfirst, hstart⟩ :=
    records_eventOf (h.of_records hcounted) .sessionStarted "session started".toList
  have hopened := ((hcounted.trans hstart).print (greeting r)).print formulaPrompt
  obtain ⟨d', es, last, hclose, hes, hlast, hrecords⟩ := endsWell hr hplaces (h.of_records hopened) lines
  exact ⟨d', first :: es ++ [last], hclose, .mk hfirst hes hlast, hopened.trans hrecords⟩

end

end Sitting

end Abacus.Console
