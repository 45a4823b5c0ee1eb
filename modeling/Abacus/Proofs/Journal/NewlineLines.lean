import Abacus.Proofs.Journal.Legible
import Abacus.Proofs.Json.Fronts
/-!
# Lines that end in newlines

A log is written as lines that end in newlines, but it is cut at every line break, and blanks of all sorts are
stripped from what is cut out.  So each line that ends in a newline is read by itself, in pieces.  One that is JSON
is read for what it is unless there is another line break inside it; one that is no JSON is skipped just if all its
pieces are (`reads_newlineLines`).
-/
namespace Abacus.Journal

open Files

variable {fs : Files} {j : Journal} {log : Path} {bytes : List UInt8} {text line : List Char} {lines : List (List Char)}
  {vs : List Json} {v : Json}

/-! ## Lines and their pieces -/

/-- The lines that end in newlines, and what comes after the last of them. -/
def newlineLines (text : List Char) : List (List Char) := splitAtAll (· == '\n') text

def lineValue? (line : List Char) : Option Json := (Json.read line).toOption

def newlineValues (text : List Char) : List Json := (newlineLines text).filterMap lineValue?

/-- The values that are read from a line, when it is cut at all its line breaks. -/
def pieceValues (line : List Char) : List Json := (logLines line).filterMap valueOf?

def IsOneLine (line : List Char) : Prop := ∀ c ∈ strip line, isLineBreak c = false

theorem logLines_eq_flatMap (text : List Char) : logLines text = (newlineLines text).flatMap logLines := by
  refine splitAtAll_eq_flatMap (fun c hc => ?_) text
  obtain rfl := beq_iff_eq.1 hc
  rfl

theorem valuesOn_congr {line line' : List Char} (h : strip line = strip line') (lines : List (List Char)) :
    valuesOn (line :: lines) = valuesOn (line' :: lines) := by
  rw [valuesOn, valuesOn, h]

theorem valuesOn_blank_append {blanks : List Char} (h : ∀ c ∈ blanks, isBlank c = true) (line : List Char) :
    valuesOn (logLines (blanks ++ line)) = valuesOn (logLines line) := by
  induction blanks with
  | nil => rfl
  | cons c blanks ih =>
    obtain ⟨hc, hblanks⟩ := List.forall_mem_cons.1 h
    have hone : ∀ d ∈ [c], isBlank d = true := List.forall_mem_singleton.2 hc
    rw [← ih hblanks, List.cons_append]
    cases hbreak : isLineBreak c with
    | true =>
      have hnil := valuesOn_append [[]] (logLines (blanks ++ line))
      rw [valuesOn_of_blank rfl] at hnil
      rw [logLines, splitAtAll, if_pos hbreak]
      refine hnil.trans ?_
      cases valuesOn (logLines (blanks ++ line)) <;> rfl
    | false =>
      obtain ⟨piece, pieces, hpieces, hcons⟩ := splitAtAll_cons_of_neg hbreak (blanks ++ line)
      rw [logLines, hcons, logLines, hpieces]
      exact valuesOn_congr (trim_append_left hone piece) pieces

theorem valuesOn_append_blank {blanks : List Char} (h : ∀ c ∈ blanks, isBlank c = true) (line : List Char) :
    valuesOn (logLines (line ++ blanks)) = valuesOn (logLines line) := by
  induction blanks generalizing line with
  | nil => rw [List.append_nil]
  | cons c blanks ih =>
    obtain ⟨hc, hblanks⟩ := List.forall_mem_cons.1 h
    have hone : ∀ d ∈ [c], isBlank d = true := List.forall_mem_singleton.2 hc
    have happend : line ++ c :: blanks = line ++ [c] ++ blanks := by simp
    rw [happend, ih hblanks]
    cases hbreak : isLineBreak c with
    | true =>
      rw [logLines, splitAtAll_append hbreak, valuesOn_append, splitAtAll, valuesOn_of_blank rfl, logLines]
      cases valuesOn (splitAtAll isLineBreak line) <;> simp [Except.bind, Except.map]
    | false =>
      obtain ⟨first, last, hpieces⟩ : ∃ first last, logLines line = first ++ [last] := ⟨_, _, logLines_eq line⟩
      have hunbroken : ∀ d ∈ [c], isLineBreak d = false := List.forall_mem_singleton.2 hbreak
      have hlast := splitAtAll_append_of_forall hpieces hunbroken
      rw [logLines, hlast, hpieces, valuesOn_append, valuesOn_append,
        valuesOn_congr (trim_append_right hone last)]

theorem valuesOn_logLines_strip (line : List Char) : valuesOn (logLines (strip line)) = valuesOn (logLines line) := by
  obtain ⟨before, after, hline, hbefore, hafter⟩ := exists_append_trim isBlank line
  conv_rhs => rw [hline, valuesOn_blank_append hbefore, valuesOn_append_blank hafter]
  rfl

theorem valuesOn_of_isOneLine (hline : IsOneLine line) (h : Json.read line = .ok v) :
    valuesOn (logLines line) = .ok [v] := by
  have hstrip : strip (strip line) = strip line := trim_trim isBlank line
  rw [← valuesOn_logLines_strip, logLines, splitAtAll_of_forall hline, valuesOn, hstrip, Json.read_strip_of_read h]
  rfl

/-! ## Logs -/

theorem valuesOn_logLines_eq_ok_iff : valuesOn (logLines text) = .ok vs ↔
    (∀ line ∈ newlineLines text, ∀ piece ∈ logLines line, isLegible piece = true) ∧
      vs = (newlineLines text).flatMap pieceValues := by
  rw [valuesOn_eq_ok_iff, logLines_eq_flatMap, List.filterMap_flatMap]
  simp only [List.mem_flatMap, forall_exists_index, and_imp]
  exact and_congr_left fun _ => ⟨fun h line hline piece hpiece => h piece line hline hpiece,
    fun h piece line hline hpiece => h line hline piece hpiece⟩

/-- No line that is JSON has a line break inside it. -/
def AreWhole (text : List Char) : Prop := ∀ line ∈ newlineLines text, lineValue? line ≠ none → IsOneLine line

/-- No line that is no JSON has a piece that is, or one that cannot be got past. -/
def AreSkipped (text : List Char) : Prop :=
  ∀ line ∈ newlineLines text, lineValue? line = none →
    ∀ piece ∈ logLines line, Json.read (strip piece) = .error .malformed

theorem isSkipped_iff {piece : List Char} :
    isLegible piece = true ∧ valueOf? piece = none ↔ Json.read (strip piece) = .error .malformed := by
  rw [isLegible, valueOf?]
  cases Json.read (strip piece) with
  | ok v => simp [Except.toOption]
  | error e => cases e <;> simp [Except.toOption]

section Parts

variable {α β : Type} {f : α → Option β} {g : α → List β} {xs : List α}

theorem length_filterMap_le_length_flatMap (h : ∀ x ∈ xs, ∀ y, f x = some y → g x = [y]) :
    (xs.filterMap f).length ≤ (xs.flatMap g).length := by
  induction xs with
  | nil => exact Nat.le_refl 0
  | cons x xs ih =>
    obtain ⟨hx, hxs⟩ := List.forall_mem_cons.1 h
    have hle := ih hxs
    rw [List.flatMap_cons, List.length_append]
    cases hf : f x with
    | none =>
      rw [List.filterMap_cons_none hf]
      omega
    | some y =>
      rw [List.filterMap_cons_some hf, hx y hf, List.length_cons, List.length_singleton]
      omega

theorem flatMap_eq_filterMap_iff (h : ∀ x ∈ xs, ∀ y, f x = some y → g x = [y]) :
    xs.flatMap g = xs.filterMap f ↔ ∀ x ∈ xs, f x = none → g x = [] := by
  induction xs with
  | nil => simp
  | cons x xs ih =>
    obtain ⟨hx, hxs⟩ := List.forall_mem_cons.1 h
    rw [List.forall_mem_cons, List.flatMap_cons]
    cases hf : f x with
    | some y =>
      rw [List.filterMap_cons_some hf, hx y hf, List.singleton_append, List.cons.injEq]
      exact ⟨fun heq => ⟨fun hnone => (nomatch hnone), (ih hxs).1 heq.2⟩, fun hnil => ⟨rfl, (ih hxs).2 hnil.2⟩⟩
    | none =>
      rw [List.filterMap_cons_none hf]
      constructor
      · intro heq
        have hlength := congrArg List.length heq
        have hle := length_filterMap_le_length_flatMap hxs
        rw [List.length_append] at hlength
        have hnil : g x = [] := List.length_eq_zero_iff.1 (by omega)
        rw [hnil, List.nil_append] at heq
        exact ⟨fun _ => hnil, (ih hxs).1 heq⟩
      · rintro ⟨hnil, hrest⟩
        rw [hnil rfl, List.nil_append, (ih hxs).2 hrest]

end Parts

theorem valuesOn_eq_newlineValues_iff (hwhole : AreWhole text) :
    valuesOn (logLines text) = .ok (newlineValues text) ↔ AreSkipped text := by
  have hvalue : ∀ line ∈ newlineLines text, ∀ v, lineValue? line = some v →
      (∀ piece ∈ logLines line, isLegible piece = true) ∧ pieceValues line = [v] := by
    intro line hline v hv
    cases hread : Json.read line with
    | error e =>
      rw [lineValue?, hread] at hv
      cases hv
    | ok w =>
      have hone := hwhole line hline (by rw [hv]; exact Option.some_ne_none v)
      rw [lineValue?, hread] at hv
      cases hv
      obtain ⟨hlegible, hpieces⟩ := valuesOn_eq_ok_iff.1 (valuesOn_of_isOneLine hone hread)
      exact ⟨hlegible, hpieces.symm⟩
  have hiff := flatMap_eq_filterMap_iff fun line hline v hv => (hvalue line hline v hv).2
  rw [valuesOn_logLines_eq_ok_iff, newlineValues, eq_comm (a := List.filterMap _ _), hiff, AreSkipped]
  constructor
  · rintro ⟨hlegible, hnone⟩ line hline hvalueless piece hpiece
    have hpieces := List.filterMap_eq_nil_iff.1 (hnone line hline hvalueless)
    exact isSkipped_iff.1 ⟨hlegible line hline piece hpiece, hpieces piece hpiece⟩
  · intro hskipped
    refine ⟨fun line hline piece hpiece => ?_, fun line hline hvalueless => ?_⟩
    · cases hv : lineValue? line with
      | some v => exact (hvalue line hline v hv).1 piece hpiece
      | none => exact (isSkipped_iff.2 (hskipped line hline hv piece hpiece)).1
    · exact List.filterMap_eq_nil_iff.2 fun piece hpiece =>
        (isSkipped_iff.2 (hskipped line hline hvalueless piece hpiece)).2

/-- **A log is read line by line.**  Take a log whose bytes are text and fit the window.  What is read are the
values of the pieces of each line that ends in a newline, in order; there is an answer exactly if every piece can be
got past.  A line that is JSON is read as its value, if there is no other line break inside it.  If this is so of
all lines that are JSON, the values of the lines are read exactly if every piece of every other line is skipped;
then they are what a reading of the events answers, latest first and up to its limit, and what a reading of a
session answers, oldest first. -/
theorem reads_newlineLines (hlog : fs.read log = .ok bytes) (htext : Utf8.decode? bytes = .ok text)
    (hwindow : (bytes.length : Int) ≤ j.tailBytes) :
    (∀ vs, j.readLog fs log = .ok vs ↔
      (∀ line ∈ newlineLines text, ∀ piece ∈ logLines line, isLegible piece = true) ∧
        vs = (newlineLines text).flatMap pieceValues) ∧
    (∀ line v, IsOneLine line → Json.read line = .ok v → valuesOn (logLines line) = .ok [v]) ∧
    (AreWhole text → (j.readLog fs log = .ok (newlineValues text) ↔ AreSkipped text)) ∧
    (AreWhole text → AreSkipped text →
      (log = globalLog j.project → ∀ limit, j.readGlobal fs none none limit =
        .ok (takeLimit (min limit maxEvents) (newlineValues text).reverse)) ∧
      ∀ session, accepts session = true → log = sessionLog j.project session →
        j.readSession fs session = .ok (newlineValues text)) := by
  have hread : j.readLog fs log = valuesOn (logLines text) := by
    rw [readLog_of_read hlog (by omega), tail_of_le (by omega), valuesIn, Utf8.decode_of_decode? htext]
  rw [hread]
  refine ⟨fun vs => valuesOn_logLines_eq_ok_iff, fun line v => valuesOn_of_isOneLine, valuesOn_eq_newlineValues_iff,
    fun hwhole hskipped => ?_⟩
  rw [(valuesOn_eq_newlineValues_iff hwhole).2 hskipped] at hread
  constructor
  · rintro rfl limit
    rw [readGlobal, hread]
    rfl
  · rintro session haccepts rfl
    rw [readSession, if_pos haccepts, hread]

/-! A log with an event, a blank line and a broken one; and a log with an event that has a line separator in a
string. -/

def mixedText : List Char := "\x7b\"n\": 1\x7d\r\n\noops\n".toList

def separatorText : List Char := "\x7b\"a\": \"x\u2028y\"\x7d\n".toList

/-- Carriage returns before the newlines do no harm. -/
theorem reads_newlineLines_mixedText :
    (sampleJournal 1000).readGlobal (filesWithLog (Utf8.encode mixedText)) none none 200 =
    .ok [.obj [("n".toList, .int 1)]] := by
  have hlines : newlineLines mixedText = ["\x7b\"n\": 1\x7d\r".toList, [], "oops".toList, []] := by decide
  have hwhole : AreWhole mixedText := by
    rw [AreWhole, hlines]
    simp only [List.forall_mem_cons]
    refine ⟨fun _ => ?_, fun h => ?_, fun h => ?_, fun h => ?_, List.forall_mem_nil _⟩
    · have hall : (strip "\x7b\"n\": 1\x7d\r".toList).all (fun c => !isLineBreak c) = true := by cbv
      exact fun c hc => by simpa using List.all_eq_true.1 hall c hc
    all_goals exact absurd (by cbv) h
  have hskipped : AreSkipped mixedText := by
    rw [AreSkipped, hlines]
    simp only [List.forall_mem_cons]
    have hempty : ∀ piece ∈ logLines [], Json.read (strip piece) = .error .malformed :=
      List.forall_mem_singleton.2 (by cbv)
    have hbroken : ∀ piece ∈ logLines "oops".toList, Json.read (strip piece) = .error .malformed :=
      List.forall_mem_singleton.2 (by cbv)
    refine ⟨fun h => ?_, fun _ => hempty, fun _ => hbroken, fun _ => hempty, List.forall_mem_nil _⟩
    have hvalue : lineValue? "\x7b\"n\": 1\x7d\r".toList = some (.obj [("n".toList, .int 1)]) := by cbv
    rw [hvalue] at h
    cases h
  have hvalues : newlineValues mixedText = [.obj [("n".toList, .int 1)]] := by cbv
  have htext : Utf8.decode? (Utf8.encode mixedText) = .ok mixedText := by cbv
  have hlog : (filesWithLog (Utf8.encode mixedText)).read (globalLog sampleProject) = .ok (Utf8.encode mixedText) := rfl
  obtain ⟨-, -, -, hall⟩ := reads_newlineLines (j := sampleJournal 1000) hlog htext (by decide)
  rw [(hall hwhole hskipped).1 rfl 200, hvalues]
  rfl

/-- **An event with a line separator in a string is lost.** -/
theorem readGlobal_separatorText :
    (sampleJournal 1000).readGlobal (filesWithLog (Utf8.encode separatorText)) none none 200 = .ok [] ∧
    Utf8.decode? (Utf8.encode separatorText) = .ok separatorText ∧
    newlineValues separatorText = [.obj [("a".toList, .str "x\u2028y".toList)]] := by
  have hlog :
      (filesWithLog (Utf8.encode separatorText)).read (globalLog sampleProject) = .ok (Utf8.encode separatorText) := rfl
  have htext : Utf8.decode? (Utf8.encode separatorText) = .ok separatorText := by cbv
  refine ⟨?_, htext, by cbv⟩
  have hvalues : valuesIn (Utf8.encode separatorText) = .ok [] := by cbv
  have hread :
      (sampleJournal 1000).readLog (filesWithLog (Utf8.encode separatorText)) (globalLog sampleProject) = .ok [] := by
    rw [← hvalues]
    exact readLog_of_read hlog (by decide)
  exact readGlobal_of_readLog hread 200

end Abacus.Journal
