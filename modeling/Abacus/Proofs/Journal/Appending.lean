import Abacus.Proofs.Journal.Reading
import Abacus.Proofs.Json.Glued
/-!
# Adding to a log, whatever it holds

A log may hold anything: broken lines, bytes that are no text, and a last line that was never ended.  The line of an
event goes on the last line of the log.  If nothing but blanks stands there, the event is read, after what the window
leaves of the log (`valuesIn_append_of_endsLine`).  Otherwise the two lines are one, which is not read, so the event is
lost (`valuesIn_append_of_not_endsLine`); and it is also lost when a cut window has no newline before it.
-/
namespace Abacus.Journal

open Files

variable {fs fs' : Files} {project : Path} {logs place : Place} {j : Journal} {e : Event} {window : Nat}
  {old new bytes : List UInt8}

/-! ## The last line -/

def lastLine (bytes : List UInt8) : List Char := (logLines (Utf8.decode bytes)).getLastD []

/-- Whether what is added starts a line of its own, blanks aside. -/
def endsLine (bytes : List UInt8) : Bool := (lastLine bytes).all isBlank

theorem logLines_eq (text : List Char) :
    logLines text = (logLines text).dropLast ++ [(logLines text).getLastD []] := by
  have hne : logLines text ≠ [] := splitAtAll_ne_nil isLineBreak text
  rw [List.getLastD_eq_getLast?, List.getLast?_eq_some_getLast hne]
  exact (List.dropLast_append_getLast hne).symm

theorem decode_append_body (bytes : List UInt8) (e : Event) :
    Utf8.decode (bytes ++ e.body) = Utf8.decode bytes ++ e.toJson.sortedText := by
  obtain ⟨middle, hmiddle⟩ := e.sortedText_toJson
  have hbody : e.body = 0x7B :: Utf8.encode (middle ++ ['}']) := by
    rw [Event.body, hmiddle, List.cons_append, Utf8.encode, List.flatMap_cons]
    rfl
  rw [hbody, Utf8.decode_append (by decide), ← hbody, e.decode_body]

theorem valuesIn_append_bytes (bytes : List UInt8) (e : Event) : valuesIn (bytes ++ e.bytes) =
    (valuesOn (logLines (Utf8.decode bytes)).dropLast).bind fun vs =>
      (valuesOn [lastLine bytes ++ e.toJson.sortedText]).map (vs ++ ·) := by
  have hplain : ∀ c ∈ e.toJson.sortedText, isLineBreak c = false :=
    fun c hc => not_isLineBreak (List.all_eq_true.1 e.isPlain_sortedText c hc)
  have hlines := splitAtAll_append_of_forall (logLines_eq (Utf8.decode bytes)) hplain
  have hnil (x : Except ReadFailure (List Json)) : (x.bind fun vs => (valuesIn []).map (vs ++ ·)) = x := by
    rw [valuesIn_nil]
    cases x <;> simp [Except.bind, Except.map]
  rw [e.bytes_eq, ← List.append_assoc, valuesIn_append_newline, hnil, valuesIn, decode_append_body, logLines, hlines,
    valuesOn_append]
  rfl

theorem valuesOn_of_blank {line : List Char} (h : line.all isBlank = true) : valuesOn [line] = .ok [] := by
  have hstrip : strip line = [] := by
    rw [strip, trim, List.dropWhile_eq_nil_iff.2 (List.all_eq_true.1 h)]
    rfl
  rw [valuesOn, hstrip]
  rfl

theorem valuesIn_of_endsLine (h : endsLine bytes = true) :
    valuesIn bytes = valuesOn (logLines (Utf8.decode bytes)).dropLast := by
  rw [valuesIn, logLines_eq, valuesOn_append, ← lastLine, valuesOn_of_blank h, List.dropLast_concat]
  cases valuesOn (logLines (Utf8.decode bytes)).dropLast <;> simp [Except.bind, Except.map]

/-- **An event whose line starts a line of the log is read**, after what stands there. -/
theorem valuesIn_append_of_endsLine (h : endsLine bytes = true) (hkeys : e.hasUniqueKeys = true)
    (hrecordable : e.isRecordable = true) :
    valuesIn (bytes ++ e.bytes) = (valuesIn bytes).map (· ++ [e.recorded]) := by
  obtain ⟨middle, hmiddle⟩ := e.sortedText_toJson
  have hstrip : strip (lastLine bytes ++ e.toJson.sortedText) = e.toJson.sortedText := by
    rw [hmiddle]
    exact strip_append (List.all_eq_true.1 h) rfl rfl
  have hread := Json.read_sortedText (Event.isReadable_toJson hkeys hrecordable) (Event.height_toJson_le hrecordable)
  rw [valuesIn_append_bytes, valuesIn_of_endsLine h, valuesOn, hstrip, hread]
  cases valuesOn (logLines (Utf8.decode bytes)).dropLast <;> rfl

/-! ## A line that was not ended -/

theorem isObjectText_sortedText (hkeys : e.hasUniqueKeys = true) (hrecordable : e.isRecordable = true) :
    Json.IsObjectText e.toJson.sortedText := by
  have hreadable := Json.isReadable_sorted (Event.isReadable_toJson hkeys hrecordable)
  have htext : e.toJson.sortedText = e.recorded.text := rfl
  rw [← Event.recorded, Event.recorded_eq] at hreadable
  rw [htext, Event.recorded_eq]
  exact Json.isObjectText_obj hreadable ⟨'c', _, rfl, by decide⟩

theorem exists_strip_append {line : List Char} (h : line.all isBlank = false) (e : Event) :
    ∃ c u, isBlank c = false ∧ strip (line ++ e.toJson.sortedText) = c :: u ++ e.toJson.sortedText := by
  obtain ⟨middle, hmiddle⟩ := e.sortedText_toJson
  have hne : line.dropWhile isBlank ≠ [] := by
    rw [ne_eq, List.dropWhile_eq_nil_iff, ← List.all_eq_true, h]
    exact Bool.false_ne_true
  obtain ⟨c, u, hcu⟩ := List.exists_cons_of_ne_nil hne
  have hc : isBlank c = false := by
    have hhead := List.head_dropWhile_not isBlank hne
    simpa [hcu] using hhead
  have hline : line.takeWhile isBlank ++ (c :: (u ++ '{' :: middle) ++ ['}']) = line ++ ('{' :: middle ++ ['}']) := by
    conv_rhs => rw [← List.takeWhile_append_dropWhile (p := isBlank) (l := line), hcu]
    simp
  have hblanks : ∀ b ∈ line.takeWhile isBlank, isBlank b = true := fun b hb => List.mem_takeWhile_imp hb
  refine ⟨c, u, hc, ?_⟩
  rw [hmiddle, ← hline, strip_append hblanks hc rfl]
  simp

theorem isSpace_of_not_isBlank {c : Char} (h : isBlank c = false) : Json.isSpace c = false := by
  rw [← Bool.not_eq_true]
  intro hspace
  simp only [Json.isSpace, Bool.or_eq_true, beq_iff_eq] at hspace
  rcases hspace with ((rfl | rfl) | rfl) | rfl <;> cases h

/-- **An event whose line goes on a line of the log is lost**, and so is what stands on that line. -/
theorem valuesIn_append_of_not_endsLine (h : endsLine bytes = false) (hkeys : e.hasUniqueKeys = true)
    (hrecordable : e.isRecordable = true) {kept vs : List Json} (hkept : valuesIn bytes = .ok kept)
    (hvs : valuesIn (bytes ++ e.bytes) = .ok vs) : vs <+: kept := by
  obtain ⟨c, u, hc, hstrip⟩ := exists_strip_append h e
  have hread := Json.read_append_ne_ok (isObjectText_sortedText hkeys hrecordable) (isSpace_of_not_isBlank hc) u
  rw [valuesIn, logLines_eq, valuesOn_append] at hkept
  rw [valuesIn_append_bytes, valuesOn, hstrip] at hvs
  cases hfirst : valuesOn (logLines (Utf8.decode bytes)).dropLast with
  | error f => rw [hfirst] at hkept; cases hkept
  | ok first =>
    rw [hfirst] at hkept hvs
    obtain ⟨more, -, hmore⟩ := Json.map_ok hkept
    obtain ⟨last, hlast, hvs⟩ := Json.map_ok hvs
    have hnone : last = [] := by
      split at hlast
      · exact absurd ‹_› (hread _)
      · cases hlast
        rfl
      all_goals cases hlast
    rw [hnone, List.append_nil] at hvs
    exact ⟨more, hvs ▸ hmore⟩

/-! ## The window -/

/-- What a window leaves of old bytes once new ones have been added: all of them, or what comes after the first newline
in it.  Nothing is left, and no new line either, if there is no newline among the old bytes in the window. -/
def remaining (window : Nat) (old new : List UInt8) : Option (List UInt8) :=
  if old.length + new.length ≤ window then some old
  else
    match (old.drop (old.length + new.length - window)).dropWhile (· != 10) with
    | []        => none
    | _ :: rest => some rest

theorem dropWhile_newline (bytes : List UInt8) : bytes.dropWhile (· != 10) = [] ∧ 10 ∉ bytes ∨
    ∃ front rest, bytes.dropWhile (· != 10) = 10 :: rest ∧ 10 ∉ front ∧ bytes = front ++ 10 :: rest := by
  induction bytes with
  | nil => exact .inl ⟨rfl, List.not_mem_nil⟩
  | cons b bytes ih =>
    by_cases hb : b = 10
    · subst hb
      exact .inr ⟨[], bytes, rfl, List.not_mem_nil, rfl⟩
    · have hcons : (b :: bytes).dropWhile (· != 10) = bytes.dropWhile (· != 10) :=
        List.dropWhile_cons_of_pos (bne_iff_ne.2 hb)
      rw [hcons]
      rcases ih with ⟨hnil, hnot⟩ | ⟨front, rest, hdrop, hnot, rfl⟩
      · exact .inl ⟨hnil, by simp [hnot, Ne.symm hb]⟩
      · exact .inr ⟨b :: front, rest, hdrop, by simp [hnot, Ne.symm hb], rfl⟩

theorem tail_append_bytes (h : e.bytes.length < window) (old : List UInt8) :
    tail window (old ++ e.bytes) = (remaining window old e.bytes).elim [] (· ++ e.bytes) := by
  have hlength : (old ++ e.bytes).length = old.length + e.bytes.length := List.length_append
  rw [remaining]
  split
  · exact tail_of_le (by omega)
  · have hdrop : (old ++ e.bytes).drop ((old ++ e.bytes).length - window) =
        old.drop (old.length + e.bytes.length - window) ++ e.bytes := by
      rw [hlength, List.drop_append_of_le_length (by omega)]
    rw [tail_of_lt (by omega), hdrop]
    generalize old.drop (old.length + e.bytes.length - window) = bytes
    rcases dropWhile_newline bytes with ⟨hnil, hnot⟩ | ⟨front, rest, hcons, hnot, hbytes⟩
    · have hbody : 10 ∉ bytes ++ e.body := by simp [hnot, e.newline_not_mem_body]
      rw [hnil, e.bytes_eq, ← List.append_assoc, afterNewline_append hbody]
      rfl
    · rw [hcons, hbytes, List.append_assoc, List.cons_append, afterNewline_append hnot]
      rfl

theorem tail_of_remaining {rest : List UInt8} (h : remaining window old new = some rest) :
    tail window old = rest ∨ ∃ front, tail window old = front ++ 10 :: rest := by
  rw [remaining] at h
  split at h
  · cases h
    exact .inl (tail_of_le (by omega))
  · rcases dropWhile_newline (old.drop (old.length + new.length - window)) with
      ⟨hnil, -⟩ | ⟨front, rest', hcons, hnot, hdrop⟩
    · rw [hnil] at h
      cases h
    · rw [hcons] at h
      cases h
      by_cases hle : old.length ≤ window
      · refine .inr ⟨old.take (old.length + new.length - window) ++ front, ?_⟩
        rw [tail_of_le hle, List.append_assoc, ← hdrop, List.take_append_drop]
      · -- the window was too small before, and its start has moved on by the new bytes
        have hstart : old.drop (old.length - window) =
            (old.drop (old.length - window)).take new.length ++ (front ++ 10 :: rest) := by
          have hsum : old.length - window + new.length = old.length + new.length - window := by omega
          rw [← hdrop, ← hsum, ← List.drop_drop, List.take_append_drop]
        rw [tail_of_lt (by omega), hstart]
        generalize (old.drop (old.length - window)).take new.length = bytes
        rcases dropWhile_newline bytes with ⟨-, hbytes⟩ | ⟨front', rest'', -, hbytes, rfl⟩
        · rw [← List.append_assoc, afterNewline_append (by simp [hbytes, hnot])]
          exact .inl rfl
        · rw [List.append_assoc, List.cons_append, afterNewline_append hbytes, ← List.append_assoc]
          exact .inr ⟨_, rfl⟩

theorem valuesIn_remaining {rest : List UInt8} (h : remaining window old new = some rest) {before kept : List Json}
    (hbefore : valuesIn (tail window old) = .ok before) (hkept : valuesIn rest = .ok kept) : kept <:+ before := by
  rcases tail_of_remaining h with htail | ⟨front, htail⟩
  · rw [htail, hkept] at hbefore
    cases hbefore
    exact List.suffix_rfl
  · rw [htail, valuesIn_append_newline, hkept] at hbefore
    cases hfront : valuesIn front with
    | error f => rw [hfront] at hbefore; cases hbefore
    | ok first =>
      rw [hfront] at hbefore
      cases hbefore
      exact List.suffix_append first kept

/-! ## Reading after a write -/

theorem locate_of_read {log : Path} (h : fs.read log = .ok old) :
    ∃ place, fs.locate log = .ok place ∧ fs.node? place ≠ some .dir ∧ fs.contents place = old := by
  rw [Files.read, stat] at h
  cases hlocate : fs.locate log with
  | error f => rw [hlocate] at h; cases h
  | ok place =>
    refine ⟨place, rfl, ?_⟩
    rw [hlocate] at h
    cases hnode : fs.node? place with
    | none => simp [hnode] at h
    | some n => cases n <;> simp_all [contents]

theorem readLog_of_write {session : Option (List Char)} (hdirs : HasDirs fs j.project logs)
    (hold : fs.read (globalLog j.project) = .ok old) (hwrite : j.write fs e session = (fs', none))
    (hwindow : 0 ≤ j.tailBytes) :
    j.readLog fs (globalLog j.project) = valuesIn (tail j.tailBytes.toNat old) ∧
      j.readLog fs' (globalLog j.project) = valuesIn (tail j.tailBytes.toNat (old ++ e.bytes)) := by
  obtain ⟨place, hlocate, hnode, rfl⟩ := locate_of_read hold
  have hadds := (adds_of_write (w := ⟨e, session⟩) hdirs hwrite).2
  obtain rfl := hdirs.locate_globalLog hlocate
  have hnode' : fs'.node? (globalPlace logs) ≠ some .dir := fun hdir => hnode ((hadds.node_eq_dir_iff _).1 hdir)
  have hcontents : fs'.contents (globalPlace logs) = fs.contents (globalPlace logs) ++ e.bytes :=
    (hadds.contents _).trans (if_pos List.mem_cons_self)
  rw [readLog_of_locate hlocate hnode hwindow,
    readLog_of_locate (locate_of_keeps hadds.keepsDirs hlocate) hnode' hwindow, hcontents]
  exact ⟨rfl, rfl⟩

/-- **A written event is read back exactly when its line starts a line of the log.**  Whatever bytes a log held, an
event whose line is smaller than the window is read first after it has been written, and after it the values that
could be read before and whose lines the window still takes whole, if and only if the window still has a line start
before the event, nothing but blanks stands on the last line of what remains, and what remains can be read. -/
theorem readGlobal_of_write_iff {fs₀ : Files} {syncs : Bool} {tailBytes : Option Int} {j₀ : Journal}
    {session : Option (List Char)} (hstart : start fs₀ project syncs tailBytes = (fs, .ok j₀))
    (hproject : j.project = project) (hold : fs.read (globalLog project) = .ok old) (hkeys : e.hasUniqueKeys = true)
    (hwrite : j.write fs e session = (fs', none)) (hfits : e.bytes.length < j.tailBytes) :
    (∃ rest kept, remaining j.tailBytes.toNat old e.bytes = some rest ∧ valuesIn rest = .ok kept ∧
      (∀ before, j.readLog fs (globalLog project) = .ok before → kept <:+ before) ∧
      j.readLog fs' (globalLog project) = .ok (kept ++ [e.recorded]) ∧
      ∀ k : Nat, j.readGlobal fs' none none k = .ok ((e.recorded :: kept.reverse).take (min k 2000))) ↔
    ∃ rest kept, remaining j.tailBytes.toNat old e.bytes = some rest ∧ endsLine rest = true ∧
      valuesIn rest = .ok kept := by
  subst hproject
  obtain ⟨logs, hdirs⟩ := hasDirs_of_start hstart
  have hrecordable := (adds_of_write (w := ⟨e, session⟩) hdirs hwrite).1
  obtain ⟨hbefore, hafter⟩ := readLog_of_write hdirs hold hwrite (by omega)
  rw [tail_append_bytes (by omega)] at hafter
  constructor
  · rintro ⟨rest, kept, hrest, hkept, -, hread, -⟩
    rw [hafter, hrest, Option.elim_some] at hread
    refine ⟨rest, kept, hrest, ?_, hkept⟩
    by_contra hend
    have hprefix := valuesIn_append_of_not_endsLine (Bool.eq_false_iff.2 hend) hkeys hrecordable hkept hread
    have hlength := hprefix.length_le
    rw [List.length_append, List.length_singleton] at hlength
    omega
  · rintro ⟨rest, kept, hrest, hend, hkept⟩
    have hread : j.readLog fs' (globalLog j.project) = .ok (kept ++ [e.recorded]) := by
      rw [hafter, hrest, Option.elim_some, valuesIn_append_of_endsLine hend hkeys hrecordable, hkept]
      rfl
    refine ⟨rest, kept, hrest, hkept, fun before hb => ?_, hread, fun k => ?_⟩
    · rw [hbefore] at hb
      exact valuesIn_remaining hrest hb hkept
    · rw [readGlobal_of_readLog hread, List.reverse_append, List.reverse_singleton, List.singleton_append]

/-! A log with a line that is no JSON, one that is no text, and a value before blanks; and a log with half a line. -/

def brokenBytes : List UInt8 :=
  Utf8.encode "no event\n".toList ++ [0xFF, 0x80, 10] ++ Utf8.encode "\x7b\"n\": 1\x7d\n  ".toList

def tornBytes : List UInt8 := Utf8.encode "\x7b\"a\": 1".toList

def filesWithLog (bytes : List UInt8) : Files := sampleFiles.set [['p'], "logs".toList, globalName] (.file bytes)

theorem start_filesWithLog (bytes : List UInt8) : start (filesWithLog bytes) sampleProject false none =
    (filesWithLog bytes, .ok (sampleJournal defaultTailBytes)) := rfl

theorem isRecordable_firstSample : firstSample.isRecordable = true := by decide +kernel

theorem write_firstSample (bytes : List UInt8) :
    ∃ fs, (sampleJournal 1000).write (filesWithLog bytes) firstSample none = (fs, none) := by
  obtain ⟨logs, hdirs⟩ := hasDirs_of_start (start_filesWithLog bytes)
  have hdirs' : HasDirs (filesWithLog bytes) (sampleJournal 1000).project logs := hdirs
  have hwritable : (filesWithLog bytes).writable (globalLog (sampleJournal 1000).project) = .ok (_, bytes) := rfl
  exact write_none_of_writable hdirs' isRecordable_firstSample hwritable

theorem readGlobal_of_write_iff_brokenBytes : ∃ fs,
    (sampleJournal 1000).write (filesWithLog brokenBytes) firstSample none = (fs, none) ∧
    (sampleJournal 1000).readGlobal fs none none 200 = .ok [firstSample.recorded, .obj [("n".toList, .int 1)]] := by
  obtain ⟨fs, hwrite⟩ := write_firstSample brokenBytes
  have hremaining : remaining 1000 brokenBytes firstSample.bytes = some brokenBytes := by
    rw [remaining, length_bytes_samples.1]
    rfl
  have hfits : (firstSample.bytes.length : Int) < (sampleJournal 1000).tailBytes := by
    rw [length_bytes_samples.1]
    decide
  have hend : endsLine brokenBytes = true := by cbv
  have hvalues : valuesIn brokenBytes = .ok [.obj [("n".toList, .int 1)]] := by cbv
  obtain ⟨rest, kept, hrest, hkept, -, -, hread⟩ := (readGlobal_of_write_iff (start_filesWithLog brokenBytes) rfl rfl
    (by decide) hwrite hfits).2 ⟨_, _, hremaining, hend, hvalues⟩
  obtain rfl : brokenBytes = rest := Option.some.inj (hremaining.symm.trans hrest)
  obtain rfl : _ = kept := Except.ok.inj (hvalues.symm.trans hkept)
  exact ⟨fs, hwrite, hread 200⟩

/-- An event that is written behind half a line is not read. -/
theorem readGlobal_of_write_tornBytes : ∃ fs,
    (sampleJournal 1000).write (filesWithLog tornBytes) firstSample none = (fs, none) ∧
    ∀ more, (sampleJournal 1000).readGlobal fs none none 200 ≠ .ok (firstSample.recorded :: more) := by
  obtain ⟨fs, hwrite⟩ := write_firstSample tornBytes
  obtain ⟨logs, hdirs⟩ := hasDirs_of_start (start_filesWithLog tornBytes)
  have htail : tail 1000 (tornBytes ++ firstSample.bytes) = tornBytes ++ firstSample.bytes := by
    refine tail_of_le ?_
    rw [List.length_append, length_bytes_samples.1]
    decide
  have hlog :
      (sampleJournal 1000).readLog fs (globalLog sampleProject) = valuesIn (tornBytes ++ firstSample.bytes) := by
    rw [← htail]
    exact (readLog_of_write hdirs rfl hwrite (by decide)).2
  have hend : endsLine tornBytes = false := by cbv
  have hvalues : valuesIn tornBytes = .ok [] := by cbv
  refine ⟨fs, hwrite, fun more hread => ?_⟩
  cases hafter : valuesIn (tornBytes ++ firstSample.bytes) with
  | error f =>
    have herror : (sampleJournal 1000).readLog fs (globalLog (sampleJournal 1000).project) = .error f :=
      hlog.trans hafter
    rw [readGlobal, herror] at hread
    cases hread
  | ok vs =>
    have hlost := valuesIn_append_of_not_endsLine hend (by decide) isRecordable_firstSample hvalues hafter
    obtain rfl := List.prefix_nil.1 hlost
    have hempty : (sampleJournal 1000).readGlobal fs none none 200 = .ok [] :=
      readGlobal_of_readLog (hlog.trans hafter) 200
    rw [hempty] at hread
    cases hread

end Abacus.Journal
