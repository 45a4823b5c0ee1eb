import Abacus.Proofs.Journal.Appending
/-!
# Logs of whole lines

A log of whole lines is empty or ends with a newline, and all that stands in it are objects of JSON (`IsWhole`), as
in a log of events.  Whatever window is read of it, reading goes on at the start of a line and finds the last of
these objects (`IsWhole.tail`).  A filter takes the objects whose field has its text (`filterBy_of_objects`), so
such a log can be read with any filters and any limit (`readGlobal_of_isWhole`).
-/
namespace Abacus.Journal

open Files

variable {fs : Files} {place : Place} {j : Journal} {bytes : List UInt8} {vs kept : List Json}

def AreObjects (vs : List Json) : Prop := ∀ v ∈ vs, ∃ fields, v = .obj fields

/-! ## What a window reads -/

/-- The log holds these objects, on lines that have been ended. -/
structure IsWhole (bytes : List UInt8) (vs : List Json) : Prop where
  ended : bytes = [] ∨ ∃ front, bytes = front ++ [10]
  values : valuesIn bytes = .ok vs
  objects : AreObjects vs

theorem areObjects_recorded (es : List Event) : AreObjects (es.map Event.recorded) :=
  List.forall_mem_map.2 fun e _ => ⟨_, e.recorded_eq⟩

theorem isWhole_bytesOf {es : List Event} (h : ∀ e ∈ es, e.hasUniqueKeys = true ∧ e.isRecordable = true) :
    IsWhole (bytesOf es) (es.map Event.recorded) := by
  refine ⟨?_, valuesIn_bytesOf h, areObjects_recorded es⟩
  rcases List.eq_nil_or_concat es with rfl | ⟨front, e, rfl⟩
  · exact .inl rfl
  · refine .inr ⟨bytesOf front ++ e.body, ?_⟩
    rw [List.concat_eq_append, bytesOf_concat, e.bytes_eq, List.append_assoc]

/-- **A window reads the last objects of a log of whole lines**, however many it takes. -/
theorem IsWhole.tail (h : IsWhole bytes vs) (window : Nat) :
    ∃ kept, kept <:+ vs ∧ valuesIn (tail window bytes) = .ok kept := by
  by_cases hle : bytes.length ≤ window
  · rw [tail_of_le hle]
    exact ⟨vs, List.suffix_rfl, h.values⟩
  · have hsplit := List.take_append_drop (bytes.length - window) bytes
    rw [tail_of_lt (Nat.not_le.1 hle), afterNewline]
    rcases dropWhile_newline (bytes.drop (bytes.length - window)) with ⟨hnone, hnot⟩ | ⟨front, rest, hcons, -, hdrop⟩
    · -- the last byte is a newline, so only the empty window is without one
      have hnil : bytes.drop (bytes.length - window) = [] := by
        rcases h.ended with rfl | ⟨front, rfl⟩
        · exact List.drop_nil
        · by_contra hne
          have hfew : front.length + 1 - window ≤ front.length := by
            have := List.length_pos_of_ne_nil hne
            simp only [List.length_drop, List.length_append, List.length_singleton] at this
            omega
          rw [List.length_append, List.length_singleton, List.drop_append_of_le_length hfew] at hnot
          simp at hnot
      rw [hnone, hnil]
      exact ⟨[], List.nil_suffix, valuesIn_nil⟩
    · have hvalues := h.values
      rw [← hsplit, hdrop, ← List.append_assoc, valuesIn_append_newline] at hvalues
      rw [hcons]
      cases hfirst : valuesIn (bytes.take (bytes.length - window) ++ front) with
      | error e =>
        rw [hfirst] at hvalues
        cases hvalues
      | ok first =>
        rw [hfirst] at hvalues
        obtain ⟨kept, hkept, heq⟩ := Json.map_ok hvalues
        exact ⟨kept, ⟨first, heq⟩, hkept⟩

theorem readLog_of_writable {log : Path} (h : fs.writable log = .ok (place, bytes)) (hwindow : 0 ≤ j.tailBytes) :
    j.readLog fs log = valuesIn (Journal.tail j.tailBytes.toNat bytes) := by
  obtain ⟨hlocate, hnode, hcontents⟩ := writable_eq_ok_iff.1 h
  rw [readLog_of_locate hlocate hnode hwindow, hcontents]

/-! ## What filters leave -/

def passes (key : List Char) (text : Option (List Char)) (v : Json) : Bool :=
  text.all fun text => text.isEmpty ||
    match v with
    | .obj fields => isText text (List.lookup key fields)
    | _           => false

theorem filterAuxM_ok {ε : Type} {f : Json → Except ε Bool} {p : Json → Bool} (h : ∀ v ∈ vs, f v = .ok (p v))
    (done : List Json) : vs.filterAuxM f done = .ok ((vs.filter p).reverse ++ done) := by
  induction vs generalizing done with
  | nil => rfl
  | cons v vs ih =>
    obtain ⟨hv, hvs⟩ := List.forall_mem_cons.1 h
    rw [List.filterAuxM, hv]
    change vs.filterAuxM f (cond (p v) (v :: done) done) = _
    rw [ih hvs]
    cases hp : p v <;> simp [hp]

theorem filterBy_of_objects (h : AreObjects vs) (key : List Char) (text : Option (List Char)) :
    filterBy key text vs = .ok (vs.filter (passes key text)) := by
  cases text with
  | none => exact congrArg Except.ok (List.filter_eq_self.2 fun _ _ => rfl).symm
  | some text =>
    rw [filterBy]
    cases hempty : text.isEmpty with
    | true => exact congrArg Except.ok (List.filter_eq_self.2 fun _ _ => by simp [passes, hempty]).symm
    | false =>
      have hmember : ∀ v ∈ vs, (fieldOf key v).map (isText text) = .ok (passes key (some text) v) := by
        intro v hv
        obtain ⟨fields, rfl⟩ := h v hv
        rw [fieldOf, Except.map, passes, Option.all_some, hempty, Bool.false_or]
      rw [if_neg Bool.false_ne_true, List.filterM, filterAuxM_ok hmember]
      simp [bind, Except.bind, pure, Except.pure]

/-- What a reading answers: of the values that pass the filters, so many of the last ones, latest first. -/
def selected (level kind : Option (List Char)) (limit : Int) (vs : List Json) : List Json :=
  takeLimit (min limit maxEvents)
    ((vs.filter (passes "level".toList level)).filter (passes "event_type".toList kind)).reverse

theorem readGlobal_of_objects (h : AreObjects vs) (hread : j.readLog fs (globalLog j.project) = .ok vs)
    (level kind : Option (List Char)) (limit : Int) :
    j.readGlobal fs level kind limit = .ok (selected level kind limit vs) := by
  have hfiltered : AreObjects (vs.filter (passes "level".toList level)) := fun v hv => h v (List.mem_of_mem_filter hv)
  simp only [readGlobal, hread, bind, Except.bind, filterBy_of_objects h, filterBy_of_objects hfiltered, selected]

theorem readGlobal_of_isWhole (h : IsWhole bytes vs)
    (hwritable : fs.writable (globalLog j.project) = .ok (place, bytes))
    (hwindow : 0 ≤ j.tailBytes) (level kind : Option (List Char)) (limit : Int) :
    ∃ kept, kept <:+ vs ∧ j.readGlobal fs level kind limit = .ok (selected level kind limit kept) := by
  obtain ⟨kept, hsuffix, hvalues⟩ := h.tail j.tailBytes.toNat
  have hread := (readLog_of_writable hwritable hwindow).trans hvalues
  exact ⟨kept, hsuffix, readGlobal_of_objects (fun v hv => h.objects v (hsuffix.subset hv)) hread level kind limit⟩

/-! ## Windows side by side -/

theorem takeLimit_mono {us : List Json} (h : vs <+: us) (limit : Int) : takeLimit limit vs <+: takeLimit limit us := by
  rw [takeLimit, takeLimit]
  split
  · exact h.take _
  · obtain ⟨more, rfl⟩ := h
    rw [List.length_append, List.take_append]
    have hless : vs.length - limit.natAbs ≤ vs.length + more.length - limit.natAbs := by omega
    exact (List.take_prefix_take_left hless).trans (List.prefix_append _ _)

theorem selected_mono {us : List Json} (h : vs <:+ us) (level kind : Option (List Char)) (limit : Int) :
    selected level kind limit vs <+: selected level kind limit us := by
  have hfiltered := (h.filter (passes "level".toList level)).filter (passes "event_type".toList kind)
  have hlatest := List.reverse_prefix.2 hfiltered
  exact takeLimit_mono hlatest _

/-- What a reading of a log of events answers. -/
def answered (window : Nat) (level kind : Option (List Char)) (limit : Int) (es : List Event) : List Json :=
  selected level kind limit ((windowed window es).map Event.recorded)

/-- **A log of events reads as the events that the window takes.** -/
theorem readGlobal_of_events {es : List Event} (h : ∀ e ∈ es, e.hasUniqueKeys = true ∧ e.isRecordable = true)
    (hwritable : fs.writable (globalLog j.project) = .ok (place, bytesOf es)) (hwindow : 0 ≤ j.tailBytes)
    (level kind : Option (List Char)) (limit : Int) :
    j.readGlobal fs level kind limit = .ok (answered j.tailBytes.toNat level kind limit es) := by
  refine readGlobal_of_objects (areObjects_recorded _) ?_ level kind limit
  rw [readLog_of_writable hwritable hwindow, tail_eq_windowed,
    valuesIn_bytesOf fun e he => h e ((windowed_suffix _ _).subset he)]

theorem answered_comparable (window window' : Nat) (level kind : Option (List Char)) (limit : Int)
    (es : List Event) : answered window level kind limit es <+: answered window' level kind limit es ∨
      answered window' level kind limit es <+: answered window level kind limit es := by
  rcases List.suffix_or_suffix_of_suffix (windowed_suffix window es) (windowed_suffix window' es) with h | h
  · exact .inl (selected_mono (h.map _) level kind limit)
  · exact .inr (selected_mono (h.map _) level kind limit)

end Abacus.Journal
