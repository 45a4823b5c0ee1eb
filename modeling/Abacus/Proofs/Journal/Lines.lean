import Abacus.Journal
import Abacus.Proofs.Json.Plain
import Abacus.Proofs.Json.ReadBack
import Abacus.Proofs.Text.Bytes
import Abacus.Proofs.Text.Lines
/-!
# Lines of a log

The line of an event is printable ASCII up to its newline, so it has as many bytes as characters and no other newline.
Whatever comes before a newline in a log and whatever comes after it are read apart (`valuesIn_append_newline`), and the
line of an event reads as the event with its fields in order (`valuesIn_bytes_append`).  That is the same value as the
event's own, the order of fields aside (`Event.same_recorded`).
-/
namespace Abacus

/-! ## Events -/

namespace Event

variable {e : Event}

/-- What the log keeps of an event: its value, with the fields in order. -/
def recorded (e : Event) : Json := e.toJson.sorted

def bytes (e : Event) : List UInt8 := Utf8.encode e.line

def hasUniqueKeys (e : Event) : Bool := (Json.obj e.context).hasUniqueKeys

def fieldNames : List (List Char) :=
  ["schema_version".toList, "ts".toList, "level".toList, "event_type".toList, "context".toList, "message".toList,
   "error_code".toList]

theorem nodup_fieldNames : fieldNames.Nodup := by decide

theorem same_recorded (h : e.hasUniqueKeys = true) : Json.Same e.toJson e.recorded := by
  have hcontext : (Json.obj (Json.strictFields e.context)).hasUniqueKeys = true := Json.hasUniqueKeys_strict h
  refine Json.same_sorted ?_
  rw [toJson, Json.hasUniqueKeys, Bool.and_eq_true, decide_eq_true_eq]
  refine ⟨nodup_fieldNames, ?_⟩
  cases e.code <;> simp [Json.fieldsHaveUniqueKeys, Json.hasUniqueKeys] at hcontext ⊢ <;> exact hcontext

theorem recorded_eq (e : Event) : e.recorded = .obj
    [("context".toList, (Json.obj (Json.strictFields e.context)).sorted),
     ("error_code".toList, match e.code with | some code => .str code | none => .null),
     ("event_type".toList, .str e.kind.label), ("level".toList, .str e.level.label), ("message".toList, .str e.message),
     ("schema_version".toList, .int e.version), ("ts".toList, .str e.stamp)] := by
  rw [recorded, toJson, Json.sorted]
  cases e.code <;> simp [Fields.byKey, Json.sortedFields, Json.sorted, List.mergeSort, textLe]

theorem bytes_eq_encode_recorded (e : Event) : e.bytes = Utf8.encode (e.recorded.text ++ ['\n']) := rfl

theorem isReadable_toJson (hkeys : e.hasUniqueKeys = true) (h : e.isRecordable = true) :
    e.toJson.isReadable = true := by
  rw [isRecordable, Bool.and_eq_true, toJson, Json.isWritable] at h
  have hwritable := h.2
  simp only [Json.areFieldsWritable, Bool.and_eq_true] at hwritable
  have hversion := hwritable.1
  have hcontext : (Json.obj (Json.strictFields e.context)).isReadable = true :=
    Json.isReadable_strict hkeys hwritable.2.2.2.2.1
  rw [toJson, Json.isReadable_obj_iff]
  refine ⟨nodup_fieldNames, ?_⟩
  cases e.code <;> simp_all [Json.isReadable, Json.isWritable]

theorem height_toJson_le (h : e.isRecordable = true) : e.toJson.height ≤ Json.maxDepth := by
  rw [isRecordable, Bool.and_eq_true, decide_eq_true_eq] at h
  have hcontext := Json.height_strict_le (.obj e.context)
  simp only [Json.strict, Json.height] at hcontext
  have hmax : maxHeight = 255 ∧ Json.maxDepth = 990 := ⟨rfl, rfl⟩
  rw [toJson]
  cases e.code <;>
    · simp only [Json.height, Json.heightFields]
      omega

/-! ## Their lines -/

theorem sortedText_toJson (e : Event) : ∃ middle, e.toJson.sortedText = '{' :: middle ++ ['}'] := ⟨_, rfl⟩

theorem isPlain_sortedText (e : Event) : Json.isPlain e.toJson.sortedText = true := Json.isPlain_text _

theorem lt_of_isPlain {text : List Char} (h : Json.isPlain text = true) : ∀ c ∈ text, c.toNat < 0x80 := by
  intro c hc
  have hplain := List.all_eq_true.1 h c hc
  simp only [Json.isPlainChar, Bool.and_eq_true, decide_eq_true_eq] at hplain
  omega

def body (e : Event) : List UInt8 := Utf8.encode e.toJson.sortedText

theorem bytes_eq (e : Event) : e.bytes = e.body ++ [10] := Utf8.encode_append _ _

theorem newline_not_mem_body (e : Event) : 10 ∉ e.body := by
  intro h
  obtain ⟨c, hc, heq⟩ := Utf8.mem_encode (lt_of_isPlain e.isPlain_sortedText) h
  have hplain := List.all_eq_true.1 e.isPlain_sortedText c hc
  simp only [Json.isPlainChar, Bool.and_eq_true, decide_eq_true_eq] at hplain
  have hnat : (UInt8.ofNat c.toNat).toNat = c.toNat := UInt8.toNat_ofNat_of_lt' (by rw [UInt8.size]; omega)
  rw [← heq] at hnat
  have : (10 : UInt8).toNat = 10 := rfl
  omega

theorem decode_body (e : Event) : Utf8.decode e.body = e.toJson.sortedText := by
  have hdecode := Utf8.decode_encode (lt_of_isPlain e.isPlain_sortedText) []
  rwa [List.append_nil, Utf8.decode_nil, List.append_nil] at hdecode

end Event

/-! ## Values in a log -/

namespace Journal

def valuesIn (bytes : List UInt8) : Except ReadFailure (List Json) := valuesOn (logLines (Utf8.decode bytes))

theorem valuesOn_append (lines more : List (List Char)) :
    valuesOn (lines ++ more) = (valuesOn lines).bind fun vs => (valuesOn more).map (vs ++ ·) := by
  induction lines with
  | nil =>
    rw [List.nil_append, valuesOn]
    cases valuesOn more <;> rfl
  | cons line lines ih =>
    rw [List.cons_append, valuesOn, valuesOn]
    split
    · rw [ih]
      cases valuesOn lines with
      | error e => rfl
      | ok vs => cases valuesOn more <;> rfl
    · exact ih
    all_goals rfl

theorem valuesIn_nil : valuesIn [] = .ok [] := by
  rw [valuesIn, Utf8.decode_nil]
  rfl

/-- **What stands before a newline and what stands after it are read apart**, whatever the bytes. -/
theorem valuesIn_append_newline (bytes more : List UInt8) :
    valuesIn (bytes ++ 10 :: more) = (valuesIn bytes).bind fun vs => (valuesIn more).map (vs ++ ·) := by
  have hbreak : isLineBreak (Char.ofNat (10 : UInt8).toNat) = true := rfl
  rw [valuesIn, Utf8.decode_append (by decide), Utf8.decode_cons_of_lt (by decide), logLines, splitAtAll_append hbreak,
    valuesOn_append]
  rfl

theorem not_isLineBreak {c : Char} (h : Json.isPlainChar c = true) : isLineBreak c = false := by
  simp only [Json.isPlainChar, Bool.and_eq_true, decide_eq_true_eq] at h
  simp only [isLineBreak, Bool.or_eq_false_iff, Bool.and_eq_false_iff, beq_eq_false_iff_ne, decide_eq_false_iff_not]
  omega

theorem valuesIn_body {e : Event} (hkeys : e.hasUniqueKeys = true) (h : e.isRecordable = true) :
    valuesIn e.body = .ok [e.recorded] := by
  have hline : logLines e.toJson.sortedText = [e.toJson.sortedText] :=
    splitAtAll_of_forall fun c hc => not_isLineBreak (List.all_eq_true.1 e.isPlain_sortedText c hc)
  have hstrip : strip e.toJson.sortedText = e.toJson.sortedText := by
    obtain ⟨middle, hmiddle⟩ := e.sortedText_toJson
    rw [hmiddle]
    exact strip_eq_self rfl rfl middle
  have hread := Json.read_sortedText (Event.isReadable_toJson hkeys h) (Event.height_toJson_le h)
  rw [valuesIn, e.decode_body, hline, valuesOn, hstrip, hread]
  rfl

/-- **The line of an event reads as the event**, whatever comes after it. -/
theorem valuesIn_bytes_append {e : Event} (hkeys : e.hasUniqueKeys = true) (h : e.isRecordable = true)
    (more : List UInt8) : valuesIn (e.bytes ++ more) = (valuesIn more).map (e.recorded :: ·) := by
  rw [e.bytes_eq, List.append_assoc, List.singleton_append, valuesIn_append_newline, valuesIn_body hkeys h]
  rfl

def bytesOf (es : List Event) : List UInt8 := es.flatMap Event.bytes

theorem bytesOf_concat (es : List Event) (e : Event) : bytesOf (es ++ [e]) = bytesOf es ++ e.bytes := by
  rw [bytesOf, List.flatMap_append, List.flatMap_singleton, bytesOf]

theorem bytesOf_ne_nil {es : List Event} (h : es ≠ []) : bytesOf es ≠ [] := by
  obtain ⟨e, es, rfl⟩ := List.exists_cons_of_ne_nil h
  rw [bytesOf, List.flatMap_cons, e.bytes_eq]
  simp

/-- **Lines of events read as the events**, in their order. -/
theorem valuesIn_bytesOf {es : List Event} (h : ∀ e ∈ es, e.hasUniqueKeys = true ∧ e.isRecordable = true) :
    valuesIn (bytesOf es) = .ok (es.map Event.recorded) := by
  induction es with
  | nil => exact valuesIn_nil
  | cons e es ih =>
    obtain ⟨hkeys, hrecordable⟩ := h e List.mem_cons_self
    rw [bytesOf, List.flatMap_cons, valuesIn_bytes_append hkeys hrecordable, ← bytesOf,
      ih fun f hf => h f (List.mem_cons_of_mem e hf)]
    rfl

end Journal

end Abacus
