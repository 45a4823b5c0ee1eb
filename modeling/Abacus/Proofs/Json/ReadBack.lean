import Abacus.Proofs.Json.Numbers
import Abacus.Proofs.Json.Shape
import Abacus.Proofs.Json.Strings
/-!
# Values read back

The text of a value starts with a character that tells its sort, and no text of a value goes on with one that closes
or separates.  So a list or an object is read item by item, as long as the levels left suffice, and a readable value
is read as itself (`value_text`).  The text with its fields in order reads as the value with its fields in order
(`read_sortedText`).
-/
namespace Abacus.Json

variable {c : Char} {cs rest : List Char} {depth : Nat}

/-! ## The sorts of values -/

theorem value_string (depth : Nat) (rest : List Char) :
    value depth ('"' :: rest) = (string rest).map fun (s, rest) => (.str s, rest) := by
  cases depth <;> rfl

theorem value_array (depth : Nat) (rest : List Char) :
    value (depth + 1) ('[' :: rest) = (array (value depth) rest).map fun (vs, rest) => (.arr vs, rest) := rfl

theorem value_object (depth : Nat) (rest : List Char) :
    value (depth + 1) ('{' :: rest) =
      (fields (value depth) rest).map fun (fs, rest) => (.obj (Assoc.update [] fs), rest) := rfl

theorem value_other (hquote : c ≠ '"') (hbracket : c ≠ '[') (hbrace : c ≠ '{') :
    value depth (c :: cs) = match word? (c :: cs) with
      | some found => .ok found
      | none       => number (c :: cs) := by
  unfold value
  split
  all_goals first
    | rfl
    | simp_all

/-! ## Words and numbers -/

theorem word?_of_starts (h : startsNumber c = true) (negative : Bool) (cs : List Char) :
    word? (signed negative (c :: cs)) = none := by
  have hall : literalChars.all (fun d => !startsNumber d ||
      d != 'n' && d != 't' && d != 'f' && d != 'N' && d != 'I' && d != '-') = true := by decide
  have hword := passes_of_literalChars hall (mem_literalChars_of_starts h)
  rw [h] at hword
  simp only [Bool.not_true, Bool.false_or, Bool.and_eq_true, bne_iff_ne] at hword
  obtain ⟨⟨⟨⟨⟨hn, ht⟩, hf⟩, hN⟩, hI⟩, hminus⟩ := hword
  cases negative <;>
    simp [word?, words, signed, List.isPrefixOf?, Ne.symm hn, Ne.symm ht, Ne.symm hf, Ne.symm hN, Ne.symm hI,
      Ne.symm hminus]

theorem value_signed (h : startsNumber c = true) (negative : Bool) (cs : List Char) :
    value depth (signed negative (c :: cs)) = number (signed negative (c :: cs)) := by
  have hall : literalChars.all (fun d => d != '"' && d != '[' && d != '{') = true := by decide
  have hother := passes_of_literalChars hall (mem_literalChars_of_starts h)
  simp only [Bool.and_eq_true, bne_iff_ne] at hother
  have hword := word?_of_starts h negative cs
  cases negative with
  | true =>
    have hvalue : value depth ('-' :: c :: cs) = _ := value_other (by decide) (by decide) (by decide)
    rw [signed, if_pos rfl] at hword ⊢
    rw [hvalue, hword]
  | false =>
    have hvalue : value depth (c :: cs) = _ := value_other hother.1.1 hother.1.2 hother.2
    rw [signed, if_neg Bool.false_ne_true] at hword ⊢
    rw [hvalue, hword]

theorem value_intText {n : Int} (h : isUnwritable n = false) (hrest : Closed rest) :
    value depth (intText n ++ rest) = .ok (.int n, rest) := by
  obtain ⟨c, cs, hcs⟩ := List.exists_cons_of_ne_nil (isWholeText_natText n.natAbs).ne_nil
  have hc : startsNumber c = true :=
    startsNumber_of_isDigit (isDigit_natText c (hcs ▸ List.mem_cons_self))
  rw [← number_intText h hrest, intText_eq_signed, hcs, ← signed_append, List.cons_append, value_signed hc]

theorem value_doubleText {x : Float} (h : x.isFinite = true) (hrest : Closed rest) :
    value depth (doubleText x ++ rest) = .ok (.double x, rest) := by
  obtain ⟨negative, c, cs, hc, htext⟩ := doubleText_starts h
  rw [← number_doubleText h hrest, htext, ← signed_append, List.cons_append, value_signed hc]

/-! ## The start of a text -/

def Starts (text : List Char) : Prop := ∃ c cs, text = c :: cs ∧ isSpace c = false ∧ c ≠ ']'

theorem Starts.skipSpace {text : List Char} (h : Starts text) (rest : List Char) :
    Json.skipSpace (text ++ rest) = text ++ rest := by
  obtain ⟨c, cs, rfl, hspace, -⟩ := h
  rw [Json.skipSpace, List.cons_append, List.dropWhile_cons_of_neg (by rw [hspace]; exact Bool.false_ne_true)]

theorem Starts.skipSpace_blank {text : List Char} (h : Starts text) (rest : List Char) :
    Json.skipSpace (' ' :: (text ++ rest)) = text ++ rest := h.skipSpace rest

theorem starts_signed (hc : startsNumber c = true) (negative : Bool) (cs : List Char) :
    Starts (signed negative (c :: cs)) := by
  have hall : literalChars.all (fun d => !isSpace d && d != ']') = true := by decide
  have hplain := passes_of_literalChars hall (mem_literalChars_of_starts hc)
  simp only [Bool.and_eq_true, Bool.not_eq_true', bne_iff_ne] at hplain
  cases negative with
  | true => exact ⟨'-', c :: cs, rfl, rfl, by decide⟩
  | false => exact ⟨c, cs, rfl, hplain⟩

theorem starts_text {v : Json} (h : v.isReadable = true) : Starts v.text := by
  cases v with
  | null => exact ⟨'n', "ull".toList, rfl, rfl, by decide⟩
  | bool b =>
    cases b
    · exact ⟨'f', "alse".toList, rfl, rfl, by decide⟩
    · exact ⟨'t', "rue".toList, rfl, rfl, by decide⟩
  | int n =>
    obtain ⟨c, cs, hcs⟩ := List.exists_cons_of_ne_nil (isWholeText_natText n.natAbs).ne_nil
    have hc : startsNumber c = true :=
      startsNumber_of_isDigit (isDigit_natText c (hcs ▸ List.mem_cons_self))
    rw [text, intText_eq_signed, hcs]
    exact starts_signed hc _ cs
  | double x =>
    obtain ⟨negative, c, cs, hc, htext⟩ := doubleText_starts h
    rw [text, doubleName_of_isFinite h, htext]
    exact starts_signed hc negative cs
  | str s => exact ⟨'"', _, rfl, rfl, by decide⟩
  | arr items => exact ⟨'[', _, rfl, rfl, by decide⟩
  | obj fields => exact ⟨'{', _, rfl, rfl, by decide⟩

/-! ## Items and fields -/

/-- The text of the value reads as the value, wherever a value may stand. -/
def ReadsBack (depth : Nat) (v : Json) : Prop :=
  Starts v.text ∧ ∀ rest, Closed rest → value depth (v.text ++ rest) = .ok (v, rest)

theorem closed_moreItems (vs : List Json) (rest : List Char) : Closed (moreItemsText vs ++ ']' :: rest) := by
  cases vs with
  | nil => exact closed_cons (by decide) rest
  | cons v vs => exact closed_cons (by decide) _

theorem closed_moreFields (fs : Fields) (rest : List Char) : Closed (moreFieldsText fs ++ '}' :: rest) := by
  cases fs with
  | nil => exact closed_cons (by decide) rest
  | cons f fs =>
    obtain ⟨k, v⟩ := f
    exact closed_cons (by decide) _

theorem moreItems_comma (read : Reader Json) (rounds : Nat) (cs : List Char) :
    moreItems read (rounds + 1) (',' :: cs) = (do
      let (v, rest) ← read (skipSpace cs)
      let (vs, rest) ← moreItems read rounds rest
      .ok (v :: vs, rest)) := rfl

theorem moreItems_text {vs : List Json} (h : ∀ v ∈ vs, ReadsBack depth v) {rounds : Nat} (hrounds : vs.length < rounds)
    (rest : List Char) : moreItems (value depth) rounds (moreItemsText vs ++ ']' :: rest) = .ok (vs, rest) := by
  induction vs generalizing rounds with
  | nil =>
    obtain ⟨rounds, rfl⟩ := Nat.exists_eq_add_of_lt hrounds
    rfl
  | cons v vs ih =>
    obtain ⟨rounds, rfl⟩ : ∃ n, rounds = n + 1 := ⟨rounds - 1, by omega⟩
    obtain ⟨hstarts, hv⟩ := h v List.mem_cons_self
    have hmore := ih (fun w hw => h w (List.mem_cons_of_mem v hw)) (Nat.lt_of_succ_lt_succ hrounds)
    simp only [moreItemsText, List.cons_append, List.append_assoc]
    rw [moreItems_comma, hstarts.skipSpace_blank, hv _ (closed_moreItems vs rest)]
    dsimp only [bind, Except.bind]
    rw [hmore]

theorem length_le_moreItemsText (vs : List Json) : vs.length ≤ (moreItemsText vs).length := by
  induction vs with
  | nil => exact Nat.le_refl 0
  | cons v vs ih =>
    rw [moreItemsText, List.length_append, List.length_cons, List.length_cons, List.length_cons]
    omega

theorem array_of_starts {text : List Char} (h : Starts text) (read : Reader Json) (cs : List Char) :
    array read (text ++ cs) = (do
      let (v, rest) ← read (text ++ cs)
      let (vs, rest) ← moreItems read (text ++ cs).length rest
      .ok (v :: vs, rest)) := by
  have hspace := h.skipSpace cs
  obtain ⟨c, more, htext, -, hclose⟩ := h
  unfold array
  split
  · rename_i heq
    rw [hspace, htext] at heq
    cases heq
    exact absurd rfl hclose
  · rw [hspace]

theorem array_text {vs : List Json} (h : ∀ v ∈ vs, ReadsBack depth v) (rest : List Char) :
    array (value depth) (itemsText vs ++ ']' :: rest) = .ok (vs, rest) := by
  cases vs with
  | nil => rfl
  | cons v vs =>
    obtain ⟨hstarts, hv⟩ := h v List.mem_cons_self
    have hrounds : vs.length < (v.text ++ (moreItemsText vs ++ ']' :: rest)).length := by
      have hlength := length_le_moreItemsText vs
      rw [List.length_append, List.length_append, List.length_cons]
      omega
    rw [itemsText, List.append_assoc, array_of_starts hstarts, hv _ (closed_moreItems vs rest)]
    dsimp only [bind, Except.bind]
    rw [moreItems_text (fun w hw => h w (List.mem_cons_of_mem v hw)) hrounds]

theorem moreFields_comma (read : Reader Json) (rounds : Nat) (cs : List Char) :
    moreFields read (rounds + 1) (',' :: cs) = (do
      let (f, rest) ← field read (skipSpace cs)
      let (fs, rest) ← moreFields read rounds rest
      .ok (f :: fs, rest)) := rfl

theorem field_text {k : List Char} {v : Json} (h : ReadsBack depth v) (hrest : Closed rest) :
    field (value depth) (stringText k ++ ':' :: ' ' :: (v.text ++ rest)) = .ok ((k, v), rest) := by
  have hkey := string_flatMap_escaped k (':' :: ' ' :: (v.text ++ rest))
  simp only [stringText, List.cons_append, List.append_assoc, List.nil_append, field]
  rw [hkey]
  have hcolon : skipSpace (':' :: ' ' :: (v.text ++ rest)) = ':' :: ' ' :: (v.text ++ rest) := rfl
  dsimp only [bind, Except.bind]
  rw [hcolon]
  simp only
  rw [h.1.skipSpace_blank, h.2 rest hrest]

theorem moreFields_text {fs : Fields} (h : ∀ f ∈ fs, ReadsBack depth f.2) {rounds : Nat} (hrounds : fs.length < rounds)
    (rest : List Char) : moreFields (value depth) rounds (moreFieldsText fs ++ '}' :: rest) = .ok (fs, rest) := by
  induction fs generalizing rounds with
  | nil =>
    obtain ⟨rounds, rfl⟩ := Nat.exists_eq_add_of_lt hrounds
    rfl
  | cons f fs ih =>
    obtain ⟨rounds, rfl⟩ : ∃ n, rounds = n + 1 := ⟨rounds - 1, by omega⟩
    obtain ⟨k, v⟩ := f
    have hv : ReadsBack depth v := h (k, v) List.mem_cons_self
    have hmore := ih (fun g hg => h g (List.mem_cons_of_mem _ hg)) (Nat.lt_of_succ_lt_succ hrounds)
    have hblank : skipSpace (' ' :: (stringText k ++ ':' :: ' ' :: (v.text ++ (moreFieldsText fs ++ '}' :: rest)))) =
        stringText k ++ ':' :: ' ' :: (v.text ++ (moreFieldsText fs ++ '}' :: rest)) := rfl
    simp only [moreFieldsText, List.cons_append, List.append_assoc]
    rw [moreFields_comma, hblank, field_text hv (closed_moreFields fs rest)]
    dsimp only [bind, Except.bind]
    rw [hmore]

theorem length_le_moreFieldsText (fs : Fields) : fs.length ≤ (moreFieldsText fs).length := by
  induction fs with
  | nil => exact Nat.le_refl 0
  | cons f fs ih =>
    simp only [moreFieldsText, List.length_append, List.length_cons]
    omega

theorem fields_quote (read : Reader Json) (cs : List Char) :
    fields read ('"' :: cs) = (do
      let (f, rest) ← field read ('"' :: cs)
      let (fs, rest) ← moreFields read ('"' :: cs).length rest
      .ok (f :: fs, rest)) := rfl

theorem fields_text {fs : Fields} (h : ∀ f ∈ fs, ReadsBack depth f.2) (rest : List Char) :
    fields (value depth) (fieldsText fs ++ '}' :: rest) = .ok (fs, rest) := by
  cases fs with
  | nil => rfl
  | cons f fs =>
    obtain ⟨k, v⟩ := f
    have hv : ReadsBack depth v := h (k, v) List.mem_cons_self
    have hfield := field_text (k := k) hv (closed_moreFields fs rest)
    have hlength := length_le_moreFieldsText fs
    simp only [fieldsText, List.append_assoc, List.cons_append]
    rw [stringText, List.cons_append] at hfield ⊢
    rw [List.cons_append] at hfield ⊢
    rw [fields_quote, hfield]
    dsimp only [bind, Except.bind]
    rw [moreFields_text (fun g hg => h g (List.mem_cons_of_mem _ hg))]
    simp only [List.length_cons, List.length_append]
    omega

/-! ## Values -/

theorem value_obj_of_fields {fs : Fields} (hkeys : (Fields.keys fs).Nodup) (h : ∀ f ∈ fs, ReadsBack depth f.2)
    (rest : List Char) : value (depth + 1) ((Json.obj fs).text ++ rest) = .ok (.obj fs, rest) := by
  simp only [text, List.cons_append, List.append_assoc, List.nil_append]
  rw [value_object, fields_text h]
  dsimp only [Except.map]
  rw [Assoc.update_nil hkeys]

/-- **A readable value reads back**, if it has no more levels than are left. -/
theorem readsBack {v : Json} (h : v.isReadable = true) (hheight : v.height ≤ depth) : ReadsBack depth v := by
  refine ⟨starts_text h, fun rest hrest => ?_⟩
  induction v using inductionOn generalizing depth rest with
  | null => cases depth <;> rfl
  | bool b => cases b <;> cases depth <;> rfl
  | int n =>
    rw [isReadable, Bool.not_eq_true'] at h
    exact value_intText h hrest
  | double x =>
    rw [text, doubleName_of_isFinite h]
    exact value_doubleText h hrest
  | str s =>
    simp only [text, stringText, List.cons_append, List.append_assoc, List.nil_append]
    rw [value_string, string_flatMap_escaped]
    rfl
  | arr items ih =>
    rw [isReadable, areReadable_iff] at h
    obtain ⟨depth, rfl⟩ : ∃ n, depth = n + 1 := ⟨depth - 1, by rw [height] at hheight; omega⟩
    rw [height, Nat.add_le_add_iff_right, heightAll_le_iff] at hheight
    have hitems : ∀ v ∈ items, ReadsBack depth v :=
      fun v hv => ⟨starts_text (h v hv), fun rest hrest => ih v hv (h v hv) (hheight v hv) rest hrest⟩
    simp only [text, List.cons_append, List.append_assoc, List.nil_append]
    rw [value_array, array_text hitems]
    rfl
  | obj fs ih =>
    rw [isReadable_obj_iff] at h
    obtain ⟨depth, rfl⟩ : ∃ n, depth = n + 1 := ⟨depth - 1, by rw [height] at hheight; omega⟩
    rw [height, Nat.add_le_add_iff_right, heightFields_le_iff] at hheight
    have hfields : ∀ f ∈ fs, ReadsBack depth f.2 :=
      fun f hf => ⟨starts_text (h.2 f hf), fun rest hrest => ih f hf (h.2 f hf) (hheight f hf) rest hrest⟩
    exact value_obj_of_fields h.1 hfields rest

theorem value_obj_text {fs : Fields} (h : (Json.obj fs).isReadable = true) (hheight : heightFields fs ≤ depth)
    (rest : List Char) : value (depth + 1) ((Json.obj fs).text ++ rest) = .ok (.obj fs, rest) := by
  rw [isReadable_obj_iff] at h
  rw [heightFields_le_iff] at hheight
  exact value_obj_of_fields h.1 (fun f hf => readsBack (h.2 f hf) (hheight f hf)) rest

theorem read_text {v : Json} (h : v.isReadable = true) (hheight : v.height ≤ maxDepth) : read v.text = .ok v := by
  have hvalue := (readsBack h hheight).2 [] closed_nil
  have hspace := (starts_text h).skipSpace []
  rw [List.append_nil] at hvalue hspace
  rw [read, hspace, hvalue]
  rfl

/-- **A text with fields in order reads as the value with its fields in order.** -/
theorem read_sortedText {v : Json} (h : v.isReadable = true) (hheight : v.height ≤ maxDepth) :
    read v.sortedText = .ok v.sorted := by
  rw [← height_sorted] at hheight
  exact read_text (isReadable_sorted h) hheight

end Abacus.Json
