import Abacus.Proofs.Console.Silence
import Abacus.Proofs.Decimal.Overflow
import Abacus.Proofs.Settings.Mapping
/-!
# What loading settings comes to

A document is merged over the defaults, and then two of the settings have to be numbers.  So loading comes to the
merged settings, or to the conversion that fails first (`Outcome`).  That is documented of a document that is empty
or a mapping, and all others are to be refused as documents; but one that is not true counts as an empty one,
whatever it is.  And a conversion that goes beyond what there is room for is not refused as the others are: that of
an infinity to a whole number, and that of a whole number from `overflowBound` on to a double.  But for these two,
loading is as documented (`load_documented_iff`).
-/
namespace Abacus

/-! ## Conversions -/

namespace Yaml

def isEndless : Yaml → Bool
  | .double x => x.isInf
  | _         => false

def IsHuge : Yaml → Prop
  | .int n => overflowBound ≤ |(n : ℚ)|
  | _      => False

theorem toInt_overflow_iff (v : Yaml) : (∃ o, v.toInt = .error (.overflow o)) ↔ v.isEndless = true := by
  cases v with
  | double x =>
    rw [isEndless, isInf_iff_exact, toInt]
    cases exact x <;> simp
  | str text =>
    refine iff_of_false ?_ Bool.false_ne_true
    rw [toInt]
    split <;> simp
  | _ => simp [toInt, isEndless]

theorem toDouble_overflow_iff (v : Yaml) : (∃ o, v.toDouble = .error (.overflow o)) ↔ v.IsHuge := by
  cases v with
  | int n =>
    rw [IsHuge, ← isInf_ofInt_iff, toDouble, doubleOfInt]
    cases (ofInt n).isInf <;> simp [Except.mapError]
  | str text =>
    refine iff_of_false ?_ not_false
    rw [toDouble]
    split <;> simp
  | _ => simp [toDouble, IsHuge]

end Yaml

/-- A failure of the kind that loading promises: neither the store's, nor of what there is no room for. -/
def SettingsError.isPromised : SettingsError → Bool
  | .file _ => false
  | e       => e.overflow?.isNone

namespace Settings

open Yaml (sameKey_comm sameKey_congr)

/-! ## Merged settings -/

variable {m : Mapping} {s : Settings} {document : Yaml}

def givenPlaces (m : Mapping) : Yaml := (m.get? placesKey).getD (.int defaultPlaces)

def givenThreshold (m : Mapping) : Yaml := (m.get? thresholdKey).getD (.double Status.defaultThreshold)

/-- **The settings are the defaults with a mapping over them**: they have the keys of both and no other, and each
has the mapping's value, or else the default; but the places and the threshold are what theirs convert to. -/
structure IsMerged (m : Mapping) (s : Settings) : Prop where
  once : s.entries.IsDictionary
  get? : ∀ key, s.entries.get? key =
    if key.sameKey placesKey then some (.int s.places)
    else if key.sameKey thresholdKey then some (.double s.threshold)
    else (m.get? key).or (defaultMapping.get? key)
  places : (givenPlaces m).toInt = .ok s.places
  threshold : (givenThreshold m).toDouble = .ok s.threshold

/-- What merging a mapping over the defaults comes to: the first conversion that fails, or the settings. -/
inductive Outcome (m : Mapping) : Except SettingsError Settings → Prop
  | places {e : ConversionError} (h : (givenPlaces m).toInt = .error e) : Outcome m (.error (.conversion e))
  | threshold {n : Int} {e : ConversionError} (hplaces : (givenPlaces m).toInt = .ok n)
      (h : (givenThreshold m).toDouble = .error e) : Outcome m (.error (.conversion e))
  | settings {s : Settings} (h : IsMerged m s) : Outcome m (.ok s)

def Converts (m : Mapping) : Prop := (∃ n, (givenPlaces m).toInt = .ok n) ∧ ∃ x, (givenThreshold m).toDouble = .ok x

def Overflows (m : Mapping) : Prop :=
  (givenPlaces m).isEndless = true ∨ (∃ n, (givenPlaces m).toInt = .ok n) ∧ (givenThreshold m).IsHuge

theorem isDictionary_default : defaultMapping.IsDictionary := ⟨by decide, by decide⟩

def isNumeric (key : Yaml) : Bool := key.sameKey placesKey || key.sameKey thresholdKey

def othersOf (m : Mapping) : Mapping := (Mapping.update defaultMapping m).filter fun entry => !isNumeric entry.1

theorem get?_othersOf (hm : m.IsDictionary) (key : Yaml) : (othersOf m).get? key =
    if isNumeric key then none else (m.get? key).or (defaultMapping.get? key) := by
  have hsame : ∀ a b : Yaml, a.sameKey b = true → (!isNumeric a) = !isNumeric b := by
    intro a b h
    rw [isNumeric, isNumeric, sameKey_congr h, sameKey_congr h]
  rw [othersOf, Mapping.get?_filter hsame, Mapping.get?_update _ hm]
  cases isNumeric key <;> rfl

theorem isMerged_of_converts (hm : m.IsDictionary) {n : Int} {x : Float} (hplaces : (givenPlaces m).toInt = .ok n)
    (hthreshold : (givenThreshold m).toDouble = .ok x) : IsMerged m ⟨n, x, othersOf m⟩ := by
  refine ⟨?_, fun key => ?_, hplaces, hthreshold⟩
  · have hothers : (othersOf m).IsDictionary :=
      (isDictionary_default.update hm.isKey).filter fun key => !isNumeric key
    have hthresholdKey : (othersOf m).get? thresholdKey = none := get?_othersOf hm thresholdKey
    have hplacesKey : Mapping.get? ((thresholdKey, .double x) :: othersOf m) placesKey = none :=
      (Mapping.get?_cons ..).trans (get?_othersOf hm placesKey)
    exact (hothers.cons rfl hthresholdKey (.double x)).cons rfl hplacesKey (.int n)
  · rw [entries, Mapping.get?_cons, Mapping.get?_cons, get?_othersOf hm, sameKey_comm placesKey,
      sameKey_comm thresholdKey, isNumeric]
    cases key.sameKey placesKey <;> cases key.sameKey thresholdKey <;> rfl

/-! ## What loading comes to -/

theorem outcome_ofMapping (hm : m.IsDictionary) :
    Outcome m ((ofMapping (Mapping.update defaultMapping m)).mapError .conversion) := by
  have hplaces : ((Mapping.update defaultMapping m).find? "precision".toList).getD .null = givenPlaces m := by
    rw [Mapping.find?, Mapping.get?_update _ hm, givenPlaces, placesKey]
    cases m.get? _ <;> rfl
  have hthreshold :
      ((Mapping.update defaultMapping m).find? "large_result_threshold".toList).getD .null = givenThreshold m := by
    rw [Mapping.find?, Mapping.get?_update _ hm, givenThreshold, thresholdKey]
    cases m.get? _ <;> rfl
  rw [ofMapping, hplaces, hthreshold]
  cases hn : (givenPlaces m).toInt with
  | error e => exact .places hn
  | ok n =>
    cases hx : (givenThreshold m).toDouble with
    | error e => exact .threshold hn hx
    | ok x => exact .settings (isMerged_of_converts hm hn hx)

def HasKeysOnce (document : Yaml) : Prop := ∀ m : Mapping, document = .map m → m.IsDictionary

/-- The mapping that a document stands for; an empty document is an empty one. -/
def mapping? : Yaml → Option Mapping
  | .null  => some []
  | .map m => some m
  | _      => none

/-- The mapping that a document counts as: one that is not true counts as an empty one. -/
def counted? (document : Yaml) : Option Mapping := if document.truthy then mapping? document else some []

/-- **What is documented of loading a document.**  It is accepted if it is empty or a mapping and the settings that
have to be numbers convert, and only then; what is accepted is merged over the defaults; and all other documents are
refused with a failure of the kind that is promised. -/
structure IsDocumented (document : Yaml) (answer : Except SettingsError Settings) : Prop where
  accepts : (∃ s, answer = .ok s) ↔ ∃ m, mapping? document = some m ∧ Converts m
  merges : ∀ m s, mapping? document = some m → answer = .ok s → IsMerged m s
  refuses : ∀ e, answer = .error e → e.isPromised = true

/-- **What loading a document comes to**, and when that is as documented. -/
structure Settles (document : Yaml) (answer : Except SettingsError Settings) : Prop where
  documented_iff : IsDocumented document answer ↔
    (document.truthy = true ∨ (mapping? document).isSome = true) ∧ ∀ m, mapping? document = some m → ¬ Overflows m
  outcome : ∀ m, counted? document = some m → Outcome m answer
  notAMapping : counted? document = none → answer = .error .notAMapping

namespace Outcome

variable {answer : Except SettingsError Settings}

theorem isMerged (h : Outcome m (.ok s)) : IsMerged m s := by
  cases h with
  | settings h => exact h

theorem ok_iff (h : Outcome m answer) : (∃ s, answer = .ok s) ↔ Converts m := by
  cases h with
  | places h =>
    refine iff_of_false (fun ⟨_, heq⟩ => by cases heq) fun ⟨⟨n, hn⟩, _⟩ => ?_
    rw [h] at hn
    cases hn
  | threshold hplaces h =>
    refine iff_of_false (fun ⟨_, heq⟩ => by cases heq) fun ⟨_, x, hx⟩ => ?_
    rw [h] at hx
    cases hx
  | settings h => exact iff_of_true ⟨_, rfl⟩ ⟨⟨_, h.places⟩, _, h.threshold⟩

theorem isPromised_conversion {e : ConversionError} :
    (SettingsError.conversion e).isPromised = true ↔ ¬ ∃ o, e = .overflow o := by
  cases e <;> simp [SettingsError.isPromised, SettingsError.overflow?]

theorem isPromised_iff (h : Outcome m answer) : (∀ e, answer = .error e → e.isPromised = true) ↔ ¬ Overflows m := by
  cases h with
  | @places e h =>
    -- the threshold is not converted any more, however large it is
    have hnone : ¬ ∃ n, (givenPlaces m).toInt = .ok n := by simp [h]
    have hoverflows : Overflows m ↔ ∃ o, e = .overflow o := by
      rw [Overflows, or_iff_left (fun h => hnone h.1), ← Yaml.toInt_overflow_iff, h]
      simp
    rw [hoverflows, ← isPromised_conversion]
    simp
  | @threshold n e hplaces h =>
    have hfinite : ¬ (givenPlaces m).isEndless = true := by simp [← Yaml.toInt_overflow_iff, hplaces]
    have hoverflows : Overflows m ↔ ∃ o, e = .overflow o := by
      rw [Overflows, or_iff_right hfinite, and_iff_right ⟨n, hplaces⟩, ← Yaml.toDouble_overflow_iff, h]
      simp
    rw [hoverflows, ← isPromised_conversion]
    simp
  | settings h =>
    have hfinite : ¬ (givenPlaces m).isEndless = true := by simp [← Yaml.toInt_overflow_iff, h.places]
    have hsmall : ¬ (givenThreshold m).IsHuge := by simp [← Yaml.toDouble_overflow_iff, h.threshold]
    exact iff_of_true (fun _ heq => by cases heq) fun hover => hover.elim hfinite fun hover => hsmall hover.2

end Outcome

theorem ofDocument_eq (document : Yaml) : ofDocument document =
    match counted? document with
    | some m => (ofMapping (Mapping.update defaultMapping m)).mapError .conversion
    | none   => .error .notAMapping := by
  unfold ofDocument counted?
  cases htruthy : document.truthy with
  | false => rfl
  | true =>
    cases document with
    | null => cases htruthy
    | map entries => rfl
    | _ => rfl

theorem isDictionary_of_counted? (hkeys : HasKeysOnce document) (h : counted? document = some m) : m.IsDictionary := by
  rw [counted?] at h
  split at h
  · cases document with
    | map entries =>
      cases h
      exact hkeys m rfl
    | null =>
      cases h
      exact Mapping.isDictionary_nil
    | _ => cases h
  · cases h
    exact Mapping.isDictionary_nil

theorem outcome_ofDocument (hkeys : HasKeysOnce document) (h : counted? document = some m) :
    Outcome m (ofDocument document) := by
  rw [ofDocument_eq, h]
  exact outcome_ofMapping (isDictionary_of_counted? hkeys h)

theorem counted?_of_mapping? (h : mapping? document = some m) : counted? document = some m := by
  rw [counted?, h]
  split
  · rfl
  · rename_i hfalse
    cases document with
    | null => exact h
    | map entries =>
      cases h
      cases m with
      | nil => rfl
      | cons entry rest => exact absurd rfl hfalse
    | _ => cases h

theorem converts_nil : Converts [] := ⟨⟨_, rfl⟩, _, rfl⟩

/-! ## What is documented -/

variable {answer : Except SettingsError Settings}

theorem isDocumented_iff_of_outcome (hm : mapping? document = some m) (h : Outcome m answer) :
    IsDocumented document answer ↔ ¬ Overflows m := by
  rw [← h.isPromised_iff]
  refine ⟨IsDocumented.refuses, fun hpromised => ⟨?_, ?_, hpromised⟩⟩
  · rw [h.ok_iff, hm]
    simp
  · rintro m' s hm' rfl
    obtain rfl := Option.some.inj (hm.symm.trans hm')
    exact h.isMerged

theorem isDocumented_notAMapping (h : mapping? document = none) : IsDocumented document (.error .notAMapping) where
  accepts := by simp [h]
  merges := by simp [h]
  refuses := by
    rintro _ ⟨⟩
    rfl

theorem mapping?_of_accepted (h : IsDocumented document answer) (hok : ∃ s, answer = .ok s) :
    (mapping? document).isSome = true := by
  obtain ⟨m, hm, -⟩ := h.accepts.1 hok
  rw [hm, Option.isSome_some]

theorem settles_ofDocument (hkeys : HasKeysOnce document) : Settles document (ofDocument document) := by
  refine ⟨?_, fun m => outcome_ofDocument hkeys, fun hnone => by rw [ofDocument_eq, hnone]⟩
  cases hmapping : mapping? document with
  | some m =>
    rw [isDocumented_iff_of_outcome hmapping (outcome_ofDocument hkeys (counted?_of_mapping? hmapping))]
    simp
  | none =>
    cases htruthy : document.truthy with
    | true =>
      have hrefused : ofDocument document = .error .notAMapping := by
        rw [ofDocument_eq, counted?, htruthy, if_pos rfl, hmapping]
      rw [hrefused]
      exact iff_of_true (isDocumented_notAMapping hmapping) ⟨.inl rfl, nofun⟩
    | false =>
      -- the defaults, for what is no mapping
      have hcounted : counted? document = some [] := by
        rw [counted?, htruthy]
        rfl
      have haccepted := (outcome_ofDocument hkeys hcounted).ok_iff.2 converts_nil
      refine iff_of_false (fun h => ?_) (by simp)
      have hsome := mapping?_of_accepted h haccepted
      rw [hmapping] at hsome
      cases hsome

/-! ## Files -/

section Files

variable {fs : Files} {dir : Path} {bytes : List UInt8}

theorem load_of_read (hread : fs.read (dir.child settingsName) = .ok bytes)
    (hdocument : readDocument bytes = .ok document) :
    load fs dir = ofDocument document := by
  have hexists : fs.exists? (dir.child settingsName) = .ok true := by
    rw [Files.read] at hread
    rw [Files.exists?]
    split at hread
    · rename_i hstat
      rw [hstat]
    · cases hread
    · cases hread
  rw [load, hexists, hread]
  dsimp only
  rw [hdocument]

theorem hasKeysOnce_of_readDocument (h : readDocument bytes = .ok document) : HasKeysOnce document := by
  rintro m rfl
  rw [readDocument] at h
  split at h
  · cases h
  rename_i text htext
  cases hread : Yaml.read (unifyNewlines text) with
  | error e =>
    rw [hread] at h
    cases h
  | ok document =>
    rw [hread] at h
    cases h
    exact Yaml.isDictionary_of_read hread

end Files

/-- **Loading is as documented but for two slips.**  Take any document, read from a file of settings, or in any
other way as long as no mapping has a key twice.  That loading accepts it if and only if it is empty or a mapping
whose numbers convert, that it then merges it over the defaults, and that it refuses it as promised if not, holds
exactly if it is true, empty or a mapping, and its conversions do not overflow.  In every case the mapping that
counts comes to its first failing conversion or to the merged settings, and a document without one is refused as no
mapping. -/
theorem load_documented_iff (document : Yaml) :
    (∀ (fs : Files) (dir : Path) (bytes : List UInt8), fs.read (dir.child settingsName) = .ok bytes →
      readDocument bytes = .ok document → Settles document (load fs dir)) ∧
    (HasKeysOnce document → Settles document (ofDocument document)) := by
  refine ⟨fun fs dir bytes hread hdocument => ?_, settles_ofDocument⟩
  rw [load_of_read hread hdocument]
  exact settles_ofDocument (hasKeysOnce_of_readDocument hdocument)

def filesWith (document : String) : Files := (Console.deskWith document.toList id).files

theorem read_filesWith (document : String) :
    (filesWith document).read ((Path.ofText ['p']).child settingsName) = .ok (Utf8.encode document.toList) := rfl

def textOf? : Yaml → Option (List Char)
  | .str text => some text
  | _         => none

theorem textOf?_eq_some_iff {v : Yaml} {text : List Char} : textOf? v = some text ↔ v = .str text := by
  cases v <;> simp [textOf?]

def hasText (document : Yaml) (key text : List Char) : Bool :=
  (mapping? document).any fun m => ((m.get? (.str key)).bind textOf?) == some text

theorem get?_of_hasText {key text : List Char} (hm : mapping? document = some m)
    (h : hasText document key text = true) :
    m.get? (.str key) = some (.str text) := by
  rw [hasText, hm, Option.any_some, beq_iff_eq] at h
  obtain ⟨v, hv, htext⟩ := Option.bind_eq_some_iff.1 h
  rw [hv, textOf?_eq_some_iff.1 htext]

def ownedText : String := "precision: '3'\nowner: ops\n"

theorem readDocument_owned : ∃ document m, readDocument (Utf8.encode ownedText.toList) = .ok document ∧
    mapping? document = some m ∧ m.get? placesKey = some (.str ['3']) ∧
    m.get? (.str "owner".toList) = some (.str "ops".toList) ∧ m.get? thresholdKey = none ∧
    m.get? (.str "limit".toList) = none := by
  have hread : (readDocument (Utf8.encode ownedText.toList)).toOption.any (fun document =>
      hasText document "precision".toList ['3'] && hasText document "owner".toList "ops".toList &&
        (mapping? document).any fun m =>
          (m.get? thresholdKey).isNone && (m.get? (.str "limit".toList)).isNone) = true := by
    decide +kernel
  obtain ⟨document, hdocument, hshape⟩ := Expr.exists_of_any hread
  rw [Bool.and_eq_true, Bool.and_eq_true, Option.any_eq_true] at hshape
  obtain ⟨⟨hprecision, howner⟩, m, hm, hnone⟩ := hshape
  rw [Bool.and_eq_true, Option.isNone_iff_eq_none, Option.isNone_iff_eq_none] at hnone
  exact ⟨document, m, hdocument, hm, get?_of_hasText hm hprecision, get?_of_hasText hm howner, hnone⟩

theorem load_documented_iff_ownedProject : ∃ s, load (filesWith ownedText) (.ofText ['p']) = .ok s ∧ s.places = 3 ∧
    s.entries.get? thresholdKey = some (.double Status.defaultThreshold) ∧
    s.entries.get? (.str "owner".toList) = some (.str "ops".toList) ∧ s.entries.get? (.str "limit".toList) = none := by
  obtain ⟨document, m, hdocument, hm, hprecision, howner, hnothreshold, hnolimit⟩ := readDocument_owned
  have hgivenPlaces : givenPlaces m = .str ['3'] := by rw [givenPlaces, hprecision, Option.getD_some]
  have hgivenThreshold : givenThreshold m = .double Status.defaultThreshold := by
    rw [givenThreshold, hnothreshold, Option.getD_none]
  have hplaces : (givenPlaces m).toInt = .ok 3 := by
    rw [hgivenPlaces]
    decide +kernel
  have hthreshold : (givenThreshold m).toDouble = .ok Status.defaultThreshold := by
    rw [hgivenThreshold]
    rfl
  have hfits : ¬ Overflows m := by
    rw [Overflows, hgivenPlaces, hgivenThreshold]
    rintro (hendless | ⟨-, hhuge⟩)
    · cases hendless
    · exact hhuge
  have hsettled := (load_documented_iff document).1 _ _ _ (read_filesWith ownedText) hdocument
  have hdocumented := hsettled.documented_iff.2
    ⟨.inr (by rw [hm]; rfl), fun m' hm' => by rwa [← Option.some.inj (hm.symm.trans hm')]⟩
  obtain ⟨s, hs⟩ := hdocumented.accepts.2 ⟨m, hm, ⟨3, hplaces⟩, _, hthreshold⟩
  have hmerged := hdocumented.merges m s hm hs
  have hkept : s.threshold = Status.defaultThreshold := Except.ok.inj (hmerged.threshold.symm.trans hthreshold)
  refine ⟨s, hs, Except.ok.inj (hmerged.places.symm.trans hplaces), ?_, ?_, ?_⟩
  · exact hkept ▸ hmerged.get? thresholdKey
  · have howned := hmerged.get? (.str "owner".toList)
    rw [howner] at howned
    exact howned
  · have hunknown := hmerged.get? (.str "limit".toList)
    rw [hnolimit] at hunknown
    exact hunknown

def itemsOf? : Yaml → Option (List Yaml)
  | .list items => some items
  | _           => none

theorem itemsOf?_eq_some_iff {v : Yaml} {items : List Yaml} : itemsOf? v = some items ↔ v = .list items := by
  cases v <;> simp [itemsOf?]

theorem readDocument_emptyList : readDocument (Utf8.encode "[]\n".toList) = .ok (.list []) := by
  have hread : (readDocument (Utf8.encode "[]\n".toList)).toOption.any (fun document =>
      (itemsOf? document).any List.isEmpty) = true := by decide +kernel
  obtain ⟨document, hdocument, hshape⟩ := Expr.exists_of_any hread
  rw [Option.any_eq_true] at hshape
  obtain ⟨items, hitems, hempty⟩ := hshape
  rw [hdocument, itemsOf?_eq_some_iff.1 hitems, List.isEmpty_iff.1 hempty]

theorem readDocument_infinity : ∃ document m, readDocument (Utf8.encode "precision: .inf\n".toList) = .ok document ∧
    mapping? document = some m ∧ (givenPlaces m).isEndless = true := by
  have hread : (readDocument (Utf8.encode "precision: .inf\n".toList)).toOption.any (fun document =>
      (mapping? document).any fun m => (givenPlaces m).isEndless) = true := by decide +kernel
  obtain ⟨document, hdocument, hshape⟩ := Expr.exists_of_any hread
  rw [Option.any_eq_true] at hshape
  obtain ⟨m, hm, hendless⟩ := hshape
  exact ⟨document, m, hdocument, hm, hendless⟩

/-- **An empty list is accepted, and an infinity for the places is not refused as promised.** -/
theorem not_documented_emptyList_infinity :
    (readDocument (Utf8.encode "[]\n".toList) = .ok (.list []) ∧
      ¬ IsDocumented (.list []) (load (filesWith "[]\n") (.ofText ['p']))) ∧
    ∃ document, readDocument (Utf8.encode "precision: .inf\n".toList) = .ok document ∧
      ¬ IsDocumented document (load (filesWith "precision: .inf\n") (.ofText ['p'])) := by
  refine ⟨⟨readDocument_emptyList, fun h => ?_⟩, ?_⟩
  · rw [load_of_read (read_filesWith _) readDocument_emptyList] at h
    have hsettled := settles_ofDocument (hasKeysOnce_of_readDocument readDocument_emptyList)
    cases mapping?_of_accepted h ((hsettled.outcome [] rfl).ok_iff.2 converts_nil)
  · obtain ⟨document, m, hdocument, hm, hendless⟩ := readDocument_infinity
    refine ⟨document, hdocument, fun h => ?_⟩
    rw [load_of_read (read_filesWith _) hdocument] at h
    have hsettled := settles_ofDocument (hasKeysOnce_of_readDocument hdocument)
    exact (hsettled.documented_iff.1 h).2 m hm (.inl hendless)

end Settings
end Abacus
