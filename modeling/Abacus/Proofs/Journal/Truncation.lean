import Abacus.Proofs.Journal.Lengths
/-!
# What cutting leaves alone

Whatever a context holds under a path of keys (`Json.at?`), cutting leaves the same there but for the long strings
(`at?_truncatedValue`, `isCutTo_truncatedValue`).  What has been cut stays as it is when it is cut again, though a
cut string with its mark is longer than those that are not cut, and keys are looked for with the same result before
and after (`truncatedFields_projects`).
-/
namespace Abacus

namespace Json

/-- What a value holds under a path of keys, all but the last of which lead to objects. -/
def at? : Json → List (List Char) → Option Json
  | v, []                  => some v
  | .obj fields, k :: path => (List.lookup k fields).bind fun v => at? v path
  | _, _ :: _              => none

end Json

namespace Event

variable {v w : Json} {text : List Char}

/-! ## Strings -/

theorem truncatedText_of_le (h : text.length ≤ maxLength) : truncatedText text = text := if_neg (Nat.not_lt.2 h)

theorem truncatedText_of_lt (h : maxLength < text.length) :
    truncatedText text = text.take maxLength ++ truncationMark := if_pos h

theorem truncatedText_truncatedText (text : List Char) : truncatedText (truncatedText text) = truncatedText text := by
  rcases Nat.lt_or_ge maxLength text.length with hlong | hshort
  · have hkept : (text.take maxLength).length = maxLength := List.length_take_of_le hlong.le
    have hmarked : maxLength < (text.take maxLength ++ truncationMark).length := by
      rw [List.length_append, hkept]
      decide
    rw [truncatedText_of_lt hlong, truncatedText_of_lt hmarked, List.take_left' hkept]
  · rw [truncatedText_of_le hshort, truncatedText_of_le hshort]

-- what is cut has more characters than what need not be
example : (truncatedText (List.replicate 257 'x')).length = 270 := by decide +kernel

/-! ## Values -/

theorem truncatedValue_truncatedValue (v : Json) : truncatedValue (truncatedValue v) = truncatedValue v := by
  induction v using Json.inductionOn with
  | str text => rw [truncatedValue, truncatedValue, truncatedText_truncatedText]
  | obj fields ih =>
    rw [truncatedValue, truncatedValue, truncatedFields_eq_map, truncatedFields_eq_map, List.map_map]
    exact congrArg Json.obj (List.map_congr_left fun f hf => congrArg (Prod.mk f.1) (ih f hf))
  | _ => rfl

/-- **Cutting and following a path of keys may change places.** -/
theorem at?_truncatedValue (v : Json) (path : List (List Char)) :
    (truncatedValue v).at? path = (v.at? path).map truncatedValue := by
  induction path generalizing v with
  | nil => rw [Json.at?, Json.at?, Option.map_some]
  | cons k path ih =>
    cases v with
    | obj fields =>
      rw [truncatedValue, Json.at?, Json.at?, lookup_truncatedFields]
      cases List.lookup k fields with
      | none => rfl
      | some v => exact ih v
    | _ => rfl

/-- The one value is what the other may become when it is cut: a string is as it was, or its start with the mark; an
object has the same keys; and all else is as it was. -/
def IsCutTo : Json → Json → Prop
  | .str text, w   => ∃ cut, w = .str cut ∧ cut.length ≤ 270 ∧ (text.length ≤ 256 → cut = text) ∧
      (256 < text.length → cut = text.take 256 ++ "...[truncated]".toList)
  | .obj fields, w => ∃ cut, w = .obj cut ∧ Fields.keys cut = Fields.keys fields
  | v, w           => w = v

theorem isCutTo_truncatedValue (v : Json) : IsCutTo v (truncatedValue v) := by
  cases v with
  | str text =>
    exact ⟨_, by rw [truncatedValue], length_truncatedText_le text, truncatedText_of_le, truncatedText_of_lt⟩
  | obj fields => exact ⟨_, by rw [truncatedValue], keys_truncatedFields fields⟩
  | _ => rfl

/-! ## Required keys -/

theorem truncatedFields_set (key : List Char) (h : truncatedValue v = v) (context : Fields) :
    truncatedFields (Assoc.set key v context) = Assoc.set key v (truncatedFields context) := by
  induction context with
  | nil => rw [Assoc.set, truncatedFields, truncatedFields, truncatedFields, h, Assoc.set]
  | cons f context ih =>
    rw [Assoc.set, truncatedFields, Assoc.set]
    split
    · rw [truncatedFields, h]
    · rw [truncatedFields, ih]

theorem truncated_attributed (e : Event) : e.attributed.truncated = e.truncated.attributed := by
  have hmissing : missing e.truncated.kind e.truncated.context = missing e.kind e.context :=
    missing_truncatedFields e.kind e.context
  rw [attributed, attributed, hmissing]
  cases missing e.kind e.context with
  | nil => rfl
  | cons key keys =>
    have hlist : truncatedValue (.arr ((key :: keys).map .str)) = .arr ((key :: keys).map .str) := rfl
    exact congrArg (fun context => { e with level := .warning, context := context })
      (truncatedFields_set missingKey hlist e.context)

/-- **Cutting keeps the structure of a context and does nothing when it is repeated.**  Under every path of keys
there is something after the cut exactly if there was before: an object with the same keys, a string that is as it
was if it has at most 256 characters and else its first 256 with the mark, in all no more than 270, and any other
value, lists among them, as it was.  So the same required keys are missing, and it is all one whether an event is
cut before they are looked for or after. -/
theorem truncatedFields_projects (context : Fields) :
    truncatedFields (truncatedFields context) = truncatedFields context ∧
    (∀ path, Option.Rel IsCutTo ((Json.obj context).at? path) ((Json.obj (truncatedFields context)).at? path)) ∧
    (∀ kind, missing kind (truncatedFields context) = missing kind context) ∧
    ∀ e : Event, e.truncated.attributed = e.attributed.truncated := by
  refine ⟨?_, fun path => ?_, fun kind => missing_truncatedFields kind context, fun e => (truncated_attributed e).symm⟩
  · have htwice := truncatedValue_truncatedValue (.obj context)
    rw [truncatedValue, truncatedValue] at htwice
    exact Json.obj.inj htwice
  · have hpath := at?_truncatedValue (.obj context) path
    rw [truncatedValue] at hpath
    rw [hpath]
    cases (Json.obj context).at? path with
    | none => exact .none
    | some v => exact .some (isCutTo_truncatedValue v)

end Event

end Abacus
