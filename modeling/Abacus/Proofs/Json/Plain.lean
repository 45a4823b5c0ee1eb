import Abacus.Proofs.Json.Numbers
import Abacus.Proofs.Json.Shape
/-!
# The characters of a text of JSON

Whatever strings a value holds, its text has no characters but the printable ones of ASCII (`isPlain_text`): none that
ends a line, and none that takes more than a byte.
-/
namespace Abacus.Json

def isPlainChar (c : Char) : Bool := 0x20 ≤ c.toNat && c.toNat ≤ 0x7E

def isPlain (text : List Char) : Bool := text.all isPlainChar

@[simp] theorem isPlain_nil : isPlain [] = true := rfl

@[simp] theorem isPlain_cons (c : Char) (cs : List Char) : isPlain (c :: cs) = (isPlainChar c && isPlain cs) := rfl

@[simp] theorem isPlain_append (cs ds : List Char) : isPlain (cs ++ ds) = (isPlain cs && isPlain ds) := List.all_append

theorem isPlain_of_forall {text : List Char} (h : ∀ c ∈ text, isPlainChar c = true) : isPlain text = true :=
  List.all_eq_true.2 h

/-! ## Strings -/

theorem isPlainChar_digitChar : ∀ n < 16, isPlainChar (Nat.digitChar n) = true := by decide

theorem isPlain_hexDigits (width n : Nat) : isPlain (hexDigits width n) = true := by
  induction width generalizing n with
  | zero => rfl
  | succ width ih =>
    have hdigit := isPlainChar_digitChar _ (Nat.mod_lt n (by decide : 16 > 0))
    rw [hexDigits, isPlain_append, ih, Bool.true_and, isPlain_cons, hdigit]
    rfl

theorem isPlain_unitEscape (n : Nat) : isPlain (unitEscape n) = true := isPlain_hexDigits 4 n

theorem isPlain_escaped (c : Char) : isPlain (escaped c) = true := by
  rw [escaped]
  iterate 7
    split
    · rfl
  split
  · rename_i hplain
    simp [isPlainChar, hplain]
  split
  · exact isPlain_unitEscape _
  · rw [isPlain_append, isPlain_unitEscape, isPlain_unitEscape, Bool.and_self]

theorem isPlain_stringText (text : List Char) : isPlain (stringText text) = true := by
  have hall : isPlain (text.flatMap escaped) = true := by
    refine isPlain_of_forall fun c hc => ?_
    obtain ⟨d, -, hd⟩ := List.mem_flatMap.1 hc
    exact List.all_eq_true.1 (isPlain_escaped d) c hd
  rw [stringText, isPlain_append, isPlain_cons, hall]
  rfl

/-! ## Numbers -/

theorem isPlain_literal {cs : List Char} (h : ∀ c ∈ cs, c ∈ literalChars) : isPlain cs = true :=
  isPlain_of_forall fun c hc => passes_of_literalChars (by decide) (h c hc)

theorem isPlain_signed {cs : List Char} (negative : Bool) (h : isPlain cs = true) :
    isPlain (signed negative cs) = true := by
  cases negative
  · exact h
  · rw [signed, if_pos rfl, isPlain_cons, h]
    rfl

theorem isPlain_intText (n : Int) : isPlain (intText n) = true := by
  rw [intText_eq_signed]
  exact isPlain_signed _ (isPlain_literal fun c hc => mem_literalChars_of_isDigit (isDigit_natText c hc))

theorem isPlain_doubleName (x : Float) : isPlain (doubleName x) = true := by
  rw [doubleName]
  split
  · rfl
  · rfl
  · rfl
  · rename_i negative m e hx
    rw [doubleText, hx]
    refine isPlain_signed negative ?_
    split
    · rfl
    · exact isPlain_literal (mem_literalChars (isLiteral_decimalText _))

/-! ## Values -/

theorem isPlain_moreItemsText {vs : List Json} (h : ∀ v ∈ vs, isPlain v.text = true) :
    isPlain (moreItemsText vs) = true := by
  induction vs with
  | nil => rfl
  | cons v vs ih =>
    simp [moreItemsText, h v List.mem_cons_self, ih fun w hw => h w (List.mem_cons_of_mem v hw), isPlainChar]

theorem isPlain_moreFieldsText {fs : Fields} (h : ∀ f ∈ fs, isPlain f.2.text = true) :
    isPlain (moreFieldsText fs) = true := by
  induction fs with
  | nil => rfl
  | cons f fs ih =>
    simp [moreFieldsText, isPlain_stringText, h f List.mem_cons_self, ih fun g hg => h g (List.mem_cons_of_mem f hg),
      isPlainChar]

/-- **The text of a value is printable ASCII.** -/
theorem isPlain_text (v : Json) : isPlain v.text = true := by
  induction v using inductionOn with
  | null => rfl
  | bool b => cases b <;> rfl
  | int n => exact isPlain_intText n
  | double x => exact isPlain_doubleName x
  | str s => exact isPlain_stringText s
  | arr items ih =>
    cases items with
    | nil => rfl
    | cons v vs =>
      simp [text, itemsText, ih v List.mem_cons_self,
        isPlain_moreItemsText fun w hw => ih w (List.mem_cons_of_mem v hw), isPlainChar]
  | obj fs ih =>
    cases fs with
    | nil => rfl
    | cons f fs =>
      simp [text, fieldsText, isPlain_stringText, ih f List.mem_cons_self,
        isPlain_moreFieldsText fun g hg => ih g (List.mem_cons_of_mem f hg), isPlainChar]

end Abacus.Json
