import Mathlib
import Abacus.Text.Utf8
/-!
# Bytes below 128

Such a byte is a character of its own and goes into no other.  So reading bytes as text may be cut in front of each
of them, however broken the bytes before it are (`decode_append`), and a text of characters below 128 is read from
its bytes (`decode_encode`).
-/
namespace Abacus.Utf8

variable {b : UInt8} {ys : List UInt8}

/-! ## The next character -/

def Step.symbol : Step → Char
  | .char c _      => c
  | .invalid _ _ _ => replacement

theorem decode_nil : decode [] = [] := by rw [decode]

theorem decode_cons (a : UInt8) (bs : List UInt8) :
    decode (a :: bs) = (step a bs).symbol :: decode (step a bs).rest := by
  rw [decode]
  split <;> simp only [Step.symbol, Step.rest, *]

def Extends (s t : Step) (more : List UInt8) : Prop := t.symbol = s.symbol ∧ t.rest = s.rest ++ more

theorem extends_expect {length : Nat} {test : UInt8 → Bool} {rest : List UInt8} {next : UInt8 → List UInt8 → Step}
    (htest : test b = false) (hnext : ∀ c cs, Extends (next c cs) (next c (cs ++ b :: ys)) (b :: ys)) :
    Extends (expect length test rest next) (expect length test (rest ++ b :: ys) next) (b :: ys) := by
  cases rest with
  | nil =>
    rw [List.nil_append, expect, expect, if_neg (by rw [htest]; exact Bool.false_ne_true)]
    exact ⟨rfl, rfl⟩
  | cons c cs =>
    rw [List.cons_append, expect, expect]
    split
    · exact hnext c cs
    · exact ⟨rfl, rfl⟩

theorem isTail_eq_false (h : b < 0x80) : isTail b = false := by
  have hle : ¬ 0x80 ≤ b := UInt8.not_le.2 h
  simp [isTail, hle]

theorem mayFollow_eq_false (h : b < 0x80) (first : UInt8) : mayFollow first b = false := by
  simp [mayFollow, isTail_eq_false h]

theorem extends_step (h : b < 0x80) (a : UInt8) (bs ys : List UInt8) :
    Extends (step a bs) (step a (bs ++ b :: ys)) (b :: ys) := by
  have htail := isTail_eq_false h
  have hfollow := mayFollow_eq_false h a
  unfold step
  split
  · exact ⟨rfl, rfl⟩
  split
  · exact extends_expect htail fun _ _ => ⟨rfl, rfl⟩
  split
  · exact extends_expect hfollow fun _ _ => extends_expect htail fun _ _ => ⟨rfl, rfl⟩
  split
  · exact extends_expect hfollow fun _ _ => extends_expect htail fun _ _ => extends_expect htail fun _ _ => ⟨rfl, rfl⟩
  · exact ⟨rfl, rfl⟩

/-! ## Cutting -/

/-- **Bytes may be cut in front of one below 128.** -/
theorem decode_append (h : b < 0x80) (xs ys : List UInt8) : decode (xs ++ b :: ys) = decode xs ++ decode (b :: ys) := by
  induction hlength : xs.length using Nat.strong_induction_on generalizing xs with
  | _ n ih =>
    cases xs with
    | nil => rw [decode_nil, List.nil_append, List.nil_append]
    | cons a bs =>
      obtain ⟨hsymbol, hrest⟩ := extends_step h a bs ys
      have hle := length_step_le a bs
      rw [List.length_cons] at hlength
      rw [List.cons_append, decode_cons, hsymbol, hrest, ih _ (by omega) _ rfl, decode_cons a bs, List.cons_append]

theorem decode_cons_of_lt (h : b < 0x80) (bs : List UInt8) : decode (b :: bs) = Char.ofNat b.toNat :: decode bs := by
  rw [decode_cons, step, if_pos h]
  rfl

/-! ## Texts of such characters -/

theorem utf8EncodeChar_of_lt {c : Char} (h : c.toNat < 0x80) : String.utf8EncodeChar c = [UInt8.ofNat c.toNat] := by
  have hle : c.toNat ≤ 0x7F := Nat.le_of_lt_succ h
  simp [String.utf8EncodeChar, hle]

theorem decode_encode {text : List Char} (h : ∀ c ∈ text, c.toNat < 0x80) (bs : List UInt8) :
    decode (encode text ++ bs) = text ++ decode bs := by
  induction text with
  | nil => rfl
  | cons c cs ih =>
    have hc := h c List.mem_cons_self
    have hnat : (UInt8.ofNat c.toNat).toNat = c.toNat := UInt8.toNat_ofNat_of_lt' (by rw [UInt8.size]; omega)
    have hlt : UInt8.ofNat c.toNat < 0x80 := UInt8.lt_iff_toNat_lt.2 (by rw [hnat]; exact hc)
    rw [encode, List.flatMap_cons, utf8EncodeChar_of_lt hc, List.singleton_append, List.cons_append,
      decode_cons_of_lt hlt, hnat, Char.ofNat_toNat, List.cons_append]
    exact congrArg _ (ih fun d hd => h d (List.mem_cons_of_mem c hd))

theorem encode_append (text more : List Char) : encode (text ++ more) = encode text ++ encode more :=
  List.flatMap_append

theorem mem_encode {text : List Char} (h : ∀ c ∈ text, c.toNat < 0x80) (hb : b ∈ encode text) :
    ∃ c ∈ text, b = UInt8.ofNat c.toNat := by
  obtain ⟨c, hc, hmem⟩ := List.mem_flatMap.1 hb
  rw [utf8EncodeChar_of_lt (h c hc), List.mem_singleton] at hmem
  exact ⟨c, hc, hmem⟩

/-! ## Bytes that are text -/

theorem decode_of_decode? {bytes : List UInt8} {text : List Char} (h : decode? bytes = .ok text) :
    decode bytes = text := by
  rw [decode?] at h
  generalize 0 = position at h
  induction hlength : bytes.length using Nat.strong_induction_on generalizing bytes text position with
  | _ n ih =>
    cases bytes with
    | nil =>
      rw [decodeFrom] at h
      cases h
      exact decode_nil
    | cons a bs =>
      have hle := length_step_le a bs
      rw [List.length_cons] at hlength
      rw [decodeFrom] at h
      rw [decode_cons]
      split at h
      · rename_i c rest hstep
        cases hrest : decodeFrom (position + (bs.length + 1 - rest.length)) rest with
        | error e =>
          rw [hrest] at h
          cases h
        | ok more =>
          rw [hrest] at h
          cases h
          rw [hstep] at hle ⊢
          exact congrArg _ (ih rest.length (by simp only [Step.rest] at hle; omega) _ hrest rfl)
      · cases h

end Abacus.Utf8
