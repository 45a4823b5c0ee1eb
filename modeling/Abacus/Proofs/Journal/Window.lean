import Abacus.Proofs.Journal.Lines
/-!
# The window at the end of a log

A reading looks at the last bytes of a log only.  When these are not all, they may start within a line, so the reading
goes on after the first newline; that line is given up even if it is whole.  So of lines of events the longest end
with fewer bytes than the window is read (`tail_bytesOf`).
-/
namespace Abacus.Journal

variable {window n : Nat} {es kept : List Event} {xs ys : List UInt8}

def afterNewline (bytes : List UInt8) : List UInt8 :=
  match bytes.dropWhile (· != 10) with
  | []        => bytes
  | _ :: rest => rest

theorem tail_of_le (h : xs.length ≤ window) : tail window xs = xs := if_pos h

theorem tail_of_lt (h : window < xs.length) : tail window xs = afterNewline (xs.drop (xs.length - window)) :=
  if_neg (Nat.not_le.2 h)

theorem afterNewline_append (h : 10 ∉ xs) : afterNewline (xs ++ 10 :: ys) = ys := by
  have hxs : ∀ b ∈ xs, (b != 10) = true := fun b hb => bne_iff_ne.2 fun heq => h (heq ▸ hb)
  rw [afterNewline, List.dropWhile_append_of_pos hxs]
  rfl

/-! ## The longest end of a list of events that fits -/

/-- The last events, as many as have fewer bytes than a window. -/
def newest (window : Nat) : List Event → List Event
  | []      => []
  | e :: es => if (bytesOf (e :: es)).length < window then e :: es else newest window es

theorem newest_suffix (window : Nat) (es : List Event) : newest window es <:+ es := by
  induction es with
  | nil => exact List.suffix_rfl
  | cons e es ih =>
    rw [newest]
    split
    · exact List.suffix_rfl
    · exact ih.trans (List.suffix_cons e es)

theorem length_newest_lt (h : 0 < window) (es : List Event) : (bytesOf (newest window es)).length < window := by
  induction es with
  | nil => exact h
  | cons e es ih =>
    rw [newest]
    split
    · assumption
    · exact ih

theorem suffix_newest (hkept : kept <:+ es) (h : (bytesOf kept).length < window) : kept <:+ newest window es := by
  induction es with
  | nil => exact hkept
  | cons e es ih =>
    rw [newest]
    split
    · exact hkept
    · rename_i hnot
      rcases List.suffix_cons_iff.1 hkept with rfl | hsuffix
      · exact absurd h hnot
      · exact ih hsuffix

theorem newest_zero (es : List Event) : newest 0 es = [] := by
  induction es with
  | nil => rfl
  | cons e es ih => rw [newest, if_neg (Nat.not_lt_zero _), ih]

theorem newest_of_lt (h : (bytesOf es).length < window) : newest window es = es := by
  cases es with
  | nil => rfl
  | cons e es => exact if_pos h

/-! ## What is read of a log of events -/

theorem bytesOf_cons (e : Event) (es : List Event) : bytesOf (e :: es) = e.body ++ 10 :: bytesOf es := by
  rw [bytesOf, List.flatMap_cons, e.bytes_eq, List.append_assoc, List.singleton_append, bytesOf]

theorem length_bytesOf_cons (e : Event) (es : List Event) :
    (bytesOf (e :: es)).length = e.body.length + 1 + (bytesOf es).length := by
  rw [bytesOf_cons, List.length_append, List.length_cons]
  omega

theorem afterNewline_drop (h : n < (bytesOf es).length) :
    afterNewline ((bytesOf es).drop n) = bytesOf (newest ((bytesOf es).length - n) es) := by
  induction es generalizing n with
  | nil => exact absurd h (Nat.not_lt_zero n)
  | cons e es ih =>
    have hlength := length_bytesOf_cons e es
    rw [newest, if_neg (by omega), bytesOf_cons]
    by_cases hn : n ≤ e.body.length
    · have hbody : 10 ∉ e.body.drop n := fun hmem => e.newline_not_mem_body (List.mem_of_mem_drop hmem)
      rw [List.drop_append_of_le_length hn, afterNewline_append hbody, ← bytesOf_cons, newest_of_lt (by omega)]
    · -- the cut is in one of the other lines
      obtain ⟨m, rfl⟩ : ∃ m, n = e.body.length + (m + 1) := ⟨n - e.body.length - 1, by omega⟩
      have hwindow : (bytesOf (e :: es)).length - (e.body.length + (m + 1)) = (bytesOf es).length - m := by omega
      rw [List.drop_append, List.drop_of_length_le (by omega), List.nil_append, Nat.add_sub_cancel_left,
        List.drop_succ_cons, ih (by omega), ← bytesOf_cons, hwindow]

/-- **A window that is too small for all events keeps the longest end of them that is smaller than it.** -/
theorem tail_bytesOf (h : window < (bytesOf es).length) : tail window (bytesOf es) = bytesOf (newest window es) := by
  rw [tail_of_lt h]
  rcases Nat.eq_zero_or_pos window with rfl | hwindow
  · rw [Nat.sub_zero, List.drop_length, newest_zero]
    rfl
  · have hrest : (bytesOf es).length - ((bytesOf es).length - window) = window := by omega
    rw [afterNewline_drop (by omega), hrest]

end Abacus.Journal
