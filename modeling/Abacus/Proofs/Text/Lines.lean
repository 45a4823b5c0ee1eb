import Mathlib
import Abacus.Text.Blank
import Abacus.Text.Lines
/-!
# Cutting texts

A text that is cut at a character of a class falls into the pieces before it and the pieces after it
(`splitAtAll_append`).  A text without blanks at its ends is its own strip (`strip_eq_self`).
-/
namespace Abacus

variable {p : Char → Bool}

theorem splitAtAll_cons_of_neg {c : Char} (h : p c = false) (cs : List Char) :
    ∃ piece pieces, splitAtAll p cs = piece :: pieces ∧ splitAtAll p (c :: cs) = (c :: piece) :: pieces := by
  obtain ⟨piece, pieces, hcs⟩ := List.exists_cons_of_ne_nil (splitAtAll_ne_nil p cs)
  refine ⟨piece, pieces, hcs, ?_⟩
  rw [splitAtAll, if_neg (by rw [h]; exact Bool.false_ne_true), hcs]

theorem splitAtAll_append {c : Char} (h : p c = true) (xs ys : List Char) :
    splitAtAll p (xs ++ c :: ys) = splitAtAll p xs ++ splitAtAll p ys := by
  induction xs with
  | nil => exact if_pos h
  | cons x xs ih =>
    cases hx : p x with
    | true => rw [List.cons_append, splitAtAll, if_pos hx, splitAtAll, if_pos hx, ih, List.cons_append]
    | false =>
      obtain ⟨piece, pieces, hxs, hcons⟩ := splitAtAll_cons_of_neg hx xs
      obtain ⟨piece', pieces', hall, hcons'⟩ := splitAtAll_cons_of_neg hx (xs ++ c :: ys)
      rw [ih, hxs, List.cons_append, List.cons.injEq] at hall
      rw [List.cons_append, hcons', hcons, ← hall.1, ← hall.2, List.cons_append]

theorem splitAtAll_of_forall {cs : List Char} (h : ∀ c ∈ cs, p c = false) : splitAtAll p cs = [cs] := by
  induction cs with
  | nil => rfl
  | cons c cs ih =>
    obtain ⟨piece, pieces, hcs, hcons⟩ := splitAtAll_cons_of_neg (h c List.mem_cons_self) cs
    rw [ih fun d hd => h d (List.mem_cons_of_mem c hd), List.cons.injEq] at hcs
    rw [hcons, ← hcs.1, ← hcs.2]

theorem forall_or_last_cut (xs : List Char) : (∀ c ∈ xs, p c = false) ∨
    ∃ before c after, xs = before ++ c :: after ∧ p c = true ∧ ∀ d ∈ after, p d = false := by
  induction xs with
  | nil => exact .inl (by simp)
  | cons x xs ih =>
    obtain h | ⟨before, c, after, rfl, hc, hafter⟩ := ih
    · cases hx : p x with
      | true => exact .inr ⟨[], x, xs, rfl, hx, h⟩
      | false => exact .inl (List.forall_mem_cons.2 ⟨hx, h⟩)
    · exact .inr ⟨x :: before, c, after, rfl, hc, hafter⟩

theorem splitAtAll_append_of_forall {xs ys last : List Char} {first : List (List Char)}
    (hxs : splitAtAll p xs = first ++ [last]) (hys : ∀ c ∈ ys, p c = false) :
    splitAtAll p (xs ++ ys) = first ++ [last ++ ys] := by
  obtain h | ⟨before, c, after, rfl, hc, hafter⟩ := forall_or_last_cut (p := p) xs
  · have hwhole : first ++ [last] = [] ++ [xs] := hxs.symm.trans (splitAtAll_of_forall h)
    obtain ⟨rfl, hlast⟩ := List.append_inj' hwhole rfl
    rw [(List.cons.inj hlast).1]
    exact splitAtAll_of_forall (List.forall_mem_append.2 ⟨h, hys⟩)
  · rw [splitAtAll_append hc, splitAtAll_of_forall hafter] at hxs
    obtain ⟨rfl, hlast⟩ := List.append_inj' hxs rfl
    rw [List.append_assoc, List.cons_append, splitAtAll_append hc,
      splitAtAll_of_forall (List.forall_mem_append.2 ⟨hafter, hys⟩), (List.cons.inj hlast).1]

theorem forall_of_mem_splitAtAll {cs piece : List Char} (h : piece ∈ splitAtAll p cs) : ∀ c ∈ piece, p c = false := by
  induction cs generalizing piece with
  | nil =>
    rw [splitAtAll, List.mem_singleton] at h
    simp [h]
  | cons c cs ih =>
    cases hc : p c with
    | true =>
      rw [splitAtAll, if_pos hc] at h
      obtain rfl | h := List.mem_cons.1 h
      · simp
      · exact ih h
    | false =>
      obtain ⟨first, rest, hcs, hcons⟩ := splitAtAll_cons_of_neg hc cs
      rw [hcons] at h
      obtain rfl | h := List.mem_cons.1 h
      · exact List.forall_mem_cons.2 ⟨hc, ih (hcs ▸ List.mem_cons_self)⟩
      · exact ih (hcs ▸ List.mem_cons_of_mem first h)

/-- **Pieces that are put together with cuts between them fall apart again.** -/
theorem splitAtAll_intercalate {c : Char} (hc : p c = true) {pieces : List (List Char)} (hne : pieces ≠ [])
    (h : ∀ piece ∈ pieces, ∀ d ∈ piece, p d = false) : splitAtAll p (List.intercalate [c] pieces) = pieces := by
  induction pieces with
  | nil => exact absurd rfl hne
  | cons first rest ih =>
    have hfirst := splitAtAll_of_forall (h first List.mem_cons_self)
    cases rest with
    | nil => rwa [List.intercalate_singleton]
    | cons second rest =>
      have hrest := ih (List.cons_ne_nil second rest) fun piece hpiece => h piece (List.mem_cons_of_mem first hpiece)
      rw [List.intercalate_cons_cons, List.append_assoc, List.singleton_append, splitAtAll_append hc, hfirst, hrest]
      rfl

theorem splitAtAll_eq_flatMap {q : Char → Bool} (h : ∀ c, q c = true → p c = true) (cs : List Char) :
    splitAtAll p cs = (splitAtAll q cs).flatMap (splitAtAll p) := by
  induction cs with
  | nil => rfl
  | cons c cs ih =>
    cases hq : q c with
    | true =>
      rw [splitAtAll, if_pos (h c hq), splitAtAll, if_pos hq, List.flatMap_cons, ← ih, splitAtAll,
        List.singleton_append]
    | false =>
      obtain ⟨piece, pieces, hcs, hcons⟩ := splitAtAll_cons_of_neg hq cs
      rw [hcons, List.flatMap_cons]
      rw [hcs, List.flatMap_cons] at ih
      cases hp : p c with
      | true => rw [splitAtAll, if_pos hp, splitAtAll, if_pos hp, ih, List.cons_append]
      | false =>
        obtain ⟨first, rest, hpiece, hfirst⟩ := splitAtAll_cons_of_neg hp piece
        obtain ⟨first', rest', hwhole, hfirst'⟩ := splitAtAll_cons_of_neg hp cs
        rw [ih, hpiece, List.cons_append, List.cons.injEq] at hwhole
        rw [hfirst', hfirst, List.cons_append, ← hwhole.1, ← hwhole.2]

/-! ## Typed lines -/

structure IsSingleLine (text : List Char) : Prop where
  newline : '\n' ∉ text
  carriageReturn : '\r' ∉ text

def typedText (lines : List (List Char)) : List Char := lines.flatMap (· ++ ['\n'])

theorem unifyNewlines_append {line : List Char} (h : '\r' ∉ line) (rest : List Char) :
    unifyNewlines (line ++ '\n' :: rest) = line ++ '\n' :: unifyNewlines rest := by
  have hcons {c : Char} (hc : c ≠ '\r') (cs : List Char) : unifyNewlines (c :: cs) = c :: unifyNewlines cs := by
    rw [unifyNewlines]
    · exact fun _ h _ => hc h
    · exact fun h => hc h
  induction line with
  | nil => exact hcons (by decide) rest
  | cons c cs ih =>
    obtain ⟨hc, hcs⟩ := not_or.1 (mt List.mem_cons.2 h)
    rw [List.cons_append, hcons (Ne.symm hc), ih hcs, List.cons_append]

theorem inputLines_cons {line : List Char} (h : IsSingleLine line) (rest : List Char) :
    inputLines (line ++ '\n' :: rest) = line :: inputLines rest := by
  have hline : ∀ c ∈ line, (c == '\n') = false := fun c hc =>
    beq_false_of_ne fun hnewline => h.newline (hnewline ▸ hc)
  obtain ⟨piece, pieces, hrest⟩ := List.exists_cons_of_ne_nil (splitAtAll_ne_nil (· == '\n') (unifyNewlines rest))
  rw [inputLines, inputLines, unifyNewlines_append h.carriageReturn, splitAtAll_append rfl, splitAtAll_of_forall hline,
    List.singleton_append, hrest, List.getLast?_cons_cons, List.dropLast_cons_cons]
  split <;> rfl

/-- **Lines that are typed are read as they are**, and what is typed after them as it would be without them. -/
theorem inputLines_typedText {lines : List (List Char)} (h : ∀ line ∈ lines, IsSingleLine line) (rest : List Char) :
    inputLines (typedText lines ++ rest) = lines ++ inputLines rest := by
  induction lines with
  | nil => rfl
  | cons line lines ih =>
    obtain ⟨hline, hlines⟩ := List.forall_mem_cons.1 h
    have htyped : typedText (line :: lines) ++ rest = line ++ '\n' :: (typedText lines ++ rest) := by
      simp [typedText]
    rw [htyped, inputLines_cons hline, ih hlines, List.cons_append]

/-! ## Blanks -/

theorem strip_eq_self {c d : Char} (hc : isBlank c = false) (hd : isBlank d = false) (middle : List Char) :
    strip (c :: middle ++ [d]) = c :: middle ++ [d] := by
  have hneg {e : Char} (he : isBlank e = false) : ¬ isBlank e = true := by rw [he]; exact Bool.false_ne_true
  rw [strip, trim, List.cons_append, List.dropWhile_cons_of_neg (hneg hc), ← List.cons_append, List.reverse_append,
    List.reverse_singleton, List.singleton_append, List.dropWhile_cons_of_neg (hneg hd), List.reverse_cons,
    List.reverse_reverse]

theorem strip_append {blanks middle : List Char} {c d : Char} (hblanks : ∀ b ∈ blanks, isBlank b = true)
    (hc : isBlank c = false) (hd : isBlank d = false) :
    strip (blanks ++ (c :: middle ++ [d])) = c :: middle ++ [d] := by
  have hdrop : (blanks ++ (c :: middle ++ [d])).dropWhile isBlank = (c :: middle ++ [d]).dropWhile isBlank :=
    List.dropWhile_append_of_pos hblanks
  have hself := strip_eq_self hc hd middle
  rw [strip, trim] at hself ⊢
  rw [hdrop, hself]

end Abacus
