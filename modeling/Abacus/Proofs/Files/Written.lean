import Abacus.Path
import Abacus.Proofs.Text.Lines
/-!
# Paths as they are written

A path that was read from a text is read again from its own text (`Path.ofText_text_ofText`): the names of it have no
slashes, except for the one that stands for the root.
-/
namespace Abacus.Path

def countedPieces (text : List Char) : List (List Char) :=
  (pieces text).filter fun name => !name.isEmpty && name != hereName

theorem ofText_names (text : List Char) : (ofText text).names =
    if text.head? = some '/' then rootName :: countedPieces text else countedPieces text := rfl

structure IsCounted (name : List Char) : Prop where
  ne_nil : name ≠ []
  ne_here : name ≠ hereName
  no_slash : ∀ c ∈ name, (c == '/') = false

theorem isCounted_of_mem {text name : List Char} (h : name ∈ countedPieces text) : IsCounted name := by
  obtain ⟨hpiece, hcounts⟩ := List.mem_filter.1 h
  simp only [Bool.and_eq_true, Bool.not_eq_true', List.isEmpty_eq_false_iff, bne_iff_ne] at hcounts
  exact ⟨hcounts.1, hcounts.2, forall_of_mem_splitAtAll hpiece⟩

theorem IsCounted.ne_root {name : List Char} (h : IsCounted name) : name ≠ rootName := by
  rintro rfl
  exact absurd (h.no_slash '/' List.mem_cons_self) (by decide)

theorem countedPieces_intercalate {names : List (List Char)} (h : ∀ name ∈ names, IsCounted name) :
    countedPieces (List.intercalate ['/'] names) = names := by
  cases names with
  | nil => rfl
  | cons first rest =>
    have hpieces := splitAtAll_intercalate (p := (· == '/')) (c := '/') rfl (List.cons_ne_nil first rest)
      fun name hname => (h name hname).no_slash
    rw [countedPieces, pieces, hpieces, List.filter_eq_self]
    intro name hname
    simp [(h name hname).ne_nil, (h name hname).ne_here]

theorem countedPieces_slash (text : List Char) : countedPieces ('/' :: text) = countedPieces text := by
  rw [countedPieces, pieces, splitAtAll, if_pos (by rfl)]
  rfl

theorem head?_intercalate {first : List Char} (rest : List (List Char)) (h : first ≠ []) :
    (List.intercalate ['/'] (first :: rest)).head? = first.head? := by
  obtain ⟨c, cs, rfl⟩ := List.exists_cons_of_ne_nil h
  cases rest with
  | nil => rfl
  | cons second rest => rw [List.intercalate_cons_cons]; rfl

/-- **A path reads again from its own text.** -/
theorem ofText_text_ofText (text : List Char) : ofText (ofText text).text = ofText text := by
  have hcounted : ∀ name ∈ countedPieces text, IsCounted name := fun name => isCounted_of_mem
  have hagain := countedPieces_intercalate hcounted
  by_cases hroot : text.head? = some '/'
  · have hnames : (ofText text).names = rootName :: countedPieces text := by rw [ofText_names, if_pos hroot]
    have htext : (ofText text).text = '/' :: List.intercalate ['/'] (countedPieces text) := by
      rw [Path.text, hnames]
      rfl
    have hread : (ofText (ofText text).text).names = (ofText text).names := by
      rw [ofText_names, htext, if_pos (by rfl), countedPieces_slash, hagain, hnames]
    exact congrArg Path.mk hread
  · have hnames : (ofText text).names = countedPieces text := by rw [ofText_names, if_neg hroot]
    cases hpieces : countedPieces text with
    | nil =>
      have htext : (ofText text).text = hereName := by rw [Path.text, hnames, hpieces]
      have hread : (ofText (ofText text).text).names = (ofText text).names := by
        rw [htext, hnames, hpieces]
        rfl
      exact congrArg Path.mk hread
    | cons first rest =>
      have hfirst := hcounted first (hpieces ▸ List.mem_cons_self)
      have htext : (ofText text).text = List.intercalate ['/'] (countedPieces text) := by
        rw [Path.text, hnames, hpieces]
        exact if_neg hfirst.ne_root
      have hhead : (ofText text).text.head? ≠ some '/' := by
        rw [htext, hpieces, head?_intercalate rest hfirst.ne_nil]
        intro h
        exact absurd (hfirst.no_slash '/' (List.mem_of_mem_head? h)) (by decide)
      have hread : (ofText (ofText text).text).names = (ofText text).names := by
        rw [ofText_names, if_neg hhead, htext, hagain, hnames]
      exact congrArg Path.mk hread

end Abacus.Path
