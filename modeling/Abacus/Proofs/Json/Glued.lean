import Abacus.Proofs.Json.ReadBack
/-!
# Texts glued together

The text of an object is put right behind another text, as when a line is added to one that was never ended.  Whatever
the other text is, the two together are no value: where a reader stops, either all of the object is still to be read, or
a string has run into it up to its first quote, and nothing goes on from there (`keeps_value`).  So they are read only
if the other text is blank (`read_append_ne_ok`).
-/
namespace Abacus.Json

variable {α : Type} {tail cs rest : List Char} {depth : Nat}

/-! ## Levels to spare -/

/-- What the one reader reads, the other reads as well. -/
def Below (read read' : Reader α) : Prop := ∀ cs found, read cs = .ok found → read' cs = .ok found

variable {read read' : Reader Json}

theorem below_moreItems (h : Below read read') (rounds : Nat) :
    Below (moreItems read rounds) (moreItems read' rounds) := by
  intro cs found hcs
  induction rounds generalizing cs found with
  | zero => cases hcs
  | succ rounds ih =>
    rw [moreItems] at hcs ⊢
    split at hcs
    · exact hcs
    · rename_i rest _
      simp only [bind, Except.bind] at hcs ⊢
      split at hcs
      · cases hcs
      · rename_i item hitem
        split at hcs
        · cases hcs
        · rename_i items hitems
          rw [h _ _ hitem]
          simp only [ih _ _ hitems]
          exact hcs
    · cases hcs

theorem below_array (h : Below read read') : Below (array read) (array read') := by
  intro cs found hcs
  rw [array] at hcs ⊢
  split at hcs
  · exact hcs
  · simp only [bind, Except.bind] at hcs ⊢
    split at hcs
    · cases hcs
    · rename_i item hitem
      split at hcs
      · cases hcs
      · rename_i items hitems
        rw [h _ _ hitem]
        simp only [below_moreItems h _ _ _ hitems]
        exact hcs

theorem below_field (h : Below read read') : Below (field read) (field read') := by
  intro cs found hcs
  rw [field.eq_def] at hcs ⊢
  split at hcs
  · simp only [bind, Except.bind] at hcs ⊢
    split at hcs
    · cases hcs
    · rename_i key hkey
      split at hcs
      · rename_i rest hcolon
        split at hcs
        · cases hcs
        · rename_i item hitem
          simp only [h _ _ hitem]
          exact hcs
      · cases hcs
  · cases hcs

theorem below_moreFields (h : Below read read') (rounds : Nat) :
    Below (moreFields read rounds) (moreFields read' rounds) := by
  intro cs found hcs
  induction rounds generalizing cs found with
  | zero => cases hcs
  | succ rounds ih =>
    rw [moreFields] at hcs ⊢
    split at hcs
    · exact hcs
    · simp only [bind, Except.bind] at hcs ⊢
      split at hcs
      · cases hcs
      · rename_i item hitem
        split at hcs
        · cases hcs
        · rename_i items hitems
          rw [below_field h _ _ hitem]
          simp only [ih _ _ hitems]
          exact hcs
    · cases hcs

theorem below_fields (h : Below read read') : Below (fields read) (fields read') := by
  intro cs found hcs
  rw [fields] at hcs ⊢
  split at hcs
  · exact hcs
  · simp only [bind, Except.bind] at hcs ⊢
    split at hcs
    · cases hcs
    · rename_i item hitem
      split at hcs
      · cases hcs
      · rename_i items hitems
        rw [below_field h _ _ hitem]
        simp only [below_moreFields h _ _ _ hitems]
        exact hcs

theorem map_ok {ε β γ : Type} {x : Except ε β} {f : β → γ} {c : γ} (h : x.map f = .ok c) :
    ∃ b, x = .ok b ∧ f b = c := by
  cases x with
  | error e => cases h
  | ok b => exact ⟨b, rfl, Except.ok.inj h⟩

theorem below_value (depth : Nat) : Below (value depth) (value (depth + 1)) := by
  induction depth with
  | zero =>
    intro cs found hcs
    cases cs with
    | nil => cases hcs
    | cons c cs =>
      by_cases hquote : c = '"'
      · subst hquote
        exact hcs
      by_cases hbracket : c = '['
      · subst hbracket
        cases hcs
      by_cases hbrace : c = '{'
      · subst hbrace
        cases hcs
      rw [value_other hquote hbracket hbrace] at hcs ⊢
      exact hcs
  | succ depth ih =>
    intro cs found hcs
    cases cs with
    | nil => cases hcs
    | cons c cs =>
      by_cases hquote : c = '"'
      · subst hquote
        exact hcs
      by_cases hbracket : c = '['
      · subst hbracket
        rw [value_array] at hcs ⊢
        obtain ⟨items, hitems, rfl⟩ := map_ok hcs
        rw [below_array ih _ _ hitems]
        rfl
      by_cases hbrace : c = '{'
      · subst hbrace
        rw [value_object] at hcs ⊢
        obtain ⟨fs, hfs, rfl⟩ := map_ok hcs
        rw [below_fields ih _ _ hfs]
        rfl
      rw [value_other hquote hbracket hbrace] at hcs ⊢
      exact hcs

theorem value_add {cs : List Char} {found : Json × List Char} (h : value depth cs = .ok found) (more : Nat) :
    value (depth + more) cs = .ok found := by
  induction more with
  | zero => exact h
  | succ more ih => exact below_value (depth + more) cs found ih

/-! ## Where a reader stops -/

def separators : List Char := [' ', '\t', '\n', '\r', ',', ']', '}', ':']

/-- The text of an object whose first key starts with a character that nothing goes on with; read, it leaves nothing. -/
structure IsObjectText (tail : List Char) : Prop where
  eq : ∃ c more, tail = '{' :: '"' :: c :: more ∧ c ∉ separators
  ends : ∀ depth v rest, value depth tail = .ok (v, rest) → rest = []

theorem isObjectText_obj {fs : Fields} (h : (Json.obj fs).isReadable = true)
    (hstart : ∃ c more, (Json.obj fs).text = '{' :: '"' :: c :: more ∧ c ∉ separators) :
    IsObjectText (Json.obj fs).text := by
  refine ⟨hstart, fun depth v rest hvalue => ?_⟩
  have hmore := value_add hvalue (heightFields fs + 1)
  have hobj := value_obj_text h (Nat.le_add_left (heightFields fs) depth) []
  rw [List.append_nil] at hobj
  rw [← Nat.add_assoc, hobj] at hmore
  cases hmore
  rfl

/-- All of the object is still to be read. -/
def Within (tail rest : List Char) : Prop := ∃ u, rest = u ++ tail

/-- Nothing goes on from here. -/
def Stuck (rest : List Char) : Prop := ∀ c, rest.head? = some c → c ∉ separators

/-- The reader leaves all of the object, or nothing goes on from where it stops. -/
def Keeps (tail : List Char) (read : Reader α) : Prop :=
  ∀ cs found rest, Within tail cs → read cs = .ok (found, rest) → Within tail rest ∨ Stuck rest

def Leaves (tail : List Char) (read : Reader α) : Prop :=
  ∀ cs found rest, Within tail cs → read cs = .ok (found, rest) → Within tail rest

theorem isSpace_mem_separators {c : Char} (h : isSpace c = true) : c ∈ separators := by
  simp only [isSpace, Bool.or_eq_true, beq_iff_eq] at h
  rcases h with ((rfl | rfl) | rfl) | rfl <;> decide

theorem Stuck.skipSpace (h : Stuck rest) : Json.skipSpace rest = rest := by
  cases rest with
  | nil => rfl
  | cons c cs =>
    have hc : ¬ isSpace c = true := fun hspace => h c rfl (isSpace_mem_separators hspace)
    rw [Json.skipSpace, List.dropWhile_cons_of_neg hc]

theorem IsObjectText.within_skipSpace (h : IsObjectText tail) (hcs : Within tail cs) : Within tail (skipSpace cs) := by
  obtain ⟨c, more, rfl, -⟩ := h.eq
  obtain ⟨u, rfl⟩ := hcs
  induction u with
  | nil => exact ⟨[], rfl⟩
  | cons d u ih =>
    rw [skipSpace, List.cons_append]
    by_cases hd : isSpace d = true
    · rw [List.dropWhile_cons_of_pos hd]
      exact ih
    · rw [List.dropWhile_cons_of_neg hd]
      exact ⟨d :: u, rfl⟩

theorem IsObjectText.skipSpace (h : IsObjectText tail) (hcs : Within tail cs ∨ Stuck cs) :
    Within tail (skipSpace cs) ∨ Stuck (skipSpace cs) := by
  rcases hcs with hcs | hcs
  · exact .inl (h.within_skipSpace hcs)
  · rw [hcs.skipSpace]
    exact .inr hcs

theorem IsObjectText.within_cons (h : IsObjectText tail) {c : Char} (hcs : Within tail (c :: cs)) :
    c = '{' ∧ c :: cs = tail ∨ Within tail cs := by
  obtain ⟨u, hu⟩ := hcs
  cases u with
  | nil =>
    obtain ⟨d, more, htail, -⟩ := h.eq
    left
    rw [List.nil_append] at hu
    rw [htail] at hu
    cases hu
    exact ⟨rfl, htail.symm⟩
  | cons d u =>
    cases hu
    exact .inr ⟨u, rfl⟩

theorem IsObjectText.ne_nil (h : IsObjectText tail) (hcs : Within tail cs) : cs ≠ [] := by
  obtain ⟨c, more, rfl, -⟩ := h.eq
  obtain ⟨u, rfl⟩ := hcs
  simp

/-! ## Words and numbers -/

def ReadsLiteral (cs rest : List Char) : Prop := ∃ front, cs = front ++ rest ∧ ∀ c ∈ front, c ∈ literalChars

theorem ReadsLiteral.refl (cs : List Char) : ReadsLiteral cs cs := ⟨[], rfl, by simp⟩

theorem ReadsLiteral.cons {c : Char} (hc : c ∈ literalChars) (h : ReadsLiteral cs rest) :
    ReadsLiteral (c :: cs) rest := by
  obtain ⟨front, rfl, hfront⟩ := h
  exact ⟨c :: front, rfl, List.forall_mem_cons.2 ⟨hc, hfront⟩⟩

theorem ReadsLiteral.trans {more : List Char} (h : ReadsLiteral cs rest) (hmore : ReadsLiteral rest more) :
    ReadsLiteral cs more := by
  obtain ⟨front, rfl, hfront⟩ := h
  obtain ⟨next, rfl, hnext⟩ := hmore
  refine ⟨front ++ next, (List.append_assoc _ _ _).symm, fun c hc => ?_⟩
  exact (List.mem_append.1 hc).elim (hfront c) (hnext c)

theorem readsLiteral_dropWhile (cs : List Char) : ReadsLiteral cs (cs.dropWhile Char.isDigit) :=
  ⟨_, List.takeWhile_append_dropWhile.symm, fun _ hc => mem_literalChars_of_isDigit (List.mem_takeWhile_imp hc)⟩

theorem readsLiteral_wholeDigits (cs : List Char) : ReadsLiteral cs (wholeDigits cs).2 := by
  rw [wholeDigits.eq_def]
  split
  · exact (ReadsLiteral.refl _).cons (by decide)
  · exact readsLiteral_dropWhile cs

theorem readsLiteral_fraction (cs : List Char) : ReadsLiteral cs (fraction cs).2 := by
  rw [fraction.eq_def]
  split
  · dsimp only
    split
    · exact .refl _
    · exact (readsLiteral_dropWhile _).cons (by decide)
  · exact .refl _

theorem readsLiteral_splitSign (cs : List Char) : ReadsLiteral cs (splitSign cs).2 := by
  rw [splitSign.eq_def]
  split
  · exact (ReadsLiteral.refl _).cons (by decide)
  · exact (ReadsLiteral.refl _).cons (by decide)
  · exact .refl _

theorem readsLiteral_exponent (cs : List Char) : ReadsLiteral cs (exponent cs).2 := by
  rw [exponent.eq_def]
  split
  · rename_i c rest
    dsimp only
    split
    · rename_i hmark
      simp only [Bool.and_eq_true, Bool.or_eq_true, beq_iff_eq] at hmark
      have hc : c ∈ literalChars := by rcases hmark.1 with rfl | rfl <;> decide
      exact ((readsLiteral_splitSign rest).trans (readsLiteral_dropWhile _)).cons hc
    · exact .refl _
  · exact .refl _

theorem readsLiteral_number {v : Json} (h : number cs = .ok (v, rest)) : ReadsLiteral cs rest := by
  have hparts (cs : List Char) : ReadsLiteral cs (exponent (fraction (wholeDigits cs).2).2).2 :=
    (readsLiteral_wholeDigits cs).trans ((readsLiteral_fraction _).trans (readsLiteral_exponent _))
  rw [number.eq_def] at h
  dsimp only at h
  split at h
  all_goals
    dsimp only at h
    split at h
    · cases h
    split at h
  · obtain ⟨w, -, hw⟩ := map_ok h
    cases hw
    exact (hparts _).cons (by decide)
  · cases h
    exact (hparts _).cons (by decide)
  · obtain ⟨w, -, hw⟩ := map_ok h
    cases hw
    exact hparts cs
  · cases h
    exact hparts cs

theorem IsObjectText.within_of_append (h : IsObjectText tail) {front : List Char} (hcs : Within tail cs)
    (heq : cs = front ++ rest) (hfront : '{' ∉ front) : Within tail rest := by
  induction front generalizing cs with
  | nil =>
    subst heq
    exact hcs
  | cons c front ih =>
    rw [List.mem_cons, not_or] at hfront
    subst heq
    rcases h.within_cons hcs with ⟨rfl, -⟩ | hrest
    · exact absurd rfl hfront.1
    · exact ih hrest rfl hfront.2

theorem leaves_word? (h : IsObjectText tail) (hcs : Within tail cs) {found : Json × List Char}
    (hword : word? cs = some found) : Within tail found.2 := by
  obtain ⟨word, hmem, hword⟩ := List.exists_of_findSome?_eq_some hword
  obtain ⟨rest, hrest, rfl⟩ := Option.map_eq_some_iff.1 hword
  have hall : ∀ word ∈ words, '{' ∉ word.1 := by
    simp only [words, List.forall_mem_cons]
    decide
  exact h.within_of_append hcs (List.isPrefixOf?_eq_some_iff_append_eq.1 hrest).symm (hall word hmem)

theorem leaves_number (h : IsObjectText tail) : Leaves tail number := by
  intro cs v rest hcs hnumber
  obtain ⟨front, heq, hfront⟩ := readsLiteral_number hnumber
  exact h.within_of_append hcs heq fun hmem => absurd (hfront _ hmem) (by decide)

/-! ## Strings -/

theorem ne_brace_of_codeUnit? {a b c d : Char} {n : Nat} (h : codeUnit? [a, b, c, d] = some n) :
    a ≠ '{' ∧ b ≠ '{' ∧ c ≠ '{' ∧ d ≠ '{' := by
  have hbrace : hexValue? '{' = none := rfl
  simp only [codeUnit?, Option.bind_eq_bind, Option.bind_eq_some_iff] at h
  obtain ⟨w, hw, x, hx, y, hy, z, hz, -⟩ := h
  refine ⟨?_, ?_, ?_, ?_⟩ <;> rintro rfl <;> simp_all

theorem ne_brace_of_letterEscape? {e c : Char} (h : letterEscape? e = some c) : e ≠ '{' := by
  rintro rfl
  cases h

theorem IsObjectText.within_of_cons (h : IsObjectText tail) {c : Char} (hcs : Within tail (c :: cs)) (hc : c ≠ '{') :
    Within tail cs := by
  rcases h.within_cons hcs with ⟨rfl, -⟩ | hrest
  · exact absurd rfl hc
  · exact hrest

theorem pieces_within (h : IsObjectText tail) {ps : List Piece} (hcs : Within tail cs)
    (hpieces : pieces cs = some (ps, rest)) : Within tail rest ∨ Stuck rest ∧ rest ≠ [] := by
  fun_induction pieces cs generalizing ps with
  | case1 => cases hpieces
  | case2 cs =>
    cases hpieces
    exact .inl (h.within_of_cons hcs (by decide))
  | case3 a b c d cs ih =>
    simp only [Option.bind_eq_bind, Option.bind_eq_some_iff] at hpieces
    obtain ⟨n, hunit, ⟨more, rest'⟩, hmore, heq⟩ := hpieces
    cases heq
    obtain ⟨ha, hb, hc, hd⟩ := ne_brace_of_codeUnit? hunit
    have hescape := h.within_of_cons (h.within_of_cons hcs (by decide)) (by decide)
    exact ih (h.within_of_cons (h.within_of_cons (h.within_of_cons (h.within_of_cons hescape ha) hb) hc) hd) hmore
  | case4 e cs hunit ih =>
    simp only [Option.bind_eq_bind, Option.bind_eq_some_iff] at hpieces
    obtain ⟨c, hletter, ⟨more, rest'⟩, hmore, heq⟩ := hpieces
    cases heq
    exact ih (h.within_of_cons (h.within_of_cons hcs (by decide)) (ne_brace_of_letterEscape? hletter)) hmore
  | case5 => cases hpieces
  | case6 c cs hquote hunit hletter hplain ih =>
    simp only [Option.bind_eq_bind, Option.bind_eq_some_iff] at hpieces
    obtain ⟨⟨more, rest'⟩, hmore, heq⟩ := hpieces
    cases heq
    rcases h.within_cons hcs with ⟨rfl, htail⟩ | hrest
    · -- the string runs into the object, up to its first quote
      obtain ⟨d, after, heq, hd⟩ := h.eq
      rw [heq] at htail
      cases htail
      cases hmore
      refine .inr ⟨fun e he => ?_, List.cons_ne_nil d after⟩
      cases he
      exact hd
    · exact ih hrest hmore

theorem keeps_string (h : IsObjectText tail) {text : List Char} (hcs : Within tail cs)
    (hstring : string cs = .ok (text, rest)) : Within tail rest ∨ Stuck rest ∧ rest ≠ [] := by
  rw [string] at hstring
  split at hstring
  · rename_i ps after hpieces
    cases hstring
    exact pieces_within h hcs hpieces
  · cases hstring

/-! ## Lists and objects -/

theorem leaves_moreItems (h : IsObjectText tail) (hread : Keeps tail read) (rounds : Nat) {vs : List Json}
    (hcs : Within tail cs ∨ Stuck cs) (hitems : moreItems read rounds cs = .ok (vs, rest)) : Within tail rest := by
  induction rounds generalizing cs vs with
  | zero => cases hitems
  | succ rounds ih =>
    have hskip := h.skipSpace hcs
    rw [moreItems] at hitems
    split at hitems
    · rename_i after heq
      cases hitems
      rw [heq] at hskip
      rcases hskip with hskip | hskip
      · exact h.within_of_cons hskip (by decide)
      · exact absurd (hskip ']' rfl) (by decide)
    · rename_i after heq
      rw [heq] at hskip
      rcases hskip with hskip | hskip
      · simp only [bind, Except.bind] at hitems
        split at hitems
        · cases hitems
        · rename_i item hitem
          split at hitems
          · cases hitems
          · rename_i items hmore
            cases hitems
            have hafter := h.within_skipSpace (h.within_of_cons hskip (by decide))
            exact ih (hread _ _ _ hafter hitem) hmore
      · exact absurd (hskip ',' rfl) (by decide)
    · cases hitems

theorem leaves_array (h : IsObjectText tail) (hread : Keeps tail read) : Leaves tail (array read) := by
  intro cs vs rest hcs harray
  have hskip := h.within_skipSpace hcs
  rw [array] at harray
  split at harray
  · rename_i after heq
    cases harray
    exact h.within_of_cons (heq ▸ hskip) (by decide)
  · simp only [bind, Except.bind] at harray
    split at harray
    · cases harray
    · rename_i item hitem
      split at harray
      · cases harray
      · rename_i items hmore
        cases harray
        exact leaves_moreItems h hread _ (hread _ _ _ hskip hitem) hmore

theorem keeps_field (h : IsObjectText tail) (hread : Keeps tail read) : Keeps tail (field read) := by
  intro cs f rest hcs hfield
  rw [field.eq_def] at hfield
  split at hfield
  · rename_i after
    simp only [bind, Except.bind] at hfield
    split at hfield
    · cases hfield
    · rename_i key hkey
      have hafter := keeps_string h (h.within_of_cons hcs (by decide)) hkey
      have hskip := h.skipSpace (hafter.imp_right And.left)
      split at hfield
      · rename_i colon heq
        rw [heq] at hskip
        rcases hskip with hskip | hskip
        · split at hfield
          · cases hfield
          · rename_i item hitem
            cases hfield
            exact hread _ _ _ (h.within_skipSpace (h.within_of_cons hskip (by decide))) hitem
        · exact absurd (hskip ':' rfl) (by decide)
      · cases hfield
  · cases hfield

theorem leaves_moreFields (h : IsObjectText tail) (hread : Keeps tail read) (rounds : Nat) {fs : Fields}
    (hcs : Within tail cs ∨ Stuck cs) (hfields : moreFields read rounds cs = .ok (fs, rest)) : Within tail rest := by
  induction rounds generalizing cs fs with
  | zero => cases hfields
  | succ rounds ih =>
    have hskip := h.skipSpace hcs
    rw [moreFields] at hfields
    split at hfields
    · rename_i after heq
      cases hfields
      rw [heq] at hskip
      rcases hskip with hskip | hskip
      · exact h.within_of_cons hskip (by decide)
      · exact absurd (hskip '}' rfl) (by decide)
    · rename_i after heq
      rw [heq] at hskip
      rcases hskip with hskip | hskip
      · simp only [bind, Except.bind] at hfields
        split at hfields
        · cases hfields
        · rename_i item hitem
          split at hfields
          · cases hfields
          · rename_i items hmore
            cases hfields
            have hafter := h.within_skipSpace (h.within_of_cons hskip (by decide))
            exact ih (keeps_field h hread _ _ _ hafter hitem) hmore
      · exact absurd (hskip ',' rfl) (by decide)
    · cases hfields

theorem leaves_fields (h : IsObjectText tail) (hread : Keeps tail read) : Leaves tail (fields read) := by
  intro cs fs rest hcs hfields
  have hskip := h.within_skipSpace hcs
  rw [fields] at hfields
  split at hfields
  · rename_i after heq
    cases hfields
    exact h.within_of_cons (heq ▸ hskip) (by decide)
  · simp only [bind, Except.bind] at hfields
    split at hfields
    · cases hfields
    · rename_i item hitem
      split at hfields
      · cases hfields
      · rename_i items hmore
        cases hfields
        exact leaves_moreFields h hread _ (keeps_field h hread _ _ _ hskip hitem) hmore

/-! ## Values -/

theorem value_within (h : IsObjectText tail) {c : Char} {v : Json}
    (hread : ∀ d, depth = d + 1 → Keeps tail (value d)) (hcs : Within tail cs)
    (hvalue : value depth (c :: cs) = .ok (v, rest)) :
    Within tail rest ∨ Stuck rest ∧ rest ≠ [] := by
  by_cases hquote : c = '"'
  · subst hquote
    rw [value_string] at hvalue
    obtain ⟨⟨text, after⟩, hstring, heq⟩ := map_ok hvalue
    cases heq
    exact keeps_string h hcs hstring
  by_cases hbracket : c = '['
  · subst hbracket
    cases depth with
    | zero => cases hvalue
    | succ depth =>
      rw [value_array] at hvalue
      obtain ⟨⟨items, after⟩, hitems, heq⟩ := map_ok hvalue
      cases heq
      exact .inl (leaves_array h (hread depth rfl) _ _ _ hcs hitems)
  by_cases hbrace : c = '{'
  · subst hbrace
    cases depth with
    | zero => cases hvalue
    | succ depth =>
      rw [value_object] at hvalue
      obtain ⟨⟨fs, after⟩, hfs, heq⟩ := map_ok hvalue
      cases heq
      exact .inl (leaves_fields h (hread depth rfl) _ _ _ hcs hfs)
  have hcons : Within tail (c :: cs) := by
    obtain ⟨u, rfl⟩ := hcs
    exact ⟨c :: u, rfl⟩
  rw [value_other hquote hbracket hbrace] at hvalue
  split at hvalue
  · rename_i found hword
    cases hvalue
    exact .inl (leaves_word? h hcons hword)
  · exact .inl (leaves_number h _ _ _ hcons hvalue)

theorem keeps_value_of_below (h : IsObjectText tail) (hread : ∀ d, depth = d + 1 → Keeps tail (value d)) :
    Keeps tail (value depth) := by
  intro cs v rest hcs hvalue
  obtain ⟨c, cs, rfl⟩ := List.exists_cons_of_ne_nil (h.ne_nil hcs)
  rcases h.within_cons hcs with ⟨-, htail⟩ | hrest
  · rw [htail] at hvalue
    obtain rfl := h.ends depth v rest hvalue
    exact .inr fun c hc => by cases hc
  · exact (value_within h hread hrest hvalue).imp_right And.left

/-- **Where a value ends, all of the object is still to be read, or nothing goes on.** -/
theorem keeps_value (h : IsObjectText tail) (depth : Nat) : Keeps tail (value depth) := by
  induction depth with
  | zero => exact keeps_value_of_below h fun d hd => by cases hd
  | succ depth ih =>
    refine keeps_value_of_below h fun d hd => ?_
    cases hd
    exact ih

/-- **A text that is glued to an object is not read**, if it is not blank. -/
theorem read_append_ne_ok (h : IsObjectText tail) {c : Char} (hc : isSpace c = false) (u : List Char) (v : Json) :
    Json.read (c :: u ++ tail) ≠ .ok v := by
  intro hread
  have hspace : Json.skipSpace (c :: (u ++ tail)) = c :: (u ++ tail) :=
    List.dropWhile_cons_of_neg (by rw [hc]; exact Bool.false_ne_true)
  rw [Json.read, List.cons_append, hspace] at hread
  split at hread
  · rename_i w rest hvalue
    have hrest := value_within h (fun d _ => keeps_value h d) ⟨u, rfl⟩ hvalue
    have hne : (Json.skipSpace rest).isEmpty = false := by
      rw [List.isEmpty_eq_false_iff]
      rcases hrest with hwithin | ⟨hstuck, hne⟩
      · exact h.ne_nil (h.within_skipSpace hwithin)
      · rwa [hstuck.skipSpace]
    rw [hne, if_neg Bool.false_ne_true] at hread
    cases hread
  · cases hread

end Abacus.Json
