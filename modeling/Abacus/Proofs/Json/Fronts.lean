import Abacus.Proofs.Json.Glued
import Abacus.Proofs.Token.Blanks
/-!
# What a reader takes

A value is read off a front of the text, and what stands behind the front does not matter, as long as no literal
goes on into it (`takesFronts_value`).  Lists and objects are read alike: things with commas between them and a
closing character (`listOf`), each of them a front of its own.  As a value starts and ends with characters that are
no blanks, a text that is a value is still one, and the same, without the blanks around it (`read_strip_of_read`).
-/
namespace Abacus.Json

variable {α : Type} {cs rest front tail : List Char} {depth : Nat}

/-- No literal goes on into the text. -/
def EndsLiteral (rest : List Char) : Prop := ∀ c, rest.head? = some c → c ∉ literalChars

def EndsSolid (front : List Char) : Prop := ∃ more c, front = more ++ [c] ∧ isBlank c = false

/-- The front is read as `a`, whatever stands behind it. -/
def Takes (read : Reader α) (front : List Char) (a : α) : Prop :=
  EndsSolid front ∧ ∀ rest, EndsLiteral rest → read (front ++ rest) = .ok (a, rest)

/-- All that is read is a front that is taken. -/
def TakesFronts (read : Reader α) : Prop :=
  ∀ cs a rest, EndsLiteral rest → read cs = .ok (a, rest) → ∃ front, cs = front ++ rest ∧ Takes read front a

theorem endsLiteral_nil : EndsLiteral [] := fun _ h => by cases h

theorem endsLiteral_cons {c : Char} (h : c ∉ literalChars) (cs : List Char) : EndsLiteral (c :: cs) := by
  intro d hd
  cases hd
  exact h

theorem EndsLiteral.of_append (h : EndsLiteral (front ++ rest)) (hne : front ≠ []) (tail : List Char) :
    EndsLiteral (front ++ tail) := by
  obtain ⟨c, cs, rfl⟩ := List.exists_cons_of_ne_nil hne
  exact h

theorem EndsLiteral.head_false {p : Char → Bool} (h : EndsLiteral rest) (hp : ∀ c, p c = true → c ∈ literalChars) :
    ∀ c, rest.head? = some c → p c = false :=
  fun c hc => Bool.eq_false_iff.2 fun hpc => h c hc (hp c hpc)

theorem EndsLiteral.head_append_ne {c : Char} (h : EndsLiteral rest) (hc : c ∈ literalChars) (hcs : cs.head? ≠ some c) :
    (cs ++ rest).head? ≠ some c := by
  cases cs with
  | nil => exact fun hhead => h c hhead hc
  | cons d ds => exact hcs

theorem not_isBlank_of_literal {c : Char} (h : c ∈ literalChars) : isBlank c = false := by
  have hall : literalChars.all (fun c => !isBlank c) = true := by decide
  simpa using passes_of_literalChars hall h

theorem isBlank_of_isSpace {c : Char} (h : isSpace c = true) : isBlank c = true := by
  simp only [isSpace, Bool.or_eq_true, beq_iff_eq] at h
  rcases h with ((rfl | rfl) | rfl) | rfl <;> rfl

theorem EndsSolid.ne_nil (h : EndsSolid front) : front ≠ [] := by
  obtain ⟨more, c, rfl, -⟩ := h
  simp

theorem EndsSolid.append (h : EndsSolid front) (before : List Char) : EndsSolid (before ++ front) := by
  obtain ⟨more, c, rfl, hc⟩ := h
  exact ⟨before ++ more, c, (List.append_assoc _ _ _).symm, hc⟩

theorem endsSolid_of_literal (hne : front ≠ []) (h : ∀ c ∈ front, c ∈ literalChars) : EndsSolid front :=
  ⟨_, _, (List.dropLast_append_getLast hne).symm, not_isBlank_of_literal (h _ (List.getLast_mem hne))⟩

/-! ## Spaces -/

theorem exists_append_skipSpace (cs : List Char) :
    ∃ spaces, cs = spaces ++ skipSpace cs ∧ ∀ c ∈ spaces, isSpace c = true :=
  ⟨_, List.takeWhile_append_dropWhile.symm, fun _ hc => List.mem_takeWhile_imp hc⟩

theorem skipSpace_append {spaces : List Char} (h : ∀ c ∈ spaces, isSpace c = true) (cs : List Char) :
    skipSpace (spaces ++ cs) = skipSpace cs := List.dropWhile_append_of_pos h

theorem skipSpace_append_cons {spaces : List Char} {c : Char} (h : ∀ d ∈ spaces, isSpace d = true)
    (hc : isBlank c = false) (cs : List Char) : skipSpace (spaces ++ c :: cs) = c :: cs := by
  have hspace : ¬ isSpace c = true := fun hspace => by
    rw [isBlank_of_isSpace hspace] at hc
    cases hc
  rw [skipSpace_append h, skipSpace, List.dropWhile_cons_of_neg hspace]

theorem skipSpace_skipSpace (cs : List Char) : skipSpace (skipSpace cs) = skipSpace cs := List.dropWhile_idempotent _ cs

theorem EndsSolid.skipSpace_append (h : EndsSolid front) (rest : List Char) :
    skipSpace (front ++ rest) = skipSpace front ++ rest ∧ skipSpace front ≠ [] := by
  obtain ⟨more, c, rfl, hc⟩ := h
  have hne : skipSpace (more ++ [c]) ≠ [] := by
    rw [skipSpace, Ne, List.dropWhile_eq_nil_iff]
    intro hall
    rw [isBlank_of_isSpace (hall c (by simp))] at hc
    cases hc
  exact ⟨List.dropWhile_append.trans (if_neg (mt List.isEmpty_iff.1 hne)), hne⟩

theorem TakesFronts.spaced {read : Reader α} (h : TakesFronts read) : TakesFronts fun cs => read (skipSpace cs) := by
  intro cs a rest hrest hread
  obtain ⟨front, heq, hsolid, htakes⟩ := h _ a rest hrest hread
  obtain ⟨spaces, hcs, hspaces⟩ := exists_append_skipSpace cs
  have hfront : skipSpace front = front := by
    have hagain := skipSpace_skipSpace cs
    rw [heq, (hsolid.skipSpace_append rest).1] at hagain
    exact List.append_cancel_right hagain
  refine ⟨spaces ++ front, by rw [List.append_assoc, ← heq, ← hcs], hsolid.append spaces, fun rest' hrest' => ?_⟩
  dsimp only
  rw [List.append_assoc, skipSpace_append hspaces, (hsolid.skipSpace_append rest').1, hfront]
  exact htakes rest' hrest'

/-! ## Numbers -/

theorem span_append_right {p : Char → Bool} (h : ∀ c, rest.head? = some c → p c = false) (cs : List Char) :
    (cs ++ rest).takeWhile p = cs.takeWhile p ∧ (cs ++ rest).dropWhile p = cs.dropWhile p ++ rest := by
  have hhead : ∀ c, (cs.dropWhile p ++ rest).head? = some c → p c = false := by
    intro c hc
    cases hdrop : cs.dropWhile p with
    | nil =>
      rw [hdrop] at hc
      exact h c hc
    | cons d ds =>
      rw [hdrop] at hc
      cases hc
      have hnot := List.head_dropWhile_not p (l := cs) (by rw [hdrop]; exact List.cons_ne_nil _ _)
      simpa [hdrop] using hnot
  have hspan := span_append (fun c hc => List.mem_takeWhile_imp hc : ∀ c ∈ cs.takeWhile p, p c = true) hhead
  rwa [← List.append_assoc, List.takeWhile_append_dropWhile] at hspan

def numeral (negative : Bool) : Reader Json := fun cs =>
  let (whole, rest) := wholeDigits cs
  let (places, rest) := fraction rest
  let (e, rest) := exponent rest
  if whole.isEmpty then .error .malformed else (ofParts negative whole places e).map fun v => (v, rest)

theorem number_minus (cs : List Char) : number ('-' :: cs) = numeral true cs := by
  simp only [number, numeral]
  split
  · rfl
  · cases (fraction (wholeDigits cs).2).1 <;> cases (exponent (fraction (wholeDigits cs).2).2).1 <;> rfl

theorem number_unsigned (h : cs.head? ≠ some '-') : number cs = numeral false cs := by
  rw [number.eq_def]
  dsimp only
  split
  · exact absurd rfl h
  dsimp only [numeral]
  split
  · rfl
  · cases (fraction (wholeDigits cs).2).1 <;> cases (exponent (fraction (wholeDigits cs).2).2).1 <;> rfl

section

variable (hrest : EndsLiteral rest)
include hrest

theorem wholeDigits_append_rest (cs : List Char) :
    wholeDigits (cs ++ rest) = ((wholeDigits cs).1, (wholeDigits cs).2 ++ rest) := by
  obtain ⟨htake, hdrop⟩ := span_append_right (hrest.head_false fun _ => mem_literalChars_of_isDigit) cs
  by_cases hzero : cs.head? = some '0'
  · obtain ⟨cs, rfl⟩ := List.head?_eq_some_iff.1 hzero
    rfl
  · have hwhole {ds : List Char} (h : ds.head? ≠ some '0') :
        wholeDigits ds = (ds.takeWhile Char.isDigit, ds.dropWhile Char.isDigit) := by
      rw [wholeDigits]
      rintro rest rfl
      exact h rfl
    have happend := hrest.head_append_ne (c := '0') (by decide) hzero
    rw [hwhole hzero, hwhole happend, htake, hdrop]

theorem fraction_append_rest (cs : List Char) : fraction (cs ++ rest) = ((fraction cs).1, (fraction cs).2 ++ rest) := by
  have hnone {ds : List Char} (h : ds.head? ≠ some '.') : fraction ds = (none, ds) := by
    rw [fraction]
    rintro rest rfl
    exact h rfl
  by_cases hpoint : cs.head? = some '.'
  · obtain ⟨cs, rfl⟩ := List.head?_eq_some_iff.1 hpoint
    obtain ⟨htake, hdrop⟩ := span_append_right (hrest.head_false fun _ => mem_literalChars_of_isDigit) cs
    simp only [List.cons_append, fraction, htake, hdrop]
    split <;> rfl
  · have happend := hrest.head_append_ne (c := '.') (by decide) hpoint
    rw [hnone hpoint, hnone happend]

theorem splitSign_append_rest (cs : List Char) :
    splitSign (cs ++ rest) = ((splitSign cs).1, (splitSign cs).2 ++ rest) := by
  have hother {ds : List Char} (hplus : ds.head? ≠ some '+') (hminus : ds.head? ≠ some '-') :
      splitSign ds = (false, ds) := by
    rw [splitSign]
    · rintro rest rfl
      exact hplus rfl
    · rintro rest rfl
      exact hminus rfl
  by_cases hplus : cs.head? = some '+'
  · obtain ⟨cs, rfl⟩ := List.head?_eq_some_iff.1 hplus
    rfl
  by_cases hminus : cs.head? = some '-'
  · obtain ⟨cs, rfl⟩ := List.head?_eq_some_iff.1 hminus
    rfl
  rw [hother hplus hminus, hother (hrest.head_append_ne (by decide) hplus) (hrest.head_append_ne (by decide) hminus)]

theorem exponent_append_rest (cs : List Char) : exponent (cs ++ rest) = ((exponent cs).1, (exponent cs).2 ++ rest) := by
  cases cs with
  | nil =>
    cases rest with
    | nil => rfl
    | cons c cs =>
      have hmark : (c == 'e' || c == 'E') = false := by
        have hc := hrest c rfl
        simp only [Bool.or_eq_false_iff, beq_eq_false_iff_ne]
        constructor <;> rintro rfl <;> exact hc (by decide)
      simp [exponent, hmark]
  | cons c cs =>
    obtain ⟨htake, hdrop⟩ := span_append_right (hrest.head_false fun _ => mem_literalChars_of_isDigit) (splitSign cs).2
    simp only [List.cons_append, exponent, splitSign_append_rest hrest, htake, hdrop]
    split <;> rfl

theorem numeral_append_rest (negative : Bool) (cs : List Char) :
    numeral negative (cs ++ rest) = (numeral negative cs).map fun (v, left) => (v, left ++ rest) := by
  simp only [numeral, wholeDigits_append_rest hrest, fraction_append_rest hrest, exponent_append_rest hrest]
  split
  · rfl
  · cases ofParts negative (wholeDigits cs).1 (fraction (wholeDigits cs).2).1
      (exponent (fraction (wholeDigits cs).2).2).1 <;> rfl

theorem number_append_rest (cs : List Char) :
    number (cs ++ rest) = (number cs).map fun (v, left) => (v, left ++ rest) := by
  by_cases hminus : cs.head? = some '-'
  · obtain ⟨cs, rfl⟩ := List.head?_eq_some_iff.1 hminus
    rw [List.cons_append, number_minus, number_minus, numeral_append_rest hrest]
  · have happend := hrest.head_append_ne (c := '-') (by decide) hminus
    rw [number_unsigned hminus, number_unsigned happend, numeral_append_rest hrest]

end

theorem starts_of_number {v : Json} (h : number cs = .ok (v, rest)) :
    ∃ negative c more, startsNumber c = true ∧ cs = signed negative (c :: more) := by
  have hstarts {negative : Bool} {ds : List Char} (hnumeral : numeral negative ds = .ok (v, rest)) :
      ∃ c more, startsNumber c = true ∧ ds = c :: more := by
    have hne : ¬ (wholeDigits ds).1.isEmpty = true := by
      intro hempty
      rw [numeral] at hnumeral
      dsimp only at hnumeral
      rw [if_pos hempty] at hnumeral
      cases hnumeral
    cases ds with
    | nil => exact absurd rfl hne
    | cons c more =>
      refine ⟨c, more, ?_, rfl⟩
      by_cases hdigit : c.isDigit = true
      · exact startsNumber_of_isDigit hdigit
      · have hzero : c ≠ '0' := by
          rintro rfl
          exact hdigit rfl
        rw [wholeDigits, List.takeWhile_cons_of_neg hdigit] at hne
        · exact absurd rfl hne
        · exact fun _ heq => hzero (List.cons.inj heq).1
  by_cases hminus : cs.head? = some '-'
  · obtain ⟨ds, rfl⟩ := List.head?_eq_some_iff.1 hminus
    rw [number_minus] at h
    obtain ⟨c, more, hc, rfl⟩ := hstarts h
    exact ⟨true, c, more, hc, rfl⟩
  · rw [number_unsigned hminus] at h
    obtain ⟨c, more, hc, rfl⟩ := hstarts h
    exact ⟨false, c, more, hc, rfl⟩

theorem takes_number {v : Json} (hrest : EndsLiteral rest) (h : number cs = .ok (v, rest)) :
    ∃ front, cs = front ++ rest ∧ Takes (value depth) front v := by
  obtain ⟨front, rfl, hfront⟩ := readsLiteral_number h
  rw [number_append_rest hrest] at h
  obtain ⟨⟨w, left⟩, hnumber, heq⟩ := map_ok h
  obtain ⟨rfl, hleft⟩ := Prod.mk.inj heq
  obtain rfl : left = [] := List.append_left_eq_self.1 hleft
  obtain ⟨negative, c, more, hc, rfl⟩ := starts_of_number hnumber
  have hne : signed negative (c :: more) ≠ [] := by cases negative <;> exact List.cons_ne_nil _ _
  refine ⟨_, rfl, endsSolid_of_literal hne hfront, fun rest' hrest' => ?_⟩
  rw [← signed_append, List.cons_append, value_signed hc, ← List.cons_append, signed_append,
    number_append_rest hrest', hnumber]
  rfl

/-! ## Words -/

theorem value_word : ∀ w ∈ words, ∀ rest, value depth (w.1 ++ rest) = .ok (w.2, rest) := by
  have hother {c : Char} {cs : List Char} {found : Json × List Char} (hc : c ∈ "ntfNI-".toList)
      (hword : word? (c :: cs) = some found) : value depth (c :: cs) = .ok found := by
    have hall : "ntfNI-".toList.all (fun c => c != '"' && c != '[' && c != '{') = true := by decide
    have hplain := List.all_eq_true.1 hall c hc
    simp only [Bool.and_eq_true, bne_iff_ne] at hplain
    rw [value_other hplain.1.1 hplain.1.2 hplain.2, hword]
  simp only [words, List.forall_mem_cons]
  refine ⟨?_, ?_, ?_, ?_, ?_, ?_, List.forall_mem_nil _⟩ <;> exact fun rest => hother (by decide) rfl

theorem takes_word {found : Json × List Char} (h : word? cs = some found) :
    ∃ front, cs = front ++ found.2 ∧ Takes (value depth) front found.1 := by
  obtain ⟨word, hmem, hword⟩ := List.exists_of_findSome?_eq_some h
  obtain ⟨rest, hrest, rfl⟩ := Option.map_eq_some_iff.1 hword
  have hsolid : ∀ word ∈ words, EndsSolid word.1 := by
    simp only [words, List.forall_mem_cons]
    exact ⟨⟨['n', 'u', 'l'], 'l', rfl, rfl⟩, ⟨['t', 'r', 'u'], 'e', rfl, rfl⟩, ⟨['f', 'a', 'l', 's'], 'e', rfl, rfl⟩,
      ⟨['N', 'a'], 'N', rfl, rfl⟩, ⟨"Infinit".toList, 'y', rfl, rfl⟩, ⟨"-Infinit".toList, 'y', rfl, rfl⟩,
      List.forall_mem_nil _⟩
  exact ⟨word.1, (List.isPrefixOf?_eq_some_iff_append_eq.1 hrest).symm, hsolid word hmem,
    fun rest' _ => value_word word hmem rest'⟩

/-! ## Strings -/

theorem takes_pieces {ps : List Piece} (h : pieces cs = some (ps, rest)) :
    ∃ front, cs = front ++ rest ∧ EndsSolid front ∧ ∀ rest', pieces (front ++ rest') = some (ps, rest') := by
  fun_induction pieces cs generalizing ps with
  | case1 => cases h
  | case2 cs =>
    cases h
    exact ⟨['"'], rfl, ⟨[], '"', rfl, rfl⟩, fun rest' => rfl⟩
  | case3 a b c d cs ih =>
    simp only [Option.bind_eq_bind, Option.bind_eq_some_iff] at h
    obtain ⟨n, hunit, ⟨more, left⟩, hmore, heq⟩ := h
    cases heq
    obtain ⟨front, rfl, hsolid, hfront⟩ := ih hmore
    refine ⟨['\\', 'u', a, b, c, d] ++ front, rfl, hsolid.append _, fun rest' => ?_⟩
    simp [pieces, hunit, hfront]
  | case4 e cs hunit ih =>
    simp only [Option.bind_eq_bind, Option.bind_eq_some_iff] at h
    obtain ⟨c, hletter, ⟨more, left⟩, hmore, heq⟩ := h
    cases heq
    obtain ⟨front, rfl, hsolid, hfront⟩ := ih hmore
    have hu : e ≠ 'u' := by
      rintro rfl
      cases hletter
    refine ⟨['\\', e] ++ front, rfl, hsolid.append _, fun rest' => ?_⟩
    rw [List.append_assoc]
    change pieces ('\\' :: e :: (front ++ rest')) = _
    rw [pieces]
    · simp [hletter, hfront]
    · exact fun _ _ _ _ _ heq _ => hu heq
  | case5 => cases h
  | case6 c cs hquote hunit hletter hplain ih =>
    simp only [Option.bind_eq_bind, Option.bind_eq_some_iff] at h
    obtain ⟨⟨more, left⟩, hmore, heq⟩ := h
    cases heq
    obtain ⟨front, rfl, hsolid, hfront⟩ := ih hmore
    refine ⟨[c] ++ front, rfl, hsolid.append _, fun rest' => ?_⟩
    rw [List.append_assoc]
    change pieces (c :: (front ++ rest')) = _
    have hback : c ≠ '\\' := fun hc => hplain (by simp [hc])
    rw [pieces, if_neg hplain]
    · simp [hfront]
    · exact hquote
    · exact fun _ _ _ _ _ hc _ => hback hc
    · exact fun _ _ hc _ => hback hc

theorem takes_string : ∀ cs text rest, string cs = .ok (text, rest) →
    ∃ front, cs = front ++ rest ∧ EndsSolid front ∧ ∀ rest', string (front ++ rest') = .ok (text, rest') := by
  intro cs text rest h
  rw [string] at h
  split at h
  · rename_i ps left hpieces
    cases h
    obtain ⟨front, rfl, hsolid, hfront⟩ := takes_pieces hpieces
    refine ⟨front, rfl, hsolid, fun rest' => ?_⟩
    rw [string, hfront]
  · cases h

/-! ## Lists and objects -/

/-- What comes after the first of some things with commas between them: the others, and a closing character. -/
def moreOf (close : Char) (item : Reader α) : Nat → Reader (List α)
  | 0, _           => .error .malformed
  | rounds + 1, cs =>
    if (skipSpace cs).head? = some close then .ok ([], (skipSpace cs).tail)
    else if (skipSpace cs).head? = some ',' then do
      let (a, rest) ← item (skipSpace (skipSpace cs).tail)
      let (as, rest) ← moreOf close item rounds rest
      .ok (a :: as, rest)
    else .error .malformed

def listOf (close : Char) (item : Reader α) : Reader (List α) := fun cs =>
  if (skipSpace cs).head? = some close then .ok ([], (skipSpace cs).tail)
  else do
    let (a, rest) ← item (skipSpace cs)
    let (as, rest) ← moreOf close item (skipSpace cs).length rest
    .ok (a :: as, rest)

theorem moreItems_eq (read : Reader Json) (rounds : Nat) : moreItems read rounds = moreOf ']' read rounds := by
  induction rounds with
  | zero => rfl
  | succ rounds ih =>
    funext cs
    rw [moreItems, moreOf, ih]
    split <;> simp_all [List.head?_eq_some_iff]

theorem array_eq (read : Reader Json) : array read = listOf ']' read := by
  funext cs
  rw [array, listOf]
  split
  · simp_all
  · rw [if_neg (by simp_all [List.head?_eq_some_iff]), moreItems_eq]

theorem moreFields_eq (read : Reader Json) (rounds : Nat) :
    moreFields read rounds = moreOf '}' (field read) rounds := by
  induction rounds with
  | zero => rfl
  | succ rounds ih =>
    funext cs
    rw [moreFields, moreOf, ih]
    split <;> simp_all [List.head?_eq_some_iff]

theorem fields_eq (read : Reader Json) : fields read = listOf '}' (field read) := by
  funext cs
  rw [fields, listOf]
  split
  · simp_all
  · rw [if_neg (by simp_all [List.head?_eq_some_iff]), moreFields_eq]

theorem bind_ok {ε β γ : Type} {x : Except ε β} {f : β → Except ε γ} {c : γ} (h : x >>= f = .ok c) :
    ∃ b, x = .ok b ∧ f b = .ok c := by
  cases x with
  | error e => cases h
  | ok b => exact ⟨b, rfl, h⟩

variable {close : Char} {item : Reader α} {a : α} {as : List α}

def IsCloser (close : Char) : Prop := close = ']' ∨ close = '}'

theorem IsCloser.not_isBlank (h : IsCloser close) : isBlank close = false := by
  obtain rfl | rfl := h <;> rfl

theorem IsCloser.not_literal (h : IsCloser close) : close ∉ literalChars := by
  obtain rfl | rfl := h <;> decide

theorem endsLiteral_of_skipSpace {c : Char} (hc : c ∉ literalChars) (h : (skipSpace cs).head? = some c) :
    EndsLiteral cs := by
  cases cs with
  | nil => exact endsLiteral_nil
  | cons d ds =>
    refine endsLiteral_cons (fun hd => hc ?_) ds
    have hspace : ¬ isSpace d = true := fun hspace => by
      have hblank := not_isBlank_of_literal hd
      rw [isBlank_of_isSpace hspace] at hblank
      cases hblank
    rw [skipSpace, List.dropWhile_cons_of_neg hspace] at h
    cases h
    exact hd

theorem moreOf_close {rounds : Nat} (h : skipSpace cs = close :: rest) :
    moreOf close item (rounds + 1) cs = .ok ([], rest) := by
  rw [moreOf, h]
  exact if_pos rfl

theorem moreOf_comma (hclose : IsCloser close) {rounds : Nat} {after left : List Char} (h : skipSpace cs = ',' :: after)
    (hitem : item (skipSpace after) = .ok (a, left)) (hmore : moreOf close item rounds left = .ok (as, rest)) :
    moreOf close item (rounds + 1) cs = .ok (a :: as, rest) := by
  have hne : (',' :: after).head? ≠ some close := by obtain rfl | rfl := hclose <;> simp
  have hhead : (',' :: after).head? = some ',' := rfl
  rw [moreOf, h, if_neg hne, if_pos hhead, List.tail_cons, hitem]
  simp [bind, Except.bind, hmore]

theorem moreOf_cases {rounds : Nat} (h : moreOf close item (rounds + 1) cs = .ok (as, rest)) :
    skipSpace cs = close :: rest ∧ as = [] ∨
      ∃ after b left bs, skipSpace cs = ',' :: after ∧ item (skipSpace after) = .ok (b, left) ∧
        moreOf close item rounds left = .ok (bs, rest) ∧ as = b :: bs := by
  rw [moreOf] at h
  split at h
  · rename_i hend
    obtain ⟨after, hafter⟩ := List.head?_eq_some_iff.1 hend
    rw [hafter] at h
    cases h
    exact .inl ⟨hafter, rfl⟩
  split at h
  · rename_i hcomma
    obtain ⟨after, hafter⟩ := List.head?_eq_some_iff.1 hcomma
    rw [hafter] at h
    obtain ⟨⟨b, left⟩, hread, h⟩ := bind_ok h
    obtain ⟨⟨bs, left'⟩, hmore, heq⟩ := bind_ok h
    cases heq
    exact .inr ⟨after, b, left, bs, hafter, hread, hmore, rfl⟩
  · cases h

theorem takes_moreOf (hclose : IsCloser close) (hitem : TakesFronts item) {rounds : Nat}
    (h : moreOf close item rounds cs = .ok (as, rest)) :
    EndsLiteral cs ∧ ∃ front, cs = front ++ rest ∧ EndsSolid front ∧
      ∀ rest' rounds', front.length ≤ rounds' → moreOf close item rounds' (front ++ rest') = .ok (as, rest') := by
  induction rounds generalizing cs as with
  | zero => cases h
  | succ rounds ih =>
    obtain ⟨spaces, hcs, hspaces⟩ := exists_append_skipSpace cs
    obtain ⟨hskip, rfl⟩ | ⟨after, b, left, bs, hskip, hread, hmore, rfl⟩ := moreOf_cases h
    · refine ⟨endsLiteral_of_skipSpace hclose.not_literal (by rw [hskip]; rfl), spaces ++ [close], ?_,
        ⟨spaces, close, rfl, hclose.not_isBlank⟩, fun rest' rounds' hlength => ?_⟩
      · rw [hcs, hskip, List.append_assoc, List.singleton_append]
      · obtain ⟨n, rfl⟩ := Nat.exists_eq_add_one.2 (lt_of_lt_of_le (by simp) hlength)
        rw [List.append_assoc, List.singleton_append]
        exact moreOf_close (skipSpace_append_cons hspaces hclose.not_isBlank rest')
    · obtain ⟨hleft, second, rfl, hsolid, hrounds⟩ := ih hmore
      obtain ⟨first, rfl, -, htakes⟩ := hitem.spaced after b _ hleft hread
      refine ⟨endsLiteral_of_skipSpace (c := ',') (by decide) (by rw [hskip]; rfl),
        (spaces ++ ',' :: first) ++ second, ?_, hsolid.append _, fun rest' rounds' hlength => ?_⟩
      · rw [hcs, hskip]
        simp
      · obtain ⟨n, rfl⟩ := Nat.exists_eq_add_one.2 (lt_of_lt_of_le (by simp) hlength)
        have hsecond := hleft.of_append hsolid.ne_nil rest'
        have hskip' : skipSpace (spaces ++ ',' :: (first ++ (second ++ rest'))) = ',' :: (first ++ (second ++ rest')) :=
          skipSpace_append_cons hspaces (by rfl) _
        have happend :
            spaces ++ ',' :: first ++ second ++ rest' = spaces ++ ',' :: (first ++ (second ++ rest')) := by simp
        rw [happend]
        refine moreOf_comma hclose hskip' (htakes _ hsecond) (hrounds rest' n ?_)
        simp only [List.length_append, List.length_cons] at hlength
        omega

/-- **A list of things is read off a front, if each of them is.** -/
theorem takes_listOf (hclose : IsCloser close) (hitem : TakesFronts item) (h : listOf close item cs = .ok (as, rest)) :
    ∃ front, cs = front ++ rest ∧ EndsSolid front ∧ ∀ rest', listOf close item (front ++ rest') = .ok (as, rest') := by
  rw [listOf] at h
  split at h
  · rename_i hend
    obtain ⟨spaces, hcs, hspaces⟩ := exists_append_skipSpace cs
    obtain ⟨after, hskip⟩ := List.head?_eq_some_iff.1 hend
    rw [hskip] at h hcs
    cases h
    refine ⟨spaces ++ [close], by simpa using hcs, ⟨spaces, close, rfl, hclose.not_isBlank⟩, fun rest' => ?_⟩
    rw [listOf, List.append_assoc, List.singleton_append, skipSpace_append_cons hspaces hclose.not_isBlank]
    exact if_pos rfl
  · rename_i hstart
    obtain ⟨⟨b, left⟩, hread, h⟩ := bind_ok h
    obtain ⟨⟨bs, left'⟩, hmore, heq⟩ := bind_ok h
    cases heq
    obtain ⟨hleft, second, rfl, hsolid, hrounds⟩ := takes_moreOf hclose hitem hmore
    obtain ⟨first, rfl, hfirst, htakes⟩ := hitem.spaced cs b _ hleft hread
    refine ⟨first ++ second, (List.append_assoc _ _ _).symm, hsolid.append first, fun rest' => ?_⟩
    have htakes' := htakes _ (hleft.of_append hsolid.ne_nil rest')
    dsimp only at htakes'
    obtain ⟨hskip, hne⟩ := hfirst.skipSpace_append (second ++ rest')
    have hstart' : (skipSpace first ++ (second ++ rest')).head? ≠ some close := by
      rwa [(hfirst.skipSpace_append (second ++ rest)).1, List.head?_append_of_ne_nil _ hne,
        ← List.head?_append_of_ne_nil _ hne] at hstart
    have hmore' := hrounds rest' (skipSpace first ++ (second ++ rest')).length (by simp; omega)
    rw [hskip] at htakes'
    rw [listOf, List.append_assoc, hskip, if_neg hstart', htakes']
    simp only [bind, Except.bind, hmore']

theorem takesFronts_field {read : Reader Json} (h : TakesFronts read) : TakesFronts (field read) := by
  intro cs f rest hrest hfield
  rw [field.eq_def] at hfield
  split at hfield
  · rename_i after
    obtain ⟨⟨key, left⟩, hkey, hfield⟩ := bind_ok hfield
    dsimp only at hfield
    split at hfield
    · rename_i colon hcolon
      obtain ⟨⟨v, left'⟩, hread, heq⟩ := bind_ok hfield
      cases heq
      obtain ⟨first, rfl, hfirst, hstring⟩ := takes_string _ _ _ hkey
      obtain ⟨second, rfl, hsecond, htakes⟩ := h.spaced _ _ _ hrest hread
      obtain ⟨spaces, hleft, hspaces⟩ := exists_append_skipSpace left
      refine ⟨'"' :: first ++ spaces ++ ':' :: second, ?_, (hsecond.append [':']).append _, fun rest' hrest' => ?_⟩
      · rw [hleft, hcolon]
        simp
      · have htakes' := htakes rest' hrest'
        dsimp only at htakes'
        have happend : '"' :: first ++ spaces ++ ':' :: second ++ rest' =
          '"' :: (first ++ (spaces ++ ':' :: (second ++ rest'))) := by simp
        rw [happend, field, hstring]
        simp only [bind, Except.bind, skipSpace_append_cons hspaces (rfl : isBlank ':' = false), htakes']
    · cases hfield
  · cases hfield

/-! ## Values -/

theorem takes_flat {c : Char} {v : Json} (hrest : EndsLiteral rest) (hbracket : c ≠ '[') (hbrace : c ≠ '{')
    (h : value depth (c :: cs) = .ok (v, rest)) : ∃ front, c :: cs = front ++ rest ∧ Takes (value depth) front v := by
  by_cases hquote : c = '"'
  · subst hquote
    rw [value_string] at h
    obtain ⟨⟨text, left⟩, hstring, heq⟩ := map_ok h
    cases heq
    obtain ⟨front, rfl, hsolid, hfront⟩ := takes_string _ _ _ hstring
    refine ⟨'"' :: front, rfl, hsolid.append ['"'], fun rest' _ => ?_⟩
    rw [List.cons_append, value_string, hfront]
    rfl
  · rw [value_other hquote hbracket hbrace] at h
    split at h
    · rename_i found hword
      cases h
      exact takes_word hword
    · exact takes_number hrest h

theorem takes_bracketed {β : Type} {f : List α → β} {opening : Char} {read : Reader β} {b : β} (hclose : IsCloser close)
    (hitem : TakesFronts item)
    (hread : ∀ cs, read (opening :: cs) = (listOf close item cs).map fun (as, rest) => (f as, rest))
    (h : read (opening :: cs) = .ok (b, rest)) : ∃ front, opening :: cs = front ++ rest ∧ Takes read front b := by
  rw [hread] at h
  obtain ⟨⟨as, left⟩, hlist, heq⟩ := map_ok h
  cases heq
  obtain ⟨front, rfl, hsolid, hfront⟩ := takes_listOf hclose hitem hlist
  refine ⟨opening :: front, rfl, hsolid.append [opening], fun rest' _ => ?_⟩
  rw [List.cons_append, hread, hfront]
  rfl

/-- **A value is read off a front of the text, whatever stands behind it.** -/
theorem takesFronts_value (depth : Nat) : TakesFronts (value depth) := by
  induction depth with
  | zero =>
    intro cs v rest hrest h
    cases cs with
    | nil => cases h
    | cons c cs =>
      by_cases hbracket : c = '['
      · subst hbracket
        cases h
      by_cases hbrace : c = '{'
      · subst hbrace
        cases h
      exact takes_flat hrest hbracket hbrace h
  | succ depth ih =>
    intro cs v rest hrest h
    cases cs with
    | nil => cases h
    | cons c cs =>
      by_cases hbracket : c = '['
      · subst hbracket
        exact takes_bracketed (f := .arr) (.inl rfl) ih (fun cs => by rw [value_array, array_eq]) h
      by_cases hbrace : c = '{'
      · subst hbrace
        exact takes_bracketed (f := fun fs => .obj (Assoc.update [] fs)) (.inr rfl) (takesFronts_field ih)
          (fun cs => by rw [value_object, fields_eq]) h
      exact takes_flat hrest hbracket hbrace h

/-! ## Whole texts -/

theorem not_isBlank_of_value {c : Char} {v : Json} (h : value depth (c :: cs) = .ok (v, rest)) : isBlank c = false := by
  by_contra hblank
  rw [Bool.not_eq_false] at hblank
  have hne {d : Char} (hd : isBlank d = false) : c ≠ d := by
    rintro rfl
    rw [hd] at hblank
    cases hblank
  rw [value_other (hne rfl) (hne rfl) (hne rfl)] at h
  split at h
  · rename_i found hword
    obtain ⟨word, hmem, hword⟩ := List.exists_of_findSome?_eq_some hword
    obtain ⟨more, hmore, -⟩ := Option.map_eq_some_iff.1 hword
    have hall : ∀ word ∈ words, ∃ d ds, word.1 = d :: ds ∧ isBlank d = false := by
      simp only [words, List.forall_mem_cons]
      exact ⟨⟨_, _, rfl, rfl⟩, ⟨_, _, rfl, rfl⟩, ⟨_, _, rfl, rfl⟩, ⟨_, _, rfl, rfl⟩, ⟨_, _, rfl, rfl⟩, ⟨_, _, rfl, rfl⟩,
        List.forall_mem_nil _⟩
    obtain ⟨d, ds, hd, hplain⟩ := hall word hmem
    have heq := List.isPrefixOf?_eq_some_iff_append_eq.1 hmore
    rw [hd] at heq
    exact hne hplain (List.cons.inj heq).1.symm
  · obtain ⟨negative, d, more, hd, heq⟩ := starts_of_number h
    have hplain := not_isBlank_of_literal (mem_literalChars_of_starts hd)
    cases negative with
    | true =>
      cases heq
      cases hblank
    | false =>
      cases heq
      rw [hplain] at hblank
      cases hblank

theorem EndsSolid.strip {c : Char} (h : EndsSolid (c :: cs)) (hc : isBlank c = false) : strip (c :: cs) = c :: cs := by
  obtain ⟨more, d, heq, hd⟩ := h
  have hneg {e : Char} (he : isBlank e = false) : ¬ isBlank e = true := by rw [he]; exact Bool.false_ne_true
  rw [Abacus.strip, trim, List.dropWhile_cons_of_neg (hneg hc), heq, List.reverse_append, List.reverse_singleton,
    List.singleton_append, List.dropWhile_cons_of_neg (hneg hd), List.reverse_cons, List.reverse_reverse]

theorem endsLiteral_of_spaces (h : ∀ c ∈ rest, isSpace c = true) : EndsLiteral rest := by
  intro c hc hliteral
  have hblank := isBlank_of_isSpace (h c (List.mem_of_head? hc))
  rw [not_isBlank_of_literal hliteral] at hblank
  cases hblank

/-- **A text that is a value is the same value without the blanks around it.** -/
theorem read_strip_of_read {v : Json} (h : Json.read cs = .ok v) : Json.read (strip cs) = .ok v := by
  rw [Json.read] at h
  split at h
  · rename_i w rest hvalue
    split at h
    · rename_i hempty
      cases h
      have hrest : ∀ c ∈ rest, isSpace c = true := List.dropWhile_eq_nil_iff.1 (List.isEmpty_iff.1 hempty)
      obtain ⟨front, heq, hsolid, htakes⟩ := takesFronts_value maxDepth _ _ _ (endsLiteral_of_spaces hrest) hvalue
      obtain ⟨spaces, hcs, hspaces⟩ := exists_append_skipSpace cs
      obtain ⟨c, more, rfl⟩ := List.exists_cons_of_ne_nil hsolid.ne_nil
      have hfront := htakes [] endsLiteral_nil
      rw [List.append_nil] at hfront
      have hc := not_isBlank_of_value hfront
      have hstrip : strip cs = c :: more := by
        rw [hcs, heq, strip, trim_append_left fun d hd => isBlank_of_isSpace (hspaces d hd),
          trim_append_right fun d hd => isBlank_of_isSpace (hrest d hd)]
        exact hsolid.strip hc
      have hskip : skipSpace (c :: more) = c :: more := skipSpace_append_cons (List.forall_mem_nil _) hc more
      rw [hstrip, Json.read, hskip, hfront]
      rfl
    · cases h
  · cases h

end Abacus.Json
