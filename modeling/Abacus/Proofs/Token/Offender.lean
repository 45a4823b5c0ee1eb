import Abacus.Proofs.Token.Gaps
/-!
# What the scanner stops at

A text that is refused has a front that is cut into blanks and lexemes as if the text went on well, and then
something that is neither: a character that no lexeme starts with, or a run of characters of numbers that is as long
as can be and no literal (`scan_eq_error_iff`).  So the front is scanned by itself, and the position of the error is
the number of its characters that are not blank (`scan_error_located`).
-/
namespace Abacus

/-- Pieces make up a text, each fitting before the others and before the rest of a longer text. -/
inductive CutBefore (rest : List Char) : List Char → List Piece → Prop
  | nil : CutBefore rest [] []
  | cons {piece : Piece} {front : List Char} {pieces : List Piece} (hfits : piece.Fits (front ++ rest))
      (hfront : CutBefore rest front pieces) : CutBefore rest (piece.text ++ front) (piece :: pieces)

/-- Digits, points, exponent marks, and signs directly after exponent marks. -/
def IsRun (cs : List Char) : Prop :=
  ∀ before c after, cs = before ++ c :: after → c.isDigit = true ∨ c = '.' ∨ c = 'e' ∨ c = 'E' ∨
    (c = '+' ∨ c = '-') ∧ (before.getLast? = some 'e' ∨ before.getLast? = some 'E')

structure IsLongestRun (run text : List Char) : Prop where
  isPrefix : run <+: text
  isRun : IsRun run
  longest : ∀ other, other <+: text → IsRun other → other.length ≤ run.length

inductive Offends : List Char → ScanFault → Prop
  | unknownChar {c : Char} {cs : List Char} (hblank : isBlank c = false) (hdigit : c.isDigit = false) (hpoint : c ≠ '.')
      (hletter : isLetter c = false) (hsymbol : c ∉ symbols) : Offends (c :: cs) (.unknownChar c)
  | invalidNumber {c : Char} {cs run : List Char} (hstart : c.isDigit = true ∨ c = '.')
      (hrun : IsLongestRun run (c :: cs)) (hmalformed : ¬ DecimalLiteral run) : Offends (c :: cs) (.invalidNumber run)

variable {c : Char} {cs front rest run text : List Char} {pieces : List Piece} {fault : ScanFault} {e : ScanError}

/-! ## Runs -/

theorem startsNumber_iff : startsNumber c = true ↔ c.isDigit = true ∨ c = '.' := by
  rw [startsNumber, Bool.or_eq_true, beq_iff_eq]

theorem extendsNumber_iff {previous : Char} : extendsNumber previous c = true ↔ c.isDigit = true ∨ c = '.' ∨ c = 'e' ∨
    c = 'E' ∨ (c = '+' ∨ c = '-') ∧ (previous = 'e' ∨ previous = 'E') := by
  simp only [extendsNumber, isExponentMark, Bool.or_eq_true, Bool.and_eq_true, beq_iff_eq, or_assoc]

theorem goesOn_iff {previous : Char} : goesOn previous cs = true ↔
    ∀ before c after, cs = before ++ c :: after → extendsNumber (before.getLastD previous) c = true := by
  induction cs generalizing previous with
  | nil => exact iff_of_true rfl fun before c after h => by simp at h
  | cons d ds ih =>
    rw [goesOn, Bool.and_eq_true, ih]
    constructor
    · rintro ⟨hd, hds⟩ before c after h
      obtain ⟨rfl, h⟩ | ⟨before, rfl, h⟩ := List.cons_eq_append_iff.1 h
      · cases h
        exact hd
      · rw [List.getLastD_cons]
        exact hds before c after (List.cons.inj h).2
    · refine fun hall => ⟨hall [] d ds rfl, fun before c after h => ?_⟩
      rw [← List.getLastD_cons (a := previous)]
      exact hall (d :: before) c after (congrArg (d :: ·) h)

theorem isRun_cons_iff (hstart : startsNumber c = true) : IsRun (c :: cs) ↔ goesOn c cs = true := by
  have hlast (before : List Char) (d : Char) : (c :: before).getLast? = some d ↔ before.getLastD c = d := by
    rw [List.getLast?_cons, Option.some_inj, List.getLastD_eq_getLast?]
  rw [goesOn_iff]
  constructor
  · intro h before d after hcs
    have hd := h (c :: before) d after (congrArg (c :: ·) hcs)
    rw [hlast, hlast] at hd
    exact extendsNumber_iff.2 hd
  · intro h before d after hcs
    obtain ⟨rfl, hcs⟩ | ⟨before, rfl, hcs⟩ := List.cons_eq_append_iff.1 hcs
    · cases hcs
      exact (startsNumber_iff.1 hstart).imp_right .inl
    · rw [hlast, hlast]
      exact extendsNumber_iff.1 (h before d after (List.cons.inj hcs).2)

/-- **The scanner collects the longest run.** -/
theorem isLongestRun_numberTail (hstart : startsNumber c = true) (cs : List Char) :
    IsLongestRun (c :: (numberTail c cs).1) (c :: cs) := by
  have hwithin : c :: (numberTail c cs).1 <+: c :: cs :=
    ⟨(numberTail c cs).2, congrArg (c :: ·) (numberTail_append c cs)⟩
  refine ⟨hwithin, (isRun_cons_iff hstart).2 (goesOn_numberTail c cs), fun other hother hrun => ?_⟩
  refine Nat.le_of_not_lt fun hlt => ?_
  -- a longer run would go on with the character that the scanner stopped at
  obtain ⟨more, rfl⟩ := List.prefix_of_prefix_length_le hwithin hother (Nat.le_of_lt hlt)
  cases more with
  | nil => simp at hlt
  | cons d more =>
    obtain ⟨after, hafter⟩ := hother
    have hrest : (numberTail c cs).2 = d :: (more ++ after) := by
      have hsplit := (congrArg (c :: ·) (numberTail_append c cs)).trans hafter.symm
      rw [List.append_assoc] at hsplit
      exact List.append_cancel_left (List.cons.inj hsplit).2
    have hstops := head_numberTail (by rw [hrest, List.head?_cons])
    have hgoes := goesOn_iff.1 ((isRun_cons_iff hstart).1 hrun) _ d more rfl
    rw [hstops] at hgoes
    cases hgoes

theorem IsLongestRun.unique {run' : List Char} (h : IsLongestRun run text) (h' : IsLongestRun run' text) :
    run = run' := by
  have hlength : run.length = run'.length :=
    Nat.le_antisymm (h'.longest _ h.isPrefix h.isRun) (h.longest _ h'.isPrefix h'.isRun)
  exact (List.prefix_of_prefix_length_le h.isPrefix h'.isPrefix (Nat.le_of_eq hlength)).eq_of_length hlength

/-! ## From an error to what offends -/

theorem offends_of_invalidNumber (hstart : startsNumber c = true)
    (hread : ¬ (readDouble? (c :: (numberTail c cs).1)).isSome) :
    Offends (c :: cs) (.invalidNumber (c :: (numberTail c cs).1)) :=
  .invalidNumber (startsNumber_iff.1 hstart) (isLongestRun_numberTail hstart cs)
    fun hliteral => hread (decimalLiteral_iff_isLiteral.1 hliteral).2

theorem offends_of_unknownChar (hblank : ¬ isBlank c = true) (hstart : ¬ startsNumber c = true)
    (hletter : ¬ isLetter c = true) (hkind : TokenKind.ofChar? c = none) : Offends (c :: cs) (.unknownChar c) := by
  have hsymbols : symbols.all (fun d => (TokenKind.ofChar? d).isSome) = true := by decide
  rw [startsNumber_iff, not_or, Bool.not_eq_true] at hstart
  refine .unknownChar (Bool.eq_false_iff.2 hblank) hstart.1 hstart.2 (Bool.eq_false_iff.2 hletter) fun hmem => ?_
  have hsome := List.all_eq_true.1 hsymbols c hmem
  rw [hkind] at hsome
  cases hsome

/-- The text offends behind a front that is cut, and the error is at its end. -/
def IsStopped (text : List Char) (position : Nat) (e : ScanError) : Prop :=
  ∃ front rest pieces, text = front ++ rest ∧ CutBefore rest front pieces ∧ Offends rest e.fault ∧
    e.position = position + solid front

theorem IsStopped.lexeme {kind : TokenKind} {position : Nat} (hfits : Piece.Fits (.lexeme kind text) rest)
    (h : IsStopped rest (position + text.length) e) : IsStopped (text ++ rest) position e := by
  obtain ⟨front, rest, pieces, rfl, hcut, hoffends, hposition⟩ := h
  refine ⟨text ++ front, rest, .lexeme kind text :: pieces, (List.append_assoc _ _ _).symm, .cons hfits hcut,
    hoffends, ?_⟩
  rw [hposition, solid_lexeme_append hfits.solid, Nat.add_assoc]

theorem error_of_map_cons {t : Token} {scanned : Except ScanError (List Token)} (h : scanned.map (t :: ·) = .error e) :
    scanned = .error e := by
  cases scanned with
  | error other => cases h; rfl
  | ok ts => cases h

theorem isStopped_of_scanFrom {position : Nat} (h : scanFrom position text = .error e) : IsStopped text position e := by
  -- each token that is scanned is one more lexeme of the front; the two errors are where it ends
  fun_induction scanFrom position text with
  | case1 position => cases h
  | case2 position c cs hblank ih =>
    obtain ⟨front, rest, pieces, rfl, hcut, hoffends, hposition⟩ := ih h
    rw [← solid_cons_blank hblank front] at hposition
    exact ⟨c :: front, rest, .blank c :: pieces, rfl, .cons (.blank hblank) hcut, hoffends, hposition⟩
  | case3 =>
    rename_i position c cs _ hstart number hread _ ih
    rw [← numberTail_append c cs, ← List.cons_append]
    exact (ih (error_of_map_cons h)).lexeme (fits_number hstart hread)
  | case4 =>
    rename_i position c cs _ hstart number hread
    cases h
    exact ⟨[], c :: cs, [], rfl, .nil, offends_of_invalidNumber hstart hread, rfl⟩
  | case5 =>
    rename_i position c cs _ _ hletter name _ ih
    rw [← List.takeWhile_append_dropWhile (p := isAlphanumeric) (l := cs), ← List.cons_append]
    exact (ih (error_of_map_cons h)).lexeme (fits_name hletter cs)
  | case6 position c cs _ _ _ kind hkind ih =>
    have hfits : Piece.Fits (.lexeme kind [c]) cs := .symbol hkind
    exact (ih (error_of_map_cons h)).lexeme hfits
  | case7 position c cs hblank hstart hletter hkind =>
    cases h
    exact ⟨[], c :: cs, [], rfl, .nil, offends_of_unknownChar hblank hstart hletter hkind, rfl⟩

/-! ## From what offends to an error -/

theorem CutBefore.cut (h : CutBefore rest front pieces) : Cut front pieces := by
  induction h with
  | nil => exact .nil
  | cons hfits _ ih =>
    refine .cons (hfits.of_head fun c hc => .inr ?_) ih
    rw [List.head?_append, hc, Option.some_or]

theorem CutBefore.scanFrom_eq (h : CutBefore rest front pieces) (before : List Char) :
    scanFrom (solid before) (front ++ rest) =
      (scanFrom (solid (before ++ front)) rest).map (tokensOf before pieces ++ ·) := by
  induction h generalizing before with
  | nil =>
    rw [List.append_nil, List.nil_append, tokensOf]
    cases scanFrom (solid before) rest <;> rfl
  | @cons piece front pieces hfits _ ih =>
    cases piece with
    | blank c =>
      cases hfits with
      | blank hblank =>
        rw [Piece.text, List.append_assoc, List.singleton_append, scanFrom_blank hblank, ← solid_blank hblank before,
          ih, List.append_assoc, tokensOf]
    | lexeme kind text =>
      rw [Piece.text, List.append_assoc, hfits.scanFrom, ← solid_lexeme hfits.solid before, ih, List.append_assoc,
        tokensOf]
      cases scanFrom (solid (before ++ (text ++ front))) rest <;> rfl

theorem Offends.scanFrom_eq (h : Offends rest fault) (position : Nat) :
    scanFrom position rest = .error ⟨fault, position⟩ := by
  cases h with
  | @unknownChar c cs hblank hdigit hpoint hletter hsymbol =>
    have hstart : ¬ startsNumber c = true := by
      rw [startsNumber_iff, not_or]
      exact ⟨Bool.eq_false_iff.1 hdigit, hpoint⟩
    have hkind : TokenKind.ofChar? c = none := by
      cases hsome : TokenKind.ofChar? c with
      | none => rfl
      | some kind => exact absurd (mem_symbols hsome) hsymbol
    rw [scanFrom, if_neg (Bool.eq_false_iff.1 hblank), if_neg hstart, if_neg (Bool.eq_false_iff.1 hletter), hkind]
  | @invalidNumber c cs run hstart hrun hmalformed =>
    replace hstart := startsNumber_iff.2 hstart
    obtain rfl := hrun.unique (isLongestRun_numberTail hstart cs)
    have hliteral : isLiteral (c :: (numberTail c cs).1) = true := by
      rw [isLiteral, hstart, goesOn_numberTail, Bool.and_self]
    have hread : ¬ (readDouble? (c :: (numberTail c cs).1)).isSome :=
      fun hsome => hmalformed (decimalLiteral_iff_isLiteral.2 ⟨hliteral, hsome⟩)
    rw [scanFrom, if_neg (Bool.eq_false_iff.1 (isBlank_of_starts hstart)), if_pos hstart]
    dsimp only
    rw [if_neg hread]

theorem scan_eq_error_iff :
    scan text = .error e ↔ ∃ front rest pieces, text = front ++ rest ∧ CutBefore rest front pieces ∧
    Offends rest e.fault ∧ e.position = solid front := by
  constructor
  · intro h
    obtain ⟨front, rest, pieces, htext, hcut, hoffends, hposition⟩ := isStopped_of_scanFrom h
    exact ⟨front, rest, pieces, htext, hcut, hoffends, hposition.trans (Nat.zero_add _)⟩
  · rintro ⟨front, rest, pieces, rfl, hcut, hoffends, hposition⟩
    have hscan := hcut.scanFrom_eq []
    rw [hoffends.scanFrom_eq] at hscan
    rw [scan]
    exact hscan.trans (congrArg Except.error (by rw [List.nil_append, ← hposition]))

/-- **The error of a text is at its first bad lexeme.**  What is before it is scanned by itself, and its characters
that are not blank are counted in the position.  A character that is not known starts no blank, number, name or
symbol, and is the one in the message; a number that is not valid is the longest run that stands there, is no
decimal literal, and is what the message shows. -/
theorem scan_error_located (h : scan text = .error e) : ∃ pre rest ts, text = pre ++ rest ∧ scan pre = .ok ts ∧
    e.position = solid pre ∧
    (∀ c, e.fault = .unknownChar c → rest.head? = some c ∧ isBlank c = false ∧ c.isDigit = false ∧ c ≠ '.' ∧
      isLetter c = false ∧ c ∉ "+-*/^(),".toList ∧
      e.message = "unknown token '".toList ++ c :: "' at position ".toList ++ natText (solid pre)) ∧
    ∀ run, e.fault = .invalidNumber run → (∃ c, rest.head? = some c ∧ (c.isDigit = true ∨ c = '.')) ∧
      IsLongestRun run rest ∧ ¬ DecimalLiteral run ∧ e.message = "invalid number: ".toList ++ run := by
  obtain ⟨pre, rest, pieces, rfl, hcut, hoffends, hposition⟩ := scan_eq_error_iff.1 h
  refine ⟨pre, rest, tokensOf [] pieces, rfl, hcut.cut.scanFrom [], hposition, fun c hc => ?_, fun run hrun => ?_⟩
  · have hmessage : e.message = "unknown token '".toList ++ c :: "' at position ".toList ++ natText e.position := by
      rw [ScanError.message, hc]
    rw [hc] at hoffends
    cases hoffends with
    | unknownChar hblank hdigit hpoint hletter hsymbol =>
      exact ⟨rfl, hblank, hdigit, hpoint, hletter, hsymbol, hposition ▸ hmessage⟩
  · have hmessage : e.message = "invalid number: ".toList ++ run := by rw [ScanError.message, hrun]
    rw [hrun] at hoffends
    cases hoffends with
    | @invalidNumber c _ _ hstart hlongest hmalformed => exact ⟨⟨c, rfl, hstart⟩, hlongest, hmalformed, hmessage⟩

/-- A number that breaks off at its second exponent, behind tokens and blanks. -/
theorem scan_error_located_twoExponents :
    scan "2 x\t* 1e+.5E-+1".toList = .error ⟨.invalidNumber "1e+.5E-".toList, 3⟩ ∧
    ∃ pre rest ts, "2 x\t* 1e+.5E-+1".toList = pre ++ rest ∧ scan pre = .ok ts ∧ 3 = solid pre ∧
      IsLongestRun "1e+.5E-".toList rest ∧ ¬ DecimalLiteral "1e+.5E-".toList := by
  have hscan : scan "2 x\t* 1e+.5E-+1".toList = .error ⟨.invalidNumber "1e+.5E-".toList, 3⟩ := by decide +kernel
  obtain ⟨pre, rest, ts, htext, hpre, hposition, -, hnumber⟩ := scan_error_located hscan
  obtain ⟨-, hlongest, hmalformed, -⟩ := hnumber _ rfl
  exact ⟨hscan, pre, rest, ts, htext, hpre, hposition, hlongest, hmalformed⟩

end Abacus
