import Abacus.Expr.Parse
import Abacus.Proofs.Token.Cut
/-!
# Blanks between tokens

No number and no name goes on over a blank, and nothing before a blank counts for what comes after it but how many
characters it has.  So a text with a blank in it is scanned in two parts, the second with its positions moved on
(`scanFrom_append`, `scanFrom_add`); an error of the first part is that of the whole.  The tokens of a text stay
what they are, positions included, when the gaps between them are made of other blanks (`scan_blanks_between`).
-/
namespace Abacus

def StartsBlank (rest : List Char) : Prop := ∀ c, rest.head? = some c → isBlank c = true

def IsGap (gap : List Char) : Prop := ∀ c ∈ gap, isBlank c = true

instance (gap : List Char) : Decidable (IsGap gap) := decidable_of_iff (gap.all isBlank = true) List.all_eq_true

variable {gap last rest rest' text : List Char} {piece : Piece} {pieces : List Piece}

theorem IsGap.startsBlank_append (h : IsGap gap) (hne : gap ≠ []) (rest : List Char) : StartsBlank (gap ++ rest) := by
  obtain ⟨b, bs, rfl⟩ := List.exists_cons_of_ne_nil hne
  intro c hc
  cases hc
  exact h b List.mem_cons_self

theorem IsGap.startsBlank (h : IsGap gap) : StartsBlank gap := fun c hc => h c (List.mem_of_head? hc)

/-! ## Where a blank stands, lexemes end -/

theorem extendsNumber_blank {c : Char} (h : isBlank c = true) (previous : Char) : extendsNumber previous c = false := by
  refine Bool.eq_false_iff.2 fun hextends => ?_
  rw [isBlank_of_mem_literalChars (mem_literalChars_of_extends hextends)] at h
  cases h

theorem isAlphanumeric_blank {c : Char} (h : isBlank c = true) : isAlphanumeric c = false := by
  refine Bool.eq_false_iff.2 fun halnum => ?_
  rw [isBlank_of_isAlphanumeric halnum] at h
  cases h

theorem keepsOn_blank {c : Char} (h : isBlank c = true) : keepsOn c = false := by
  have hextends := extendsNumber_blank h c
  rw [extendsNumber, Bool.or_eq_false_iff] at hextends
  exact hextends.1

theorem numberTail_append_of_startsBlank (h : StartsBlank rest) (previous : Char) (cs : List Char) :
    numberTail previous (cs ++ rest) = ((numberTail previous cs).1, (numberTail previous cs).2 ++ rest) := by
  induction cs generalizing previous with
  | nil =>
    cases rest with
    | nil => rfl
    | cons b bs =>
      rw [List.nil_append, numberTail.eq_def previous (b :: bs)]
      dsimp only
      rw [extendsNumber_blank (h b rfl), if_neg Bool.false_ne_true]
      rfl
  | cons c cs ih =>
    rw [List.cons_append, numberTail, numberTail]
    split
    · rw [ih]
    · rfl

theorem span_append_of_startsBlank (h : StartsBlank rest) (cs : List Char) :
    (cs ++ rest).takeWhile isAlphanumeric = cs.takeWhile isAlphanumeric ∧
      (cs ++ rest).dropWhile isAlphanumeric = cs.dropWhile isAlphanumeric ++ rest := by
  have hrest : ∀ c, (cs.dropWhile isAlphanumeric ++ rest).head? = some c → isAlphanumeric c = false := by
    intro c hc
    have hstops := List.head?_dropWhile_not isAlphanumeric cs
    cases hdrop : cs.dropWhile isAlphanumeric with
    | nil =>
      rw [hdrop, List.nil_append] at hc
      exact isAlphanumeric_blank (h c hc)
    | cons d ds =>
      rw [hdrop, List.cons_append, List.head?_cons] at hc
      rw [hdrop, List.head?_cons] at hstops
      cases hc
      exact hstops
  have hsplit : cs ++ rest = cs.takeWhile isAlphanumeric ++ (cs.dropWhile isAlphanumeric ++ rest) := by
    rw [← List.append_assoc, List.takeWhile_append_dropWhile]
  rw [hsplit]
  exact span_append (fun c hc => List.mem_takeWhile_imp hc) hrest

/-! ## Two parts of a text -/

theorem scanFrom_blanks (h : IsGap gap) (position : Nat) (text : List Char) :
    scanFrom position (gap ++ text) = scanFrom position text := by
  induction gap with
  | nil => rfl
  | cons b bs ih =>
    rw [List.cons_append, scanFrom_blank (h b List.mem_cons_self), ih fun c hc => h c (List.mem_cons_of_mem b hc)]

theorem scanFrom_gap (h : IsGap gap) (position : Nat) : scanFrom position gap = .ok [] := by
  have hblanks := scanFrom_blanks h position []
  rwa [List.append_nil, scanFrom] at hblanks

theorem solid_cons_blank {c : Char} (h : isBlank c = true) (cs : List Char) : solid (c :: cs) = solid cs :=
  List.countP_cons_of_neg (by rw [h]; decide)

theorem solid_lexeme_append (h : ∀ c ∈ text, isBlank c = false) (rest : List Char) :
    solid (text ++ rest) = text.length + solid rest := by
  have hsolid := solid_lexeme h []
  rw [List.nil_append] at hsolid
  rw [solid_append, hsolid]
  exact congrArg (· + solid rest) (Nat.zero_add _)

theorem map_cons_bind (t : Token) (scanned more : Except ScanError (List Token)) :
    ((scanned >>= fun ts => more.map (ts ++ ·)).map (t :: ·)) =
      (scanned.map (t :: ·) >>= fun ts => more.map (ts ++ ·)) := by
  cases scanned with
  | error e => rfl
  | ok ts => cases more <;> rfl

/-- **A text is scanned up to a blank, and then from there.** -/
theorem scanFrom_append (h : StartsBlank rest) (position : Nat) (text : List Char) :
    scanFrom position (text ++ rest) =
      (scanFrom position text >>= fun ts => (scanFrom (position + solid text) rest).map (ts ++ ·)) := by
  have hspan {cs : List Char} := span_append_of_startsBlank h cs
  -- by the scan of the first part, whose numbers and names end in it as they do at the end of a text
  fun_induction scanFrom position text with
  | case1 position =>
    show scanFrom position rest = (scanFrom position rest).map id
    cases scanFrom position rest <;> rfl
  | case2 position c cs hblank ih =>
    rw [List.cons_append, scanFrom_blank hblank, ih, solid_cons_blank hblank]
  | case3 =>
    rename_i position c cs hblank hstart number hread _ ih
    have hsolid : solid (c :: cs) = number.length + solid (numberTail c cs).2 := by
      rw [← solid_lexeme_append (fits_number hstart hread).solid, List.cons_append, numberTail_append]
    rw [List.cons_append, scanFrom, if_neg hblank, if_pos hstart]
    dsimp only
    rw [numberTail_append_of_startsBlank h]
    dsimp only
    rw [if_pos hread, ih, hsolid, ← Nat.add_assoc]
    exact map_cons_bind _ _ _
  | case4 =>
    rename_i position c cs hblank hstart number hread
    rw [List.cons_append, scanFrom, if_neg hblank, if_pos hstart]
    dsimp only
    rw [numberTail_append_of_startsBlank h, if_neg hread]
    rfl
  | case5 =>
    rename_i position c cs hblank hstart hletter name _ ih
    have hsolid : solid (c :: cs) = name.length + solid (cs.dropWhile isAlphanumeric) := by
      rw [← solid_lexeme_append (fits_name hletter cs).solid, List.cons_append, List.takeWhile_append_dropWhile]
    rw [List.cons_append, scanFrom, if_neg hblank, if_neg hstart, if_pos hletter]
    dsimp only
    rw [hspan.1, hspan.2, ih, hsolid, ← Nat.add_assoc]
    exact map_cons_bind _ _ _
  | case6 position c cs hblank hstart hletter kind hkind ih =>
    have hfits : Piece.Fits (.lexeme kind [c]) cs := .symbol hkind
    have hsolid : solid (c :: cs) = 1 + solid cs := solid_lexeme_append hfits.solid cs
    rw [List.cons_append, scanFrom, if_neg hblank, if_neg hstart, if_neg hletter, hkind]
    dsimp only
    rw [ih, hsolid, ← Nat.add_assoc]
    exact map_cons_bind _ _ _
  | case7 position c cs hblank hstart hletter hkind =>
    rw [List.cons_append, scanFrom, if_neg hblank, if_neg hstart, if_neg hletter, hkind]
    rfl

def Token.moved (n : Nat) (t : Token) : Token := { t with position := t.position + n }

def ScanError.moved (n : Nat) (e : ScanError) : ScanError := { e with position := e.position + n }

def movedScan (n : Nat) : Except ScanError (List Token) → Except ScanError (List Token)
  | .ok ts   => .ok (ts.map (Token.moved n))
  | .error e => .error (e.moved n)

theorem movedScan_map_cons (n position : Nat) (kind : TokenKind) (text : List Char)
    (scanned : Except ScanError (List Token)) :
    movedScan n (scanned.map (⟨kind, text, position⟩ :: ·)) =
      (movedScan n scanned).map (⟨kind, text, (position + n : Nat)⟩ :: ·) := by
  cases scanned <;> rfl

/-- **Scanning from further on moves the positions on**, and nothing else. -/
theorem scanFrom_add (position n : Nat) (text : List Char) :
    scanFrom (position + n) text = movedScan n (scanFrom position text) := by
  fun_induction scanFrom position text with
  | case1 position => rw [scanFrom]; rfl
  | case2 position c cs hblank ih => rw [scanFrom_blank hblank, ih]
  | case3 =>
    rename_i position c cs hblank hstart number hread _ ih
    rw [scanFrom, if_neg hblank, if_pos hstart]
    dsimp only
    rw [if_pos hread, movedScan_map_cons, ← ih, Nat.add_right_comm]
  | case4 =>
    rename_i position c cs hblank hstart number hread
    rw [scanFrom, if_neg hblank, if_pos hstart]
    dsimp only
    rw [if_neg hread]
    rfl
  | case5 =>
    rename_i position c cs hblank hstart hletter name _ ih
    rw [scanFrom, if_neg hblank, if_neg hstart, if_pos hletter]
    dsimp only
    rw [movedScan_map_cons, ← ih, Nat.add_right_comm]
  | case6 position c cs hblank hstart hletter kind hkind ih =>
    rw [scanFrom, if_neg hblank, if_neg hstart, if_neg hletter, hkind]
    dsimp only
    rw [movedScan_map_cons, ← ih, Nat.add_right_comm]
  | case7 position c cs hblank hstart hletter hkind =>
    rw [scanFrom, if_neg hblank, if_neg hstart, if_neg hletter, hkind]
    rfl

theorem scan_append_gap (h : IsGap gap) (hne : gap ≠ []) (text rest : List Char) :
    scan (text ++ gap ++ rest) = (scan text >>= fun ts => (movedScan (solid text) (scan rest)).map (ts ++ ·)) := by
  rw [List.append_assoc, scan, scanFrom_append (h.startsBlank_append hne rest), scanFrom_blanks h, scanFrom_add]
  rfl

/-! ## Other gaps -/

def spaced : List (List Char) → List (List Char) → List Char → List Char
  | gap :: gaps, word :: words, last => gap ++ (word ++ spaced gaps words last)
  | _, _, last                       => last

/-- Gaps in the place of others, open wherever these are. -/
def Respaces (gaps gaps' : List (List Char)) : Prop :=
  List.Forall₂ (fun gap gap' => IsGap gap' ∧ (gap ≠ [] → gap' ≠ [])) gaps gaps'

theorem Piece.Fits.of_head (h : Fits piece rest)
    (hhead : ∀ c, rest'.head? = some c → isBlank c = true ∨ rest.head? = some c) :
    Fits piece rest' := by
  cases h with
  | blank hblank => exact .blank hblank
  | number h hrest => exact .number h fun c hc => (hhead c hc).elim keepsOn_blank (hrest c)
  | name h hrest => exact .name h fun c hc => (hhead c hc).elim isAlphanumeric_blank (hrest c)
  | symbol h => exact .symbol h

def Piece.word? : Piece → Option (List Char)
  | .blank _       => none
  | .lexeme _ text => some text

theorem map_text_tokensOf (before : List Char) (pieces : List Piece) :
    (tokensOf before pieces).map Token.text = pieces.filterMap Piece.word? := by
  induction pieces generalizing before with
  | nil => rfl
  | cons piece pieces ih =>
    cases piece with
    | blank c => rw [tokensOf, ih]; rfl
    | lexeme kind text => rw [tokensOf, List.map_cons, ih]; rfl

theorem Cut.word_ne_nil (h : Cut text pieces) : ∀ word ∈ pieces.filterMap Piece.word?, word ≠ [] := by
  induction h with
  | nil => exact List.forall_mem_nil _
  | @cons piece rest pieces hfits _ ih =>
    cases piece with
    | blank c => exact ih
    | lexeme kind word =>
      obtain ⟨c, cs, hword, -⟩ := hfits.head
      exact List.forall_mem_cons.2 ⟨List.ne_nil_of_mem (hword ▸ List.mem_cons_self), ih⟩

variable {gaps gaps' words : List (List Char)} {last' : List Char}

theorem head_spaced (h : Respaces gaps gaps') (hlast : IsGap last') (hwords : ∀ word ∈ words, word ≠ []) :
    ∀ c, (spaced gaps' words last').head? = some c → isBlank c = true ∨ (spaced gaps words last).head? = some c := by
  intro c hc
  cases h with
  | nil => exact .inl (hlast.startsBlank c hc)
  | @cons gap gap' gaps gaps' hgap _ =>
    cases words with
    | nil => exact .inl (hlast.startsBlank c hc)
    | cons word words =>
      by_cases hne : gap' = []
      · have hclosed : gap = [] := by_contra fun hopen => hgap.2 hopen hne
        obtain ⟨d, ds, rfl⟩ := List.exists_cons_of_ne_nil (hwords word List.mem_cons_self)
        subst hne hclosed
        exact .inr hc
      · exact .inl (hgap.1.startsBlank_append hne _ c hc)

/-- **A text that can be cut is its words and gaps, and is scanned alike with other gaps.** -/
theorem Cut.exists_spaced (h : Cut text pieces) : ∃ gaps last, gaps.length = (pieces.filterMap Piece.word?).length ∧
    (∀ gap ∈ gaps, IsGap gap) ∧ IsGap last ∧ spaced gaps (pieces.filterMap Piece.word?) last = text ∧
    ∀ gaps' last', Respaces gaps gaps' → IsGap last' → ∀ position,
      Abacus.scanFrom position (spaced gaps' (pieces.filterMap Piece.word?) last') = Abacus.scanFrom position text := by
  induction h with
  | nil =>
    refine ⟨[], [], rfl, List.forall_mem_nil _, List.forall_mem_nil _, rfl, fun gaps' last' hgaps hlast position => ?_⟩
    cases hgaps with
    | nil =>
      rw [Abacus.scanFrom]
      exact scanFrom_gap hlast position
  | @cons piece rest pieces hfits hrest ih =>
    obtain ⟨gaps, last, hlength, hgaps, hlast, htext, hscan⟩ := ih
    cases piece with
    | blank c =>
      cases hfits with
      | blank hblank =>
        have hword : (Piece.blank c :: pieces).filterMap Piece.word? = pieces.filterMap Piece.word? := rfl
        rw [hword]
        generalize pieces.filterMap Piece.word? = words at *
        -- the blank opens the next gap, or the last one
        cases gaps with
        | nil =>
          obtain rfl := List.eq_nil_of_length_eq_zero hlength.symm
          refine ⟨[], c :: last, rfl, hgaps, List.forall_mem_cons.2 ⟨hblank, hlast⟩, congrArg (c :: ·) htext, ?_⟩
          intro gaps' last' hgaps' hlast' position
          rw [hscan gaps' last' hgaps' hlast', Piece.text, List.singleton_append, scanFrom_blank hblank]
        | cons gap gaps =>
          obtain ⟨word, words, rfl⟩ := List.exists_cons_of_length_eq_add_one hlength.symm
          have hgap := List.forall_mem_cons.1 hgaps
          have hopened : IsGap (c :: gap) := List.forall_mem_cons.2 ⟨hblank, hgap.1⟩
          refine ⟨(c :: gap) :: gaps, last, hlength, List.forall_mem_cons.2 ⟨hopened, hgap.2⟩, hlast,
            congrArg (c :: ·) htext, ?_⟩
          intro gaps' last' hgaps' hlast' position
          obtain ⟨gap', gaps', hgap', hmore, rfl⟩ := List.forall₂_cons_left_iff.1 hgaps'
          have hopen : Respaces (gap :: gaps) (gap' :: gaps') :=
            .cons ⟨hgap'.1, fun _ => hgap'.2 (List.cons_ne_nil c gap)⟩ hmore
          rw [hscan _ last' hopen hlast', Piece.text, List.singleton_append, scanFrom_blank hblank]
    | lexeme kind word =>
      refine ⟨[] :: gaps, last, congrArg (· + 1) hlength, List.forall_mem_cons.2 ⟨List.forall_mem_nil _, hgaps⟩, hlast,
        congrArg (word ++ ·) htext, ?_⟩
      intro gaps' last' hgaps' hlast' position
      obtain ⟨gap', gaps', hgap', hmore, rfl⟩ := List.forall₂_cons_left_iff.1 hgaps'
      have hfits' := hfits.of_head fun c hc => htext ▸ head_spaced hmore hlast' hrest.word_ne_nil c hc
      show Abacus.scanFrom position (gap' ++ (word ++ spaced gaps' (pieces.filterMap Piece.word?) last')) = _
      rw [scanFrom_blanks hgap'.1, hfits'.scanFrom, hscan gaps' last' hmore hlast', Piece.text, hfits.scanFrom]

/-- **Blanks part texts cleanly.**  With blanks between two texts, the error of the first is that of the whole; if
the first is scanned, its tokens come first, and the tokens or the error of the second with positions moved on by
what is not blank in the first.  And a text that is scanned is its tokens with gaps between them: any other gaps,
open wherever these are, leave its tokens, with their positions, and what is parsed as they are. -/
theorem scan_blanks_between :
    (∀ a gap b : List Char, IsGap gap → gap ≠ [] →
      (∀ e, scan a = .error e → scan (a ++ gap ++ b) = .error e) ∧
      ∀ ts, scan a = .ok ts →
        (∀ us, scan b = .ok us →
          scan (a ++ gap ++ b) = .ok (ts ++ us.map fun u => ⟨u.kind, u.text, u.position + solid a⟩)) ∧
        ∀ e, scan b = .error e → scan (a ++ gap ++ b) = .error ⟨e.fault, e.position + solid a⟩) ∧
    ∀ text ts, scan text = .ok ts → ∃ gaps last, gaps.length = ts.length ∧ (∀ gap ∈ gaps, IsGap gap) ∧ IsGap last ∧
      spaced gaps (ts.map Token.text) last = text ∧
      ∀ gaps' last', Respaces gaps gaps' → IsGap last' →
        scan (spaced gaps' (ts.map Token.text) last') = .ok ts ∧
        Expr.parse (spaced gaps' (ts.map Token.text) last') = Expr.parse text := by
  refine ⟨fun a gap b hgap hne => ⟨fun e he => ?_, fun ts hts => ⟨fun us hus => ?_, fun e he => ?_⟩⟩,
    fun text ts h => ?_⟩
  · rw [scan_append_gap hgap hne, he]
    rfl
  · rw [scan_append_gap hgap hne, hts, hus]
    rfl
  · rw [scan_append_gap hgap hne, hts, he]
    rfl
  · obtain ⟨pieces, hcut, rfl⟩ : ∃ pieces, Cut text pieces ∧ tokensOf [] pieces = ts := cut_of_scanFrom h rfl
    obtain ⟨gaps, last, hlength, hgaps, hlast, htext, hscan⟩ := hcut.exists_spaced
    rw [← map_text_tokensOf []] at hlength htext hscan
    rw [List.length_map] at hlength
    refine ⟨gaps, last, hlength, hgaps, hlast, htext, fun gaps' last' hgaps' hlast' => ?_⟩
    have hsame : scan _ = scan text := hscan gaps' last' hgaps' hlast' 0
    exact ⟨hsame.trans h, by rw [Expr.parse, Expr.parse, hsame]⟩

/-- An exponent that breaks off at a blank, in the first text and in the second; and a text with one gap that gets
three. -/
theorem scan_blanks_between_brokenExponent :
    scan ("1e".toList ++ ['\t'] ++ "+5".toList) = .error ⟨.invalidNumber "1e".toList, 0⟩ ∧
    scan ("2 x".toList ++ [' ', '\n'] ++ "^1e+".toList) = .error ⟨.invalidNumber "1e+".toList, 3⟩ ∧
    scan ("2 x".toList ++ [' ', '\n'] ++ "^1".toList) =
      .ok [⟨.number, ['2'], 0⟩, ⟨.name, ['x'], 1⟩, ⟨.power, ['^'], 2⟩, ⟨.number, ['1'], 3⟩] ∧
    scan (spaced [['\t'], ['\n', ' '], [' ']] [['2'], ['*'], ['x']] [' ']) =
      .ok [⟨.number, ['2'], 0⟩, ⟨.times, ['*'], 1⟩, ⟨.name, ['x'], 2⟩] := by
  obtain ⟨hparts, hgaps⟩ := scan_blanks_between
  have hfront : scan "2 x".toList = .ok [⟨.number, ['2'], 0⟩, ⟨.name, ['x'], 1⟩] := by decide +kernel
  have hline : IsGap [' ', '\n'] := by decide
  obtain ⟨hok, herror⟩ := (hparts "2 x".toList [' ', '\n'] "^1".toList hline (by decide)).2 _ hfront
  refine ⟨(hparts _ ['\t'] _ (by decide) (by decide)).1 _ (by decide +kernel), ?_,
    hok [⟨.power, ['^'], 0⟩, ⟨.number, ['1'], 1⟩] (by decide +kernel), ?_⟩
  · exact ((hparts "2 x".toList _ _ hline (by decide)).2 _ hfront).2
      ⟨.invalidNumber "1e+".toList, 1⟩ (by decide +kernel)
  · have hscan :
        scan "2* x".toList = .ok [⟨.number, ['2'], 0⟩, ⟨.times, ['*'], 1⟩, ⟨.name, ['x'], 2⟩] := by decide +kernel
    obtain ⟨gaps, last, hlength, -, -, -, hother⟩ := hgaps _ _ hscan
    obtain ⟨first, second, third, rfl⟩ := List.length_eq_three.1 hlength
    refine (hother [['\t'], ['\n', ' '], [' ']] [' '] ?_ (by decide)).1
    exact .cons ⟨by decide, nofun⟩ (.cons ⟨by decide, nofun⟩ (.cons ⟨by decide, nofun⟩ .nil))

end Abacus
