import Abacus.Proofs.Token.DecimalLiteral
import Abacus.Proofs.Token.Scan
/-!
# What the scanner accepts

A text is scanned by cutting it, from left to right, into blanks and lexemes: literals, names and symbols, none of the
first two going on into what follows it (`Piece.Fits`).  A text has at most one such cut, and the tokens are the lexemes
of the cut, each at the number of characters before it that are not blank (`scan_iff_cut`).
-/
namespace Abacus

inductive Piece
  | blank (c : Char)
  | lexeme (kind : TokenKind) (text : List Char)
  deriving DecidableEq

def Piece.text : Piece → List Char
  | .blank c       => [c]
  | .lexeme _ text => text

/-- What may be cut off in front of the rest of a text: a blank, a literal or a name that has no longer one in its
place, or a symbol. -/
inductive Piece.Fits : Piece → List Char → Prop
  | blank {c : Char} {rest : List Char} (h : isBlank c = true) : Fits (.blank c) rest
  | number {text rest : List Char} (h : DecimalLiteral text) (hrest : ∀ c, rest.head? = some c → keepsOn c = false) :
      Fits (.lexeme .number text) rest
  | name {text rest : List Char} (h : isName text = true)
      (hrest : ∀ c, rest.head? = some c → isAlphanumeric c = false) : Fits (.lexeme .name text) rest
  | symbol {kind : TokenKind} {c : Char} {rest : List Char} (h : TokenKind.ofChar? c = some kind) :
      Fits (.lexeme kind [c]) rest

inductive Cut : List Char → List Piece → Prop
  | nil : Cut [] []
  | cons {piece : Piece} {rest : List Char} {pieces : List Piece} (hfits : piece.Fits rest) (hrest : Cut rest pieces) :
      Cut (piece.text ++ rest) (piece :: pieces)

def solid (text : List Char) : Nat := text.countP fun c => !isBlank c

/-- The lexemes of a cut, each at the number of characters before it that are not blank. -/
def tokensOf (before : List Char) : List Piece → List Token
  | []                          => []
  | .blank c :: pieces          => tokensOf (before ++ [c]) pieces
  | .lexeme kind text :: pieces => ⟨kind, text, solid before⟩ :: tokensOf (before ++ text) pieces

variable {kind : TokenKind} {text rest before : List Char} {piece : Piece} {pieces pieces' : List Piece}
  {ts : List Token}

/-! ## Lexemes have no blanks -/

theorem isBlank_of_isAlphanumeric {c : Char} (h : isAlphanumeric c = true) : isBlank c = false := by
  have hall : ∀ r ∈ letterlessRanges, ∀ n ∈ List.range' r.1 (r.2 + 1 - r.1),
      covers numericRanges n = true → 0x30 ≤ n ∧ n ≤ 0x39 := by decide +kernel
  refine Bool.eq_false_iff.2 fun hblank => ?_
  obtain ⟨r, hr, hlow, hhigh⟩ := letterless_of_isBlank hblank
  rw [isAlphanumeric, not_isLetter_of_letterless ⟨r, hr, hlow, hhigh⟩, Bool.false_or, isNumeric] at h
  have hdigit := hall r hr c.toNat (List.mem_range'_1.2 (by omega)) h
  simp only [isBlank, Bool.or_eq_true, Bool.and_eq_true, decide_eq_true_eq, beq_iff_eq] at hblank
  omega

theorem isBlank_of_isName (h : isName text = true) : ∀ c ∈ text, isBlank c = false := by
  cases text with
  | nil => exact fun _ hc => absurd hc List.not_mem_nil
  | cons d ds =>
    rw [isName, Bool.and_eq_true, List.all_eq_true] at h
    intro c hc
    rcases List.mem_cons.1 hc with rfl | hc
    · exact (isLetter_apart h.1).1
    · exact isBlank_of_isAlphanumeric (h.2 c hc)

theorem DecimalLiteral.isBlank (h : DecimalLiteral text) : ∀ c ∈ text, isBlank c = false :=
  fun c hc => isBlank_of_mem_literalChars (mem_literalChars h.isLiteral c hc)

theorem Piece.Fits.solid (h : Fits (.lexeme kind text) rest) : ∀ c ∈ text, isBlank c = false := by
  cases h with
  | number h _ => exact h.isBlank
  | name h _ => exact isBlank_of_isName h
  | symbol h => exact fun c hc => List.mem_singleton.1 hc ▸ (ofChar?_apart h).1

theorem solid_append (before text : List Char) : solid (before ++ text) = solid before + solid text :=
  List.countP_append

theorem solid_blank {c : Char} (h : isBlank c = true) (before : List Char) : solid (before ++ [c]) = solid before := by
  rw [solid_append, solid, solid, List.countP_singleton, h]
  rfl

theorem solid_lexeme (h : ∀ c ∈ text, isBlank c = false) (before : List Char) :
    solid (before ++ text) = solid before + text.length := by
  have hall : solid text = text.length := List.countP_eq_length.2 fun c hc => by rw [h c hc]; rfl
  rw [solid_append, hall]

/-! ## From tokens to a cut -/

theorem cut_of_map_cons {scanned : Except ScanError (List Token)} (hfits : Piece.Fits (.lexeme kind text) rest)
    (hscanned : ∀ {us}, scanned = .ok us → ∃ pieces, Cut rest pieces ∧ tokensOf (before ++ text) pieces = us)
    (h : scanned.map (⟨kind, text, solid before⟩ :: ·) = .ok ts) :
    ∃ pieces, Cut (text ++ rest) pieces ∧ tokensOf before pieces = ts := by
  cases scanned with
  | error err => cases h
  | ok us =>
    cases h
    obtain ⟨pieces, hcut, htokens⟩ := hscanned rfl
    exact ⟨.lexeme kind text :: pieces, .cons hfits hcut, by rw [tokensOf, htokens]⟩

theorem fits_number {c : Char} {cs : List Char} (hstart : startsNumber c = true)
    (hread : (readDouble? (c :: (numberTail c cs).1)).isSome) :
    Piece.Fits (.lexeme .number (c :: (numberTail c cs).1)) (numberTail c cs).2 := by
  have hliteral : isLiteral (c :: (numberTail c cs).1) = true := by
    rw [isLiteral, hstart, goesOn_numberTail, Bool.and_self]
  have hdecimal := decimalLiteral_iff_isLiteral.2 ⟨hliteral, hread⟩
  refine .number hdecimal fun d hd => ?_
  rw [← hdecimal.extendsNumber_last c d, List.getLastD_cons]
  exact head_numberTail hd

theorem fits_name {c : Char} (h : isLetter c = true) (cs : List Char) :
    Piece.Fits (.lexeme .name (c :: cs.takeWhile isAlphanumeric)) (cs.dropWhile isAlphanumeric) := by
  refine .name (isName_takeWhile h cs) fun d hd => ?_
  have hstops := List.head?_dropWhile_not isAlphanumeric cs
  rw [hd] at hstops
  exact hstops

theorem cut_of_scanFrom {position : Nat} (h : scanFrom position text = .ok ts) (hbefore : solid before = position) :
    ∃ pieces, Cut text pieces ∧ tokensOf before pieces = ts := by
  fun_induction scanFrom position text generalizing ts before with
  | case1 position =>
    cases h
    exact ⟨[], .nil, rfl⟩
  | case2 position c cs hblank ih =>
    obtain ⟨pieces, hcut, htokens⟩ := ih h ((solid_blank hblank before).trans hbefore)
    exact ⟨.blank c :: pieces, .cons (.blank hblank) hcut, htokens⟩
  | case3 =>
    rename_i position c cs _ hstart number hread _ ih
    subst hbefore
    have hfits := fits_number hstart hread
    rw [← numberTail_append c cs, ← List.cons_append]
    exact cut_of_map_cons hfits (fun hus => ih hus (solid_lexeme hfits.solid before)) h
  | case4 => cases h
  | case5 =>
    rename_i position c cs _ _ hletter name _ ih
    subst hbefore
    have hfits := fits_name hletter cs
    rw [← List.takeWhile_append_dropWhile (p := isAlphanumeric) (l := cs), ← List.cons_append]
    exact cut_of_map_cons hfits (fun hus => ih hus (solid_lexeme hfits.solid before)) h
  | case6 position c cs _ _ _ kind hkind ih =>
    subst hbefore
    have hfits : Piece.Fits (.lexeme kind [c]) cs := .symbol hkind
    exact cut_of_map_cons hfits (fun hus => ih hus (solid_lexeme hfits.solid before)) h
  | case7 => cases h

/-! ## From a cut to tokens -/

theorem Piece.Fits.scanFrom (h : Fits (.lexeme kind text) rest) (p : Nat) :
    scanFrom p (text ++ rest) = (scanFrom (p + text.length) rest).map (⟨kind, text, p⟩ :: ·) := by
  cases h with
  | number h hrest =>
    obtain ⟨hliteral, hread⟩ := decimalLiteral_iff_isLiteral.1 h
    exact scanFrom_literal hliteral hread (fun previous c hc => (h.extendsNumber_last previous c).trans (hrest c hc)) p
  | name h hrest => exact scanFrom_name h hrest p
  | symbol h => exact scanFrom_symbol h p rest

theorem Cut.scanFrom (h : Cut text pieces) (before : List Char) :
    scanFrom (solid before) text = .ok (tokensOf before pieces) := by
  induction h generalizing before with
  | nil => rw [Abacus.scanFrom, tokensOf]
  | @cons piece rest pieces hfits _ ih =>
    cases piece with
    | blank c =>
      cases hfits with
      | blank hblank =>
        rw [Piece.text, List.singleton_append, scanFrom_blank hblank, ← solid_blank hblank before, ih, tokensOf]
    | lexeme kind text =>
      rw [Piece.text, hfits.scanFrom, ← solid_lexeme hfits.solid before, ih, tokensOf]
      rfl

theorem Cut.flatMap_text (h : Cut text pieces) (before : List Char) :
    (tokensOf before pieces).flatMap Token.text = text.filter fun c => !isBlank c := by
  induction h generalizing before with
  | nil => rfl
  | @cons piece rest pieces hfits _ ih =>
    rw [List.filter_append]
    cases piece with
    | blank c =>
      cases hfits with
      | blank hblank => rw [tokensOf, ih, Piece.text, List.filter_singleton, hblank]; rfl
    | lexeme kind text =>
      have hall : text.filter (fun c => !isBlank c) = text :=
        List.filter_eq_self.2 fun c hc => by rw [hfits.solid c hc]; rfl
      rw [tokensOf, List.flatMap_cons, ih, Piece.text, hall]

/-! ## One cut -/

theorem Piece.Fits.head (h : piece.Fits rest) :
    ∃ c cs, piece.text = c :: cs ∧ (isBlank c = true ↔ piece = .blank c) := by
  cases piece with
  | blank c =>
    cases h with
    | blank hblank => exact ⟨c, [], rfl, by simp [hblank]⟩
  | lexeme kind text =>
    cases htext : text with
    | nil =>
      subst htext
      cases h with
      | number h _ => exact absurd h.isLiteral Bool.false_ne_true
      | name h _ => exact absurd h Bool.false_ne_true
    | cons c cs =>
      subst htext
      have hc := h.solid c List.mem_cons_self
      exact ⟨c, cs, rfl, by simp [hc]⟩

theorem Cut.eq_nil (h : Cut [] pieces) : pieces = [] := by
  generalize htext : ([] : List Char) = text at h
  cases h with
  | nil => rfl
  | cons hfits _ =>
    obtain ⟨c, cs, hc, -⟩ := hfits.head
    rw [hc] at htext
    cases htext

theorem Cut.of_ne_nil (h : Cut text pieces) (hne : text ≠ []) : ∃ piece rest more, pieces = piece :: more ∧
    text = piece.text ++ rest ∧ piece.Fits rest ∧ Cut rest more := by
  cases h with
  | nil => exact absurd rfl hne
  | cons hfits hrest => exact ⟨_, _, _, rfl, rfl, hfits, hrest⟩

theorem Cut.eq_of_tokensOf (h : Cut text pieces) (h' : Cut text pieces') (before : List Char)
    (htokens : tokensOf before pieces = tokensOf before pieces') : pieces = pieces' := by
  induction h generalizing pieces' before with
  | nil => exact h'.eq_nil.symm
  | @cons piece rest pieces hfits _ ih =>
    obtain ⟨c, cs, hc, hblank⟩ := hfits.head
    obtain ⟨piece', rest', pieces', rfl, htext, hfits', hrest'⟩ := h'.of_ne_nil (by simp [hc])
    obtain ⟨c', cs', hc', hblank'⟩ := hfits'.head
    -- the first character of the text is that of both pieces
    obtain rfl : c = c' := by rw [hc, hc'] at htext; exact (List.cons.inj htext).1
    have hsame : piece = piece' := by
      by_cases hb : isBlank c = true
      · rw [hblank.1 hb, hblank'.1 hb]
      cases piece with
      | blank d => cases hc; exact absurd (hblank.2 rfl) hb
      | lexeme kind text =>
        cases piece' with
        | blank d => cases hc'; exact absurd (hblank'.2 rfl) hb
        | lexeme kind' text' =>
          rw [tokensOf, tokensOf] at htokens
          injection (List.cons.inj htokens).1 with hkind htext
          rw [hkind, htext]
    subst hsame
    obtain rfl : rest = rest' := List.append_cancel_left htext
    cases piece with
    | blank d => rw [ih hrest' (before ++ [d]) htokens]
    | lexeme kind text => rw [ih hrest' (before ++ text) (List.cons.inj htokens).2]

theorem Cut.unique (h : Cut text pieces) (h' : Cut text pieces') : pieces = pieces' :=
  h.eq_of_tokensOf h' [] (Except.ok.inj ((h.scanFrom []).symm.trans (h'.scanFrom [])))

/-- **The scanner accepts just the texts that can be cut into blanks and lexemes**, in the one way there is, and answers
the lexemes.  The tokens have the characters of the text that are not blank, and its numbers are literals that can be
read, spelt with ASCII digits, points, exponent marks and signs. -/
theorem scan_iff_cut (text : List Char) :
    (∀ ts, scan text = .ok ts ↔ ∃ pieces, Cut text pieces ∧ tokensOf [] pieces = ts) ∧
    (∀ pieces pieces', Cut text pieces → Cut text pieces' → pieces = pieces') ∧
    ∀ ts, scan text = .ok ts → ts.flatMap Token.text = text.filter (fun c => !isBlank c) ∧
      ∀ t ∈ ts, t.kind = .number →
        DecimalLiteral t.text ∧ (readDouble? t.text).isSome ∧ ∀ c ∈ t.text, c ∈ literalChars := by
  have hscan : ∀ ts, scan text = .ok ts ↔ ∃ pieces, Cut text pieces ∧ tokensOf [] pieces = ts := by
    intro ts
    constructor
    · intro h
      exact cut_of_scanFrom h rfl
    · rintro ⟨pieces, hcut, rfl⟩
      exact hcut.scanFrom []
  refine ⟨hscan, fun pieces pieces' h h' => h.unique h', fun ts h => ⟨?_, fun t ht hk => ?_⟩⟩
  · obtain ⟨pieces, hcut, rfl⟩ := (hscan ts).1 h
    exact hcut.flatMap_text []
  · have hliteral := (lexical_of_scan h t ht).literal hk
    exact ⟨decimalLiteral_iff_isLiteral.2 hliteral, hliteral.2, mem_literalChars hliteral.1⟩

/-- A number that ends in a point, a sign that is no exponent's, a name with a digit in it and blanks of two sorts. -/
def mixedText : List Char := "5.-x1\t* .5e-3".toList

theorem scan_iff_cut_mixedText : ∃ pieces, Cut mixedText pieces ∧ scan mixedText = .ok (tokensOf [] pieces) ∧
    (tokensOf [] pieces).map Token.position = [0, 2, 3, 5, 6] ∧ (∀ pieces', Cut mixedText pieces' → pieces' = pieces) ∧
    (tokensOf [] pieces).flatMap Token.text = "5.-x1*.5e-3".toList := by
  have hscan : scan mixedText = .ok [⟨.number, "5.".toList, 0⟩, ⟨.minus, ['-'], 2⟩, ⟨.name, "x1".toList, 3⟩,
      ⟨.times, ['*'], 5⟩, ⟨.number, ".5e-3".toList, 6⟩] := by decide +kernel
  obtain ⟨hiff, hone, htokens⟩ := scan_iff_cut mixedText
  obtain ⟨pieces, hcut, heq⟩ := (hiff _).1 hscan
  refine ⟨pieces, hcut, heq ▸ hscan, by rw [heq]; rfl, fun pieces' h' => hone pieces' pieces h' hcut, ?_⟩
  rw [heq, (htokens _ hscan).1]
  decide +kernel

end Abacus
