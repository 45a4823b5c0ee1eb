import Abacus.Proofs.Token.Literal
/-!
# The scanner, token by token

The first character of a text decides what is scanned, and the four classes of first characters are apart: no letter is
a blank or starts a number (`isLetter_apart`).  So a literal, a name or a single character at the front of a text is one
token, as long as the text after it does not go on with it, and texts put side by side are scanned side by side
(`Spells`).  The other way round, all tokens that are scanned are `Lexical`.
-/
namespace Abacus

def isName : List Char → Bool
  | []      => false
  | c :: cs => isLetter c && cs.all isAlphanumeric

/-! ## First characters -/

def letterlessRanges : List (Nat × Nat) :=
  [(9, 13), (0x1C, 0x20), (0x2E, 0x2E), (0x30, 0x39), (0x85, 0x85), (0xA0, 0xA0), (0x1680, 0x1680), (0x2000, 0x200A),
   (0x2028, 0x2029), (0x202F, 0x202F), (0x205F, 0x205F), (0x3000, 0x3000)]

theorem letterless_of_isBlank {c : Char} (h : isBlank c = true) :
    ∃ r ∈ letterlessRanges, r.1 ≤ c.toNat ∧ c.toNat ≤ r.2 := by
  simp only [isBlank, Bool.or_eq_true, Bool.and_eq_true, decide_eq_true_eq, beq_iff_eq] at h
  simp only [letterlessRanges, List.mem_cons, List.not_mem_nil, or_false, exists_eq_or_imp, exists_eq_left]
  omega

theorem letterless_of_starts {c : Char} (h : startsNumber c = true) :
    ∃ r ∈ letterlessRanges, r.1 ≤ c.toNat ∧ c.toNat ≤ r.2 := by
  have hall : literalChars.all (fun d => !startsNumber d ||
      letterlessRanges.any fun r => decide (r.1 ≤ d.toNat ∧ d.toNat ≤ r.2)) = true := by decide
  have hc := passes_of_literalChars hall (mem_literalChars_of_starts h)
  rw [h, Bool.not_true, Bool.false_or, List.any_eq_true] at hc
  obtain ⟨r, hr, hin⟩ := hc
  exact ⟨r, hr, of_decide_eq_true hin⟩

theorem not_isLetter_of_letterless {c : Char} (h : ∃ r ∈ letterlessRanges, r.1 ≤ c.toNat ∧ c.toNat ≤ r.2) :
    isLetter c = false := by
  have hall : ∀ r ∈ letterlessRanges, ∀ n ∈ List.range' r.1 (r.2 + 1 - r.1), covers letterRanges n = false := by
    decide +kernel
  obtain ⟨r, hr, hlow, hhigh⟩ := h
  exact hall r hr c.toNat (List.mem_range'_1.2 (by omega))

theorem isLetter_apart {c : Char} (h : isLetter c = true) : isBlank c = false ∧ startsNumber c = false := by
  have hnone : ¬ ∃ r ∈ letterlessRanges, r.1 ≤ c.toNat ∧ c.toNat ≤ r.2 :=
    fun hc => Bool.eq_false_iff.1 (not_isLetter_of_letterless hc) h
  constructor
  · exact Bool.eq_false_iff.2 fun hc => hnone (letterless_of_isBlank hc)
  · exact Bool.eq_false_iff.2 fun hc => hnone (letterless_of_starts hc)

theorem isBlank_of_mem_literalChars {c : Char} (h : c ∈ literalChars) : isBlank c = false := by
  have hall : literalChars.all (fun d => !isBlank d) = true := by decide
  simpa using passes_of_literalChars hall h

theorem isBlank_of_starts {c : Char} (h : startsNumber c = true) : isBlank c = false :=
  isBlank_of_mem_literalChars (mem_literalChars_of_starts h)

def symbols : List Char := "+-*/^(),".toList

theorem mem_symbols {c : Char} {kind : TokenKind} (h : TokenKind.ofChar? c = some kind) : c ∈ symbols := by
  unfold TokenKind.ofChar? at h
  split at h
  all_goals first | decide | cases h

theorem ofChar?_apart {c : Char} {kind : TokenKind} (h : TokenKind.ofChar? c = some kind) :
    isBlank c = false ∧ startsNumber c = false ∧ isLetter c = false := by
  have hall : symbols.all (fun d => !isBlank d && (!startsNumber d && !isLetter d)) = true := by decide +kernel
  simpa using List.all_eq_true.1 hall c (mem_symbols h)

theorem ofChar?_kind {c : Char} {kind : TokenKind} (h : TokenKind.ofChar? c = some kind) :
    kind ≠ .number ∧ kind ≠ .name := by
  have hall : symbols.all (fun d => (TokenKind.ofChar? d).all fun k => decide (k ≠ .number ∧ k ≠ .name)) = true := by
    decide
  have hc := List.all_eq_true.1 hall c (mem_symbols h)
  rw [h] at hc
  exact of_decide_eq_true hc

/-! ## One token -/

theorem scanFrom_blank {c : Char} (h : isBlank c = true) (p : Nat) (cs : List Char) :
    scanFrom p (c :: cs) = scanFrom p cs := by
  rw [scanFrom, if_pos h]

theorem scanFrom_symbol {c : Char} {kind : TokenKind} (h : TokenKind.ofChar? c = some kind) (p : Nat)
    (cs : List Char) : scanFrom p (c :: cs) = (scanFrom (p + 1) cs).map (⟨kind, [c], p⟩ :: ·) := by
  obtain ⟨hblank, hnumber, hletter⟩ := ofChar?_apart h
  rw [scanFrom, hblank, hnumber, hletter, h]
  rfl

theorem scanFrom_literal {text rest : List Char} (h : isLiteral text = true) (hread : (readDouble? text).isSome)
    (hrest : StopsNumber text rest) (p : Nat) :
    scanFrom p (text ++ rest) = (scanFrom (p + text.length) rest).map (⟨.number, text, p⟩ :: ·) := by
  cases text with
  | nil => exact absurd h Bool.false_ne_true
  | cons c cs =>
    rw [isLiteral, Bool.and_eq_true] at h
    rw [List.cons_append, scanFrom, isBlank_of_starts h.1, h.1]
    simp only [Bool.false_eq_true, if_false, if_true]
    rw [numberTail_of_goesOn h.2 fun d hd => List.getLastD_cons ▸ hrest c d hd, if_pos hread]

theorem scanFrom_name {name rest : List Char} (h : isName name = true)
    (hrest : ∀ c, rest.head? = some c → isAlphanumeric c = false) (p : Nat) :
    scanFrom p (name ++ rest) = (scanFrom (p + name.length) rest).map (⟨.name, name, p⟩ :: ·) := by
  cases name with
  | nil => exact absurd h Bool.false_ne_true
  | cons c cs =>
    rw [isName, Bool.and_eq_true, List.all_eq_true] at h
    obtain ⟨hblank, hnumber⟩ := isLetter_apart h.1
    obtain ⟨htake, hdrop⟩ := span_append h.2 hrest
    rw [List.cons_append, scanFrom, hblank, hnumber, h.1]
    simp only [Bool.false_eq_true, if_false, if_true]
    rw [htake, hdrop]

/-! ## Texts side by side -/

def delimiters : List Char := " (),".toList

def Delimited (rest : List Char) : Prop := ∀ c, rest.head? = some c → c ∈ delimiters

/-- Before a delimiter, the text is scanned from one position to another as these tokens. -/
def Spells (text : List Char) (p : Nat) (ts : List Token) (q : Nat) : Prop :=
  ∀ rest, Delimited rest → scanFrom p (text ++ rest) = (scanFrom q rest).map (ts ++ ·)

theorem Delimited.stopsNumber {rest : List Char} (h : Delimited rest) (text : List Char) : StopsNumber text rest := by
  -- after an exponent mark a number goes on with whatever it goes on with elsewhere
  intro previous c hc
  have hall : delimiters.all (fun d => !extendsNumber 'e' d) = true := by decide
  have hmore : extendsNumber (text.getLastD previous) c = true → extendsNumber 'e' c = true := by
    simp only [extendsNumber, Bool.or_eq_true, Bool.and_eq_true]
    exact fun hor => hor.imp_right fun hsign => ⟨hsign.1, rfl⟩
  have hstop := List.all_eq_true.1 hall c (h c hc)
  exact Bool.eq_false_iff.2 fun htrue => absurd (hmore htrue) (by simpa using hstop)

theorem Delimited.stopsName {rest : List Char} (h : Delimited rest) :
    ∀ c, rest.head? = some c → isAlphanumeric c = false := by
  have hall : delimiters.all (fun d => !isAlphanumeric d) = true := by decide +kernel
  intro c hc
  simpa using List.all_eq_true.1 hall c (h c hc)

theorem Spells.literal {text : List Char} (h : isLiteral text = true) (hread : (readDouble? text).isSome) (p : Nat) :
    Spells text p [⟨.number, text, p⟩] (p + text.length) :=
  fun _ hrest => scanFrom_literal h hread (hrest.stopsNumber text) p

theorem Spells.name {name : List Char} (h : isName name = true) (p : Nat) :
    Spells name p [⟨.name, name, p⟩] (p + name.length) :=
  fun _ hrest => scanFrom_name h hrest.stopsName p

-- A symbol is one token whatever follows it, so the text after it need not start with a delimiter.
theorem Spells.symbol {c : Char} {kind : TokenKind} (h : TokenKind.ofChar? c = some kind) {text : List Char} {p q : Nat}
    {ts : List Token} (htext : Spells text (p + 1) ts q) : Spells (c :: text) p (⟨kind, [c], p⟩ :: ts) q := by
  intro rest hrest
  rw [List.cons_append, scanFrom_symbol h, htext rest hrest]
  cases scanFrom q rest <;> rfl

theorem Spells.blank {text : List Char} {p q : Nat} {ts : List Token} (htext : Spells text p ts q) :
    Spells (' ' :: text) p ts q := by
  intro rest hrest
  rw [List.cons_append, scanFrom_blank rfl, htext rest hrest]

theorem Spells.nil (p : Nat) : Spells [] p [] p := by
  intro rest _
  rw [List.nil_append]
  cases scanFrom p rest <;> rfl

theorem Spells.append {c : Char} {text more : List Char} {p q r : Nat} {ts us : List Token} (htext : Spells text p ts q)
    (hc : c ∈ delimiters) (hmore : Spells (c :: more) q us r) : Spells (text ++ c :: more) p (ts ++ us) r := by
  intro rest hrest
  have hdelimited : Delimited (c :: more ++ rest) := by
    intro d hd
    cases hd
    exact hc
  rw [List.append_assoc, htext _ hdelimited, hmore rest hrest]
  cases scanFrom r rest with
  | error err => rfl
  | ok vs => simp only [Except.map, List.append_assoc]

theorem Spells.around {left right : List Char} {c : Char} {kind : TokenKind} {p q r : Nat} {ts us : List Token}
    (hc : TokenKind.ofChar? c = some kind) (hleft : Spells left p ts q) (hright : Spells right (q + 1) us r) :
    Spells (left ++ ' ' :: c :: ' ' :: right) p (ts ++ ⟨kind, [c], q⟩ :: us) r :=
  hleft.append (by decide) (.blank (.symbol hc (.blank hright)))

theorem Spells.scan {text : List Char} {ts : List Token} {q : Nat} (h : Spells text 0 ts q) : scan text = .ok ts := by
  have hall := h [] (by rintro c ⟨⟩)
  rw [List.append_nil, scanFrom] at hall
  rw [Abacus.scan, hall]
  simp only [Except.map, List.append_nil]

/-! ## Scanned tokens -/

/-- Numbers are literals that can be read, names are names. -/
structure Lexical (t : Token) : Prop where
  literal : t.kind = .number → isLiteral t.text = true ∧ (readDouble? t.text).isSome
  name : t.kind = .name → isName t.text = true

theorem isName_takeWhile {c : Char} (h : isLetter c = true) (cs : List Char) :
    isName (c :: cs.takeWhile isAlphanumeric) = true := by
  rw [isName, h, Bool.true_and, List.all_takeWhile]

theorem lexical_of_map_cons {t : Token} {scanned : Except ScanError (List Token)} {ts : List Token} (ht : Lexical t)
    (hscanned : ∀ {us}, scanned = .ok us → ∀ u ∈ us, Lexical u) (h : scanned.map (t :: ·) = .ok ts) :
    ∀ u ∈ ts, Lexical u := by
  cases scanned with
  | error err => cases h
  | ok us =>
    cases h
    intro u hu
    rcases List.mem_cons.1 hu with rfl | hu
    · exact ht
    · exact hscanned rfl u hu

/-- **All tokens that are scanned are lexical.** -/
theorem lexical_of_scanFrom {p : Nat} {cs : List Char} {ts : List Token} (h : scanFrom p cs = .ok ts) :
    ∀ t ∈ ts, Lexical t := by
  fun_induction scanFrom p cs generalizing ts with
  | case1 p =>
    cases h
    exact fun t ht => absurd ht List.not_mem_nil
  | case2 p c cs hblank ih => exact ih h
  | case3 =>
    rename_i p c cs _ hstart text hread _ ih
    have hliteral : isLiteral text = true := by
      change isLiteral (c :: (numberTail c cs).1) = true
      rw [isLiteral, hstart, goesOn_numberTail, Bool.and_self]
    have ht : Lexical ⟨.number, text, p⟩ := ⟨fun _ => ⟨hliteral, hread⟩, fun hk => (by cases hk)⟩
    exact lexical_of_map_cons ht ih h
  | case4 => cases h
  | case5 =>
    rename_i p c cs _ _ hletter text _ ih
    have ht : Lexical ⟨.name, text, p⟩ := ⟨fun hk => (by cases hk), fun _ => isName_takeWhile hletter cs⟩
    exact lexical_of_map_cons ht ih h
  | case6 p c cs _ _ _ kind hkind ih =>
    have hneither := ofChar?_kind hkind
    have ht : Lexical ⟨kind, [c], p⟩ := ⟨fun hk => absurd hk hneither.1, fun hk => absurd hk hneither.2⟩
    exact lexical_of_map_cons ht ih h
  | case7 => cases h

theorem lexical_of_scan {text : List Char} {ts : List Token} (h : scan text = .ok ts) : ∀ t ∈ ts, Lexical t :=
  lexical_of_scanFrom h

end Abacus
