import Mathlib
import Abacus.Files
/-!
# Where paths lead

A path that leads to a directory (`IsDir`) is one that every path below it passes through: what is in the directory is
found under its own name, as long as names and paths may be that long (`IsDir.locate_child`), and the directory that
it is in is found as well (`IsDir.parent`).  Directories that stay keep every way that there is (`locate_of_keeps`).
-/
namespace Abacus

/-! ## Texts of paths -/

namespace Path

theorem intercalate_concat {sep name : List Char} {names : List (List Char)} (h : names ≠ []) :
    List.intercalate sep (names ++ [name]) = List.intercalate sep names ++ sep ++ name := by
  induction names with
  | nil => exact absurd rfl h
  | cons first names ih =>
    cases names with
    | nil => simp [List.intercalate]
    | cons second names =>
      have hrest := ih (List.cons_ne_nil second names)
      simp only [List.intercalate, List.cons_append, List.intersperse_cons_cons, List.flatten_cons] at hrest ⊢
      rw [hrest]
      simp only [List.append_assoc]

theorem text_cons (first : List Char) (names : List (List Char)) : (Path.mk (first :: names)).text =
    if first = rootName then rootName ++ List.intercalate ['/'] names else List.intercalate ['/'] (first :: names) :=
  rfl

theorem text_child (p : Path) {name : List Char} (h : name ≠ rootName) :
    p.names = [] ∧ (p.child name).text = name ∨ (p.child name).text = p.text ++ name ∨
      (p.child name).text = p.text ++ '/' :: name := by
  obtain ⟨names⟩ := p
  cases names with
  | nil =>
    refine .inl ⟨rfl, ?_⟩
    rw [child, List.nil_append, text_cons, if_neg h]
    simp [List.intercalate]
  | cons first names =>
    rw [child, List.cons_append, text_cons, text_cons]
    by_cases hroot : first = rootName
    · rw [if_pos hroot, if_pos hroot]
      cases names with
      | nil => exact .inr (.inl (by simp [List.intercalate]))
      | cons second names =>
        rw [intercalate_concat (List.cons_ne_nil second names)]
        exact .inr (.inr (by simp))
    · rw [if_neg hroot, if_neg hroot, ← List.cons_append, intercalate_concat (List.cons_ne_nil first names)]
      exact .inr (.inr (by simp))

end Path

namespace Files

variable {fs fs' : Files} {p : Path} {place base : Place} {name : List Char}

theorem foldl_utf8Size (text : List Char) (n : Nat) :
    text.foldl (fun n c => n + c.utf8Size) n = n + byteLength text := by
  induction text generalizing n with
  | nil => rfl
  | cons c cs ih =>
    rw [byteLength, List.foldl_cons, List.foldl_cons, ih, ih (0 + c.utf8Size)]
    omega

theorem byteLength_append (text more : List Char) : byteLength (text ++ more) = byteLength text + byteLength more := by
  rw [byteLength, List.foldl_append]
  exact foldl_utf8Size more (byteLength text)

theorem textError?_eq_none_iff {text : List Char} :
    textError? text = none ↔ Char.ofNat 0 ∉ text ∧ byteLength text ≤ maxPathBytes := by
  rw [textError?]
  split
  · rename_i h
    simp [List.contains_iff_mem.1 h]
  · rename_i h
    rw [List.contains_iff_mem] at h
    split <;> simp [h] <;> omega

theorem textError?_parent (hname : name ≠ Path.rootName) (h : textError? (p.child name).text = none) :
    textError? p.text = none := by
  rcases Path.text_child p hname with ⟨hnames, -⟩ | htext | htext
  · rw [Path.text, hnames]
    rfl
  all_goals
    rw [htext, textError?_eq_none_iff, List.mem_append, not_or, byteLength_append] at h
    exact textError?_eq_none_iff.2 ⟨h.1.1, by omega⟩

theorem textError?_child (hname : name ≠ Path.rootName) (hnull : Char.ofNat 0 ∉ name) (h : textError? p.text = none) :
    textError? (p.child name).text = if maxPathBytes < byteLength (p.child name).text then some .tooLong else none := by
  have hnot : Char.ofNat 0 ∉ (p.child name).text := by
    have hslash : Char.ofNat 0 ≠ '/' := by decide
    have hp := (textError?_eq_none_iff.1 h).1
    rcases Path.text_child p hname with ⟨-, htext⟩ | htext | htext <;> rw [htext] <;> simp [*]
  rw [textError?, if_neg (by rwa [List.contains_iff_mem])]

/-! ## Ways -/

theorem walk_append (fs : Files) (base : Place) (names more : List (List Char)) :
    fs.walk base (names ++ more) = (fs.walk base names).bind fun place => fs.walk place more := by
  induction names generalizing base with
  | nil => rfl
  | cons name names ih =>
    rw [List.cons_append, walk, walk]
    split
    · split
      · exact ih _
      split
      · rfl
      · exact ih _
    all_goals rfl

def KeepsDirs (fs fs' : Files) : Prop := ∀ q, fs.node? q = some .dir → fs'.node? q = some .dir

theorem walk_of_keeps (h : KeepsDirs fs fs') {names : List (List Char)} (hwalk : fs.walk base names = .ok place) :
    fs'.walk base names = .ok place := by
  induction names generalizing base with
  | nil => exact hwalk
  | cons name names ih =>
    rw [walk] at hwalk ⊢
    split at hwalk
    · rename_i hdir
      rw [h base hdir]
      split at hwalk
      · rename_i hup
        exact (if_pos hup).trans (ih hwalk)
      split at hwalk
      · cases hwalk
      · rename_i hup hlong
        exact (if_neg hup).trans ((if_neg hlong).trans (ih hwalk))
    all_goals cases hwalk

theorem locate_eq_ok_iff : fs.locate p = .ok place ↔ textError? p.text = none ∧ fs.walk [] p.names = .ok place := by
  rw [locate]
  split <;> simp [*]

/-- **Where directories stay, a path leads to where it led.** -/
theorem locate_of_keeps (h : KeepsDirs fs fs') (hlocate : fs.locate p = .ok place) : fs'.locate p = .ok place := by
  obtain ⟨htext, hwalk⟩ := locate_eq_ok_iff.1 hlocate
  exact locate_eq_ok_iff.2 ⟨htext, walk_of_keeps h hwalk⟩

/-! ## Directories -/

theorem isRoot_concat (place : Place) (h : name ≠ Path.upName) : isRoot (place ++ [name]) = false := by
  simp [isRoot, h]

theorem isRoot_of_node? (h : fs.node? place ≠ some .dir) : isRoot place = false := by
  rw [node?] at h
  split at h
  · exact absurd rfl h
  · rename_i hroot
    exact Bool.eq_false_iff.2 hroot

/-- The path leads to a directory, at this place. -/
structure IsDir (fs : Files) (p : Path) (place : Place) : Prop where
  locate : fs.locate p = .ok place
  node : fs.node? place = some .dir

theorem IsDir.of_keeps (h : IsDir fs p place) (hkeeps : KeepsDirs fs fs') : IsDir fs' p place :=
  ⟨locate_of_keeps hkeeps h.locate, hkeeps place h.node⟩

def childError? (p : Path) (name : List Char) : Option FileError :=
  match textError? (p.child name).text with
  | some e => some e
  | none   => if maxNameBytes < byteLength name then some .tooLong else none

/-- **What is in a directory is found under its name**, unless that or the path is too long. -/
theorem IsDir.locate_child (h : IsDir fs p place) (hup : name ≠ Path.upName) :
    fs.locate (p.child name) = match childError? p name with
      | some e => .error e
      | none   => .ok (place ++ [name]) := by
  obtain ⟨-, hwalk⟩ := locate_eq_ok_iff.1 h.locate
  have hstep : fs.walk place [name] =
      if maxNameBytes < byteLength name then .error .tooLong else .ok (place ++ [name]) := by
    rw [walk, h.node]
    exact (if_neg hup).trans rfl
  rw [Files.locate, childError?]
  cases textError? (p.child name).text with
  | some e => rfl
  | none =>
    have hchild : fs.walk [] (p.child name).names = fs.walk place [name] := by
      rw [Path.child, walk_append, hwalk]
      rfl
    dsimp only
    rw [hchild, hstep]
    split <;> rfl

theorem IsDir.eq_of_locate_child {q : Place} (h : IsDir fs p place) (hup : name ≠ Path.upName)
    (hlocate : fs.locate (p.child name) = .ok q) : q = place ++ [name] := by
  rw [h.locate_child hup] at hlocate
  cases herror : childError? p name with
  | some e => rw [herror] at hlocate; cases hlocate
  | none =>
    rw [herror] at hlocate
    exact (Except.ok.inj hlocate).symm

theorem IsDir.parent (h : IsDir fs (p.child name) place) (hup : name ≠ Path.upName) (hroot : name ≠ Path.rootName) :
    ∃ above, IsDir fs p above ∧ place = above ++ [name] := by
  obtain ⟨htext, hwalk⟩ := locate_eq_ok_iff.1 h.locate
  rw [Path.child, walk_append] at hwalk
  cases habove : fs.walk [] p.names with
  | error e => rw [habove] at hwalk; cases hwalk
  | ok above =>
    have hstep : fs.walk above [name] = .ok place := by rwa [habove] at hwalk
    rw [walk] at hstep
    split at hstep
    · rename_i hdir
      rw [if_neg hup] at hstep
      split at hstep
      · cases hstep
      · cases hstep
        exact ⟨above, ⟨locate_eq_ok_iff.2 ⟨textError?_parent hroot htext, habove⟩, hdir⟩, rfl⟩
    all_goals cases hstep

theorem makeDir_of_isDir (h : IsDir fs p place) : fs.makeDir p = .ok fs := by
  rw [makeDir, h.locate]
  simp only [h.node]

theorem makeDirs_of_isDir (h : IsDir fs p place) : fs.makeDirs p = (fs, none) := by
  obtain ⟨htext, -⟩ := locate_eq_ok_iff.1 h.locate
  rw [makeDirs, htext]
  cases hnames : p.names.reverse with
  | nil => rfl
  | cons name names =>
    have hhere : (⟨(name :: names).reverse⟩ : Path) = p := by rw [← hnames, List.reverse_reverse]
    simp only [makeDirsUpward, hhere, makeDir_of_isDir h]

theorem keepsDirs_set {n : Node} (h : fs.node? place ≠ some .dir) : KeepsDirs fs (fs.set place n) := by
  intro q hq
  rw [node?_set fs place q n (isRoot_of_node? h)]
  split
  · rename_i heq
    exact absurd (heq ▸ hq) h
  · exact hq

theorem isDir_of_makeDir (h : fs.makeDir p = .ok fs') : ∃ place, IsDir fs' p place := by
  rw [makeDir] at h
  split at h
  · cases h
  · rename_i place hlocate
    split at h
    · rename_i hdir
      cases h
      exact ⟨place, hlocate, hdir⟩
    · cases h
    · rename_i hnone
      cases h
      have hnot : fs.node? place ≠ some .dir := by simp [hnone]
      refine ⟨place, locate_of_keeps (keepsDirs_set hnot) hlocate, ?_⟩
      rw [node?_set fs place place .dir (isRoot_of_node? hnot), if_pos rfl]

/-! ## What is added to files -/

def contents (fs : Files) (place : Place) : List UInt8 :=
  match fs.node? place with
  | some (.file bytes) => bytes
  | _                  => []

theorem writable_eq_ok_iff {old : List UInt8} : fs.writable p = .ok (place, old) ↔
    fs.locate p = .ok place ∧ fs.node? place ≠ some .dir ∧ fs.contents place = old := by
  rw [writable]
  cases fs.locate p with
  | error e => simp
  | ok place' =>
    cases hnode : fs.node? place' with
    | none => grind [contents]
    | some n => cases n <;> grind [contents]

theorem read_of_writable {bytes : List UInt8} (h : fs.writable p = .ok (place, bytes)) (hne : bytes ≠ []) :
    fs.read p = .ok bytes := by
  obtain ⟨hlocate, hnode, hcontents⟩ := writable_eq_ok_iff.1 h
  rw [read, stat, hlocate]
  dsimp only
  cases hthere : fs.node? place with
  | none =>
    rw [contents, hthere] at hcontents
    exact absurd hcontents.symm hne
  | some n =>
    cases n with
    | dir => exact absurd hthere hnode
    | file old =>
      rw [contents, hthere] at hcontents
      exact congrArg Except.ok hcontents

/-- **Adding to a file changes that file only**, and makes it if there is none. -/
theorem append_eq_ok_iff {bytes : List UInt8} : fs.append p bytes = .ok fs' ↔ ∃ place, fs.locate p = .ok place ∧
    fs.node? place ≠ some .dir ∧ fs' = fs.set place (.file (fs.contents place ++ bytes)) := by
  constructor
  · intro h
    rw [Files.append] at h
    cases hwritable : fs.writable p with
    | error e => rw [hwritable] at h; cases h
    | ok target =>
      obtain ⟨place, old⟩ := target
      rw [hwritable] at h
      cases h
      obtain ⟨hlocate, hnode, hold⟩ := writable_eq_ok_iff.1 hwritable
      exact ⟨place, hlocate, hnode, hold ▸ rfl⟩
  · rintro ⟨place, hlocate, hnode, rfl⟩
    rw [Files.append, writable_eq_ok_iff.2 ⟨hlocate, hnode, rfl⟩]
    rfl

/-- Bytes are added to the files at some places, and nothing else changes. -/
structure Adds (places : List Place) (bytes : List UInt8) (fs fs' : Files) : Prop where
  not_dir : ∀ place ∈ places, fs.node? place ≠ some .dir
  node : ∀ place, fs'.node? place =
    if place ∈ places then some (.file (fs.contents place ++ bytes)) else fs.node? place

variable {places : List Place} {bytes : List UInt8}

theorem Adds.contents (h : Adds places bytes fs fs') (place : Place) :
    fs'.contents place = if place ∈ places then fs.contents place ++ bytes else fs.contents place := by
  rw [Files.contents, h.node place]
  by_cases hmem : place ∈ places
  · rw [if_pos hmem, if_pos hmem]
  · rw [if_neg hmem, if_neg hmem]
    rfl

theorem Adds.node_eq_dir_iff (h : Adds places bytes fs fs') (place : Place) :
    fs'.node? place = some .dir ↔ fs.node? place = some .dir := by
  rw [h.node place]
  split
  · rename_i hmem
    simp [h.not_dir place hmem]
  · rfl

theorem Adds.keepsDirs (h : Adds places bytes fs fs') : KeepsDirs fs fs' := fun q => (h.node_eq_dir_iff q).2

theorem adds_of_append (h : fs.append p bytes = .ok fs') (hlocate : fs.locate p = .ok place) :
    Adds [place] bytes fs fs' := by
  obtain ⟨place', hlocate', hnode, rfl⟩ := append_eq_ok_iff.1 h
  obtain rfl : place' = place := Except.ok.inj (hlocate'.symm.trans hlocate)
  refine ⟨by simpa using hnode, fun q => ?_⟩
  rw [node?_set fs place' q _ (isRoot_of_node? hnode)]
  simp only [List.mem_singleton]
  split <;> simp [*]

theorem Adds.concat {fs'' : Files} (h : Adds places bytes fs fs') (hnext : Adds [place] bytes fs' fs'')
    (hplace : place ∉ places) : Adds (places ++ [place]) bytes fs fs'' := by
  have hold := h.contents place
  rw [if_neg hplace] at hold
  constructor
  · intro q hq
    rcases List.mem_append.1 hq with hq | hq
    · exact h.not_dir q hq
    · rw [List.mem_singleton] at hq
      subst hq
      exact fun hdir => hnext.not_dir q List.mem_cons_self ((h.node_eq_dir_iff q).2 hdir)
  · intro q
    rw [hnext.node q]
    by_cases hq : q = place
    · subst hq
      simp [hold]
    · simp only [List.mem_append, List.mem_singleton, hq, if_false, or_false]
      exact h.node q

theorem Adds.read_child {d : Place} (h : Adds places bytes fs fs') (hdir : fs.IsDir p d) (hup : name ≠ Path.upName)
    (hplace : d ++ [name] ∉ places) : fs'.read (p.child name) = fs.read (p.child name) := by
  have hnode := h.node (d ++ [name])
  rw [if_neg hplace] at hnode
  rw [read, read, stat, stat, hdir.locate_child hup, (hdir.of_keeps h.keepsDirs).locate_child hup]
  cases childError? p name with
  | some e => rfl
  | none =>
    dsimp only
    rw [hnode]

theorem Adds.writable (h : Adds places bytes fs fs') {old : List UInt8} (hwritable : fs.writable p = .ok (place, old)) :
    ∃ new, fs'.writable p = .ok (place, new) := by
  obtain ⟨hlocate, hnode, -⟩ := writable_eq_ok_iff.1 hwritable
  exact ⟨_, writable_eq_ok_iff.2 ⟨locate_of_keeps h.keepsDirs hlocate,
    fun hdir => hnode ((h.node_eq_dir_iff place).1 hdir), rfl⟩⟩

end Files

end Abacus
