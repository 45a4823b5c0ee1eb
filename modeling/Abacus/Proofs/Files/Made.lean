import Abacus.Proofs.Files.Walk
/-!
# What making directories and adding to files leaves alone

Making directories, whether it succeeds or stops half way, makes them where nothing was and does nothing else
(`makesDirs_makeDirs`).  A store where directories have been made and bytes have been added to some files (`Extends`)
has everything else as before: whatever could be read is the start of what can be read (`Extends.read`).
-/
namespace Abacus.Files

variable {fs fs' fs'' : Files} {p : Path} {place : Place} {places : List Place} {bytes old : List UInt8}

/-! ## Directories -/

/-- Directories are made where nothing was, and nothing else changes. -/
def MakesDirs (fs fs' : Files) : Prop :=
  ∀ place, fs'.node? place = fs.node? place ∨ fs.node? place = none ∧ fs'.node? place = some .dir

theorem MakesDirs.refl (fs : Files) : MakesDirs fs fs := fun _ => .inl rfl

theorem MakesDirs.trans (h : MakesDirs fs fs') (hmore : MakesDirs fs' fs'') : MakesDirs fs fs'' := by
  intro place
  rcases hmore place with heq | ⟨hnone, hdir⟩
  · rw [heq]
    exact h place
  · rcases h place with heq | ⟨-, hdir'⟩
    · exact .inr ⟨heq ▸ hnone, hdir⟩
    · rw [hnone] at hdir'
      cases hdir'

theorem MakesDirs.node_of_isSome (h : MakesDirs fs fs') {n : Node} (hnode : fs.node? place = some n) :
    fs'.node? place = some n := by
  rcases h place with heq | ⟨hnone, -⟩
  · rw [heq, hnode]
  · rw [hnone] at hnode
    cases hnode

theorem MakesDirs.keepsDirs (h : MakesDirs fs fs') : KeepsDirs fs fs' := fun _ => h.node_of_isSome

theorem MakesDirs.contents (h : MakesDirs fs fs') (place : Place) : fs'.contents place = fs.contents place := by
  rw [Files.contents, Files.contents]
  rcases h place with heq | ⟨hnone, hdir⟩
  · rw [heq]
  · rw [hnone, hdir]

theorem makesDirs_makeDir (h : fs.makeDir p = .ok fs') : MakesDirs fs fs' := by
  rw [makeDir] at h
  split at h
  · cases h
  · split at h
    · cases h
      exact .refl fs
    · cases h
    · rename_i hnone
      cases h
      intro place
      have hroot := isRoot_of_node? (ne_of_eq_of_ne hnone (Option.some_ne_none Node.dir).symm)
      rw [node?_set fs _ place .dir hroot]
      split
      · rename_i heq
        exact .inr ⟨heq ▸ hnone, rfl⟩
      · exact .inl rfl

theorem makesDirs_makeDirsUpward (fs : Files) (names : List (List Char)) :
    MakesDirs fs (fs.makeDirsUpward names).1 := by
  induction names with
  | nil => exact .refl fs
  | cons name names ih =>
    rw [makeDirsUpward]
    split
    · exact makesDirs_makeDir ‹_›
    · -- the way was missing, so what it takes is made before the directory itself
      generalize fs.makeDirsUpward names = made at ih ⊢
      obtain ⟨fs₁, _ | e⟩ := made
      · dsimp only
        split
        · exact ih.trans (makesDirs_makeDir ‹_›)
        · exact ih
      · exact ih
    · exact .refl fs

/-- **Making directories changes nothing that is there**, also when it stops half way. -/
theorem makesDirs_makeDirs (fs : Files) (p : Path) : MakesDirs fs (fs.makeDirs p).1 := by
  rw [makeDirs]
  split
  · exact .refl fs
  · exact makesDirs_makeDirsUpward fs _

theorem isDir_of_makeDirsUpward {names : List (List Char)} (h : fs.makeDirsUpward names = (fs', none)) :
    ∃ place, IsDir fs' ⟨names.reverse⟩ place := by
  cases names with
  | nil =>
    cases h
    exact ⟨[], rfl, rfl⟩
  | cons name names =>
    rw [makeDirsUpward] at h
    split at h
    · cases h
      exact isDir_of_makeDir ‹_›
    · split at h
      · cases h
      · split at h
        · cases h
          exact isDir_of_makeDir ‹_›
        · cases h
    · cases h

theorem isDir_of_makeDirs (h : fs.makeDirs p = (fs', none)) : ∃ place, IsDir fs' p place := by
  rw [makeDirs] at h
  split at h
  · cases h
  · obtain ⟨place, hplace⟩ := isDir_of_makeDirsUpward h
    rw [List.reverse_reverse] at hplace
    exact ⟨place, hplace⟩

/-! ## Files that grow -/

/-- Bytes are added to the files at some places, a missing file counting as empty; other than that, directories are made
where nothing was. -/
structure Extends (places : List Place) (bytes : List UInt8) (fs fs' : Files) : Prop where
  not_dir : ∀ place ∈ places, fs.node? place ≠ some .dir
  grown : ∀ place ∈ places, fs'.node? place = some (.file (fs.contents place ++ bytes))
  others : ∀ place ∉ places, fs'.node? place = fs.node? place ∨ fs.node? place = none ∧ fs'.node? place = some .dir

theorem MakesDirs.extends (h : MakesDirs fs fs') (bytes : List UInt8) : Extends [] bytes fs fs' :=
  ⟨List.forall_mem_nil _, List.forall_mem_nil _, fun place _ => h place⟩

theorem Extends.keepsDirs (h : Extends places bytes fs fs') : KeepsDirs fs fs' := by
  intro place hdir
  by_cases hplace : place ∈ places
  · exact absurd hdir (h.not_dir place hplace)
  · rcases h.others place hplace with heq | ⟨hnone, -⟩
    · rw [heq, hdir]
    · rw [hnone] at hdir
      cases hdir

theorem Extends.contents (h : Extends places bytes fs fs') (place : Place) :
    fs'.contents place = fs.contents place ++ if place ∈ places then bytes else [] := by
  by_cases hplace : place ∈ places
  · rw [if_pos hplace, Files.contents, h.grown place hplace]
  · rw [if_neg hplace, List.append_nil, Files.contents, Files.contents]
    rcases h.others place hplace with heq | ⟨hnone, hdir⟩
    · rw [heq]
    · rw [hnone, hdir]

theorem Extends.makesDirs (h : Extends places bytes fs fs') (hmore : MakesDirs fs' fs'') :
    Extends places bytes fs fs'' := by
  refine ⟨h.not_dir, fun place hplace => hmore.node_of_isSome (h.grown place hplace), fun place hplace => ?_⟩
  rcases hmore place with heq | ⟨hnone, hdir⟩
  · rw [heq]
    exact h.others place hplace
  · rcases h.others place hplace with heq | ⟨-, hdir'⟩
    · exact .inr ⟨heq ▸ hnone, hdir⟩
    · rw [hnone] at hdir'
      cases hdir'

theorem Extends.concat (h : Extends places bytes fs fs') (hmore : Adds [place] bytes fs' fs'')
    (hplace : place ∉ places) :
    Extends (places ++ [place]) bytes fs fs'' := by
  have hold := h.contents place
  rw [if_neg hplace, List.append_nil] at hold
  have hsame {q : Place} (hq : q ≠ place) : fs''.node? q = fs'.node? q := by
    rw [hmore.node q, if_neg (by simpa using hq)]
  have hlast : fs''.node? place = some (.file (fs.contents place ++ bytes)) := by
    rw [hmore.node place, if_pos List.mem_cons_self, hold]
  refine ⟨fun q hq => ?_, fun q hq => ?_, fun q hq => ?_⟩
  · rcases List.mem_append.1 hq with hq | hq
    · exact h.not_dir q hq
    · obtain rfl := List.mem_singleton.1 hq
      exact fun hdir => hmore.not_dir q List.mem_cons_self (h.keepsDirs q hdir)
  · by_cases heq : q = place
    · rw [heq, hlast]
    · rw [hsame heq]
      refine h.grown q ?_
      simpa [heq] using hq
  · rw [List.mem_append, List.mem_singleton, not_or] at hq
    rw [hsame hq.2]
    exact h.others q hq.1

theorem read_eq_ok_iff : fs.read p = .ok bytes ↔
    ∃ place, fs.locate p = .ok place ∧ fs.node? place = some (.file bytes) := by
  rw [Files.read, stat]
  cases fs.locate p with
  | error e => simp
  | ok place =>
    cases hnode : fs.node? place with
    | none => simp [hnode]
    | some n => cases n <;> simp [hnode]

/-- **What a file holds stays the start of it**, and where it is read it still is. -/
theorem Extends.read (h : Extends places bytes fs fs') (hread : fs.read p = .ok old) :
    ∃ more, (more = [] ∨ more = bytes) ∧ fs'.read p = .ok (old ++ more) := by
  obtain ⟨place, hlocate, hnode⟩ := read_eq_ok_iff.1 hread
  have hlocate' := locate_of_keeps h.keepsDirs hlocate
  by_cases hplace : place ∈ places
  · have hgrown := h.grown place hplace
    rw [Files.contents, hnode] at hgrown
    exact ⟨bytes, .inr rfl, read_eq_ok_iff.2 ⟨place, hlocate', hgrown⟩⟩
  · rcases h.others place hplace with heq | ⟨hnone, -⟩
    · refine ⟨[], .inl rfl, read_eq_ok_iff.2 ⟨place, hlocate', ?_⟩⟩
      rw [heq, hnode, List.append_nil]
    · rw [hnode] at hnone
      cases hnone

end Abacus.Files
