import Abacus.Proofs.Journal.Whole
/-!
# Lines that reading gets past

A line of a log has a value, or is skipped because it is no JSON, or cannot be got past: one with a number of too many
digits or with too many levels ends the reading.  Lines without such a one among them read as the values that they have
(`valuesOn_eq_ok_iff`).
-/
namespace Abacus.Journal

open Files

variable {fs : Files} {j : Journal} {log : Path} {bytes : List UInt8} {lines : List (List Char)} {line : List Char}
  {vs us : List Json}

def valueOf? (line : List Char) : Option Json := (Json.read (strip line)).toOption

def isLegible (line : List Char) : Bool :=
  match Json.read (strip line) with
  | .ok _             => true
  | .error .malformed => true
  | .error _          => false

theorem valuesOn_cons : valuesOn (line :: lines) = .ok vs ↔
    isLegible line = true ∧ ∃ us, valuesOn lines = .ok us ∧ vs = (valueOf? line).toList ++ us := by
  rw [valuesOn, isLegible, valueOf?]
  cases Json.read (strip line) with
  | ok v =>
    cases valuesOn lines with
    | error e => simp [Except.map]
    | ok us => simp [Except.map, Except.toOption, eq_comm]
  | error e => cases e <;> simp [Except.toOption]

/-- **Reading lines answers the values that they have**, or stops at one that it cannot get past. -/
theorem valuesOn_eq_ok_iff : valuesOn lines = .ok vs ↔
    (∀ line ∈ lines, isLegible line = true) ∧ vs = lines.filterMap valueOf? := by
  induction lines generalizing vs with
  | nil => exact ⟨fun h => ⟨List.forall_mem_nil _, (Except.ok.inj h).symm⟩, fun h => h.2 ▸ rfl⟩
  | cons line lines ih =>
    have hcons : (line :: lines).filterMap valueOf? = (valueOf? line).toList ++ lines.filterMap valueOf? := by
      cases hvalue : valueOf? line <;> simp [hvalue]
    rw [valuesOn_cons, List.forall_mem_cons, and_assoc, hcons]
    refine and_congr_right fun _ => ⟨?_, ?_⟩
    · rintro ⟨us, hus, rfl⟩
      obtain ⟨hlegible, rfl⟩ := ih.1 hus
      exact ⟨hlegible, rfl⟩
    · rintro ⟨hlegible, rfl⟩
      exact ⟨_, ih.2 ⟨hlegible, rfl⟩, rfl⟩

theorem readLog_of_read (h : fs.read log = .ok bytes) (hwindow : 0 ≤ j.tailBytes) :
    j.readLog fs log = valuesIn (tail j.tailBytes.toNat bytes) := by
  obtain ⟨place, hlocate, hnode, rfl⟩ := locate_of_read h
  exact readLog_of_locate hlocate hnode hwindow

end Abacus.Journal
