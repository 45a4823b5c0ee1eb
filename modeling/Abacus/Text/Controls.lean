/-!
# Control sequences

A terminal takes an escape character and a bracket for the start of a control sequence: then come parameters,
intermediate characters and one final character.  `withoutControls` removes the sequences of a text in one pass.
-/
namespace Abacus

def escapeChar : Char := Char.ofNat 0x1B

def isParameter (c : Char) : Bool := '0' ≤ c && c ≤ '?'

def isIntermediate (c : Char) : Bool := ' ' ≤ c && c ≤ '/'

def isFinal (c : Char) : Bool := '@' ≤ c && c ≤ '~'

/-- What follows a control sequence, if one goes on after an escape character. -/
def afterControl? : List Char → Option (List Char)
  | '[' :: cs =>
    match (cs.dropWhile isParameter).dropWhile isIntermediate with
    | c :: rest => if isFinal c then some rest else none
    | []        => none
  | _ => none

theorem length_afterControl {cs rest : List Char} (h : afterControl? cs = some rest) :
    rest.length < cs.length := by
  unfold afterControl? at h
  split at h
  · next cs =>
    have h₁ : ((cs.dropWhile isParameter).dropWhile isIntermediate).length ≤ (cs.dropWhile isParameter).length :=
      (List.dropWhile_sublist _).length_le
    have h₂ : (cs.dropWhile isParameter).length ≤ cs.length := (List.dropWhile_sublist _).length_le
    split at h
    · next hd =>
      split at h
      · cases h
        rw [hd] at h₁
        simp only [List.length_cons] at h₁ ⊢
        omega
      · cases h
    · cases h
  · cases h

def withoutControls : List Char → List Char
  | []      => []
  | c :: cs =>
    if c = escapeChar then
      match _h : afterControl? cs with
      | some rest => withoutControls rest
      | none      => c :: withoutControls cs
    else c :: withoutControls cs
termination_by cs => cs.length
decreasing_by
  · have := length_afterControl _h
    simp only [List.length_cons]
    omega
  · simp
  · simp

/-- **A text without escape characters stays as it is.** -/
theorem withoutControls_eq_self {cs : List Char} (h : escapeChar ∉ cs) : withoutControls cs = cs := by
  induction cs with
  | nil => simp [withoutControls]
  | cons c cs ih =>
    simp only [List.mem_cons, not_or] at h
    rw [withoutControls, if_neg (Ne.symm h.1), ih h.2]

end Abacus
