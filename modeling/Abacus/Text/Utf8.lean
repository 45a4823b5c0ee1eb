/-!
# UTF-8

`encode` writes a text as bytes.  `step` reads one character off the front of bytes, or finds the longest
part of them that starts like a character and goes on like none.  Reading with replacement puts one
replacement character for each such part; strict reading stops at the first and says where and why.
-/
namespace Abacus.Utf8

def encode (text : List Char) : List UInt8 := text.flatMap String.utf8EncodeChar

inductive Reason
  | start | continuation | ending
  deriving DecidableEq, Repr

/-- What stands at the front of bytes. -/
inductive Step
  | char (c : Char) (rest : List UInt8)
  | invalid (reason : Reason) (length : Nat) (rest : List UInt8)

def isTail (b : UInt8) : Bool := 0x80 ≤ b && b ≤ 0xBF

/-- Whether `b` may follow the first byte of a character of three or four bytes: it keeps out the encodings
that are too long, surrogates and numbers beyond the last code point. -/
def mayFollow (first b : UInt8) : Bool :=
  isTail b && (first != 0xE0 || 0xA0 ≤ b) && (first != 0xED || b ≤ 0x9F) &&
    (first != 0xF0 || 0x90 ≤ b) && (first != 0xF4 || b ≤ 0x8F)

def low (b : UInt8) (bits : Nat) : Nat := b.toNat % Nat.pow 2 bits

/-- The next byte, which the part read so far (of `length` bytes) needs and which has to pass a test. -/
def expect (length : Nat) (test : UInt8 → Bool) (rest : List UInt8)
    (next : UInt8 → List UInt8 → Step) : Step :=
  match rest with
  | []      => .invalid .ending length []
  | b :: bs => if test b then next b bs else .invalid .continuation length (b :: bs)

def step (a : UInt8) (rest : List UInt8) : Step :=
  if a < 0x80 then .char (Char.ofNat a.toNat) rest
  else if 0xC2 ≤ a && a ≤ 0xDF then
    expect 1 isTail rest fun b rest =>
    .char (Char.ofNat (low a 5 * 64 + low b 6)) rest
  else if 0xE0 ≤ a && a ≤ 0xEF then
    expect 1 (mayFollow a) rest fun b rest =>
    expect 2 isTail rest fun c rest =>
    .char (Char.ofNat ((low a 4 * 64 + low b 6) * 64 + low c 6)) rest
  else if 0xF0 ≤ a && a ≤ 0xF4 then
    expect 1 (mayFollow a) rest fun b rest =>
    expect 2 isTail rest fun c rest =>
    expect 3 isTail rest fun d rest =>
    .char (Char.ofNat (((low a 3 * 64 + low b 6) * 64 + low c 6) * 64 + low d 6)) rest
  else .invalid .start 1 rest

def Step.rest : Step → List UInt8
  | .char _ rest      => rest
  | .invalid _ _ rest => rest

theorem length_expect_le {length : Nat} {test : UInt8 → Bool} {rest : List UInt8}
    {next : UInt8 → List UInt8 → Step}
    (h : ∀ b bs, (next b bs).rest.length ≤ bs.length) :
    (expect length test rest next).rest.length ≤ rest.length := by
  unfold expect
  split
  · simp [Step.rest]
  · split
    · have := h ‹_› ‹_›
      simp only [List.length_cons]
      omega
    · simp [Step.rest]

theorem length_step_le (a : UInt8) (rest : List UInt8) : (step a rest).rest.length ≤ rest.length := by
  unfold step
  repeat' split
  · simp [Step.rest]
  · exact length_expect_le fun _ _ => Nat.le_refl _
  · exact length_expect_le fun _ _ => length_expect_le fun _ _ => Nat.le_refl _
  · exact length_expect_le fun _ _ => length_expect_le fun _ _ => length_expect_le fun _ _ => Nat.le_refl _
  · simp [Step.rest]

def replacement : Char := Char.ofNat 0xFFFD

def decode : List UInt8 → List Char
  | []      => []
  | a :: bs =>
    have := length_step_le a bs
    match _h : step a bs with
    | .char c rest      => c :: decode rest
    | .invalid _ _ rest => replacement :: decode rest
termination_by bytes => bytes.length
decreasing_by all_goals simp_all only [Step.rest, List.length_cons]; omega

/-- A part of bytes that is no character: its place, its bytes and what is wrong with it. -/
structure DecodeError where
  position : Nat
  part : List UInt8
  reason : Reason
  deriving DecidableEq, Repr

def decodeFrom (position : Nat) : List UInt8 → Except DecodeError (List Char)
  | []      => .ok []
  | a :: bs =>
    have := length_step_le a bs
    match _h : step a bs with
    | .char c rest =>
      (decodeFrom (position + (bs.length + 1 - rest.length)) rest).map (c :: ·)
    | .invalid reason length _ => .error ⟨position, (a :: bs).take length, reason⟩
termination_by bytes => bytes.length
decreasing_by all_goals simp_all only [Step.rest, List.length_cons]; omega

def decode? (bytes : List UInt8) : Except DecodeError (List Char) := decodeFrom 0 bytes

end Abacus.Utf8
