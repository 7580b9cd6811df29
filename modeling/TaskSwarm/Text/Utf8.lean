/-
Bytes that should be text.

`decode` turns bytes into a text or says where they stop being UTF-8: how many
leading bytes are good, and how many of the next ones belong to the sequence
that cannot be continued. A sequence cut short by the end of the bytes has no
such length. The good case is the library's own decoder; the fault is found by
a second walk that is only taken when there is one.
-/
set_option autoImplicit false

namespace TaskSwarm.Text

/-- Where bytes stop being UTF-8. -/
structure Utf8Fault where
  /-- Number of leading bytes that are whole characters. -/
  good : Nat
  /-- Length of the sequence that no byte can continue; none if the bytes merely end too early. -/
  bad : Option Nat
  deriving DecidableEq, Repr

/-- The wording used wherever such bytes are reported. -/
def Utf8Fault.message (f : Utf8Fault) : String :=
  match f.bad with
  | some n => s!"invalid utf-8 sequence of {n} bytes from index {f.good}"
  | none => s!"incomplete utf-8 byte sequence from index {f.good}"

/-- The values a byte after the lead byte `b` may take, one range for each place. -/
def continuations (b : UInt8) : Option (List (UInt8 × UInt8)) :=
  if b < 0x80 then some []
  else if 0xC2 ≤ b && b ≤ 0xDF then some [(0x80, 0xBF)]
  else if b == 0xE0 then some [(0xA0, 0xBF), (0x80, 0xBF)]
  else if b == 0xED then some [(0x80, 0x9F), (0x80, 0xBF)]
  else if 0xE1 ≤ b && b ≤ 0xEF then some [(0x80, 0xBF), (0x80, 0xBF)]
  else if b == 0xF0 then some [(0x90, 0xBF), (0x80, 0xBF), (0x80, 0xBF)]
  else if 0xF1 ≤ b && b ≤ 0xF3 then some [(0x80, 0xBF), (0x80, 0xBF), (0x80, 0xBF)]
  else if b == 0xF4 then some [(0x80, 0x8F), (0x80, 0xBF), (0x80, 0xBF)]
  else none

/-- Takes one byte for each range; a fault names the bytes of the sequence that were fine. -/
def takeContinuations (seen : Nat) :
    List (UInt8 × UInt8) → List UInt8 → Except (Option Nat) (List UInt8)
  | [], rest => .ok rest
  | _ :: _, [] => .error none
  | (lo, hi) :: ranges, b :: rest =>
    if lo ≤ b && b ≤ hi then takeContinuations (seen + 1) ranges rest else .error (some seen)

theorem takeContinuations_length {seen : Nat} {ranges : List (UInt8 × UInt8)} {bs rest : List UInt8}
    (h : takeContinuations seen ranges bs = .ok rest) : rest.length ≤ bs.length := by
  induction ranges generalizing seen bs with
  | nil => simp [takeContinuations] at h; simp [h]
  | cons r ranges ih =>
    cases bs with
    | nil => simp [takeContinuations] at h
    | cons b bs =>
      obtain ⟨lo, hi⟩ := r
      simp only [takeContinuations] at h
      split at h
      · exact Nat.le_succ_of_le (ih h)
      · simp at h

/-- The first fault of `bs`, whose first byte stands at index `start`. -/
def findFault (start : Nat) (bs : List UInt8) : Option Utf8Fault :=
  match bs with
  | [] => none
  | b :: rest =>
    match continuations b with
    | none => some ⟨start, some 1⟩
    | some ranges =>
      match h : takeContinuations 1 ranges rest with
      | .error bad => some ⟨start, bad⟩
      | .ok rest' => findFault (start + 1 + ranges.length) rest'
  termination_by bs.length
  decreasing_by
    have := takeContinuations_length h
    simp; omega

/-- The text of some bytes, or where they stop being text. -/
def decode (bytes : ByteArray) : Except Utf8Fault String :=
  match String.fromUTF8? bytes with
  | some s => .ok s
  | none => .error ((findFault 0 bytes.toList).getD ⟨0, some 1⟩)

/-- The characters of some bytes, with a mark in place of each sequence that is none. -/
def lossyChars (bytes : ByteArray) : Nat → List Char
  | 0 => []
  | fuel + 1 =>
    match decode bytes with
    | .ok s => s.toList
    | .error fault =>
      let good := (String.fromUTF8? (bytes.extract 0 fault.good)).getD ""
      let rest := fault.good + fault.bad.getD (bytes.size - fault.good)
      good.toList ++ '\uFFFD' :: lossyChars (bytes.extract rest bytes.size) fuel

/-- The text of some bytes, with a mark in place of each sequence that is none. -/
def decodeLossy (bytes : ByteArray) : String := String.ofList (lossyChars bytes (bytes.size + 1))

theorem decode_eq_ok_iff {bytes : ByteArray} {s : String} :
    decode bytes = .ok s ↔ String.fromUTF8? bytes = some s := by
  unfold decode
  split <;> simp_all

end TaskSwarm.Text
