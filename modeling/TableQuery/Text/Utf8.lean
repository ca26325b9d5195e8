import TableQuery.Text.Quoted

/-!
# UTF-8

A file's bytes are read one at a time. Between characters any byte that starts
a sequence may follow; inside a sequence the next byte must lie in a range that
the first byte narrows, so that no overlong form, no surrogate and nothing past
U+10FFFF gets through. What is refused is the longest beginning of a sequence
that could still have gone on, and the fault says why it did not.
-/

namespace TableQuery.Text.Utf8

/-- Why a run of bytes is no character. -/
inductive Reason where
  | startByte
  | continuationByte
  | endOfData
  deriving DecidableEq, Repr

/-- A run of bytes that is no character: its first byte, the positions of its
first byte and of the byte after it, and the reason. -/
structure Fault where
  byte : UInt8
  start : Nat
  stop : Nat
  reason : Reason
  deriving DecidableEq, Repr

def Reason.message : Reason → String
  | .startByte => "invalid start byte"
  | .continuationByte => "invalid continuation byte"
  | .endOfData => "unexpected end of data"

def Fault.message (f : Fault) : String :=
  let place :=
    if f.stop ≤ f.start + 1 then
      "byte 0x" ++ String.ofList (hexadecimal 2 f.byte.toNat) ++
        " in position " ++ toString f.start
    else
      "bytes in position " ++ toString f.start ++ "-" ++ toString (f.stop - 1)
  "'utf-8' codec can't decode " ++ place ++ ": " ++ f.reason.message

/-- A sequence that has begun: its first byte and position, the bits read so
far, the range of the next byte, and how many bytes follow that one. -/
structure Sequence where
  byte : UInt8
  start : Nat
  bits : Nat
  low : UInt8
  high : UInt8
  more : Nat

/-- What the first byte of a character says: a whole character, a sequence to
go on with, or that no character starts so. -/
def first (position : Nat) (b : UInt8) : Except Fault (Char ⊕ Sequence) :=
  if b < 0x80 then .ok (.inl (Char.ofNat b.toNat))
  else if b < 0xC2 then .error ⟨b, position, position + 1, .startByte⟩
  else if b < 0xE0 then .ok (.inr ⟨b, position, b.toNat - 0xC0, 0x80, 0xBF, 0⟩)
  else if b < 0xF0 then
    let low := if b = 0xE0 then 0xA0 else 0x80
    let high := if b = 0xED then 0x9F else 0xBF
    .ok (.inr ⟨b, position, b.toNat - 0xE0, low, high, 1⟩)
  else if b < 0xF5 then
    let low := if b = 0xF0 then 0x90 else 0x80
    let high := if b = 0xF4 then 0x8F else 0xBF
    .ok (.inr ⟨b, position, b.toNat - 0xF0, low, high, 2⟩)
  else .error ⟨b, position, position + 1, .startByte⟩

/-- What a further byte makes of a sequence: its character, or a longer
sequence; past the second byte the whole range is open. -/
def Sequence.next (s : Sequence) (position : Nat) (b : UInt8) : Except Fault (Char ⊕ Sequence) :=
  if s.low ≤ b ∧ b ≤ s.high then
    let bits := s.bits * 64 + (b.toNat - 0x80)
    match s.more with
    | 0 => .ok (.inl (Char.ofNat bits))
    | more + 1 => .ok (.inr ⟨s.byte, s.start, bits, 0x80, 0xBF, more⟩)
  else .error ⟨s.byte, s.start, position, .continuationByte⟩

/-- Reads on from a position, with the sequence that is open there, if any, and
the characters already read, last one first. -/
def decodeFrom (position : Nat) (opened : Option Sequence) (read : List Char) :
    List UInt8 → Except Fault (List Char)
  | [] =>
    match opened with
    | none => .ok read.reverse
    | some s => .error ⟨s.byte, s.start, position, .endOfData⟩
  | b :: rest =>
    let outcome :=
      match opened with
      | none => first position b
      | some s => s.next position b
    match outcome with
    | .error f => .error f
    | .ok (.inl c) => decodeFrom (position + 1) none (c :: read) rest
    | .ok (.inr s) => decodeFrom (position + 1) (some s) read rest

/-- The text that bytes encode, or the first fault in them. -/
def decode (bytes : List UInt8) : Except Fault (List Char) :=
  decodeFrom 0 none [] bytes

end TableQuery.Text.Utf8
