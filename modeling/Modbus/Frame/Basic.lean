import Modbus.Error
import Modbus.Pdu.Decode
import Modbus.Pdu.Encode

/-!
# Frames

A frame is a header and a PDU. On the wire the header has seven bytes: the transaction id, the
protocol id, which is zero, the number of bytes that follow the length field, and the unit id. So
the length field counts the unit id and the PDU.

`Frame.split` takes a frame off the front of a buffer. It answers as soon as the answer cannot
change any more: the header is checked once it is there, whatever has come of the PDU.
-/

namespace Modbus

/-- The number that ties a response to its request. -/
abbrev TransactionId := UInt16

/-- What a header says: protocol and length follow from the frame. -/
structure Header where
  transaction : TransactionId
  unit : UnitId
  deriving DecidableEq, Repr

/-- A header and the bytes of a PDU. -/
structure Frame where
  header : Header
  pdu : Bytes
  deriving DecidableEq, Repr

namespace Header

/-- The number of bytes of a header. -/
def size : Nat := 7

/-- The bytes of a header in front of a PDU of the given length. -/
def bytes (h : Header) (length : Nat) : Bytes :=
  Word.bytes h.transaction ++ Word.bytes 0 ++ Word.bytes (UInt16.ofNat (length + 1)) ++ [h.unit]

@[simp] theorem length_bytes (h : Header) (length : Nat) : (h.bytes length).length = size := rfl

end Header

namespace Frame

/-- The bytes of a frame. -/
def bytes (f : Frame) : Bytes := f.header.bytes f.pdu.length ++ f.pdu

/-- Takes the first frame off a buffer and gives it with what is left, or gives nothing while the
buffer does not hold all of it. -/
def split (buffer : Bytes) : Except FrameError (Option (Frame × Bytes)) :=
  match buffer with
  | t₁ :: t₀ :: p₁ :: p₀ :: l₁ :: l₀ :: unit :: rest =>
    let protocol := Word.ofBytes p₁ p₀
    let length := Word.ofBytes l₁ l₀
    if protocol ≠ 0 then
      .error (.protocolMismatch protocol)
    else if length.toNat < 2 ∨ Pdu.maxSize + 1 < length.toNat then
      .error (.invalidLength length)
    else if rest.length < length.toNat - 1 then
      .ok none
    else
      .ok (some (⟨⟨Word.ofBytes t₁ t₀, unit⟩, rest.take (length.toNat - 1)⟩,
        rest.drop (length.toNat - 1)))
  | _ => .ok none

/-- The number of bytes that a frame has, as far as the part of it in a buffer tells: a header is
expected until its length field is there. -/
def expectedSize (buffer : Bytes) : Nat :=
  match buffer with
  | _ :: _ :: _ :: _ :: l₁ :: l₀ :: _ => 6 + (Word.ofBytes l₁ l₀).toNat
  | _ => Header.size

/-- Takes the first frame off the buffer of a stream that has ended. What is left of the stream then
has to be nothing, or to start with a whole frame. -/
def splitLast (buffer : Bytes) : Except FrameError (Option (Frame × Bytes)) :=
  match split buffer with
  | .ok none =>
    if buffer.isEmpty then .ok none else .error (.truncated buffer.length (expectedSize buffer))
  | result => result

/-- A frame that has been split off leaves fewer bytes. -/
theorem length_lt_of_split {buffer rest : Bytes} {f : Frame}
    (h : split buffer = .ok (some (f, rest))) : rest.length < buffer.length := by
  unfold split at h
  split at h
  · dsimp only at h
    split at h
    · cases h
    · split at h
      · cases h
      · split at h
        · cases h
        · cases h
          simp only [List.length_cons, List.length_drop]
          omega
  · cases h

/-- At the end of a stream, too, a frame that has been split off leaves fewer bytes. -/
theorem length_lt_of_splitLast {buffer rest : Bytes} {f : Frame}
    (h : splitLast buffer = .ok (some (f, rest))) : rest.length < buffer.length := by
  unfold splitLast at h
  split at h
  · split at h <;> cases h
  · exact length_lt_of_split h

end Frame

end Modbus
