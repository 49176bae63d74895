import Modbus.Frame.Message

/-!
# Reading a stream of frames

A stream comes in chunks that may be cut anywhere. A `Decoder` takes items off the front of a
buffer; a master decodes frames (`Decoder.frames`), because a PDU is read only when its call is
known, and a slave decodes requests (`Decoder.requests`). `Decoder.drain` takes all items that a
buffer holds, and `Decoder.feed` does so chunk by chunk, which is how a connection reads.
-/

namespace Modbus

/-- What a decoder makes of a buffer. -/
inductive Decoded (α : Type) where
  /-- An item, with the bytes behind it. -/
  | item (value : α) (rest : Bytes)
  /-- The buffer holds no item yet, and stays as it is. -/
  | incomplete
  /-- The stream is broken, with the bytes that stay in the buffer. -/
  | failed (error : Error) (rest : Bytes)

/-- A way to read items from a buffer, while the stream goes on and when it has ended. -/
structure Decoder (α : Type) where
  next : Bytes → Decoded α
  last : Bytes → Decoded α
  /-- An item takes bytes off the buffer. -/
  length_lt_of_next : ∀ {buffer a rest}, next buffer = .item a rest → rest.length < buffer.length
  /-- At the end of the stream, too, an item takes bytes off the buffer. -/
  length_lt_of_last : ∀ {buffer a rest}, last buffer = .item a rest → rest.length < buffer.length

/-- What reading a part of a stream has led to. -/
structure Reading (α : Type) where
  /-- The items, in the order of the stream. -/
  items : List α
  /-- The error that has ended the reading. -/
  error : Option Error
  /-- The bytes that stay in the buffer. -/
  rest : Bytes

namespace Decoder

/-- Makes items of the frames that a split function takes off a buffer. -/
def decodedBy {α : Type} (split : Bytes → Except FrameError (Option (Frame × Bytes)))
    (read : Frame → Except PduError α) (buffer : Bytes) : Decoded α :=
  match split buffer with
  | .error e => .failed (.frame e) buffer
  | .ok none => .incomplete
  | .ok (some (f, rest)) =>
    match read f with
    | .ok a => .item a rest
    | .error e => .failed (.pdu e) rest

/-- A decoder that splits frames off uses up bytes with every item. -/
theorem length_lt_of_decodedBy {α : Type}
    {split : Bytes → Except FrameError (Option (Frame × Bytes))} {read : Frame → Except PduError α}
    (hs : ∀ {buffer f rest}, split buffer = .ok (some (f, rest)) → rest.length < buffer.length)
    {buffer : Bytes} {a : α} {rest : Bytes} (h : decodedBy split read buffer = .item a rest) :
    rest.length < buffer.length := by
  unfold decodedBy at h
  split at h
  · cases h
  · cases h
  · split at h
    · cases h
      exact hs ‹_›
    · cases h

/-- The decoder whose items are frames, read in a given way. -/
def ofFrames {α : Type} (read : Frame → Except PduError α) : Decoder α where
  next := decodedBy Frame.split read
  last := decodedBy Frame.splitLast read
  length_lt_of_next := length_lt_of_decodedBy Frame.length_lt_of_split
  length_lt_of_last := length_lt_of_decodedBy Frame.length_lt_of_splitLast

/-- The decoder of a master, which leaves the PDUs as they are. -/
def frames : Decoder Frame := ofFrames .ok

/-- The decoder of a slave. A malformed PDU is an error behind its frame. -/
def requests : Decoder RequestMessage :=
  ofFrames fun f => (⟨f.header, ·⟩) <$> Request.decode f.pdu

variable {α : Type} (d : Decoder α)

/-- Takes items off a buffer until it holds none or is broken. -/
def drain (buffer : Bytes) : Reading α :=
  match _h : d.next buffer with
  | .incomplete => ⟨[], none, buffer⟩
  | .failed e rest => ⟨[], some e, rest⟩
  | .item a rest =>
    let r := drain rest
    { r with items := a :: r.items }
termination_by buffer.length
decreasing_by exact d.length_lt_of_next ‹_›

/-- Takes items off the buffer of a stream that has ended. -/
def drainLast (buffer : Bytes) : Reading α :=
  match _h : d.last buffer with
  | .incomplete => ⟨[], none, buffer⟩
  | .failed e rest => ⟨[], some e, rest⟩
  | .item a rest =>
    let r := drainLast rest
    { r with items := a :: r.items }
termination_by buffer.length
decreasing_by exact d.length_lt_of_last ‹_›

/-- Reads the chunks of a stream one after another, behind what is in the buffer, and then its end.
Chunks behind an error are left unread and follow the bytes that stay in the buffer. -/
def feed (buffer : Bytes) : List Bytes → Reading α
  | [] => d.drainLast buffer
  | chunk :: chunks =>
    let r := d.drain (buffer ++ chunk)
    match r.error with
    | some _ => { r with rest := r.rest ++ chunks.flatten }
    | none =>
      let later := feed r.rest chunks
      { later with items := r.items ++ later.items }

end Decoder

end Modbus
