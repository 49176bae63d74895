import Modbus.Proofs.Frame.Drain

/-!
# Streams cut in different ways

What is read of a stream is told by the stream alone (`Decoder.IsReading`): frames are taken off its
front and read, until nothing is left, a frame cannot be read, or what is left does not start with a
whole frame. A decoder of frames reads exactly this, however the stream is cut into chunks
(`Decoder.feed_eq_iff`). So two ways to cut it, within a header or within a PDU, lead to the same
items and the same error, and leave the same bytes (`Decoder.feed_of_flatten_eq`).
-/

namespace Modbus

namespace Decoder

variable {α : Type} {read : Frame → Except PduError α} {stream : Bytes} {r : Reading α}

/-- What a stream is read as when it comes as a whole and then ends. -/
inductive IsReading (read : Frame → Except PduError α) : Bytes → Reading α → Prop where
  /-- The stream ends behind a frame. -/
  | ended : IsReading read [] ⟨[], none, []⟩
  /-- The stream ends inside a frame, and this part of a frame is left. -/
  | truncated {stream : Bytes} (hne : stream ≠ []) (hs : Frame.split stream = .ok none) :
    IsReading read stream
      ⟨[], some (.frame (.truncated stream.length (Frame.expectedSize stream))), stream⟩
  /-- The stream goes on with something that is not a frame, and this is left. -/
  | broken {stream : Bytes} {e : FrameError} (hs : Frame.split stream = .error e) :
    IsReading read stream ⟨[], some (.frame e), stream⟩
  /-- The stream goes on with a frame that cannot be read, and what is behind the frame is left. -/
  | malformed {stream rest : Bytes} {f : Frame} {e : PduError}
    (hs : Frame.split stream = .ok (some (f, rest))) (hread : read f = .error e) :
    IsReading read stream ⟨[], some (.pdu e), rest⟩
  /-- The stream goes on with a frame that is read as an item. -/
  | item {stream rest : Bytes} {f : Frame} {a : α} {r : Reading α}
    (hs : Frame.split stream = .ok (some (f, rest))) (hread : read f = .ok a)
    (later : IsReading read rest r) : IsReading read stream (r.prepend [a])

/-- What is read of a stream that ends is the reading of the stream. -/
theorem isReading_drainLast (read : Frame → Except PduError α) (stream : Bytes) :
    IsReading read stream ((ofFrames read).drainLast stream) := by
  have hfinal := isFinal_ofFrames read
  induction stream using Frame.split_induct with
  | broken stream e hs =>
    rw [drainLast_of_failed (hfinal.last_failed (next_of_error hs))]
    exact .broken hs
  | incomplete stream hs =>
    by_cases hne : stream = []
    · subst hne
      rw [drainLast_of_incomplete rfl]
      exact .ended
    · rw [drainLast_of_failed (last_of_incomplete hs hne)]
      exact .truncated hne hs
  | frame stream f rest hs ih =>
    cases hread : read f with
    | error e =>
      rw [drainLast_of_failed (hfinal.last_failed (next_of_malformed hs hread))]
      exact .malformed hs hread
    | ok a =>
      rw [drainLast_of_item (hfinal.last_item (next_of_frame hs hread))]
      exact .item hs hread ih

/-- A stream has no other reading. -/
theorem IsReading.eq_drainLast (h : IsReading read stream r) :
    (ofFrames read).drainLast stream = r := by
  have hfinal := isFinal_ofFrames read
  induction h with
  | ended => exact drainLast_of_incomplete rfl
  | truncated hne hs => exact drainLast_of_failed (last_of_incomplete hs hne)
  | broken hs => exact drainLast_of_failed (hfinal.last_failed (next_of_error hs))
  | malformed hs hread =>
    exact drainLast_of_failed (hfinal.last_failed (next_of_malformed hs hread))
  | item hs hread _ ih => rw [drainLast_of_item (hfinal.last_item (next_of_frame hs hread)), ih]

/-- However a stream is cut into chunks, it is read as its reading says. -/
theorem feed_eq_iff (chunks : List Bytes) :
    (ofFrames read).feed [] chunks = r ↔ IsReading read chunks.flatten r := by
  rw [feed_eq (isFinal_ofFrames read), List.nil_append]
  constructor
  · rintro rfl
    exact isReading_drainLast read _
  · exact IsReading.eq_drainLast

/-- How a slave reads a frame. -/
def readRequest (f : Frame) : Except PduError RequestMessage :=
  (⟨f.header, ·⟩) <$> Request.decode f.pdu

/-- **It does not matter how a stream is cut into chunks**, neither for a master nor for a slave:
the items, the error that ends the reading, and the bytes that stay in the buffer or have not been
read by then are the same, and they are those of the stream as a whole. -/
theorem feed_of_flatten_eq {chunks chunks' : List Bytes} (h : chunks.flatten = chunks'.flatten) :
    (frames.feed [] chunks = frames.feed [] chunks' ∧
      ∀ r, frames.feed [] chunks = r ↔ IsReading .ok chunks.flatten r) ∧
    (requests.feed [] chunks = requests.feed [] chunks' ∧
      ∀ r, requests.feed [] chunks = r ↔ IsReading readRequest chunks.flatten r) := by
  have hsame {β : Type} (read : Frame → Except PduError β) :
      (ofFrames read).feed [] chunks = (ofFrames read).feed [] chunks' := by
    rw [feed_eq (isFinal_ofFrames read), feed_eq (isFinal_ofFrames read), h]
  exact ⟨⟨hsame .ok, fun r => feed_eq_iff chunks⟩, hsame readRequest, fun r => feed_eq_iff chunks⟩

/-- A frame is cut inside its length field and inside its PDU. What follows is of another protocol,
which shows up as soon as its header is there, in the middle of a chunk or at its end. -/
theorem feed_of_flatten_eq_foreignProtocol :
    let f : Frame := ⟨⟨7, 1⟩, [0x03, 0x00, 0x10, 0x00, 0x02]⟩
    let foreign : Bytes := [0, 8, 0, 5, 0, 2, 1, 0x2B]
    let chunks := [f.bytes.take 5, [], f.bytes.drop 5 ++ foreign.take 7, foreign.drop 7]
    let chunks' := [f.bytes.take 9, f.bytes.drop 9 ++ foreign]
    chunks.flatten = chunks'.flatten ∧
      requests.feed [] chunks = requests.feed [] chunks' ∧
      frames.feed [] chunks = ⟨[f], some (.frame (.protocolMismatch 5)), foreign⟩ := by
  intro f foreign chunks chunks'
  have hstream : chunks.flatten = f.bytes ++ foreign := by decide
  have hcuts : chunks.flatten = chunks'.flatten := by decide
  have hfirst : Frame.split chunks.flatten = .ok (some (f, foreign)) :=
    hstream ▸ Frame.split_bytes ⟨by decide, by decide⟩ _
  have hreading : IsReading .ok chunks.flatten
      ⟨[f], some (.frame (.protocolMismatch 5)), foreign⟩ := .item hfirst rfl (.broken rfl)
  obtain ⟨⟨-, hframes⟩, hrequests, -⟩ := feed_of_flatten_eq hcuts
  exact ⟨hcuts, hrequests, (hframes _).2 hreading⟩

end Decoder

end Modbus
