import Modbus.Frame.Stream
import Modbus.Proofs.Frame.Split

/-!
# Reading a stream in chunks

What is read from a stream does not depend on how the stream is cut into chunks: reading it chunk by
chunk and then its end gives what reading its end at once gives (`Decoder.feed_eq`). This is because
what a decoder makes of a buffer is final, whether an item or an error, and bytes that come later
only follow what is left (`Decoder.IsFinal`). All decoders of frames are of this kind
(`Decoder.isFinal_ofFrames`).

A part of a stream of frames gives the items of the frames that are whole in it, and leaves the rest
for later (`Decoder.drain_of_frames`).
-/

namespace Modbus

variable {α : Type}

/-- What has been read, with items in front that have been read before. -/
def Reading.prepend (items : List α) (r : Reading α) : Reading α :=
  { r with items := items ++ r.items }

namespace Decoder

variable {d : Decoder α} {buffer rest : Bytes} {a : α} {e : Error}

/-! ## One item after another -/

/-- What is read is told by what comes first. -/
theorem drain_eq (d : Decoder α) (buffer : Bytes) :
    d.drain buffer =
      match d.next buffer with
      | .incomplete => ⟨[], none, buffer⟩
      | .failed e rest => ⟨[], some e, rest⟩
      | .item a rest => (d.drain rest).prepend [a] := by
  rw [drain]
  split <;> rename_i h <;> rw [h]
  rfl

/-- So it is at the end of a stream. -/
theorem drainLast_eq (d : Decoder α) (buffer : Bytes) :
    d.drainLast buffer =
      match d.last buffer with
      | .incomplete => ⟨[], none, buffer⟩
      | .failed e rest => ⟨[], some e, rest⟩
      | .item a rest => (d.drainLast rest).prepend [a] := by
  rw [drainLast]
  split <;> rename_i h <;> rw [h]
  rfl

/-- Nothing is read of a buffer whose first item is incomplete. -/
theorem drain_of_incomplete (h : d.next buffer = .incomplete) :
    d.drain buffer = ⟨[], none, buffer⟩ := by rw [drain_eq, h]

/-- Nothing is read of a broken buffer but its error. -/
theorem drain_of_failed (h : d.next buffer = .failed e rest) :
    d.drain buffer = ⟨[], some e, rest⟩ := by rw [drain_eq, h]

/-- The item at the front is read, and then those in what is left. -/
theorem drain_of_item (h : d.next buffer = .item a rest) :
    d.drain buffer = (d.drain rest).prepend [a] := by rw [drain_eq, h]

/-- What holds of every buffer is shown along the items at its front. -/
theorem next_induct (d : Decoder α) {motive : Bytes → Prop}
    (incomplete : ∀ buffer, d.next buffer = .incomplete → motive buffer)
    (failed : ∀ buffer e rest, d.next buffer = .failed e rest → motive buffer)
    (item : ∀ buffer a rest, d.next buffer = .item a rest → motive rest → motive buffer)
    (buffer : Bytes) : motive buffer := by
  induction hn : buffer.length using Nat.strongRecOn generalizing buffer with
  | ind n ih =>
    cases h : d.next buffer with
    | incomplete => exact incomplete buffer h
    | failed e rest => exact failed buffer e rest h
    | item a rest => exact item buffer a rest h (ih _ (hn ▸ d.length_lt_of_next h) rest rfl)

/-- What is left in a buffer that is not broken is not a whole item. -/
theorem next_rest_of_drain (h : (d.drain buffer).error = none) :
    d.next (d.drain buffer).rest = .incomplete := by
  induction buffer using d.next_induct with
  | incomplete buffer hnext => rwa [drain_of_incomplete hnext]
  | failed buffer e rest hnext =>
    rw [drain_of_failed hnext] at h
    cases h
  | item buffer a rest hnext ih =>
    rw [drain_of_item hnext] at h ⊢
    exact ih h

/-- At the end of a stream as well, nothing is read of an incomplete item. -/
theorem drainLast_of_incomplete (h : d.last buffer = .incomplete) :
    d.drainLast buffer = ⟨[], none, buffer⟩ := by rw [drainLast_eq, h]

/-- Where a stream is broken at its end, nothing is read but the error. -/
theorem drainLast_of_failed (h : d.last buffer = .failed e rest) :
    d.drainLast buffer = ⟨[], some e, rest⟩ := by rw [drainLast_eq, h]

/-- At the end of a stream, too, one item is read after another. -/
theorem drainLast_of_item (h : d.last buffer = .item a rest) :
    d.drainLast buffer = (d.drainLast rest).prepend [a] := by rw [drainLast_eq, h]

/-! ## What comes first in a buffer -/

section
variable {read : Frame → Except PduError α} {f : Frame} {cause : PduError} {error : FrameError}

/-- A buffer with a broken header is broken for every decoder of frames. -/
theorem next_of_error (hs : Frame.split buffer = .error error) :
    (ofFrames read).next buffer = .failed (.frame error) buffer := by
  simp [ofFrames, decodedBy, hs]

/-- A frame that is not there as a whole is waited for. -/
theorem next_of_incomplete (hs : Frame.split buffer = .ok none) :
    (ofFrames read).next buffer = .incomplete := by
  simp [ofFrames, decodedBy, hs]

/-- A frame that cannot be read is taken off the buffer, and its error is reported. -/
theorem next_of_malformed (hs : Frame.split buffer = .ok (some (f, rest)))
    (hread : read f = .error cause) : (ofFrames read).next buffer = .failed (.pdu cause) rest := by
  simp [ofFrames, decodedBy, hs, hread]

/-- A frame that can be read is taken off the buffer. -/
theorem next_of_frame (hs : Frame.split buffer = .ok (some (f, rest))) (hread : read f = .ok a) :
    (ofFrames read).next buffer = .item a rest := by
  simp [ofFrames, decodedBy, hs, hread]

/-- Only an incomplete frame is waited for. -/
theorem next_incomplete_inv (h : (ofFrames read).next buffer = .incomplete) :
    Frame.split buffer = .ok none := by
  simp only [ofFrames, decodedBy] at h
  split at h
  · cases h
  · assumption
  · split at h <;> cases h

/-- An item comes from a frame. -/
theorem next_item_inv (h : (ofFrames read).next buffer = .item a rest) :
    ∃ f, Frame.split buffer = .ok (some (f, rest)) ∧ read f = .ok a := by
  simp only [ofFrames, decodedBy] at h
  split at h
  · cases h
  · cases h
  · rename_i f rest' hs
    split at h <;> cases h
    exact ⟨f, hs, ‹_›⟩

/-- Either the stream is broken, or a frame cannot be read. -/
theorem next_failed_inv (h : (ofFrames read).next buffer = .failed e rest) :
    (∃ error, Frame.split buffer = .error error ∧ e = .frame error ∧ rest = buffer) ∨
      ∃ f cause, Frame.split buffer = .ok (some (f, rest)) ∧ read f = .error cause ∧
        e = .pdu cause := by
  simp only [ofFrames, decodedBy] at h
  split at h
  · rename_i error hs
    cases h
    exact .inl ⟨error, hs, rfl, rfl⟩
  · cases h
  · rename_i f rest' hs
    split at h <;> cases h
    exact .inr ⟨f, _, hs, ‹_›, rfl⟩

/-- The end of a stream only matters for an incomplete frame. -/
theorem last_of_split (h : Frame.split buffer ≠ .ok none) :
    (ofFrames read).last buffer = (ofFrames read).next buffer := by
  have hsplit : Frame.splitLast buffer = Frame.split buffer := by
    unfold Frame.splitLast
    split
    · exact absurd ‹_› h
    · rfl
  simp only [ofFrames, decodedBy, hsplit]

/-- A stream that ends inside a frame is broken. -/
theorem last_of_incomplete (hs : Frame.split buffer = .ok none) (hne : buffer ≠ []) :
    (ofFrames read).last buffer =
      .failed (.frame (.truncated buffer.length (Frame.expectedSize buffer))) buffer := by
  simp [ofFrames, decodedBy, Frame.splitLast, hs, hne]

end

/-! ## Decoders that need not be asked again -/

/-- What the decoder makes of a buffer stays the same when more bytes come or the stream ends. -/
structure IsFinal (d : Decoder α) : Prop where
  item : ∀ {buffer a rest}, d.next buffer = .item a rest →
    ∀ more, d.next (buffer ++ more) = .item a (rest ++ more)
  failed : ∀ {buffer e rest}, d.next buffer = .failed e rest →
    ∀ more, d.next (buffer ++ more) = .failed e (rest ++ more)
  last_item : ∀ {buffer a rest}, d.next buffer = .item a rest → d.last buffer = .item a rest
  last_failed : ∀ {buffer e rest}, d.next buffer = .failed e rest →
    d.last buffer = .failed e rest

/-- A decoder of frames that has failed or waits need not be asked about the same bytes again. -/
theorem isFinal_ofFrames (read : Frame → Except PduError α) : (ofFrames read).IsFinal := by
  constructor
  case item =>
    intro buffer a rest h more
    obtain ⟨f, hs, hread⟩ := next_item_inv h
    exact next_of_frame (Frame.split_append_of_frame hs more) hread
  case failed =>
    intro buffer e rest h more
    rcases next_failed_inv h with ⟨error, hs, rfl, rfl⟩ | ⟨f, cause, hs, hread, rfl⟩
    · exact next_of_error (Frame.split_append_of_error hs more)
    · exact next_of_malformed (Frame.split_append_of_frame hs more) hread
  case last_item =>
    intro buffer a rest h
    obtain ⟨f, hs, -⟩ := next_item_inv h
    rw [last_of_split (by simp [hs]), h]
  case last_failed =>
    intro buffer e rest h
    rcases next_failed_inv h with ⟨error, hs, -⟩ | ⟨f, cause, hs, -⟩ <;>
      rw [last_of_split (by simp [hs]), h]

/-! ## Chunks -/

/-- Reading a stream to its end can be stopped after any part of it and gone on with. -/
theorem drainLast_append (hd : d.IsFinal) (buffer more : Bytes) :
    d.drainLast (buffer ++ more) =
      match (d.drain buffer).error with
      | some _ => { d.drain buffer with rest := (d.drain buffer).rest ++ more }
      | none => (d.drainLast ((d.drain buffer).rest ++ more)).prepend (d.drain buffer).items := by
  induction buffer using d.next_induct with
  | incomplete buffer h => rw [drain_of_incomplete h]; rfl
  | failed buffer e rest h =>
    rw [drain_of_failed h, drainLast_of_failed (hd.last_failed (hd.failed h more))]
  | item buffer a rest h ih =>
    rw [drain_of_item h, drainLast_of_item (hd.last_item (hd.item h more)), ih]
    simp only [Reading.prepend]
    split <;> rfl

/-- How a stream is cut into chunks does not matter for what is read from it. -/
theorem feed_eq (hd : d.IsFinal) (buffer : Bytes) (chunks : List Bytes) :
    d.feed buffer chunks = d.drainLast (buffer ++ chunks.flatten) := by
  induction chunks generalizing buffer with
  | nil => rw [feed, List.flatten_nil, List.append_nil]
  | cons chunk chunks ih =>
    rw [List.flatten_cons, ← List.append_assoc, drainLast_append hd, feed]
    split <;> rename_i h
    · simp only [h]
    · simp only [h, ih]
      rfl

/-- A part of a stream of frames gives the first items of the stream; what is left of it is not a
whole frame, and the other items follow behind it. -/
theorem drain_of_frames {β : Type} {read : Frame → Except PduError α} {frame : β → Frame}
    {bs : List β} (item : β → α) (hsendable : ∀ b ∈ bs, (frame b).IsSendable)
    (hread : ∀ b ∈ bs, read (frame b) = .ok (item b)) {more : Bytes}
    (h : buffer ++ more = bs.flatMap fun b => (frame b).bytes) :
    ∃ first later rest, bs = first ++ later ∧
      (ofFrames read).drain buffer = ⟨first.map item, none, rest⟩ ∧
      rest ++ more = later.flatMap (fun b => (frame b).bytes) ∧
      (ofFrames read).next rest = .incomplete := by
  induction bs generalizing buffer with
  | nil =>
    obtain ⟨rfl, rfl⟩ := List.append_eq_nil_iff.1 h
    exact ⟨[], [], [], rfl, drain_of_incomplete rfl, rfl, rfl⟩
  | cons b bs ih =>
    obtain ⟨hb, hbs⟩ := List.forall_mem_cons.1 hsendable
    obtain ⟨hreadb, hreadbs⟩ := List.forall_mem_cons.1 hread
    rcases Bytes.part_or_whole (h.trans List.flatMap_cons) with
      ⟨-, missing, hmissing, hframe⟩ | ⟨tail, rfl, htail⟩
    · have hnext : (ofFrames read).next buffer = .incomplete :=
        next_of_incomplete (Frame.split_of_part hb hframe hmissing)
      exact ⟨[], b :: bs, buffer, rfl, drain_of_incomplete hnext, h, hnext⟩
    · obtain ⟨first, later, rest, rfl, hdrain, hrest, hnext⟩ := ih hbs hreadbs htail
      have hitem : (ofFrames read).next ((frame b).bytes ++ tail) = .item (item b) tail :=
        next_of_frame (Frame.split_bytes hb tail) hreadb
      refine ⟨b :: first, later, rest, rfl, ?_, hrest, hnext⟩
      rw [drain_of_item hitem, hdrain]
      rfl

/-- A stream of frames that does not start with a whole frame is empty. -/
theorem eq_nil_of_incomplete {β : Type} {read : Frame → Except PduError α} {frame : β → Frame}
    {bs : List β} (item : β → α) (hsendable : ∀ b ∈ bs, (frame b).IsSendable)
    (hread : ∀ b ∈ bs, read (frame b) = .ok (item b))
    (h : (ofFrames read).next (bs.flatMap fun b => (frame b).bytes) = .incomplete) : bs = [] := by
  cases bs with
  | nil => rfl
  | cons b bs =>
    have hsplit := Frame.split_bytes (hsendable b List.mem_cons_self)
    rw [List.flatMap_cons, next_of_frame (hsplit _) (hread b List.mem_cons_self)] at h
    cases h

end Decoder

end Modbus
