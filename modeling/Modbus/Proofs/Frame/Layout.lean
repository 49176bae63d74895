import Modbus.Proofs.Frame.Sequence

/-!
# What the layout of a stream tells

Frames have the same layout if their transaction ids and the lengths of their PDUs agree
(`Frame.layout`). How far two streams of such frames can be read depends on their lengths only: the
same number of frames is whole in two parts of them that are equally long, and as many bytes are
left (`Frame.drain_of_layout`). So if both streams end there, they end with the same error
(`Frame.drainLast_of_layout`).
-/

namespace Modbus.Frame

/-- What of a frame decides where it ends and whom it is for. -/
def layout (f : Frame) : TransactionId × Nat := (f.header.transaction, f.pdu.length)

variable {f f' : Frame} {fs fs' : List Frame} {buffer buffer' more more' : Bytes}

/-- Frames that differ in their PDUs and units only have the same transaction id. -/
theorem transaction_of_layout (h : f'.layout = f.layout) :
    f'.header.transaction = f.header.transaction := congrArg Prod.fst h

/-- The PDUs of such frames are of the same length. -/
theorem length_pdu_of_layout (h : f'.layout = f.layout) : f'.pdu.length = f.pdu.length :=
  congrArg Prod.snd h

/-- They take up the same number of bytes. -/
theorem length_bytes_of_layout (h : f'.layout = f.layout) : f'.bytes.length = f.bytes.length := by
  rw [length_bytes, length_bytes, length_pdu_of_layout h]

/-- If one of them can be sent, so can the other one. -/
theorem IsSendable.of_layout (hf : f.IsSendable) (h : f'.layout = f.layout) : f'.IsSendable where
  pos := length_pdu_of_layout h ▸ hf.pos
  le := length_pdu_of_layout h ▸ hf.le

/-- What is read of two parts of streams with the same layout, if the parts are equally long. -/
structure ReadAlike (fs fs' : List Frame) (buffer buffer' more more' : Bytes) (n : Nat)
    (rest rest' : Bytes) : Prop where
  le : n ≤ fs.length
  drain : Decoder.frames.drain buffer = ⟨fs.take n, none, rest⟩
  drain' : Decoder.frames.drain buffer' = ⟨fs'.take n, none, rest'⟩
  behind : rest ++ more = listBytes (fs.drop n)
  behind' : rest' ++ more' = listBytes (fs'.drop n)
  length : rest'.length = rest.length
  part : split rest = .ok none
  part' : split rest' = .ok none

theorem drain_of_layout (hsendable : ∀ f ∈ fs, f.IsSendable)
    (hlayout : fs'.map layout = fs.map layout) (h : buffer ++ more = listBytes fs)
    (h' : buffer' ++ more' = listBytes fs') (hlength : buffer'.length = buffer.length) :
    ∃ n rest rest', ReadAlike fs fs' buffer buffer' more more' n rest rest' := by
  have hincomplete {buffer : Bytes} (hs : split buffer = .ok none) :
      Decoder.frames.drain buffer = ⟨[], none, buffer⟩ :=
    Decoder.drain_of_incomplete (Decoder.next_of_incomplete hs)
  induction fs generalizing fs' buffer buffer' with
  | nil =>
    obtain rfl := List.map_eq_nil_iff.1 hlayout
    obtain ⟨rfl, rfl⟩ := List.append_eq_nil_iff.1 h
    obtain ⟨rfl, rfl⟩ := List.append_eq_nil_iff.1 h'
    exact ⟨0, [], [], Nat.le_refl 0, hincomplete rfl, hincomplete rfl, rfl, rfl, rfl, rfl, rfl⟩
  | cons f fs ih =>
    obtain ⟨f', fs', rfl, hf', hfs'⟩ := List.map_eq_cons_iff.1 hlayout
    obtain ⟨hf, hfs⟩ := List.forall_mem_cons.1 hsendable
    have hsize := length_bytes_of_layout hf'
    rcases Bytes.part_or_whole h with ⟨hlt, missing, hmissing, hpart⟩ | ⟨behind, rfl, hbehind⟩ <;>
      rcases Bytes.part_or_whole h' with
        ⟨hlt', missing', hmissing', hpart'⟩ | ⟨behind', rfl, hbehind'⟩
    · have hs := split_of_part hf hpart hmissing
      have hs' := split_of_part (hf.of_layout hf') hpart' hmissing'
      exact ⟨0, buffer, buffer', Nat.zero_le _, hincomplete hs, hincomplete hs', h, h', hlength,
        hs, hs'⟩
    · rw [List.length_append] at hlength
      omega
    · rw [List.length_append] at hlength
      omega
    · have hlength' : behind'.length = behind.length := by
        rw [List.length_append, List.length_append] at hlength
        omega
      obtain ⟨n, rest, rest', hread⟩ := ih hfs hfs' hbehind hbehind' hlength'
      refine ⟨n + 1, rest, rest',
        { hread with le := Nat.succ_le_succ hread.le, drain := ?_, drain' := ?_ }⟩
      · have hnext := split_bytes hf behind
        rw [Decoder.drain_of_item (d := .frames) (Decoder.next_of_frame hnext rfl), hread.drain]
        rfl
      · have hnext := split_bytes (hf.of_layout hf') behind'
        rw [Decoder.drain_of_item (d := .frames) (Decoder.next_of_frame hnext rfl), hread.drain']
        rfl

/-- The length field is at the same place. -/
theorem expectedSize_of_layout (hf : f'.layout = f.layout) (h : buffer ++ more = f.bytes)
    (h' : buffer' ++ more' = f'.bytes) (hlength : buffer'.length = buffer.length) :
    expectedSize buffer' = expectedSize buffer := by
  have hbuffer : buffer = f.bytes.take buffer.length := by rw [← h, List.take_left]
  have hbuffer' : buffer' = f'.bytes.take buffer.length := by rw [← h', ← hlength, List.take_left]
  rw [hbuffer, hbuffer']
  generalize buffer.length = n
  match n with
  | 0 | 1 | 2 | 3 | 4 | 5 => rfl
  | n + 6 => simp [bytes, Header.bytes, Word.bytes, expectedSize, length_pdu_of_layout hf]

/-- A part of a stream of frames from which nothing can be split off is a part of the first one. -/
theorem part_of_incomplete (hf : f.IsSendable) (h : buffer ++ more = f.bytes ++ listBytes fs)
    (hs : split buffer = .ok none) : ∃ missing, buffer ++ missing = f.bytes := by
  rcases Bytes.part_or_whole h with ⟨-, missing, -, hpart⟩ | ⟨behind, rfl, -⟩
  · exact ⟨missing, hpart⟩
  · rw [split_bytes hf behind] at hs
    cases hs

/-- Where two such streams end, they end in the same way. -/
theorem drainLast_of_layout (hsendable : ∀ f ∈ fs, f.IsSendable)
    (hlayout : fs'.map layout = fs.map layout) (h : buffer ++ more = listBytes fs)
    (h' : buffer' ++ more' = listBytes fs') (hlength : buffer'.length = buffer.length)
    (hs : split buffer = .ok none) (hs' : split buffer' = .ok none) :
    ∃ e, Decoder.frames.drainLast buffer = ⟨[], e, buffer⟩ ∧
      Decoder.frames.drainLast buffer' = ⟨[], e, buffer'⟩ := by
  by_cases hempty : buffer = []
  · subst hempty
    obtain rfl := List.length_eq_zero_iff.1 hlength
    exact ⟨none, Decoder.drainLast_of_incomplete rfl, Decoder.drainLast_of_incomplete rfl⟩
  · have hempty' : buffer' ≠ [] := fun hnil => hempty (by simpa [hnil] using hlength.symm)
    cases fs with
    | nil => exact absurd (List.append_eq_nil_iff.1 h).1 hempty
    | cons f fs =>
      obtain ⟨f', fs', rfl, hf', -⟩ := List.map_eq_cons_iff.1 hlayout
      have hf := hsendable f List.mem_cons_self
      obtain ⟨missing, hpart⟩ := part_of_incomplete hf h hs
      obtain ⟨missing', hpart'⟩ := part_of_incomplete (hf.of_layout hf') h' hs'
      have hexpected := expectedSize_of_layout hf' hpart hpart' hlength
      refine ⟨_, Decoder.drainLast_of_failed (Decoder.last_of_incomplete hs hempty), ?_⟩
      rw [← hlength, ← hexpected]
      exact Decoder.drainLast_of_failed (Decoder.last_of_incomplete hs' hempty')

end Modbus.Frame
