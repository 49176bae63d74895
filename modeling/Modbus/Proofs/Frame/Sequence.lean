import Modbus.Proofs.Frame.Chunks

/-!
# Frames one after another

Frames that are written one behind the other are split off again one by one, and what is behind
them stays in the buffer, whatever it is. Nothing but admissible frames is ever split off, and their
bytes followed by what is left are the bytes that were in the buffer
(`Frame.splitMany_iff_listBytes`). The length field of a header is all that says where a frame ends.

A master that reads its buffer splits off frames one by one until nothing can be split off any more,
so it loses no byte (`Frame.splitMany_drain`, `Frame.splitMany_drainLast`).
-/

namespace Modbus

namespace Frame

/-- The bytes of frames, one after another. -/
def listBytes (fs : List Frame) : Bytes := fs.flatMap bytes

@[simp] theorem listBytes_nil : listBytes [] = [] := rfl

@[simp] theorem listBytes_cons (f : Frame) (fs : List Frame) :
    listBytes (f :: fs) = f.bytes ++ listBytes fs := rfl

@[simp] theorem listBytes_append (fs fs' : List Frame) :
    listBytes (fs ++ fs') = listBytes fs ++ listBytes fs' := List.flatMap_append

/-- Takes a number of frames off a buffer, or gives nothing if the buffer does not hold as many. -/
def splitMany : Nat → Bytes → Except FrameError (Option (List Frame × Bytes))
  | 0, buffer => .ok (some ([], buffer))
  | n + 1, buffer =>
    match split buffer with
    | .error e => .error e
    | .ok none => .ok none
    | .ok (some (f, rest)) =>
      match splitMany n rest with
      | .ok (some (fs, rest)) => .ok (some (f :: fs, rest))
      | result => result

variable {n : Nat} {buffer rest : Bytes} {f : Frame} {fs : List Frame}

/-- A frame is split off, and then others are taken off what is left. -/
theorem splitMany_succ (h : split buffer = .ok (some (f, rest))) {fs : List Frame} {rest' : Bytes}
    (hlater : splitMany n rest = .ok (some (fs, rest'))) :
    splitMany (n + 1) buffer = .ok (some (f :: fs, rest')) := by
  simp only [splitMany, h, hlater]

/-- Frames that have been taken off start with one that is split off. -/
theorem splitMany_succ_inv (h : splitMany (n + 1) buffer = .ok (some (fs, rest))) :
    ∃ f behind fs', split buffer = .ok (some (f, behind)) ∧
      splitMany n behind = .ok (some (fs', rest)) ∧ fs = f :: fs' := by
  unfold splitMany at h
  split at h
  · cases h
  · cases h
  · rename_i f behind hs
    split at h
    · rename_i fs' rest' hlater
      cases h
      exact ⟨f, behind, fs', hs, hlater, rfl⟩
    · rename_i hnone
      exact absurd h (hnone fs rest)

/-- Admissible frames are taken off the front of what follows them. -/
theorem splitMany_listBytes (h : ∀ f ∈ fs, f.IsSendable) (rest : Bytes) :
    splitMany fs.length (listBytes fs ++ rest) = .ok (some (fs, rest)) := by
  induction fs with
  | nil => rfl
  | cons f fs ih =>
    obtain ⟨hf, hfs⟩ := List.forall_mem_cons.1 h
    rw [listBytes_cons, List.append_assoc]
    exact splitMany_succ (split_bytes hf _) (ih hfs)

/-- What has been taken off are admissible frames, and their bytes were at the front. -/
theorem splitMany_inv (h : splitMany n buffer = .ok (some (fs, rest))) :
    fs.length = n ∧ (∀ f ∈ fs, f.IsSendable) ∧ listBytes fs ++ rest = buffer := by
  induction n generalizing buffer fs with
  | zero =>
    cases h
    exact ⟨rfl, by simp, rfl⟩
  | succ n ih =>
    obtain ⟨f, behind, fs', hs, hlater, rfl⟩ := splitMany_succ_inv h
    obtain ⟨rfl, hf⟩ := split_eq_frame hs
    obtain ⟨hlength, hfs, rfl⟩ := ih hlater
    refine ⟨congrArg (· + 1) hlength, List.forall_mem_cons.2 ⟨hf, hfs⟩, ?_⟩
    rw [listBytes_cons, List.append_assoc]

/-- **Splitting undoes writing frame after frame.** As many frames as have been written are taken
off the front of whatever follows them, and exactly this is left. Conversely, all that is ever taken
off are admissible frames whose bytes were at the front of the buffer. -/
theorem splitMany_iff_listBytes (n : Nat) (buffer rest : Bytes) (fs : List Frame) (f : Frame) :
    (splitMany n buffer = .ok (some (fs, rest)) ↔
      fs.length = n ∧ (∀ f ∈ fs, f.IsSendable) ∧ listBytes fs ++ rest = buffer) ∧
    (split buffer = .ok (some (f, rest)) ↔ f.IsSendable ∧ f.bytes ++ rest = buffer) := by
  refine ⟨⟨splitMany_inv, ?_⟩, ⟨fun h => ?_, ?_⟩⟩
  · rintro ⟨rfl, hfs, rfl⟩
    exact splitMany_listBytes hfs rest
  · obtain ⟨hbytes, hf⟩ := split_eq_frame h
    exact ⟨hf, hbytes.symm⟩
  · rintro ⟨hf, rfl⟩
    exact split_bytes hf rest

/-! ## Reading a buffer -/

/-- What a master reads of a buffer are frames that are taken off it one after another. -/
theorem splitMany_drain (buffer : Bytes) :
    splitMany (Decoder.frames.drain buffer).items.length buffer =
      .ok (some ((Decoder.frames.drain buffer).items, (Decoder.frames.drain buffer).rest)) := by
  induction buffer using split_induct with
  | broken buffer e hs =>
    rw [Decoder.drain_of_failed (d := .frames) (Decoder.next_of_error hs)]
    rfl
  | incomplete buffer hs =>
    rw [Decoder.drain_of_incomplete (d := .frames) (Decoder.next_of_incomplete hs)]
    rfl
  | frame buffer f rest hs ih =>
    rw [Decoder.drain_of_item (d := .frames) (Decoder.next_of_frame hs rfl)]
    exact splitMany_succ hs ih

/-- So is what it reads of a buffer behind which nothing comes. -/
theorem splitMany_drainLast (buffer : Bytes) :
    splitMany (Decoder.frames.drainLast buffer).items.length buffer =
      .ok (some ((Decoder.frames.drainLast buffer).items,
        (Decoder.frames.drainLast buffer).rest)) := by
  have hreading : Decoder.IsReading .ok buffer (Decoder.frames.drainLast buffer) :=
    Decoder.isReading_drainLast .ok buffer
  generalize Decoder.frames.drainLast buffer = r at *
  induction hreading with
  | ended | truncated | broken => rfl
  | malformed _ hread => cases hread
  | item hs hread _ ih =>
    cases hread
    exact splitMany_succ hs ih

end Frame

end Modbus
