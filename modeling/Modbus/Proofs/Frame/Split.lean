import Modbus.Frame.Basic

/-!
# Splitting frames off a buffer

A frame whose PDU has an admissible size is split off the front of whatever follows its bytes
(`Frame.split_bytes`), and nothing else is ever split off (`Frame.split_eq_frame`). The answer is
final: it does not change when more bytes come (`Frame.split_append_of_frame`,
`Frame.split_append_of_error`). As long as a part of a frame is missing, there is no answer
(`Frame.split_of_part`). What holds of every buffer is shown along its frames
(`Frame.split_induct`).
-/

namespace Modbus.Frame

/-- Whether the PDU of a frame has an admissible size. -/
structure IsSendable (f : Frame) : Prop where
  pos : 0 < f.pdu.length
  le : f.pdu.length ≤ Pdu.maxSize

variable {f : Frame} {buffer rest : Bytes}

/-- The length field of a frame says how many bytes follow it. -/
theorem IsSendable.toNat_length (h : f.IsSendable) :
    (UInt16.ofNat (f.pdu.length + 1)).toNat = f.pdu.length + 1 := by
  have := h.le
  rw [UInt16.toNat_ofNat', Nat.mod_eq_of_lt]
  simp only [Pdu.maxSize] at this
  omega

theorem length_bytes (f : Frame) : f.bytes.length = Header.size + f.pdu.length := by
  simp [bytes]

/-- A frame is split off the front of what follows its bytes. -/
theorem split_bytes (h : f.IsSendable) (rest : Bytes) :
    split (f.bytes ++ rest) = .ok (some (f, rest)) := by
  have hlen := h.toNat_length
  have hpos := h.pos
  have hle := h.le
  have hbounds : ¬(f.pdu.length + 1 < 2 ∨ Pdu.maxSize + 1 < f.pdu.length + 1) := by omega
  simp only [bytes, Header.bytes, Word.bytes, List.cons_append, List.nil_append, split,
    Word.ofBytes_high_low, ne_eq, not_true_eq_false, if_false, hlen, hbounds,
    Nat.add_sub_cancel, List.length_append]
  rw [if_neg (by omega), List.take_left', List.drop_left'] <;> rfl

/-- What has been split off is an admissible frame, and its bytes were at the front. -/
theorem split_eq_frame (h : split buffer = .ok (some (f, rest))) :
    buffer = f.bytes ++ rest ∧ f.IsSendable := by
  unfold split at h
  split at h
  · rename_i t₁ t₀ p₁ p₀ l₁ l₀ unit behind
    dsimp only at h
    split at h
    · cases h
    · rename_i hprotocol
      split at h
      · cases h
      · rename_i hbounds
        split at h
        · cases h
        · rename_i hwhole
          cases h
          have hprotocol : Word.ofBytes p₁ p₀ = 0 := Decidable.not_not.1 hprotocol
          have htake : (behind.take ((Word.ofBytes l₁ l₀).toNat - 1)).length + 1
              = (Word.ofBytes l₁ l₀).toNat := by
            rw [List.length_take]
            omega
          constructor
          · simp only [bytes, Header.bytes, htake, UInt16.ofNat_toNat, ← hprotocol,
              Word.bytes_ofBytes]
            simp
          · constructor <;> simp only [] <;> omega
  · cases h

/-- What holds of every buffer is shown along the frames at its front: the stream is broken, or a
frame is incomplete, or a frame is split off and the rest is shorter. -/
theorem split_induct {motive : Bytes → Prop}
    (broken : ∀ buffer e, split buffer = .error e → motive buffer)
    (incomplete : ∀ buffer, split buffer = .ok none → motive buffer)
    (frame : ∀ buffer f rest, split buffer = .ok (some (f, rest)) → motive rest → motive buffer)
    (buffer : Bytes) : motive buffer := by
  induction hn : buffer.length using Nat.strongRecOn generalizing buffer with
  | ind n ih =>
    cases hs : split buffer with
    | error e => exact broken buffer e hs
    | ok result =>
      cases result with
      | none => exact incomplete buffer hs
      | some result =>
        exact frame buffer result.1 result.2 hs (ih _ (hn ▸ length_lt_of_split hs) _ rfl)

/-- Bytes behind a frame do not matter for it. -/
theorem split_append_of_frame (h : split buffer = .ok (some (f, rest))) (more : Bytes) :
    split (buffer ++ more) = .ok (some (f, rest ++ more)) := by
  obtain ⟨rfl, hf⟩ := split_eq_frame h
  rw [List.append_assoc]
  exact split_bytes hf _

/-- A broken stream stays broken. -/
theorem split_append_of_error {e : FrameError} (h : split buffer = .error e) (more : Bytes) :
    split (buffer ++ more) = .error e := by
  unfold split at h
  split at h
  · dsimp only at h
    simp only [List.cons_append, split]
    split at h
    · rw [if_pos ‹_›]
      exact h
    · rw [if_neg ‹_›]
      split at h
      · rw [if_pos ‹_›]
        exact h
      · split at h <;> cases h
  · cases h

/-- A part of a frame from which bytes are missing at the end is not split. -/
theorem split_of_part (hf : f.IsSendable) {more : Bytes} (h : buffer ++ more = f.bytes)
    (hmore : more ≠ []) : split buffer = .ok none := by
  have hwhole : split (buffer ++ more) = .ok (some (f, [])) := by
    rw [h, ← List.append_nil f.bytes]
    exact split_bytes hf []
  cases hs : split buffer with
  | error e => rw [split_append_of_error hs] at hwhole; cases hwhole
  | ok r =>
    cases r with
    | none => rfl
    | some r =>
      obtain ⟨g, rest⟩ := r
      rw [split_append_of_frame hs] at hwhole
      have hrest : rest ++ more = [] := by
        injection hwhole with hwhole
        injection hwhole with hwhole
        exact (Prod.mk.inj hwhole).2
      exact absurd (List.append_eq_nil_iff.1 hrest).2 hmore

end Modbus.Frame
