import Modbus.Proofs.Frame.Drain

/-!
# What is told of a truncated frame

A stream that ends inside a frame is reported with two numbers: the bytes of the frame that are
there, and the bytes that it should have (`Decoder.last_truncated_inv`). The second number is read
off the length field as soon as this is there, even if the byte of the unit behind it is missing;
with this byte the header is complete, and its fields are checked before anything else. So the field
of a header from which only the unit is missing has not been checked. If it is zero, such a header
is reported as six bytes of six (`Decoder.nothing_missing_of_stub`), as if it lacked nothing.
`Frame.length_lt_expectedSize_iff` says that there is no other such case.
-/

namespace Modbus

namespace Frame

variable {buffer : Bytes}

/-- Whether a buffer holds just a header without its unit, and the length field of the header is
zero. -/
def IsStub (buffer : Bytes) : Prop := ∃ t₁ t₀ p₁ p₀, buffer = [t₁, t₀, p₁, p₀, 0, 0]

theorem toNat_ofBytes_eq_zero_iff (hi lo : UInt8) :
    (Word.ofBytes hi lo).toNat = 0 ↔ hi = 0 ∧ lo = 0 := by
  rw [Word.toNat_ofBytes, ← UInt8.toNat_inj, ← UInt8.toNat_inj]
  simp only [UInt8.reduceToNat]
  omega

/-- More bytes are expected than there are, unless the length field of a header without its unit is
zero; then as many are expected as there are. -/
theorem length_lt_expectedSize_iff (hs : split buffer = .ok none) :
    buffer.length ≤ expectedSize buffer ∧
      (buffer.length < expectedSize buffer ↔ ¬ IsStub buffer) := by
  match buffer with
  | [] | [_] | [_, _] | [_, _, _] | [_, _, _, _] | [_, _, _, _, _] =>
    -- the length field is not there yet
    simp [expectedSize, Header.size, IsStub]
  | [t₁, t₀, p₁, p₀, l₁, l₀] =>
    have hzero := toNat_ofBytes_eq_zero_iff l₁ l₀
    have hstub : IsStub [t₁, t₀, p₁, p₀, l₁, l₀] ↔ l₁ = 0 ∧ l₀ = 0 := by simp [IsStub]
    rw [hstub, ← hzero]
    simp only [expectedSize, List.length_cons, List.length_nil]
    omega
  | t₁ :: t₀ :: p₁ :: p₀ :: l₁ :: l₀ :: unit :: rest =>
    -- the header has been checked, and bytes of the PDU are missing
    have hstub : ¬ IsStub (t₁ :: t₀ :: p₁ :: p₀ :: l₁ :: l₀ :: unit :: rest) := by simp [IsStub]
    simp only [split] at hs
    split at hs
    · cases hs
    split at hs
    · cases hs
    split at hs
    · simp only [expectedSize, List.length_cons, hstub, not_false_iff, iff_true]
      omega
    · cases hs

/-- Splitting a buffer does not fail because a frame is truncated: more bytes may come. -/
theorem split_ne_truncated (received expected : Nat) :
    split buffer ≠ .error (.truncated received expected) := by
  intro hs
  unfold split at hs
  split at hs
  · dsimp only at hs
    split at hs
    · cases hs
    · split at hs
      · cases hs
      · split at hs <;> cases hs
  · cases hs

/-- The size that is expected is told by the bytes up to the length field. -/
theorem expectedSize_append (hlength : 6 ≤ buffer.length) (more : Bytes) :
    expectedSize (buffer ++ more) = expectedSize buffer := by
  rcases buffer with _ | ⟨t₁, _ | ⟨t₀, _ | ⟨p₁, _ | ⟨p₀, _ | ⟨l₁, _ | ⟨l₀, rest⟩⟩⟩⟩⟩⟩
  case cons.cons.cons.cons.cons.cons => rfl
  all_goals
    simp only [List.length_cons, List.length_nil] at hlength
    omega

/-- From the length field on, a part of a frame tells the size of the frame. -/
theorem expectedSize_of_part {f : Frame} (hf : f.IsSendable) {missing : Bytes}
    (h : buffer ++ missing = f.bytes) (hlength : 6 ≤ buffer.length) :
    expectedSize buffer = f.bytes.length := by
  rw [← expectedSize_append hlength missing, h, length_bytes]
  simp only [bytes, Header.bytes, Word.bytes, List.cons_append, List.nil_append, expectedSize,
    Word.ofBytes_high_low, hf.toNat_length, Header.size]
  omega

end Frame

namespace Decoder

variable {α : Type} {read : Frame → Except PduError α} {buffer rest : Bytes}
  {received expected : Nat}

/-- A frame is reported as truncated only if the buffer holds a part of a frame, of which the
numbers are told. The buffer is left as it is. -/
theorem last_truncated_inv
    (h : (ofFrames read).last buffer = .failed (.frame (.truncated received expected)) rest) :
    Frame.split buffer = .ok none ∧ received = buffer.length ∧
      expected = Frame.expectedSize buffer ∧ rest = buffer := by
  cases hs : Frame.split buffer with
  | error e =>
    rw [last_of_split (by simp [hs]), next_of_error hs] at h
    cases h
    exact absurd hs (Frame.split_ne_truncated _ _)
  | ok result =>
    cases result with
    | none =>
      by_cases hempty : buffer = []
      · subst hempty
        cases h
      · rw [last_of_incomplete hs hempty] at h
        cases h
        exact ⟨rfl, rfl, rfl, rfl⟩
    | some result =>
      obtain ⟨f, behind⟩ := result
      rw [last_of_split (by simp [hs])] at h
      cases hread : read f with
      | error cause => rw [next_of_malformed hs hread] at h; cases h
      | ok a => rw [next_of_frame hs hread] at h; cases h

/-- What is reported of a buffer in which a stream ends. -/
structure ReportsTruncation (d : Decoder α) (buffer : Bytes) : Prop where
  /-- The received bytes are those of the buffer, and they stay there. -/
  received : ∀ {received expected rest},
    d.last buffer = .failed (.frame (.truncated received expected)) rest →
      received = buffer.length ∧ rest = buffer
  /-- More bytes are expected, unless the buffer is a stub. -/
  expected : ∀ {received expected rest},
    d.last buffer = .failed (.frame (.truncated received expected)) rest →
      received ≤ expected ∧ (received < expected ↔ ¬ Frame.IsStub buffer)
  /-- Of a part of a frame in which the length field is there, the size of the frame is told. -/
  part : ∀ {f : Frame} {missing : Bytes}, f.IsSendable → missing ≠ [] →
    buffer ++ missing = f.bytes → 6 ≤ buffer.length →
      d.last buffer = .failed (.frame (.truncated buffer.length f.bytes.length)) buffer
  /-- Nothing of the kind is told if there is a whole frame at the front. -/
  whole : ∀ {f : Frame} {behind : Bytes}, f.IsSendable → buffer = f.bytes ++ behind →
    ∀ {received expected rest}, d.last buffer ≠ .failed (.frame (.truncated received expected)) rest

theorem reportsTruncation_ofFrames (read : Frame → Except PduError α) (buffer : Bytes) :
    (ofFrames read).ReportsTruncation buffer := by
  constructor
  case received =>
    intro received expected rest h
    obtain ⟨-, hreceived, -, hrest⟩ := last_truncated_inv h
    exact ⟨hreceived, hrest⟩
  case expected =>
    intro received expected rest h
    obtain ⟨hs, rfl, rfl, -⟩ := last_truncated_inv h
    exact Frame.length_lt_expectedSize_iff hs
  case part =>
    intro f missing hf hmissing hpart hlength
    have hne : buffer ≠ [] := by
      rintro rfl
      cases hlength
    rw [last_of_incomplete (Frame.split_of_part hf hpart hmissing) hne,
      Frame.expectedSize_of_part hf hpart hlength]
  case whole =>
    rintro f behind hf rfl received expected rest h
    obtain ⟨hs, -⟩ := last_truncated_inv h
    rw [Frame.split_bytes hf behind] at hs
    cases hs

/-- **What is reported of a truncated frame is true, except of a stub**: the number of received
bytes is that of the buffer, which is left as it is, and more are expected; a whole frame at the
front is never reported so. Of a stub, as many bytes are expected as have been received. -/
theorem reports_truncation (buffer : Bytes) :
    frames.ReportsTruncation buffer ∧ requests.ReportsTruncation buffer :=
  ⟨reportsTruncation_ofFrames _ buffer, reportsTruncation_ofFrames _ buffer⟩

/-- A header that ends behind a length field of zero is reported as truncated, and no byte of it is
missing. -/
theorem nothing_missing_of_stub :
    let buffer : Bytes := [0, 1, 0, 0, 0, 0]
    ∃ received expected,
      frames.last buffer = .failed (.frame (.truncated received expected)) buffer ∧
        requests.last buffer = .failed (.frame (.truncated received expected)) buffer ∧
        ¬ received < expected :=
  ⟨6, 6, rfl, rfl, Nat.lt_irrefl 6⟩

end Decoder

end Modbus
