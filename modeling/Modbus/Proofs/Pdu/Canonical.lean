import Modbus.Proofs.Pdu.RoundTrip

/-!
# Requests have one encoding

The decoder of requests accepts nothing but encodings (`Request.decode_inv`): what has been read is
a request of an ordinary function that fits into a PDU, and its encoding is the PDU that has been
read, byte for byte. Together with `Request.decode_bytes` this makes decoding and encoding inverse
to each other (`Request.decode_iff_encodes`).

Each reader of a field is read backwards by one lemma: the bytes were those of the field, followed
by the rest. The counts of a request to write several registers are two fields of different width;
the check of one against the other keeps both from being cut off.
-/

namespace Modbus

/-- A computation of two parts succeeds only if both do. -/
theorem bind_inv {ε α β : Type} {x : Except ε α} {f : α → Except ε β} {b : β}
    (h : x >>= f = .ok b) : ∃ a, x = .ok a ∧ f a = .ok b := by
  cases x with
  | error e => cases h
  | ok a => exact ⟨a, rfl, h⟩

/-- If the first part fails, so does the whole. -/
theorem bind_of_error {ε α β : Type} {x : Except ε α} {e : ε} (h : x = .error e)
    (f : α → Except ε β) : x >>= f = .error e := by
  rw [h]
  rfl

namespace Pdu

variable {bs rest : Bytes}

theorem takeByte_inv {b : UInt8} (h : takeByte bs = .ok (b, rest)) : bs = b :: rest := by
  cases bs with
  | nil => cases h
  | cons => cases h; rfl

theorem takeWord_inv {w : Word} (h : takeWord bs = .ok (w, rest)) :
    bs = Word.bytes w ++ rest := by
  unfold takeWord at h
  split at h
  · cases h
    rw [Word.bytes_ofBytes]
    rfl
  · cases h

/-- As many words are read as have been asked for. -/
theorem takeWords_inv {n : Nat} {ws : List Word} (h : takeWords n bs = .ok (ws, rest)) :
    ws.length = n ∧ bs = Word.listBytes ws ++ rest := by
  induction n generalizing bs ws with
  | zero =>
    cases h
    exact ⟨rfl, rfl⟩
  | succ n ih =>
    obtain ⟨⟨w, behind⟩, hword, h⟩ := bind_inv h
    obtain ⟨⟨ws', rest'⟩, hwords, h⟩ := bind_inv h
    cases h
    obtain ⟨hlength, rfl⟩ := ih hwords
    refine ⟨congrArg (· + 1) hlength, ?_⟩
    rw [takeWord_inv hword, Word.listBytes_cons, List.append_assoc]

theorem takePair_inv {address : Address} {word : Word}
    (h : takePair bs = .ok ((address, word), rest)) :
    bs = Word.bytes address ++ (Word.bytes word ++ rest) := by
  obtain ⟨⟨address', behind⟩, haddress, h⟩ := bind_inv h
  obtain ⟨⟨word', rest'⟩, hword, h⟩ := bind_inv h
  cases h
  rw [takeWord_inv haddress, takeWord_inv hword]

/-- The count is the number of bytes of the words that have been read. -/
theorem takeByteCount_inv {count : UInt8} {ws : List Word}
    (h : takeByteCount count bs = .ok (ws, rest)) :
    count.toNat = 2 * ws.length ∧ bs = Word.listBytes ws ++ rest := by
  unfold takeByteCount at h
  split at h
  · obtain ⟨hlength, hbytes⟩ := takeWords_inv h
    exact ⟨by omega, hbytes⟩
  · cases h

/-- Fields that have been read completely leave nothing. -/
theorem complete_inv {α : Type} {kind : MessageKind} {x : Except PduError (α × Bytes)} {a : α}
    (h : x >>= complete kind = .ok a) : x = .ok (a, []) := by
  obtain ⟨⟨a', rest⟩, hx, h⟩ := bind_inv h
  cases rest with
  | nil => cases h; exact hx
  | cons => cases h

theorem limited_inv {kind : MessageKind} {bs' : Bytes} (h : limited kind bs = .ok bs') :
    bs' = bs ∧ bs.length ≤ maxSize := by
  unfold limited at h
  split at h
  · cases h
    exact ⟨rfl, ‹_›⟩
  · cases h

/-- What a function code is read from fits into a PDU. -/
theorem limited_takeByte_inv {kind : MessageKind} {code : UInt8} {fields : Bytes}
    (h : limited kind bs >>= takeByte = .ok (code, fields)) :
    bs = code :: fields ∧ bs.length ≤ maxSize := by
  obtain ⟨bs', hlimited, hbyte⟩ := bind_inv h
  obtain ⟨rfl, hsize⟩ := limited_inv hlimited
  exact ⟨takeByte_inv hbyte, hsize⟩

end Pdu

open Pdu

namespace Request

/-- The counts of registers and bytes are those of the words behind them. -/
theorem takeMultiple_inv {bs rest : Bytes} {address : Address} {words : List Word}
    (h : takeMultiple bs = .ok ((address, words), rest)) :
    bs = Word.bytes address ++ Word.bytes (UInt16.ofNat words.length) ++
      UInt8.ofNat (2 * words.length) :: (Word.listBytes words ++ rest) := by
  obtain ⟨⟨⟨address', quantity⟩, behind⟩, hpair, h⟩ := bind_inv h
  obtain ⟨⟨count, behind'⟩, hbyte, h⟩ := bind_inv h
  dsimp only at h
  split at h <;> rename_i hcount
  · obtain ⟨⟨words', rest'⟩, hwords, h⟩ := bind_inv h
    cases h
    obtain ⟨hcount', hbytes⟩ := takeByteCount_inv hwords
    have hquantity : UInt16.ofNat words'.length = quantity := by
      have hlength : words'.length = quantity.toNat := by omega
      rw [hlength, UInt16.ofNat_toNat]
    rw [takePair_inv hpair, takeByte_inv hbyte, hbytes, hquantity, ← hcount', UInt8.ofNat_toNat,
      List.append_assoc]
  · cases h

/-- The fields that have been read behind a function code are those of an ordinary request. -/
theorem decodeFields_inv {code : UInt8} {fields : Bytes} {r : Request}
    (h : decodeFields code fields = .ok r) :
    r.function.IsOrdinary ∧ r.bytes = code :: fields := by
  unfold decodeFields at h
  split at h
  · -- a request to read registers
    subst code
    obtain ⟨⟨address, quantity⟩, hfields, h⟩ := bind_inv h
    cases h
    refine ⟨trivial, ?_⟩
    rw [takePair_inv (complete_inv hfields), List.append_nil]
    rfl
  split at h
  · -- a request to write a register
    subst code
    obtain ⟨⟨address, word⟩, hfields, h⟩ := bind_inv h
    cases h
    refine ⟨trivial, ?_⟩
    rw [takePair_inv (complete_inv hfields), List.append_nil]
    rfl
  split at h
  · -- a request to write several registers
    subst code
    obtain ⟨⟨address, words⟩, hfields, h⟩ := bind_inv h
    cases h
    refine ⟨trivial, ?_⟩
    rw [takeMultiple_inv (complete_inv hfields), List.append_nil]
    rfl
  split at h <;> rename_i hlt
  · -- a custom request
    cases h
    exact ⟨⟨hlt, ‹_›, ‹_›, ‹_›⟩, rfl⟩
  · cases h

/-- What has been read is an ordinary request that fits into a PDU, and its encoding is what has
been read. -/
theorem decode_inv {bs : Bytes} {r : Request} (h : Request.decode bs = .ok r) :
    r.function.IsOrdinary ∧ r.size ≤ maxSize ∧ r.bytes = bs := by
  obtain ⟨⟨code, fields⟩, htake, hfields⟩ := bind_inv h
  obtain ⟨rfl, hsize⟩ := limited_takeByte_inv htake
  obtain ⟨hordinary, hbytes⟩ := decodeFields_inv hfields
  refine ⟨hordinary, ?_, hbytes⟩
  rwa [← r.length_bytes, hbytes]

/-- The size of a request that fits into a PDU. -/
theorem size?_eq_ok {r : Request} {n : Nat} :
    r.size? = .ok n ↔ r.size = n ∧ r.size ≤ maxSize := by
  unfold size?
  split <;> simp [*]

/-- **Decoding and encoding requests are inverse to each other.** A PDU is read as a request if and
only if the request has an ordinary function and fits into a PDU, and the PDU is its encoding; the
size that is announced for it is then the length of the PDU. So no PDU is the encoding of two such
requests. -/
theorem decode_iff_encodes (bs : Bytes) (r : Request) :
    (Request.decode bs = .ok r ↔
      r.function.IsOrdinary ∧ (∃ n, r.size? = .ok n) ∧ r.bytes = bs) ∧
    (Request.decode bs = .ok r → r.size? = .ok bs.length) ∧
    ∀ r' : Request, r.function.IsOrdinary → (∃ n, r.size? = .ok n) →
      r'.function.IsOrdinary → (∃ n, r'.size? = .ok n) → r.bytes = r'.bytes → r = r' := by
  have hdecode {r : Request} (hf : r.function.IsOrdinary) (hs : ∃ n, r.size? = .ok n) :
      Request.decode r.bytes = .ok r := by
    obtain ⟨n, hn⟩ := hs
    exact decode_bytes hf (size?_eq_ok.1 hn).2
  refine ⟨⟨fun h => ?_, ?_⟩, fun h => ?_, fun r' hf hs hf' hs' heq => ?_⟩
  · obtain ⟨hf, hs, hbytes⟩ := decode_inv h
    exact ⟨hf, ⟨r.size, size?_eq_ok.2 ⟨rfl, hs⟩⟩, hbytes⟩
  · rintro ⟨hf, hs, rfl⟩
    exact hdecode hf hs
  · obtain ⟨-, hs, rfl⟩ := decode_inv h
    exact size?_eq_ok.2 ⟨r.length_bytes.symm, hs⟩
  · have h := hdecode hf hs
    rw [heq, hdecode hf' hs'] at h
    exact (Except.ok.inj h).symm

/-- The bytes of a request to write two registers are read as this request, and as no other. -/
theorem decode_iff_encodes_twoRegisters :
    let bs : Bytes := [0x10, 0x00, 0x01, 0x00, 0x02, 0x04, 0xAB, 0xCD, 0x00, 0x07]
    let r : Request := .writeMultipleRegisters 1 [0xABCD, 7]
    Request.decode bs = .ok r ∧ r.bytes = bs ∧ r.size? = .ok bs.length ∧
      ∀ r' : Request, r'.function.IsOrdinary → (∃ n, r'.size? = .ok n) → bs = r'.bytes →
        r = r' := by
  intro bs r
  have hbytes : r.bytes = bs := by decide
  have hf : r.function.IsOrdinary := trivial
  have hs : ∃ n, r.size? = .ok n := ⟨10, rfl⟩
  obtain ⟨hiff, hsize, hunique⟩ := decode_iff_encodes bs r
  have hdecode := hiff.2 ⟨hf, hs, hbytes⟩
  exact ⟨hdecode, hbytes, hsize hdecode,
    fun r' hf' hs' h => hunique r' hf hs hf' hs' (hbytes.trans h)⟩

end Request

end Modbus
