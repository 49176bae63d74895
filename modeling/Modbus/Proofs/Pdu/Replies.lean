import Modbus.Proofs.Pdu.Canonical

/-!
# Replies have one encoding

A reply comes in two forms that the highest bit of its first byte tells apart. A canonical reply is
a response of an ordinary function that fits into a PDU, or an exception whose function is named by
a code below `0x80` and whose own code has the name of its byte (`Reply.IsCanonical`). Decoding
accepts exactly the encodings of canonical replies, and no PDU is read in both forms
(`Reply.decode_iff_canonical`).

The decoder of exceptions does not look at the size of what it reads; its check for bytes behind the
last field bounds it all the same (`ExceptionResponse.decode_inv`).
-/

namespace Modbus

open Pdu

namespace FunctionCode

/-- The code of an ordinary function is read as this function. -/
theorem isOrdinary_ofByte {b : UInt8} (h : b < 0x80) : (ofByte b).IsOrdinary := by
  unfold ofByte
  split
  · trivial
  · split
    · trivial
    · split
      · trivial
      · exact ⟨h, ‹_›, ‹_›, ‹_›⟩

/-- The ordinary functions are those that are named by the codes below `0x80`. -/
theorem isOrdinary_iff {f : FunctionCode} : f.IsOrdinary ↔ ∃ b < 0x80, f = ofByte b := by
  constructor
  · exact fun h => ⟨f.byte, h.byte_lt, h.ofByte_byte.symm⟩
  · rintro ⟨b, hb, rfl⟩
    exact isOrdinary_ofByte hb

end FunctionCode

/-! ## Responses -/

namespace Response

variable {bs rest : Bytes} {r : Response}

/-- The count of bytes is that of the words behind it. -/
theorem takeRead_inv {words : List Word} (h : takeRead bs = .ok (words, rest)) :
    bs = UInt8.ofNat (2 * words.length) :: (Word.listBytes words ++ rest) := by
  obtain ⟨⟨count, behind⟩, hbyte, hwords⟩ := bind_inv h
  obtain ⟨hcount, hbytes⟩ := takeByteCount_inv hwords
  rw [takeByte_inv hbyte, hbytes, ← hcount, UInt8.ofNat_toNat]

/-- The fields that have been read behind a function code are those of an ordinary response. -/
theorem decodeFields_inv {code : UInt8} {fields : Bytes}
    (h : decodeFields code fields = .ok r) : r.function.IsOrdinary ∧ r.bytes = code :: fields := by
  unfold decodeFields at h
  split at h
  · -- a response to a read
    subst code
    obtain ⟨words, hfields, h⟩ := bind_inv h
    cases h
    refine ⟨trivial, ?_⟩
    rw [takeRead_inv (complete_inv hfields), List.append_nil]
    rfl
  split at h
  · -- a response to a single write
    subst code
    obtain ⟨⟨address, word⟩, hfields, h⟩ := bind_inv h
    cases h
    refine ⟨trivial, ?_⟩
    rw [takePair_inv (complete_inv hfields), List.append_nil]
    rfl
  split at h
  · -- a response to a multiple write
    subst code
    obtain ⟨⟨address, quantity⟩, hfields, h⟩ := bind_inv h
    cases h
    refine ⟨trivial, ?_⟩
    rw [takePair_inv (complete_inv hfields), List.append_nil]
    rfl
  split at h <;> rename_i hlt
  · -- a custom response
    cases h
    exact ⟨⟨hlt, ‹_›, ‹_›, ‹_›⟩, rfl⟩
  · cases h

/-- What has been read is an ordinary response that fits into a PDU, and its encoding is what has
been read. -/
theorem decode_inv (h : Response.decode bs = .ok r) :
    r.function.IsOrdinary ∧ r.size ≤ maxSize ∧ r.bytes = bs := by
  obtain ⟨⟨code, fields⟩, htake, hfields⟩ := bind_inv h
  obtain ⟨rfl, hsize⟩ := limited_takeByte_inv htake
  obtain ⟨hordinary, hbytes⟩ := decodeFields_inv hfields
  refine ⟨hordinary, ?_, hbytes⟩
  rwa [← r.length_bytes, hbytes]

/-- The size of a response that fits into a PDU. -/
theorem size?_eq_ok {n : Nat} : r.size? = .ok n ↔ r.size = n ∧ r.size ≤ maxSize := by
  unfold size?
  split <;> simp [*]

end Response

/-! ## Exceptions -/

namespace ExceptionResponse

/-- A byte with the highest bit set is the marked code that is left without the bit. -/
theorem mark_unmarked {b : UInt8} (h : ¬ b < 0x80) : b - 0x80 < 0x80 ∧ (b - 0x80) ||| 0x80 = b := by
  have hle : (0x80 : UInt8) ≤ b := UInt8.not_lt.1 h
  have hlt : b - 0x80 < 0x80 := by
    have := b.toNat_lt
    rw [UInt8.lt_iff_toNat_lt, UInt8.toNat_sub_of_le _ _ hle]
    simp only [UInt8.reduceToNat]
    omega
  exact ⟨hlt, (UInt8.sub_left_inj 0x80).1 (mark_exception hlt).2⟩

/-- What has been read is an exception of an ordinary function, with the name of its code, and its
encoding is what has been read. -/
theorem decode_inv {bs : Bytes} {e : ExceptionResponse}
    (h : ExceptionResponse.decode bs = .ok e) :
    (∃ code < 0x80, e.function = .ofByte code) ∧ e.exception = .ofByte e.exception.byte ∧
      e.bytes = bs := by
  obtain ⟨⟨marked, rest⟩, hbyte, h⟩ := bind_inv h
  dsimp only at h
  split at h
  · cases h
  · rename_i hmarked
    obtain ⟨code, hcode, h⟩ := bind_inv h
    cases h
    obtain ⟨hlt, hmark⟩ := mark_unmarked hmarked
    refine ⟨⟨marked - 0x80, hlt, rfl⟩, by rw [ExceptionCode.byte_ofByte], ?_⟩
    rw [takeByte_inv hbyte, takeByte_inv (complete_inv hcode)]
    simp only [bytes, FunctionCode.byte_ofByte, ExceptionCode.byte_ofByte, hmark]

end ExceptionResponse

/-! ## Replies -/

namespace Reply

/-- The replies that an encoding stands for. -/
inductive IsCanonical : Reply → Prop where
  /-- A response that fits into a PDU. Its function is not that of an exception, and not a custom
  one with the code of a named one. -/
  | response {r : Response} (hf : r.function.IsOrdinary) (hs : ∃ n, r.size? = .ok n) :
    IsCanonical (.ok r)
  /-- An exception whose function and whose own code have the names of their bytes. -/
  | exception {e : ExceptionResponse} (hf : ∃ code < 0x80, e.function = .ofByte code)
    (he : e.exception = .ofByte e.exception.byte) : IsCanonical (.error e)

variable {bs : Bytes} {r : Reply}

/-- A canonical reply is read back. -/
theorem IsCanonical.decode_bytes (h : r.IsCanonical) : Reply.decode r.bytes = .ok r := by
  cases h with
  | response hf hs =>
    obtain ⟨n, hn⟩ := hs
    have hsize := (Response.size?_eq_ok.1 hn).2
    refine Reply.decode_bytes hf (fun r' hr => ?_) (by simp)
    cases hr
    exact hsize
  | exception hf he =>
    refine Reply.decode_bytes (FunctionCode.isOrdinary_iff.2 hf) (by simp) (fun e' hr => ?_)
    cases hr
    exact he.symm

/-- What has been read is a canonical reply, its encoding is what has been read, and the size that
is announced for it is the number of the bytes. -/
theorem decode_inv (h : Reply.decode bs = .ok r) :
    r.IsCanonical ∧ r.bytes = bs ∧ r.size? = .ok bs.length := by
  obtain ⟨⟨code, rest⟩, hbyte, h⟩ := bind_inv h
  dsimp only at h
  split at h
  · obtain ⟨response, hdecode, h⟩ := bind_inv h
    cases h
    obtain ⟨hf, hs, hbytes⟩ := Response.decode_inv hdecode
    have hsize : response.size? = .ok bs.length :=
      Response.size?_eq_ok.2 ⟨by rw [← response.length_bytes, hbytes], hs⟩
    exact ⟨.response hf ⟨_, hsize⟩, hbytes, hsize⟩
  · obtain ⟨e, hdecode, h⟩ := bind_inv h
    cases h
    obtain ⟨hf, he, rfl⟩ := ExceptionResponse.decode_inv hdecode
    exact ⟨.exception hf he, rfl, rfl⟩

/-- A PDU that is read as a response has a first byte that no exception has. -/
theorem not_exception_of_response {response : Response} (h : Response.decode bs = .ok response)
    (e : ExceptionResponse) : ExceptionResponse.decode bs ≠ .ok e := by
  intro hdecode
  obtain ⟨hf, -, hresponse⟩ := Response.decode_inv h
  obtain ⟨hf', -, hexception⟩ := ExceptionResponse.decode_inv hdecode
  have hmark := (mark_exception (FunctionCode.isOrdinary_iff.2 hf').byte_lt).1
  have hfirst : response.function.byte = e.function.byte ||| 0x80 :=
    (List.cons.inj (hresponse.trans hexception.symm)).1
  exact hmark (hfirst ▸ hf.byte_lt)

/-- **Decoding and encoding replies are inverse to each other.** A PDU is read as a reply if and
only if the reply is canonical and the PDU is its encoding; the size that is announced for it is
then the length of the PDU. So no PDU is the encoding of two canonical replies, and none is both
that of a response and that of an exception. -/
theorem decode_iff_canonical (bs : Bytes) (r : Reply) :
    (Reply.decode bs = .ok r ↔ r.IsCanonical ∧ r.bytes = bs) ∧
    (Reply.decode bs = .ok r → r.size? = .ok bs.length) ∧
    (∀ r' : Reply, r.IsCanonical → r'.IsCanonical → r.bytes = r'.bytes → r = r') ∧
    ∀ response e, Response.decode bs = .ok response → ExceptionResponse.decode bs ≠ .ok e := by
  refine ⟨⟨fun h => ?_, ?_⟩, fun h => (decode_inv h).2.2, fun r' h h' heq => ?_,
    fun response e h => not_exception_of_response h e⟩
  · obtain ⟨hcanonical, hbytes, -⟩ := decode_inv h
    exact ⟨hcanonical, hbytes⟩
  · rintro ⟨hcanonical, rfl⟩
    exact hcanonical.decode_bytes
  · have hdecode := h.decode_bytes
    rw [heq, h'.decode_bytes] at hdecode
    exact (Except.ok.inj hdecode).symm

/-- Two bytes are read as an exception of a function and with a code that have no names. No other
canonical reply has these bytes, and they are no response. -/
theorem decode_iff_canonical_unnamed :
    let bs : Bytes := [0xAB, 0x07]
    let r : Reply := .error ⟨.custom 0x2B, .custom 0x07⟩
    Reply.decode bs = .ok r ∧ r.size? = .ok bs.length ∧
      (∀ r' : Reply, r'.IsCanonical → bs = r'.bytes → r = r') ∧
      ∀ response, Response.decode bs ≠ .ok response := by
  intro bs r
  have hcanonical : r.IsCanonical := .exception ⟨0x2B, by decide, by decide⟩ (by decide)
  have hbytes : r.bytes = bs := by decide
  obtain ⟨hiff, hsize, hunique, hforms⟩ := decode_iff_canonical bs r
  have hdecode := hiff.2 ⟨hcanonical, hbytes⟩
  refine ⟨hdecode, hsize hdecode, fun r' h' heq => ?_, fun response hresponse => ?_⟩
  · exact hunique r' hcanonical h' (hbytes.trans heq)
  · exact hforms response ⟨.custom 0x2B, .custom 0x07⟩ hresponse rfl

end Reply

end Modbus
