import Modbus.Frame.Message
import Modbus.Proofs.Pdu.Replies

/-!
# Frames of the announced size

The header goes first and tells how many bytes follow it, so the size of a PDU is announced before
its bytes are made. An encoder that relies on the announcement (`Header.write`) puts the header for
the announced size behind what a buffer holds, and behind the header whatever bytes the PDU has; if
no size is announced, it leaves the buffer as it is.

It can rely on it. What fits into a PDU has as many bytes as are announced, and the counts in it,
which have sixteen or eight bits, are those of its words and not what is left of them when they have
been cut off (`Request.isLaidOut_bytes`, `Reply.isLaidOut_bytes`). So the length field of a frame
that is written is the number of the bytes behind it (`Header.writes_as_announced`). To write so is
the same as to append the frame of the message, which takes the length from the PDU itself
(`RequestMessage.write_eq`, `ReplyMessage.write_eq`).
-/

namespace Modbus

/-! ## Encoders -/

/-- Puts a PDU behind what a buffer holds, and in front of it a header that tells the size announced
for it; gives the buffer, which stays as it is if no size is announced. -/
def Header.write (h : Header) (announced : Except PduError Nat) (pdu buffer : Bytes) :
    Except Error Unit × Bytes :=
  match announced with
  | .ok n => (.ok (), buffer ++ h.bytes n ++ pdu)
  | .error cause => (.error (.pdu cause), buffer)

/-- The encoder of a master. -/
def RequestMessage.write (m : RequestMessage) (buffer : Bytes) : Except Error Unit × Bytes :=
  m.header.write m.request.size? m.request.bytes buffer

/-- The encoder of a slave. -/
def ReplyMessage.write (m : ReplyMessage) (buffer : Bytes) : Except Error Unit × Bytes :=
  m.header.write m.reply.size? m.reply.bytes buffer

/-- What an attempt to append to a buffer makes of it: if it fails, the buffer stays as it is. -/
def inPlace (buffer : Bytes) : Except Error Bytes → Except Error Unit × Bytes
  | .ok buffer => (.ok (), buffer)
  | .error e => (.error e, buffer)

/-- The encoder of a master appends the frame of a request. -/
theorem RequestMessage.write_eq (m : RequestMessage) (buffer : Bytes) :
    m.write buffer = inPlace buffer (m.append buffer) := by
  unfold write Header.write append frame?
  cases hs : m.request.size? with
  | error cause => rfl
  | ok n =>
    have hlength : m.request.bytes.length = n :=
      m.request.length_bytes.trans (Request.size?_eq_ok.1 hs).1
    simp only [bind, Except.bind, pure, Except.pure, inPlace, Frame.bytes, hlength,
      List.append_assoc]

/-- The encoder of a slave appends the frame of a reply. -/
theorem ReplyMessage.write_eq (m : ReplyMessage) (buffer : Bytes) :
    m.write buffer = inPlace buffer (m.append buffer) := by
  unfold write Header.write append frame?
  cases hs : m.reply.size? with
  | error cause => rfl
  | ok n =>
    simp only [bind, Except.bind, pure, Except.pure, inPlace, Frame.bytes, Reply.length_bytes hs,
      List.append_assoc]

/-! ## The fields of a PDU -/

/-- Whether bytes are those of a request, field by field: the counts in front of words are the
number of the words and the number of their bytes. -/
inductive Request.IsLaidOut : Request → Bytes → Prop where
  | readHoldingRegisters {address : Address} {quantity : Quantity} :
    IsLaidOut (.readHoldingRegisters address quantity)
      (0x03 :: (Word.bytes address ++ Word.bytes quantity))
  | writeSingleRegister {address : Address} {word : Word} :
    IsLaidOut (.writeSingleRegister address word)
      (0x06 :: (Word.bytes address ++ Word.bytes word))
  | writeMultipleRegisters {address : Address} {words : List Word} {quantity : Quantity}
    {count : UInt8} (hquantity : quantity.toNat = words.length)
    (hcount : count.toNat = 2 * words.length) :
    IsLaidOut (.writeMultipleRegisters address words)
      (0x10 :: (Word.bytes address ++ Word.bytes quantity ++ count :: Word.listBytes words))
  | custom {code : UInt8} {data : Bytes} : IsLaidOut (.custom code data) (code :: data)

/-- Whether bytes are those of a reply, field by field. The first byte of an exception is the code
of the function with the highest bit set, which the code leaves free. -/
inductive Reply.IsLaidOut : Reply → Bytes → Prop where
  | readHoldingRegisters {words : List Word} {count : UInt8}
    (hcount : count.toNat = 2 * words.length) :
    IsLaidOut (.ok (.readHoldingRegisters words)) (0x03 :: count :: Word.listBytes words)
  | writeSingleRegister {address : Address} {word : Word} :
    IsLaidOut (.ok (.writeSingleRegister address word))
      (0x06 :: (Word.bytes address ++ Word.bytes word))
  | writeMultipleRegisters {address : Address} {quantity : Quantity} :
    IsLaidOut (.ok (.writeMultipleRegisters address quantity))
      (0x10 :: (Word.bytes address ++ Word.bytes quantity))
  | custom {code : UInt8} {data : Bytes} : IsLaidOut (.ok (.custom code data)) (code :: data)
  | exception {e : ExceptionResponse} {marked : UInt8}
    (hmarked : e.function.byte < 0x80 → marked.toNat = 0x80 + e.function.byte.toNat) :
    IsLaidOut (.error e) [marked, e.exception.byte]

/-- Setting the highest bit of a code below `0x80` adds its value. -/
theorem toNat_mark_exception {b : UInt8} (h : b < 0x80) : (b ||| 0x80).toNat = 0x80 + b.toNat := by
  obtain ⟨hhigh, hlow⟩ := mark_exception h
  have hsub := UInt8.toNat_sub_of_le _ _ (UInt8.not_lt.1 hhigh)
  have hle := UInt8.le_iff_toNat_le.1 (UInt8.not_lt.1 hhigh)
  rw [hlow] at hsub
  simp only [UInt8.reduceToNat] at hsub hle
  omega

/-- Only a size that fits into a PDU is announced for a reply. -/
theorem Reply.le_of_size? {r : Reply} {n : Nat} (h : r.size? = .ok n) : n ≤ Pdu.maxSize := by
  cases r with
  | error e =>
    cases h
    decide
  | ok r =>
    obtain ⟨rfl, hmost⟩ := Response.size?_eq_ok.1 h
    exact hmost

/-- The bytes of a request that fits into a PDU have its fields. -/
theorem Request.isLaidOut_bytes {r : Request} (h : r.size ≤ Pdu.maxSize) : r.IsLaidOut r.bytes := by
  cases r with
  | readHoldingRegisters address quantity => exact .readHoldingRegisters
  | writeSingleRegister address word => exact .writeSingleRegister
  | writeMultipleRegisters address words =>
    obtain ⟨hquantity, hcount⟩ := Pdu.toNat_counts (Nat.le_trans (Nat.le_add_left _ 6) h)
    exact .writeMultipleRegisters hquantity hcount
  | custom code data => exact .custom

/-- So do the bytes of a reply for which a size is announced. -/
theorem Reply.isLaidOut_bytes {r : Reply} {n : Nat} (h : r.size? = .ok n) :
    r.IsLaidOut r.bytes := by
  cases r with
  | error e => exact .exception toNat_mark_exception
  | ok r =>
    have hsize := (Response.size?_eq_ok.1 h).2
    cases r with
    | readHoldingRegisters words =>
      exact .readHoldingRegisters (Pdu.toNat_counts (Nat.le_trans (Nat.le_add_left _ 2) hsize)).2
    | writeSingleRegister address word => exact .writeSingleRegister
    | writeMultipleRegisters address quantity => exact .writeMultipleRegisters
    | custom code data => exact .custom

/-! ## Writing -/

/-- What becomes of a buffer: either a frame of the announced size is behind what it held, or no
size has been announced, and this is told as an error of the PDU. -/
inductive Header.Writes (h : Header) (announced : Except PduError Nat) (IsLaidOut : Bytes → Prop)
    (buffer : Bytes) : Except Error Unit × Bytes → Prop where
  | frame {n : Nat} {pdu : Bytes} {t₁ t₀ l₁ l₀ : UInt8} (hannounced : announced = .ok n)
    (hmost : n ≤ 253) (hsize : pdu.length = n) (hpdu : IsLaidOut pdu)
    (htransaction : Word.ofBytes t₁ t₀ = h.transaction)
    (hlength : (Word.ofBytes l₁ l₀).toNat = n + 1) :
    Writes h announced IsLaidOut buffer
      (.ok (), buffer ++ [t₁, t₀, 0, 0, l₁, l₀, h.unit] ++ pdu)
  | nothing {cause : PduError} (hannounced : announced = .error cause) :
    Writes h announced IsLaidOut buffer (.error (.protocol (.pdu cause)), buffer)

/-- An announcement that is true makes a frame of the announced size. -/
theorem Header.writes_of_announced (h : Header) {announced : Except PduError Nat} {pdu : Bytes}
    {IsLaidOut : Bytes → Prop}
    (hok : ∀ n, announced = .ok n → n ≤ Pdu.maxSize ∧ pdu.length = n ∧ IsLaidOut pdu)
    (buffer : Bytes) : h.Writes announced IsLaidOut buffer (h.write announced pdu buffer) := by
  cases announced with
  | error cause => exact .nothing rfl
  | ok n =>
    obtain ⟨hmost, hsize, hpdu⟩ := hok n rfl
    refine .frame rfl hmost hsize hpdu (Word.ofBytes_high_low h.transaction) ?_
    rw [Word.ofBytes_high_low]
    simp only [Pdu.maxSize] at hmost
    exact UInt16.toNat_ofNat_of_lt' (Nat.lt_of_le_of_lt (Nat.succ_le_succ hmost) (by decide))

/-- **An encoder writes what it announces, or nothing.** Whatever the buffer holds, this stays in
front. If a size is announced for the request or for the reply, it is that of a PDU, and a frame of
this size follows: the length field is the number of bytes behind it, and no count in the PDU has
been cut off. If no size is announced, this is told, and the buffer stays as it is. In both cases it
is what appending the frame of the message does. -/
theorem Header.writes_as_announced (h : Header) (request : Request) (reply : Reply)
    (buffer : Bytes) :
    (h.Writes request.size? request.IsLaidOut buffer (RequestMessage.write ⟨h, request⟩ buffer) ∧
      RequestMessage.write ⟨h, request⟩ buffer =
        inPlace buffer (RequestMessage.append ⟨h, request⟩ buffer)) ∧
    (h.Writes reply.size? reply.IsLaidOut buffer (ReplyMessage.write ⟨h, reply⟩ buffer) ∧
      ReplyMessage.write ⟨h, reply⟩ buffer =
        inPlace buffer (ReplyMessage.append ⟨h, reply⟩ buffer)) := by
  refine ⟨⟨h.writes_of_announced ?request buffer, RequestMessage.write_eq _ buffer⟩,
    ⟨h.writes_of_announced ?reply buffer, ReplyMessage.write_eq _ buffer⟩⟩
  case request =>
    intro n hn
    obtain ⟨rfl, hmost⟩ := Request.size?_eq_ok.1 hn
    exact ⟨hmost, request.length_bytes, Request.isLaidOut_bytes hmost⟩
  case reply =>
    intro n hn
    exact ⟨Reply.le_of_size? hn, Reply.length_bytes hn, Reply.isLaidOut_bytes hn⟩

end Modbus
