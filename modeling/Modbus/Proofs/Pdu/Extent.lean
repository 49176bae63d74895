import Modbus.Proofs.Pdu.Replies

/-!
# The extent of a PDU

The PDU of a register function or of an exception says where it ends. If it is cut off anywhere, the
decoder that accepts it runs out of data; if anything follows it, the decoder reports invalid data
(`Pdu.accepts_exactly`). A custom message does not say so: all bytes behind its code are its data.

`Takes` says of the reader of a field what it makes of the bytes of the field, whatever follows
them, and of a part of these bytes. Readers one after another take their fields one after another
(`Takes.andThen`), because a cut falls either into the first field, or behind it and into the second
one. A count is compared with another one only when both have been read whole, so a part of a PDU is
never refused for its counts.
-/

namespace Modbus

open Pdu

namespace Pdu

variable {α β : Type}

/-! ## Readers of fields -/

/-- Whether a reader takes the bytes of a field off the front, and gives what they stand for. -/
structure Takes (take : Bytes → Except PduError (α × Bytes)) (field : Bytes) (a : α) : Prop where
  /-- What follows the field is left. -/
  whole : ∀ rest, take (field ++ rest) = .ok (a, rest)
  /-- A part of the field is not enough. -/
  part : ∀ {part missing}, missing ≠ [] → part ++ missing = field → take part = .error .endOfData

namespace Takes

variable {take : Bytes → Except PduError (α × Bytes)} {field field' : Bytes} {a : α} {b : β}

/-- A reader that gives the same reads the same field. -/
theorem congr {take' : Bytes → Except PduError (α × Bytes)} (h : Takes take field a)
    (heq : ∀ bs, take' bs = take bs) : Takes take' field a := by
  rwa [funext heq]

/-- Two readers, the second of which may depend on what the first has read. -/
theorem andThen {next : α × Bytes → Except PduError (β × Bytes)} (h : Takes take field a)
    (h' : Takes (fun bs => next (a, bs)) field' b) :
    Takes (fun bs => take bs >>= next) (field ++ field') b := by
  constructor
  case whole =>
    intro rest
    rw [List.append_assoc, h.whole]
    exact h'.whole rest
  case part =>
    intro part missing hmissing hpart
    -- the cut falls into the first field, or the first field is whole
    rcases Bytes.part_or_whole hpart with ⟨-, missing', hmissing', hcut⟩ | ⟨behind, rfl, hcut⟩
    · rw [h.part hmissing' hcut]
      rfl
    · rw [h.whole]
      exact h'.part hmissing hcut

/-- What has been read may be put into another form. -/
theorem map {next : α × Bytes → Except PduError (β × Bytes)} (h : Takes take field a)
    (hnext : ∀ rest, next (a, rest) = .ok (b, rest)) :
    Takes (fun bs => take bs >>= next) field b := by
  constructor
  case whole =>
    intro rest
    rw [h.whole]
    exact hnext rest
  case part =>
    intro part missing hmissing hpart
    rw [h.part hmissing hpart]
    rfl

end Takes

/-- A byte is read from one byte. -/
theorem takes_byte (b : UInt8) : Takes takeByte [b] b := by
  constructor
  case whole => exact fun rest => rfl
  case part =>
    intro part missing hmissing hpart
    cases part with
    | nil => rfl
    | cons => simp [hmissing] at hpart

/-- A word is read from its two bytes. -/
theorem takes_word (w : Word) : Takes takeWord (Word.bytes w) w := by
  constructor
  case whole => exact takeWord_bytes w
  case part =>
    intro part missing hmissing hpart
    match part with
    | [] | [_] => rfl
    | _ :: _ :: _ => simp [Word.bytes, hmissing] at hpart

/-- A number of words is read from their bytes, in order. -/
theorem takes_words (ws : List Word) : Takes (takeWords ws.length) (Word.listBytes ws) ws := by
  induction ws with
  | nil =>
    constructor
    case whole => exact fun rest => rfl
    case part =>
      intro part missing hmissing hpart
      exact absurd (List.append_eq_nil_iff.1 hpart).2 hmissing
  | cons w ws ih => exact (takes_word w).andThen (ih.map fun _ => rfl)

/-- An address and a word are read one behind the other. -/
theorem takes_pair (address : Address) (word : Word) :
    Takes takePair (Word.bytes address ++ Word.bytes word) (address, word) :=
  (takes_word address).andThen ((takes_word word).map fun _ => rfl)

/-- Words are read behind the count of their bytes, if one byte can count them. -/
theorem takes_byteCount {ws : List Word} {count : UInt8} (h : count.toNat = 2 * ws.length) :
    Takes (takeByteCount count) (Word.listBytes ws) ws := by
  refine (takes_words ws).congr fun bs => ?_
  rw [takeByteCount, h, if_pos (Nat.mul_mod_right 2 _), Nat.mul_div_cancel_left _ (by decide)]

end Pdu

/-- The words of a response to a read are behind the count of their bytes. -/
theorem Response.takes_read {ws : List Word} {count : UInt8} (h : count.toNat = 2 * ws.length) :
    Takes takeRead (count :: Word.listBytes ws) ws :=
  (takes_byte count).andThen (takes_byteCount h)

/-- The counts are compared when both are there, and they agree, so the words are read. -/
theorem Request.takes_multiple (address : Address) {ws : List Word} {quantity : Quantity}
    {count : UInt8} (hquantity : quantity.toNat = ws.length)
    (hcount : count.toNat = 2 * ws.length) :
    Takes takeMultiple
      (Word.bytes address ++ Word.bytes quantity ++ count :: Word.listBytes ws) (address, ws) := by
  have hwords : Takes (fun bs => takeByteCount count bs >>= fun x => pure ((address, x.1), x.2))
      (Word.listBytes ws) (address, ws) := (takes_byteCount hcount).map fun _ => rfl
  refine (takes_pair address quantity).andThen ((takes_byte count).andThen (hwords.congr ?_))
  exact fun bs => if_pos (hcount.trans (congrArg (2 * ·) hquantity.symm))

/-! ## Decoders -/

namespace Pdu

variable {α β : Type}

/-- Whether a computation fails with an error of a kind. -/
def FailsAs (x : Except PduError α) (kind : FaultKind) : Prop := ∃ e, x = .error e ∧ e.kind = kind

/-- What has failed in its first part fails in the same way as a whole. -/
theorem FailsAs.bind {x : Except PduError α} {kind : FaultKind} (h : FailsAs x kind)
    (next : α → Except PduError β) : FailsAs (x >>= next) kind := by
  obtain ⟨e, hx, hkind⟩ := h
  exact ⟨e, bind_of_error hx next, hkind⟩

/-- Whether a decoder tells apart that bytes are missing at the end of a PDU and that there are too
many. -/
structure IsExact (decode : Bytes → Except PduError α) (bs : Bytes) : Prop where
  /-- Of a part of the PDU it is told that the data end too early. -/
  truncated : ∀ {part missing}, missing ≠ [] → part ++ missing = bs →
    FailsAs (decode part) .unexpectedEof
  /-- With anything behind the PDU, the data are invalid. -/
  overlong : ∀ {more}, more ≠ [] → FailsAs (decode (bs ++ more)) .invalidData

namespace IsExact

variable {decode : Bytes → Except PduError α} {bs : Bytes}

/-- A decoder that gives the same is as exact. -/
theorem congr {decode' : Bytes → Except PduError α} (h : IsExact decode bs)
    (heq : ∀ bs, decode' bs = decode bs) : IsExact decode' bs := by
  rwa [funext heq]

/-- What is made of a message that has been read does not matter. -/
theorem bind (h : IsExact decode bs) (next : α → Except PduError β) :
    IsExact (fun bs => decode bs >>= next) bs where
  truncated hmissing hpart := (h.truncated hmissing hpart).bind next
  overlong hmore := (h.overlong hmore).bind next

/-- A field with nothing behind it, as the last one of a PDU has to be. -/
theorem of_takes {take : Bytes → Except PduError (α × Bytes)} {a : α} (h : Takes take bs a)
    (kind : MessageKind) : IsExact (fun bs => take bs >>= complete kind) bs := by
  constructor
  case truncated =>
    intro part missing hmissing hpart
    exact ⟨.endOfData, bind_of_error (h.part hmissing hpart) _, rfl⟩
  case overlong =>
    intro more hmore
    obtain ⟨b, rest, rfl⟩ := List.exists_cons_of_ne_nil hmore
    refine ⟨.undecoded kind, ?_, rfl⟩
    rw [h.whole]
    rfl

/-- A code in front of the fields. -/
theorem cons {next : UInt8 × Bytes → Except PduError α} {code : UInt8}
    (h : IsExact (fun bs => next (code, bs)) bs) :
    IsExact (fun bs => takeByte bs >>= next) (code :: bs) := by
  constructor
  case truncated =>
    intro part missing hmissing hpart
    cases part with
    | nil => exact ⟨.endOfData, rfl, rfl⟩
    | cons code' part =>
      obtain ⟨rfl, hfields⟩ := List.cons.inj hpart
      exact h.truncated hmissing hfields
  case overlong => exact h.overlong

/-- A limit for the size that the PDU keeps to. More bytes may exceed it, then they are invalid data
for this reason. -/
theorem withLimit {first : Bytes → Except PduError β} {next : β → Except PduError α}
    (h : IsExact (fun bs => first bs >>= next) bs) (kind : MessageKind)
    (hsize : bs.length ≤ maxSize) :
    IsExact (fun bs => limited kind bs >>= first >>= next) bs := by
  constructor
  case truncated =>
    intro part missing hmissing hpart
    have hle : part.length ≤ maxSize := by
      rw [← hpart, List.length_append] at hsize
      omega
    have hlimited : limited kind part = .ok part := if_pos hle
    rw [hlimited]
    exact h.truncated hmissing hpart
  case overlong =>
    intro more hmore
    by_cases hle : (bs ++ more).length ≤ maxSize
    · have hlimited : limited kind (bs ++ more) = .ok (bs ++ more) := if_pos hle
      rw [hlimited]
      exact h.overlong hmore
    · have hlimited : limited kind (bs ++ more) = .error (.oversized kind) := if_neg hle
      exact ⟨.oversized kind, bind_of_error (bind_of_error hlimited first) next, rfl⟩

end IsExact

end Pdu

/-! ## Messages -/

/-- Whether a function has the code of one that reads or writes registers. -/
def FunctionCode.HasRegisterCode (f : FunctionCode) : Prop :=
  f.byte = 0x03 ∨ f.byte = 0x06 ∨ f.byte = 0x10

/-- A custom function with such a code is not an ordinary one. -/
theorem FunctionCode.IsOrdinary.not_hasRegisterCode {code : UInt8}
    (h : (FunctionCode.custom code).IsOrdinary) : ¬ (FunctionCode.custom code).HasRegisterCode := by
  obtain ⟨-, h3, h6, h16⟩ := h
  simp [HasRegisterCode, byte, h3, h6, h16]

variable {bs : Bytes}

/-- A request to read or write registers is read from exactly its own bytes. -/
theorem Request.isExact_decode {r : Request} (h : Request.decode bs = .ok r)
    (hcode : r.function.HasRegisterCode) : IsExact Request.decode bs := by
  obtain ⟨hf, hsize, rfl⟩ := decode_inv h
  have hlength : r.bytes.length ≤ maxSize := by rwa [r.length_bytes]
  refine IsExact.withLimit (.cons ?_) .request hlength
  cases r with
  | readHoldingRegisters address quantity =>
    exact (IsExact.of_takes (takes_pair address quantity) .request).bind _
  | writeSingleRegister address word =>
    exact (IsExact.of_takes (takes_pair address word) .request).bind _
  | writeMultipleRegisters address words =>
    obtain ⟨hquantity, hcount⟩ := toNat_counts (Nat.le_trans (Nat.le_add_left _ 6) hsize)
    exact (IsExact.of_takes (takes_multiple address hquantity hcount) .request).bind _
  | custom code data => exact absurd hcode hf.not_hasRegisterCode

/-- A response to such a request is read from exactly its own bytes. -/
theorem Response.isExact_decode {r : Response} (h : Response.decode bs = .ok r)
    (hcode : r.function.HasRegisterCode) : IsExact Response.decode bs := by
  obtain ⟨hf, hsize, rfl⟩ := decode_inv h
  have hlength : r.bytes.length ≤ maxSize := by rwa [r.length_bytes]
  refine IsExact.withLimit (.cons ?_) .response hlength
  cases r with
  | readHoldingRegisters words =>
    have hcount := (toNat_counts (Nat.le_trans (Nat.le_add_left _ 2) hsize)).2
    exact (IsExact.of_takes (takes_read hcount) .response).bind _
  | writeSingleRegister address word =>
    exact (IsExact.of_takes (takes_pair address word) .response).bind _
  | writeMultipleRegisters address quantity =>
    exact (IsExact.of_takes (takes_pair address quantity) .response).bind _
  | custom code data => exact absurd hcode hf.not_hasRegisterCode

/-- The decoder of exceptions has no limit; that nothing may follow the code of the exception is
enough. -/
theorem ExceptionResponse.isExact_decode {e : ExceptionResponse}
    (h : ExceptionResponse.decode bs = .ok e) : IsExact ExceptionResponse.decode bs := by
  obtain ⟨⟨code, hlt, hf⟩, -, rfl⟩ := decode_inv h
  have hmarked := (mark_exception (FunctionCode.isOrdinary_iff.2 ⟨code, hlt, hf⟩).byte_lt).1
  have hcode := (IsExact.of_takes (takes_byte e.exception.byte) .exception).bind fun exception =>
    (pure ⟨.ofByte ((e.function.byte ||| 0x80) - 0x80), .ofByte exception⟩ :
      Except PduError ExceptionResponse)
  exact .cons (hcode.congr fun bs => if_neg hmarked)

/-- The first byte decides about the form of a reply, and nothing behind it does. -/
theorem Reply.isExact_of_form {α : Type} {decode : Bytes → Except PduError α} {tell : α → Reply}
    {code : UInt8} {fields : Bytes} (h : IsExact decode (code :: fields))
    (hform : ∀ rest, Reply.decode (code :: rest) =
      decode (code :: rest) >>= fun a => pure (tell a)) :
    IsExact Reply.decode (code :: fields) := by
  constructor
  case truncated =>
    intro part missing hmissing hpart
    cases part with
    | nil => exact ⟨.endOfData, rfl, rfl⟩
    | cons code' part =>
      have hcode : code' = code := (List.cons.inj hpart).1
      rw [hcode] at hpart ⊢
      rw [hform]
      exact (h.truncated hmissing hpart).bind _
  case overlong =>
    intro more hmore
    rw [List.cons_append, hform]
    exact (h.overlong hmore).bind _

/-- A reply to such a request, too, is read from exactly its own bytes. -/
theorem Reply.isExact_decode {r : Reply} (h : Reply.decode bs = .ok r)
    (hcode : ∀ response, r = .ok response → response.function.HasRegisterCode) :
    IsExact Reply.decode bs := by
  obtain ⟨⟨code, fields⟩, hbyte, h⟩ := bind_inv h
  obtain rfl := takeByte_inv hbyte
  dsimp only at h
  split at h <;> rename_i hlt
  · obtain ⟨response, hdecode, h⟩ := bind_inv h
    cases h
    exact isExact_of_form (Response.isExact_decode hdecode (hcode response rfl))
      fun rest => if_pos hlt
  · obtain ⟨e, hdecode, h⟩ := bind_inv h
    cases h
    exact isExact_of_form (ExceptionResponse.isExact_decode hdecode) fun rest => if_neg hlt

/-- Whether every decoder that accepts a PDU is exact about it. A custom message has no end of its
own, so it is left out. -/
structure IsAcceptedExactly (bs : Bytes) : Prop where
  request : ∀ {r}, Request.decode bs = .ok r → r.function.HasRegisterCode →
    IsExact Request.decode bs
  response : ∀ {r}, Response.decode bs = .ok r → r.function.HasRegisterCode →
    IsExact Response.decode bs
  exception : ∀ {e}, ExceptionResponse.decode bs = .ok e → IsExact ExceptionResponse.decode bs
  /-- A reply is a response or an exception. -/
  reply : ∀ {r}, Reply.decode bs = .ok r →
    (∀ response, r = .ok response → response.function.HasRegisterCode) → IsExact Reply.decode bs

/-- **A PDU is accepted only as a whole.** If a PDU is read as a request or a response of a register
function, or as an exception, the same decoder fails on every part of it because the data end too
early, on the empty one too, and with anything behind it because the data are invalid. -/
theorem Pdu.accepts_exactly (bs : Bytes) : IsAcceptedExactly bs where
  request := Request.isExact_decode
  response := Response.isExact_decode
  exception := ExceptionResponse.isExact_decode
  reply := Reply.isExact_decode

/-- A request to write two registers that is cut off within the second word lacks data, and with one
more byte it is invalid. -/
theorem Pdu.accepts_exactly_twoRegisters :
    let part : Bytes := [0x10, 0x00, 0x01, 0x00, 0x02, 0x04, 0xAB, 0xCD, 0x00]
    FailsAs (Request.decode part) .unexpectedEof ∧
      FailsAs (Request.decode (part ++ [0x07] ++ [0x00])) .invalidData := by
  intro part
  have hdecode : Request.decode (part ++ [0x07]) = .ok (.writeMultipleRegisters 1 [0xABCD, 7]) :=
    Request.decode_bytes (r := .writeMultipleRegisters 1 [0xABCD, 7]) trivial (by decide)
  have hexact := (accepts_exactly (part ++ [0x07])).request hdecode (.inr (.inr rfl))
  exact ⟨hexact.truncated (by decide) rfl, hexact.overlong (by decide)⟩

end Modbus
