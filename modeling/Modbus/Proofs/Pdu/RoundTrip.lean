import Modbus.Pdu.Decode
import Modbus.Pdu.Encode

/-!
# Decoding what has been encoded

A message of an ordinary function that fits into a PDU is read back from its bytes
(`Request.decode_bytes`, `Response.decode_bytes`, `Reply.decode_bytes`). A function is ordinary if
its code is below `0x80` and it is not a custom one with the code of a named one
(`FunctionCode.IsOrdinary`).
-/

namespace Modbus

namespace Pdu

/-- A word is read back, whatever is behind it. -/
@[simp] theorem takeWord_bytes (w : Word) (rest : Bytes) :
    takeWord (Word.bytes w ++ rest) = .ok (w, rest) := by
  simp [takeWord, Word.bytes]

/-- Words are read back in order, whatever is behind them. -/
@[simp] theorem takeWords_listBytes (ws : List Word) (rest : Bytes) :
    takeWords ws.length (Word.listBytes ws ++ rest) = .ok (ws, rest) := by
  induction ws with
  | nil => rfl
  | cons w ws ih =>
    rw [Word.listBytes_cons, List.append_assoc, List.length_cons, takeWords, takeWord_bytes]
    simp only [bind, Except.bind, ih]
    rfl

/-- An address and a word are read back, whatever is behind them. -/
@[simp] theorem takePair_bytes (address : Address) (word : Word) (rest : Bytes) :
    takePair (Word.bytes address ++ (Word.bytes word ++ rest)) = .ok ((address, word), rest) := by
  simp [takePair, bind, Except.bind, pure, Except.pure]

/-- Words are read back behind the count of their bytes. -/
theorem takeByteCount_listBytes {ws : List Word} {count : UInt8} (h : count.toNat = 2 * ws.length)
    (rest : Bytes) : takeByteCount count (Word.listBytes ws ++ rest) = .ok (ws, rest) := by
  rw [takeByteCount, h, if_pos (Nat.mul_mod_right 2 _), Nat.mul_div_cancel_left _ (by decide)]
  exact takeWords_listBytes ws rest

/-- A count of words that fit into a PDU is not cut off, and neither is that of their bytes. -/
theorem toNat_counts {words : List Word} (h : 2 * words.length ≤ maxSize) :
    (UInt16.ofNat words.length).toNat = words.length ∧
      (UInt8.ofNat (2 * words.length)).toNat = 2 * words.length := by
  simp only [maxSize] at h
  constructor
  · exact UInt16.toNat_ofNat_of_lt' (Nat.lt_of_le_of_lt (by omega) (by decide : 253 < 2 ^ 16))
  · exact UInt8.toNat_ofNat_of_lt' (Nat.lt_of_le_of_lt h (by decide : 253 < 2 ^ 8))

end Pdu

open Pdu

namespace FunctionCode

/-- Whether a function has a code below those of exceptions, and a name if there is one for the
code. -/
def IsOrdinary : FunctionCode → Prop
  | custom code => code < 0x80 ∧ code ≠ 0x03 ∧ code ≠ 0x06 ∧ code ≠ 0x10
  | _ => True

instance : DecidablePred IsOrdinary
  | custom _ => inferInstanceAs (Decidable (_ ∧ _))
  | readHoldingRegisters | writeSingleRegister | writeMultipleRegisters =>
    inferInstanceAs (Decidable True)

variable {f : FunctionCode}

/-- An ordinary function is told from its byte. -/
theorem IsOrdinary.ofByte_byte (h : f.IsOrdinary) : ofByte f.byte = f := by
  cases f with
  | custom code =>
    obtain ⟨-, h3, h6, h16⟩ := h
    simp [ofByte, byte, h3, h6, h16]
  | _ => rfl

/-- The code of an ordinary function does not have the bit that marks exceptions. -/
theorem IsOrdinary.byte_lt (h : f.IsOrdinary) : f.byte < 0x80 := by
  cases f with
  | custom code => exact h.1
  | _ => decide

end FunctionCode

/-- A request of an ordinary function that fits into a PDU is read back. -/
theorem Request.decode_bytes {r : Request} (hf : r.function.IsOrdinary)
    (hs : r.size ≤ Pdu.maxSize) : Request.decode r.bytes = .ok r := by
  have hlimited : limited .request r.bytes = .ok r.bytes := by
    rw [limited, if_pos (by rwa [Request.length_bytes])]
  rw [Request.decode, hlimited]
  cases r with
  | readHoldingRegisters address quantity =>
    have := takePair_bytes address quantity []
    rw [List.append_nil] at this
    simp [Request.bytes, function, FunctionCode.byte, takeByte, decodeFields, bind, Except.bind,
      this, complete, pure, Except.pure]
  | writeSingleRegister address word =>
    have := takePair_bytes address word []
    rw [List.append_nil] at this
    simp [Request.bytes, function, FunctionCode.byte, takeByte, decodeFields, bind, Except.bind,
      this, complete, pure, Except.pure]
  | writeMultipleRegisters address words =>
    obtain ⟨hquantity, hcount⟩ := toNat_counts (Nat.le_trans (Nat.le_add_left _ 6) hs)
    have htake := takeByteCount_listBytes hcount []
    rw [List.append_nil] at htake
    simp [Request.bytes, function, FunctionCode.byte, takeByte, decodeFields, bind, Except.bind,
      takeMultiple, hquantity, hcount, htake, complete, pure, Except.pure, -UInt8.toNat_ofNat',
      -UInt8.ofNat_mul]
  | custom code data =>
    obtain ⟨hlt, h3, h6, h16⟩ := hf
    simp [Request.bytes, function, FunctionCode.byte, takeByte, decodeFields, bind, Except.bind,
      h3, h6, h16, hlt, pure, Except.pure]

/-- A response of an ordinary function that fits into a PDU is read back. -/
theorem Response.decode_bytes {r : Response} (hf : r.function.IsOrdinary)
    (hs : r.size ≤ Pdu.maxSize) : Response.decode r.bytes = .ok r := by
  have hlimited : limited .response r.bytes = .ok r.bytes := by
    rw [limited, if_pos (by rwa [Response.length_bytes])]
  rw [Response.decode, hlimited]
  cases r with
  | readHoldingRegisters words =>
    have hcount := (toNat_counts (Nat.le_trans (Nat.le_add_left _ 2) hs)).2
    have htake := takeByteCount_listBytes hcount []
    rw [List.append_nil] at htake
    simp [Response.bytes, function, FunctionCode.byte, takeByte, decodeFields, bind, Except.bind,
      takeRead, htake, complete, pure, Except.pure, -UInt8.ofNat_mul]
  | writeSingleRegister address word =>
    have := takePair_bytes address word []
    rw [List.append_nil] at this
    simp [Response.bytes, function, FunctionCode.byte, takeByte, decodeFields, bind, Except.bind,
      this, complete, pure, Except.pure]
  | writeMultipleRegisters address quantity =>
    have := takePair_bytes address quantity []
    rw [List.append_nil] at this
    simp [Response.bytes, function, FunctionCode.byte, takeByte, decodeFields, bind, Except.bind,
      this, complete, pure, Except.pure]
  | custom code data =>
    obtain ⟨hlt, h3, h6, h16⟩ := hf
    simp [Response.bytes, function, FunctionCode.byte, takeByte, decodeFields, bind, Except.bind,
      h3, h6, h16, hlt, pure, Except.pure]

/-- The highest bit, which marks an exception, is not in the way of an ordinary code. -/
theorem mark_exception {b : UInt8} (h : b < 0x80) :
    ¬ (b ||| 0x80) < 0x80 ∧ (b ||| 0x80) - 0x80 = b := by
  have hall : ∀ n < 0x80, ¬ (UInt8.ofNat n ||| 0x80) < 0x80 ∧
      (UInt8.ofNat n ||| 0x80) - 0x80 = UInt8.ofNat n := by decide
  simpa using hall b.toNat (UInt8.lt_iff_toNat_lt.1 h)

/-- A response with an exception is read back if its function is an ordinary one and the byte of
the exception names it. -/
theorem ExceptionResponse.decode_bytes {r : ExceptionResponse} (hf : r.function.IsOrdinary)
    (he : .ofByte r.exception.byte = r.exception) : ExceptionResponse.decode r.bytes = .ok r := by
  obtain ⟨hhigh, hlow⟩ := mark_exception hf.byte_lt
  simp [ExceptionResponse.decode, ExceptionResponse.bytes, takeByte, bind, Except.bind, hhigh, hlow,
    complete, pure, Except.pure, hf.ofByte_byte, he]

/-- A reply is read back: a response, or an exception whose first byte tells it from responses. -/
theorem Reply.decode_bytes {r : Reply} (hf : r.function.IsOrdinary)
    (hs : ∀ response, r = .ok response → response.size ≤ Pdu.maxSize)
    (he : ∀ e, r = .error e → .ofByte e.exception.byte = e.exception) :
    Reply.decode r.bytes = .ok r := by
  cases r with
  | ok r =>
    have hdecode := Response.decode_bytes (r := r) hf (hs r rfl)
    have hlt : r.function.byte < 0x80 := hf.byte_lt
    obtain ⟨fields, hbytes⟩ : ∃ fields, r.bytes = r.function.byte :: fields := ⟨_, rfl⟩
    rw [Reply.bytes, Reply.decode, hdecode, hbytes]
    simp [takeByte, bind, Except.bind, hlt, pure, Except.pure]
  | error e =>
    have hdecode := ExceptionResponse.decode_bytes (r := e) hf (he e rfl)
    have hhigh := (mark_exception (b := e.function.byte) hf.byte_lt).1
    rw [Reply.bytes, Reply.decode, hdecode]
    simp [ExceptionResponse.bytes, takeByte, bind, Except.bind, hhigh, pure, Except.pure]

end Modbus
