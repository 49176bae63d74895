import Modbus.Pdu.Basic

/-!
# Encoding messages

The bytes of a message: its function code and its fields, words with the high byte first. A count
of registers or bytes takes as many bits as its field has, so the encoding says what it means only
for messages that fit into a PDU. `Request.length_bytes`, `Response.length_bytes` and
`Reply.length_bytes` say that the encoding has the announced size.
-/

namespace Modbus

/-- The bytes of a request. -/
def Request.bytes (r : Request) : Bytes :=
  r.function.byte :: match r with
    | .readHoldingRegisters address quantity => Word.bytes address ++ Word.bytes quantity
    | .writeSingleRegister address word => Word.bytes address ++ Word.bytes word
    | .writeMultipleRegisters address words =>
      Word.bytes address ++ Word.bytes (UInt16.ofNat words.length) ++
        UInt8.ofNat (2 * words.length) :: Word.listBytes words
    | .custom _ data => data

/-- The bytes of a response. -/
def Response.bytes (r : Response) : Bytes :=
  r.function.byte :: match r with
    | .readHoldingRegisters words => UInt8.ofNat (2 * words.length) :: Word.listBytes words
    | .writeSingleRegister address word => Word.bytes address ++ Word.bytes word
    | .writeMultipleRegisters address quantity => Word.bytes address ++ Word.bytes quantity
    | .custom _ data => data

/-- The bytes of a response with an exception: the function with the highest bit set, and the code
of the exception. -/
def ExceptionResponse.bytes (r : ExceptionResponse) : Bytes :=
  [r.function.byte ||| 0x80, r.exception.byte]

/-- The bytes of a reply. -/
def Reply.bytes : Reply → Bytes
  | .ok r => r.bytes
  | .error e => e.bytes

@[simp] theorem Request.length_bytes (r : Request) : r.bytes.length = r.size := by
  cases r <;> simp [Request.bytes, Request.size] <;> omega

@[simp] theorem Response.length_bytes (r : Response) : r.bytes.length = r.size := by
  cases r <;> simp [Response.bytes, Response.size] <;> omega

/-- The encoding of a reply has the size that was announced for it. -/
theorem Reply.length_bytes {r : Reply} {n : Nat} (h : r.size? = .ok n) : r.bytes.length = n := by
  cases r with
  | error e =>
    cases h
    rfl
  | ok r =>
    simp only [Reply.size?, Response.size?] at h
    split at h
    · cases h
      exact r.length_bytes
    · cases h

end Modbus
