import Modbus.Pdu.Basic

/-!
# Decoding messages

Reading a PDU from front to back. A field that is not there ends the reading (`endOfData`), and so
do counts that contradict each other; bytes behind the last field are an error only once all fields
have been read. Requests and responses of a function without a name take all bytes behind the code
as their data. Codes from `0x80` on are those of exceptions.
-/

namespace Modbus

namespace Pdu

/-- Reads one byte. -/
def takeByte : Bytes → Except PduError (UInt8 × Bytes)
  | [] => .error .endOfData
  | b :: rest => .ok (b, rest)

/-- Reads one word. -/
def takeWord : Bytes → Except PduError (Word × Bytes)
  | hi :: lo :: rest => .ok (Word.ofBytes hi lo, rest)
  | _ => .error .endOfData

/-- Reads a number of words. -/
def takeWords : Nat → Bytes → Except PduError (List Word × Bytes)
  | 0, bs => .ok ([], bs)
  | n + 1, bs => do
    let (w, rest) ← takeWord bs
    let (ws, rest) ← takeWords n rest
    return (w :: ws, rest)

/-- Reads two words, the first of which is an address. -/
def takePair (bs : Bytes) : Except PduError ((Address × Word) × Bytes) := do
  let (address, rest) ← takeWord bs
  let (word, rest) ← takeWord rest
  return ((address, word), rest)

/-- Reads the words that take a given number of bytes, which has to be even. -/
def takeByteCount (count : UInt8) (bs : Bytes) : Except PduError (List Word × Bytes) :=
  if count.toNat % 2 = 0 then takeWords (count.toNat / 2) bs else .error .invalidQuantity

/-- What has been read, if nothing is left. -/
def complete {α : Type} (kind : MessageKind) : α × Bytes → Except PduError α
  | (a, []) => .ok a
  | (_, _ :: _) => .error (.undecoded kind)

/-- The bytes, if they are not too many for a PDU. -/
def limited (kind : MessageKind) (bs : Bytes) : Except PduError Bytes :=
  if bs.length ≤ maxSize then .ok bs else .error (.oversized kind)

end Pdu

open Pdu

/-- Reads the fields of a request to write several registers. -/
def Request.takeMultiple (bs : Bytes) : Except PduError ((Address × List Word) × Bytes) := do
  let ((address, quantity), rest) ← takePair bs
  let (count, rest) ← takeByte rest
  if count.toNat = 2 * quantity.toNat then
    let (words, rest) ← takeByteCount count rest
    return ((address, words), rest)
  else
    throw .invalidQuantity

/-- Reads what follows the function code of a request. -/
def Request.decodeFields (code : UInt8) (bs : Bytes) : Except PduError Request :=
  if code = 0x03 then do
    let (address, quantity) ← takePair bs >>= complete .request
    return .readHoldingRegisters address quantity
  else if code = 0x06 then do
    let (address, word) ← takePair bs >>= complete .request
    return .writeSingleRegister address word
  else if code = 0x10 then do
    let (address, words) ← takeMultiple bs >>= complete .request
    return .writeMultipleRegisters address words
  else if code < 0x80 then
    return .custom code bs
  else
    throw (.invalidFunction code)

/-- Reads a request. -/
def Request.decode (bs : Bytes) : Except PduError Request := do
  let (code, fields) ← limited .request bs >>= takeByte
  decodeFields code fields

/-- Reads the words of a response to a read, behind their count of bytes. -/
def Response.takeRead (bs : Bytes) : Except PduError (List Word × Bytes) := do
  let (count, rest) ← takeByte bs
  takeByteCount count rest

/-- Reads what follows the function code of a response. -/
def Response.decodeFields (code : UInt8) (bs : Bytes) : Except PduError Response :=
  if code = 0x03 then do
    let words ← takeRead bs >>= complete .response
    return .readHoldingRegisters words
  else if code = 0x06 then do
    let (address, word) ← takePair bs >>= complete .response
    return .writeSingleRegister address word
  else if code = 0x10 then do
    let (address, quantity) ← takePair bs >>= complete .response
    return .writeMultipleRegisters address quantity
  else if code < 0x80 then
    return .custom code bs
  else
    throw (.invalidFunction code)

/-- Reads a response. -/
def Response.decode (bs : Bytes) : Except PduError Response := do
  let (code, fields) ← limited .response bs >>= takeByte
  decodeFields code fields

/-- Reads a response with an exception. -/
def ExceptionResponse.decode (bs : Bytes) : Except PduError ExceptionResponse := do
  let (code, rest) ← takeByte bs
  if code < 0x80 then
    throw .invalidExceptionFunction
  else
    let exception ← takeByte rest >>= complete .exception
    return ⟨.ofByte (code - 0x80), .ofByte exception⟩

/-- Reads a reply, which is an exception if the highest bit of its first byte is set. -/
def Reply.decode (bs : Bytes) : Except PduError Reply := do
  let (code, _) ← takeByte bs
  if code < 0x80 then
    return .ok (← Response.decode bs)
  else
    return .error (← ExceptionResponse.decode bs)

end Modbus
