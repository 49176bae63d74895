import Modbus.Exception
import Modbus.Pdu.Error
import Modbus.Wire.Word

/-!
# Requests and responses

The messages of the application protocol. A message fits into a protocol data unit (PDU) if it takes
at most `Pdu.maxSize` bytes; `Request.size?` and `Response.size?` give the number of bytes of those
that do.

A custom message carries any function code and any data, so a custom one may have the code of a
named function. It is nevertheless a different message, with a different `FunctionCode`.
-/

namespace Modbus

/-- The most bytes of a PDU. -/
def Pdu.maxSize : Nat := 253

/-- The most registers that one request reads. -/
def maxReadQuantity : Quantity := 125

/-- The most registers that one request writes. -/
def maxWriteQuantity : Quantity := 123

/-- What a master asks a slave to do. -/
inductive Request where
  | readHoldingRegisters (address : Address) (quantity : Quantity)
  | writeSingleRegister (address : Address) (word : Word)
  | writeMultipleRegisters (address : Address) (words : List Word)
  | custom (code : UInt8) (data : Bytes)
  deriving DecidableEq, Repr

/-- What a slave answers to a request that it has carried out. -/
inductive Response where
  | readHoldingRegisters (words : List Word)
  | writeSingleRegister (address : Address) (word : Word)
  | writeMultipleRegisters (address : Address) (quantity : Quantity)
  | custom (code : UInt8) (data : Bytes)
  deriving DecidableEq, Repr

/-- What a slave makes of a request: a response, or an exception. -/
abbrev Answer := Except ExceptionCode Response

/-- What the PDU of a response carries: a response, or an exception with its function. -/
abbrev Reply := Except ExceptionResponse Response

namespace Request

/-- The function of a request. -/
def function : Request → FunctionCode
  | readHoldingRegisters .. => .readHoldingRegisters
  | writeSingleRegister .. => .writeSingleRegister
  | writeMultipleRegisters .. => .writeMultipleRegisters
  | custom code _ => .custom code

/-- The number of bytes a request takes, whether or not it fits into a PDU. -/
def size : Request → Nat
  | readHoldingRegisters .. | writeSingleRegister .. => 5
  | writeMultipleRegisters _ words => 6 + 2 * words.length
  | custom _ data => 1 + data.length

/-- The size of a request that fits into a PDU. -/
def size? (r : Request) : Except PduError Nat :=
  if r.size ≤ Pdu.maxSize then .ok r.size else .error (.unencodable .request)

end Request

namespace Response

/-- The function of a response. -/
def function : Response → FunctionCode
  | readHoldingRegisters .. => .readHoldingRegisters
  | writeSingleRegister .. => .writeSingleRegister
  | writeMultipleRegisters .. => .writeMultipleRegisters
  | custom code _ => .custom code

/-- The number of bytes a response takes, whether or not it fits into a PDU. -/
def size : Response → Nat
  | readHoldingRegisters words => 2 + 2 * words.length
  | writeSingleRegister .. | writeMultipleRegisters .. => 5
  | custom _ data => 1 + data.length

/-- The size of a response that fits into a PDU. -/
def size? (r : Response) : Except PduError Nat :=
  if r.size ≤ Pdu.maxSize then .ok r.size else .error (.unencodable .response)

end Response

namespace Reply

/-- The function of a reply. -/
def function : Reply → FunctionCode
  | .ok r => r.function
  | .error e => e.function

/-- The size of a reply that fits into a PDU. An exception always does. -/
def size? : Reply → Except PduError Nat
  | .ok r => r.size?
  | .error _ => .ok 2

/-- What a reply says about the request, its function left aside. -/
def answer : Reply → Answer
  | .ok r => .ok r
  | .error e => .error e.exception

end Reply

namespace Answer

/-- The reply that tells an answer to a request for a function. -/
def reply (function : FunctionCode) : Answer → Reply
  | .ok r => .ok r
  | .error e => .error ⟨function, e⟩

end Answer

end Modbus
