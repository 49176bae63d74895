import Modbus.Fault
import Modbus.Text.Hex

/-!
# Errors of protocol data units

What can be wrong with a protocol data unit (PDU), either with the bytes of one that is decoded, or
with a message that is to be encoded, or with a response that is well formed but does not say what
the typed calls of a session need.
-/

namespace Modbus

/-- The kinds of messages, as errors name them. -/
inductive MessageKind where
  | request
  | response
  | exception
  deriving DecidableEq, Repr

/-- The word for a kind of message. -/
def MessageKind.word : MessageKind → String
  | .request => "request"
  | .response => "response"
  | .exception => "exception"

/-- Why a PDU is refused. -/
inductive PduError where
  /-- The bytes end inside a field. -/
  | endOfData
  /-- The message to encode does not fit into a PDU. -/
  | unencodable (kind : MessageKind)
  /-- The bytes to decode are more than a PDU has. -/
  | oversized (kind : MessageKind)
  /-- The counts of registers and bytes do not go together. -/
  | invalidQuantity
  /-- The code of a function that neither requests nor responses have. -/
  | invalidFunction (code : UInt8)
  /-- The code of a function that no exception has. -/
  | invalidExceptionFunction
  /-- There are bytes behind the last field. -/
  | undecoded (kind : MessageKind)
  /-- A read is answered with another number of registers than requested. -/
  | unexpectedRegisterCount
  /-- A single write is answered with another address or value than requested. -/
  | unexpectedSingleEcho
  /-- A multiple write is answered with another address or quantity than requested. -/
  | unexpectedMultipleEcho
  deriving DecidableEq, Repr

namespace PduError

/-- The kind of fault as which an error is reported. -/
def kind : PduError → FaultKind
  | endOfData => .unexpectedEof
  | unencodable _ => .invalidInput
  | _ => .invalidData

/-- The wording of an error. -/
def message : PduError → String
  | endOfData => "failed to fill whole buffer"
  | unencodable k | oversized k => k.word ++ " PDU size exceeded"
  | invalidQuantity => "invalid quantity"
  | invalidFunction code => "invalid function code: " ++ Text.hexByte code
  | invalidExceptionFunction => "Invalid exception function code"
  | undecoded k => "undecoded " ++ k.word ++ " data"
  | unexpectedRegisterCount => "unexpected number of registers"
  | unexpectedSingleEcho => "unexpected register or value echoed"
  | unexpectedMultipleEcho => "unexpected address or quantity echoed"

end PduError

end Modbus
