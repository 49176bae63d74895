import Modbus.Pdu.Error
import Modbus.Function
import Modbus.Time
import Modbus.Unit.Basic
import Modbus.Wire.Word

/-!
# Errors of a connection

An error is a violation of the protocol, a fault of the transport, or the end of the time that a
call may take. Exceptions of a slave are no errors: they are answers.
-/

namespace Modbus

/-- Why a stream of bytes cannot be split into frames. -/
inductive FrameError where
  /-- The header names a protocol other than this one. -/
  | protocolMismatch (protocol : Word)
  /-- The length field is not that of a PDU. -/
  | invalidLength (length : Word)
  /-- The stream ends inside a frame. -/
  | truncated (received expected : Nat)
  deriving DecidableEq, Repr

/-- The wording of an error. -/
def FrameError.message : FrameError → String
  | protocolMismatch protocol => "invalid protocol id: " ++ Text.hexWord protocol
  | invalidLength length => "invalid length field: " ++ toString length.toNat
  | truncated received expected =>
    "truncated frame: received " ++ toString received ++ " of " ++ toString expected ++ " bytes"

/-- A violation of the protocol. -/
inductive ProtocolError where
  /-- The stream cannot be split into frames. -/
  | frame (cause : FrameError)
  /-- A PDU can be neither encoded nor decoded. -/
  | pdu (cause : PduError)
  /-- Another unit than the addressed one has answered. -/
  | unitMismatch (request response : UnitId)
  /-- Another function than the requested one has been answered. -/
  | functionMismatch (request response : FunctionCode)
  /-- Every transaction id of the connection is occupied. -/
  | transactionIdsExhausted
  deriving DecidableEq, Repr

/-- The wording of an error. -/
def ProtocolError.message : ProtocolError → String
  | frame cause => cause.message
  | pdu cause => "invalid PDU: " ++ cause.message
  | unitMismatch request response =>
    "mismatching unit ids: request = " ++ toString request.toNat ++ ", response = "
      ++ toString response.toNat
  | functionMismatch request response =>
    "mismatching function codes: request = " ++ request.text ++ ", response = " ++ response.text
  | transactionIdsExhausted => "no free transaction id"

/-- Why a call or a connection fails. -/
inductive Error where
  | protocol (cause : ProtocolError)
  | transport (fault : Fault)
  /-- No response has come within the given span. -/
  | timeout (span : Span)
  deriving DecidableEq, Repr

namespace Error

/-- An error of a PDU. -/
def pdu (cause : PduError) : Error := .protocol (.pdu cause)

/-- An error of the framing. -/
def frame (cause : FrameError) : Error := .protocol (.frame cause)

/-- The kind of fault as which an error is reported. -/
def kind : Error → FaultKind
  | protocol _ => .invalidData
  | transport fault => fault.kind
  | timeout _ => .timedOut

/-- The wording of an error. -/
def message : Error → String
  | protocol cause => cause.message
  | transport fault => fault.text
  | timeout span => "no response within " ++ span.text

/-- An error as a fault of the transport. -/
def fault (e : Error) : Fault := ⟨e.kind, e.message⟩

end Error

end Modbus
