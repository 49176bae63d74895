import Modbus.Frame.Basic

/-!
# Messages in frames

A request or a reply with its header. Encoding one appends its frame to a buffer, or fails and
leaves the buffer as it is when the message does not fit into a PDU.
-/

namespace Modbus

/-- A request with its header. -/
structure RequestMessage where
  header : Header
  request : Request
  deriving DecidableEq, Repr

/-- A reply with its header. -/
structure ReplyMessage where
  header : Header
  reply : Reply

namespace RequestMessage

/-- The frame of a request that fits into a PDU. -/
def frame? (m : RequestMessage) : Except PduError Frame := do
  let _ ← m.request.size?
  return ⟨m.header, m.request.bytes⟩

/-- Appends the frame of a request to a buffer. -/
def append (m : RequestMessage) (buffer : Bytes) : Except Error Bytes :=
  match m.frame? with
  | .ok f => .ok (buffer ++ f.bytes)
  | .error cause => .error (.pdu cause)

end RequestMessage

namespace ReplyMessage

/-- The frame of a reply that fits into a PDU. -/
def frame? (m : ReplyMessage) : Except PduError Frame := do
  let _ ← m.reply.size?
  return ⟨m.header, m.reply.bytes⟩

/-- Appends the frame of a reply to a buffer. -/
def append (m : ReplyMessage) (buffer : Bytes) : Except Error Bytes :=
  match m.frame? with
  | .ok f => .ok (buffer ++ f.bytes)
  | .error cause => .error (.pdu cause)

end ReplyMessage

end Modbus
