import Modbus.Frame.Message
import Modbus.Transaction.Desk

/-!
# Calls

A call is a request on its way to a unit and back. When a frame is delivered to it, `Call.verdict`
says what the caller is told: first the unit that has answered is compared with the addressed one,
then the PDU is decoded, then its function is compared with the requested one. What remains is the
answer of the slave, a response or an exception.
-/

namespace Modbus

/-- How a response of another unit than the addressed one is treated. -/
inductive UnitPolicy where
  /-- The response is accepted. -/
  | warn
  /-- The call fails. -/
  | reject
  deriving DecidableEq, Repr

/-- The name of a call, chosen by the caller. -/
abbrev CallId := Nat

/-- What a caller is told in the end. -/
abbrev CallResult := Except Error Answer

namespace Reply

/-- The answer to a request for a function, as a reply with a certain function tells it. -/
def checked (requested : FunctionCode) (r : Reply) : CallResult :=
  if r.function = requested then .ok r.answer
  else .error (.protocol (.functionMismatch requested r.function))

end Reply

/-- A request that is being carried out. -/
structure Call where
  id : CallId
  unit : UnitId
  request : Request
  /-- The span after which the caller gives up. -/
  timeout : Option Span
  /-- The time at which the caller gives up. -/
  deadline : Option Span
  /-- The ticket of the call. -/
  serial : Serial
  transaction : TransactionId
  deriving DecidableEq

namespace Call

variable (c : Call)

/-- The message of a call. -/
def message : RequestMessage := ⟨⟨c.transaction, c.unit⟩, c.request⟩

/-- The frame of a call. -/
def frame : Frame := ⟨c.message.header, c.request.bytes⟩

/-- Whether the caller gives up at a time, or has done so before. -/
def isExpired (now : Span) : Bool := c.deadline.any (· ≤ now)

/-- Whether one call gives up before another: at an earlier time, or at the same time if it has been
started earlier. -/
def expiresBefore (c' : Call) : Bool :=
  match c.deadline, c'.deadline with
  | some t, some t' => t < t' || (t = t' && c.serial ≤ c'.serial)
  | some _, none => true
  | none, some _ => false
  | none, none => c.serial ≤ c'.serial

/-- What the caller is told about a frame. -/
def judge (policy : UnitPolicy) (f : Frame) : CallResult :=
  if policy = .reject ∧ f.header.unit ≠ c.unit then
    .error (.protocol (.unitMismatch c.unit f.header.unit))
  else
    match Reply.decode f.pdu with
    | .error cause => .error (.pdu cause)
    | .ok reply => reply.checked c.request.function

/-- What the caller is told about a delivery. -/
def verdict (policy : UnitPolicy) (delivery : Delivery) : CallResult :=
  delivery >>= c.judge policy

end Call

end Modbus
