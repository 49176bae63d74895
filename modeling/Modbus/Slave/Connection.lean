import Modbus.Frame.Stream
import Modbus.Register.Dispatch

/-!
# Connections of a slave

A slave reads requests from a connection and answers one after another, each with the header of its
request. Exceptions are answers like others. The connection ends with the stream, or with the first
error: a stream that cannot be split into frames, a malformed request, or an answer that does not
fit into a PDU. Requests in front of an error are answered, and nothing behind it is looked at.
-/

namespace Modbus

/-- A connection, as the slave sees it. -/
structure Connection where
  /-- The bytes in front of the first whole request. -/
  buffer : Bytes := []
  /-- How the connection has ended, if it has: with an error, or at the end of a frame. -/
  ended : Option (Option Error) := none

/-- What answering has led to. -/
structure Answered (σ : Type) where
  state : σ
  /-- The bytes sent to the master. -/
  sent : Bytes := []
  /-- The error that keeps the slave from answering. -/
  error : Option Error := none

/-- What has become of a connection. -/
structure Served (σ : Type) where
  connection : Connection
  state : σ
  /-- The bytes sent to the master. -/
  sent : Bytes

namespace Connection

variable {σ : Type} (service : Service σ)

/-- The reply to a request, and the state afterwards. -/
def replyTo (state : σ) (m : RequestMessage) : ReplyMessage × σ :=
  let (answer, state) := service state m.header.unit m.request
  (⟨m.header, answer.reply m.request.function⟩, state)

/-- Answers requests one after another. -/
def answerAll (state : σ) : List RequestMessage → Answered σ
  | [] => { state }
  | m :: ms =>
    let (reply, state) := replyTo service state m
    match reply.frame? with
    | .error cause => { state, error := some (.pdu cause) }
    | .ok f =>
      let later := answerAll state ms
      { later with sent := f.bytes ++ later.sent }

/-- Answers the requests that have been read; the connection ends with an error, or with the
stream. -/
def serve (state : σ) (r : Reading RequestMessage) (isLast : Bool) : Served σ :=
  let answered := answerAll service state r.items
  let ended := match answered.error.or r.error with
    | some e => some (some e)
    | none => if isLast then some none else none
  ⟨⟨r.rest, ended⟩, answered.state, answered.sent⟩

variable (c : Connection)

/-- The slave receives bytes. -/
def receive (state : σ) (chunk : Bytes) : Served σ :=
  if c.ended.isSome then ⟨c, state, []⟩
  else serve service state (Decoder.requests.drain (c.buffer ++ chunk)) false

/-- The stream of requests ends. -/
def finish (state : σ) : Served σ :=
  if c.ended.isSome then ⟨c, state, []⟩
  else serve service state (Decoder.requests.drainLast c.buffer) true

/-- What the slave has sent, chunk by chunk, and how the connection is then. -/
def receiveAll (c : Connection) (state : σ) : List Bytes → List (Served σ)
  | [] => []
  | chunk :: chunks =>
    let s := receive service c state chunk
    s :: receiveAll s.connection s.state chunks

end Connection

end Modbus
