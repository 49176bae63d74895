import Modbus.Master.Basic

/-!
# Sessions

A session is a master with a selected unit and a default timeout. Its typed calls read and write
registers of that unit, and accept a response only if it fits the request: a read has to bring the
requested number of words, a write has to echo what was written.

`Session.exchange` plays one call against a peer that follows a script: the peer receives the
request, sends the scripted replies, and then time passes.
-/

namespace Modbus

/-- The settings of a connection. -/
structure Settings where
  /-- The time that connecting may take. -/
  connectTimeout : Span := .ofSeconds 3
  /-- The time that a call may take. -/
  requestTimeout : Span := .ofSeconds 3
  policy : UnitPolicy := .warn

/-- A master with a selected unit. -/
structure Session where
  master : Master
  unit : UnitId
  /-- The time that a call may take. -/
  timeout : Span
  /-- The name of the next call. -/
  nextCall : CallId := 0

/-- What a typed call gives. -/
inductive TypedResult (α : Type) where
  | value (a : α)
  | exception (code : ExceptionCode)
  | failed (e : Error)
  /-- A response of another function than the requested one, which no call accepts. -/
  | foreign (r : Response)

namespace TypedResult

variable {α : Type}

/-- Takes from the result of a call what the response brings. -/
def ofResult (read : Response → Option (Except PduError α)) : CallResult → TypedResult α
  | .error e => .failed e
  | .ok (.error code) => .exception code
  | .ok (.ok r) =>
    match read r with
    | some (.ok a) => .value a
    | some (.error cause) => .failed (.pdu cause)
    | none => .foreign r

end TypedResult

/-- A request together with what a caller wants to know of the response. -/
structure TypedCall (α : Type) where
  request : Request
  /-- What a response to the request brings; nothing is known of responses of other functions. -/
  read : Response → Option (Except PduError α)

namespace TypedCall

/-- Reads registers. The response has to bring the requested number of words. -/
def readHoldingRegisters (address : Address) (quantity : Quantity) : TypedCall (List Word) where
  request := .readHoldingRegisters address quantity
  read
    | .readHoldingRegisters words =>
      some (if words.length = quantity.toNat then .ok words else .error .unexpectedRegisterCount)
    | _ => none

/-- Writes a register. The response has to echo the address and the word. -/
def writeSingleRegister (address : Address) (word : Word) : TypedCall Unit where
  request := .writeSingleRegister address word
  read
    | .writeSingleRegister address' word' =>
      some (if address' = address ∧ word' = word then .ok () else .error .unexpectedSingleEcho)
    | _ => none

/-- Writes registers. The response has to echo the address and the number of words. -/
def writeMultipleRegisters (address : Address) (words : List Word) : TypedCall Unit where
  request := .writeMultipleRegisters address words
  read
    | .writeMultipleRegisters address' quantity =>
      some (if address' = address ∧ quantity.toNat = words.length then .ok ()
        else .error .unexpectedMultipleEcho)
    | _ => none

/-- What the result of the request means to the caller. -/
def result {α : Type} (t : TypedCall α) : CallResult → TypedResult α := TypedResult.ofResult t.read

end TypedCall

/-- What a scripted peer sends. -/
inductive ScriptedReply where
  | raw (bytes : Bytes)
  /-- A PDU in a frame, whose header is that of the request where nothing else is given. -/
  | framed (pdu : Bytes) (transaction : Option TransactionId) (unit : Option UnitId)

/-- How a call against a scripted peer has gone. -/
structure Exchange where
  /-- What the peer has received. -/
  sent : Bytes
  /-- Whether the stream to the peer has ended. -/
  isEnded : Bool
  /-- What the caller has been told, unless the call had to be given up. -/
  result : Option CallResult

namespace Session

/-- A session on a new connection. -/
def attach (unit : UnitId) (settings : Settings) (capacity : Nat) : Session where
  master := .attach settings.policy capacity
  unit
  timeout := settings.requestTimeout

/-- The header of the first frame in the bytes that the peer has received; zeros if there is
none. -/
def firstHeader (bytes : Bytes) : Header :=
  match Frame.split bytes with
  | .ok (some (f, _)) => f.header
  | _ => ⟨0, 0⟩

/-- The bytes of a scripted reply to a request with a header. -/
def scriptedBytes (request : Header) : ScriptedReply → Bytes
  | .raw bytes => bytes
  | .framed pdu transaction unit =>
    Frame.bytes ⟨⟨transaction.getD request.transaction, unit.getD request.unit⟩, pdu⟩

/-- What a call has been told in the course of events. -/
def resultOf (id : CallId) (events : List Event) : Option CallResult :=
  events.findSome? fun
    | .finished id' result => if id' = id then some result else none
    | _ => none

/-- How long a scripted peer waits for a call to give up. -/
def patience : Span := .ofSeconds 10

variable (s : Session)

/-- Lets something happen to the master while a call is going on. -/
def whileOpen (id : CallId) (h : Happening) (o : Outcome) : Outcome :=
  if (resultOf id o.events).isSome then o else o.andThen (·.step h)

/-- Starts a call and lets the peer receive everything. -/
def ask (unit : UnitId) (request : Request) (timeout : Option Span) : Outcome :=
  (s.master.step (.start s.nextCall unit request timeout)).andThen (·.step (.receive none))

/-- The peer sends bytes. -/
def hear (o : Outcome) (bytes : Bytes) : Outcome := o.andThen (·.step (.send bytes))

/-- Lets time pass while the call is going on, and gives it up at last; then the session is ready
for another call. -/
def conclude (o : Outcome) : Option CallResult × Session :=
  let o := whileOpen s.nextCall (.cancel s.nextCall) (whileOpen s.nextCall (.advance patience) o)
  (resultOf s.nextCall o.events, { s with master := o.master, nextCall := s.nextCall + 1 })

/-- Plays a call against a scripted peer. -/
def exchange (unit : UnitId) (request : Request) (timeout : Option Span)
    (replies : List ScriptedReply) : Exchange × Session :=
  let asked := s.ask unit request timeout
  let header := firstHeader asked.received
  let heard := replies.foldl (fun o r => hear o (scriptedBytes header r)) asked
  let (result, next) := s.conclude heard
  (⟨asked.received, asked.master.outlet.isEnded, result⟩, next)

/-- Plays a call to the selected unit, with the default timeout, against a scripted peer. -/
def call (request : Request) (replies : List ScriptedReply) : Exchange × Session :=
  s.exchange s.unit request (some s.timeout) replies

/-- Selects the unit of later calls. -/
def select (unit : UnitId) : Session := { s with unit }

/-- Disconnects. The stream to the peer ends, and every call fails from now on. -/
def disconnect : Session :=
  { s with master := (s.master.step (.disconnect s.nextCall)).master, nextCall := s.nextCall + 1 }

/-- The peer ends its stream. -/
def finish : Session := { s with master := (s.master.step .finish).master }

end Session

end Modbus
