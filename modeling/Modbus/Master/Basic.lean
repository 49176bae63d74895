import Modbus.Frame.Stream
import Modbus.Master.Call
import Modbus.Master.Outlet

/-!
# Masters

A master carries out any number of calls over one connection at the same time. A call gets a
transaction id, waits until it is its turn to write, appends its frame to the outgoing buffer,
empties the buffer, lets the next one write, and waits for its delivery. Turns are given in the
order in which calls have been started (`Master.queue`, whose head has the turn). A call that ends
in the middle of its turn leaves in the buffer what the transport has not accepted, and whoever
writes next sends it first. The frame of a call is written whole or not at all.

A turn that has to wait for the transport goes on when the transport has accepted more or says so
(`Master.proceed`), and once more at the deadline of its call (`Master.expire`). Whatever else
happens in between leaves it alone. This can be seen: a call that found the buffer too full appends
its frame only when its turn goes on, even if there is room in the buffer before.

A master changes only when something happens to it (`Happening`); time passes only by such a
happening. Afterwards nothing can go on until the next one. `Master.step` gives the new state and
what can be seen from outside (`Event`).
-/

namespace Modbus

/-- A place in the queue of those who want to write. -/
inductive Waiter where
  /-- A call, and whether its frame has been appended to the buffer. -/
  | call (call : Call) (isWritten : Bool)
  /-- A disconnection, which ends the stream. -/
  | disconnect (id : CallId)

namespace Waiter

/-- The call that wants to write. -/
def call? : Waiter → Option Call
  | call c _ => some c
  | disconnect _ => none

/-- Whether a waiter is a certain call. -/
def isCall (c : Call) : Waiter → Bool
  | call c' _ => c' = c
  | disconnect _ => false

/-- Whether a waiter is a disconnection of a certain name. -/
def isDisconnect (id : CallId) : Waiter → Bool
  | call _ _ => false
  | disconnect id' => id' = id

end Waiter

/-- What a master shows to the outside. -/
inductive Event where
  /-- The frame of a call has been appended to the outgoing bytes. -/
  | written (call : Call)
  /-- A call has ended. -/
  | finished (id : CallId) (result : CallResult)
  /-- A disconnection has ended the stream. -/
  | disconnected (id : CallId)

/-- The incoming side of a connection. -/
structure Inlet where
  /-- The bytes in front of the first whole frame. -/
  buffer : Bytes := []
  /-- Whether frames are no longer read. -/
  isClosed : Bool := false

/-- A master and its connection. -/
structure Master where
  policy : UnitPolicy := .warn
  /-- The time that has passed. -/
  clock : Span := 0
  desk : Desk := {}
  outlet : Outlet
  inlet : Inlet := {}
  /-- Those who want to write; the first one has the turn. -/
  queue : List Waiter := []
  /-- The calls whose frames the transport has accepted. -/
  awaiting : List Call := []

/-- What can happen to a master. -/
inductive Happening where
  /-- A call is started, with the span after which it gives up. -/
  | start (id : CallId) (unit : UnitId) (request : Request) (timeout : Option Span)
  /-- A call or a disconnection is given up by its caller. -/
  | cancel (id : CallId)
  /-- A disconnection is started. -/
  | disconnect (id : CallId)
  /-- Time passes. -/
  | advance (span : Span)
  /-- The peer receives bytes, at most a given number of them. -/
  | receive (most : Option Nat)
  /-- The peer sends bytes. -/
  | send (bytes : Bytes)
  /-- The peer ends its stream. -/
  | finish
  /-- The peer stops receiving. -/
  | deafen
  /-- The transport can be written to again, and treats the next attempts as given. -/
  | wake (treatments : List Treatment)

/-- What a happening leads to. -/
structure Outcome where
  master : Master
  /-- What has become visible, in order. -/
  events : List Event := []
  /-- What the peer has received. -/
  received : Bytes := []

namespace Outcome

/-- Goes on from an outcome. -/
def andThen (o : Outcome) (next : Master → Outcome) : Outcome :=
  let o' := next o.master
  ⟨o'.master, o.events ++ o'.events, o.received ++ o'.received⟩

end Outcome

namespace Master

/-- A master on a new connection. -/
def attach (policy : UnitPolicy) (capacity : Nat) : Master := { policy, outlet := { capacity } }

variable (m : Master)

/-- The calls that have not ended: those that want to write, and those that wait for a delivery. -/
def calls : List Call := m.queue.filterMap Waiter.call? ++ m.awaiting

/-- Ends a call. -/
def finishCall (c : Call) (result : CallResult) : Outcome :=
  ⟨{ m with desk := m.desk.drop c.serial }, [.finished c.id result], []⟩

/-- The delivery for which a call need not wait. -/
def deliveryFor? (c : Call) : Option Delivery :=
  (m.desk.outlook? c.serial).bind Desk.Outlook.delivery?

/-- Ends a call that has its delivery, and lets any other call wait for it. -/
def await (c : Call) : Outcome :=
  match m.deliveryFor? c with
  | some delivery => m.finishCall c (c.verdict m.policy delivery)
  | none => ⟨{ m with awaiting := m.awaiting ++ [c] }, [], []⟩

/-- Ends the calls among the given ones that have their delivery, and lets the others wait. -/
def settle (m : Master) : List Call → Outcome
  | [] => ⟨m, [], []⟩
  | c :: cs => (m.await c).andThen fun m => m.settle cs

/-- Looks for deliveries to the calls that wait for them. -/
def collect : Outcome := settle { m with awaiting := [] } m.awaiting

/-- Appends the frame of a call to the buffer. -/
def writeFrame (c : Call) : Outcome :=
  ⟨{ m with outlet := m.outlet.append c.frame.bytes, desk := m.desk.markSent c.serial },
    [.written c], []⟩

/-- How a turn ends. -/
inductive Turn where
  /-- The turn goes on when the transport has room; the flag says whether the frame is in the
  buffer. -/
  | stalled (isWritten : Bool) (outcome : Outcome)
  /-- The turn is over. -/
  | over (outcome : Outcome)

/-- Empties the buffer, in the turn of a call whose frame is in it. -/
def flushFrame (c : Call) : Turn :=
  match m.outlet.flush with
  | (outlet, .flushed) => .over ({ m with outlet }.await c)
  | (outlet, .stalled) => .stalled true ⟨{ m with outlet }, [], []⟩
  | (outlet, .broken fault) => .over ({ m with outlet }.finishCall c (.error (.transport fault)))

/-- Appends the frame of a call and empties the buffer. -/
def sendFrame (c : Call) : Turn :=
  let o := m.writeFrame c
  match o.master.flushFrame c with
  | .stalled isWritten o' => .stalled isWritten (o.andThen fun _ => o')
  | .over o' => .over (o.andThen fun _ => o')

/-- A call has the turn. If the buffer is too full, it has to be emptied first. -/
def turn (c : Call) (isWritten : Bool) : Turn :=
  if isWritten then m.flushFrame c
  else if m.outlet.buffer.length < Outlet.highWater then m.sendFrame c
  else
    match m.outlet.flush with
    | (outlet, .flushed) => { m with outlet }.sendFrame c
    | (outlet, .stalled) => .stalled false ⟨{ m with outlet }, [], []⟩
    | (outlet, .broken fault) => .over ({ m with outlet }.finishCall c (.error (.transport fault)))

/-- Gives turns to the waiters of a queue until one of them has to wait for the transport. -/
def giveTurns (m : Master) : List Waiter → Outcome
  | [] => ⟨{ m with queue := [] }, [], []⟩
  | .disconnect id :: rest =>
    Outcome.andThen ⟨{ m with outlet := m.outlet.shut }, [.disconnected id], []⟩
      fun m => m.giveTurns rest
  | .call c isWritten :: rest =>
    match m.turn c isWritten with
    | .over o => o.andThen fun m => m.giveTurns rest
    | .stalled isWritten o =>
      { o with master := { o.master with queue := .call c isWritten :: rest } }

/-- Goes on with the turn of the first in the queue, and then with the turns of those behind. -/
def proceed : Outcome := m.giveTurns m.queue

/-- Puts a new waiter into the queue. It has its turn at once if nobody is before it. -/
def enqueue (w : Waiter) : Outcome :=
  if m.queue.isEmpty then m.giveTurns [w] else ⟨{ m with queue := m.queue ++ [w] }, [], []⟩

/-- Whether a waiter of a kind has the turn. -/
def hasTurn (p : Waiter → Bool) : Bool := m.queue.head?.any p

/-- Forgets the waiters of a kind, also if they wait for a delivery. -/
def remove (p : Waiter → Bool) : Master :=
  { m with
    queue := m.queue.filter (!p ·)
    awaiting := m.awaiting.filter fun c => !p (.call c true) }

/-- Forgets the waiters of a kind. If one of them had the turn, the next one has it now. -/
def withdraw (p : Waiter → Bool) : Outcome :=
  if m.hasTurn p then (m.remove p).proceed else ⟨m.remove p, [], []⟩

/-- Ends a call whose time is over, if it has not ended before. -/
def giveUp (c : Call) : Outcome :=
  if c ∈ m.calls then
    (m.finishCall c (.error (.timeout (c.timeout.getD 0)))).andThen (·.withdraw (·.isCall c))
  else ⟨m, [], []⟩

/-- The deadline of a call has come. If the call has the turn, it goes on with it a last time. -/
def expire (c : Call) : Outcome :=
  (if m.hasTurn (·.isCall c) then m.proceed else ⟨m, [], []⟩).andThen fun m => m.giveUp c

/-- Ends calls at their deadlines, one after another. -/
def expireAll (m : Master) : List Call → Outcome
  | [] => ⟨m, [], []⟩
  | c :: cs => (m.expire c).andThen fun m => m.expireAll cs

/-- The calls whose deadlines have come, in the order of their deadlines. -/
def expired : List Call :=
  (m.calls.filter (·.isExpired m.clock)).mergeSort Call.expiresBefore

/-- Closes the table of transactions and the incoming side. -/
def close (reason : Fault) : Outcome :=
  collect { m with desk := m.desk.close reason, inlet := { m.inlet with isClosed := true } }

/-- The call for a request that can be sent, and the desk that has issued its ticket. -/
def newCall (id : CallId) (unit : UnitId) (request : Request) (timeout : Option Span) :
    Except Error (Call × Desk) :=
  match request.size? with
  | .error cause => .error (.pdu cause)
  | .ok _ =>
    match m.desk.allocate with
    | .error e => .error e
    | .ok (serial, ticket, desk) =>
      let deadline := timeout.map fun span => (m.clock + span).ceilMillis
      .ok ({ id, unit, request, timeout, deadline, serial, transaction := ticket.id }, desk)

/-- Starts a call. -/
def start (id : CallId) (unit : UnitId) (request : Request) (timeout : Option Span) : Outcome :=
  match m.newCall id unit request timeout with
  | .error e => ⟨m, [.finished id (.error e)], []⟩
  | .ok (c, desk) =>
    let o := enqueue { m with desk } (.call c false)
    if c.isExpired m.clock then o.andThen fun m => m.giveUp c else o

/-- Gives up a call or a disconnection. -/
def cancel (id : CallId) : Outcome :=
  match m.calls.find? (·.id = id) with
  | some c => withdraw { m with desk := m.desk.drop c.serial } (·.isCall c)
  | none => m.withdraw (·.isDisconnect id)

/-- Starts a disconnection: nothing is read any more, and when it has the turn, the stream ends. -/
def disconnect (id : CallId) : Outcome :=
  (m.close ⟨.notConnected, "disconnected"⟩).andThen fun m => m.enqueue (.disconnect id)

/-- Lets time pass, and ends the calls whose deadlines have come. -/
def advance (span : Span) : Outcome :=
  let m := { m with clock := m.clock + span }
  m.expireAll m.expired

/-- The most bytes that the peer can receive before something else happens. -/
def backlog : Nat :=
  m.outlet.transit.length + m.outlet.buffer.length +
    (m.queue.filterMap Waiter.call?).foldl (fun n c => n + c.frame.bytes.length) 0

/-- The peer receives bytes, at most the given number; whenever it has made room, the queue goes
on. -/
def receive (m : Master) (most : Nat) : Outcome :=
  let n := min most m.outlet.transit.length
  if _h : n = 0 then ⟨m, [], []⟩
  else
    let (bytes, outlet) := m.outlet.receive n
    Outcome.andThen { proceed { m with outlet } with received := bytes }
      fun m => m.receive (most - n)
termination_by most

/-- Passes frames on to the calls that wait for them. -/
def deliver (m : Master) : List Frame → Outcome
  | [] => ⟨m, [], []⟩
  | f :: fs => (collect { m with desk := m.desk.resolve f }).andThen fun m => m.deliver fs

/-- Goes on with what has been read: frames are passed on, and an error closes the connection. -/
def hear (r : Reading Frame) : Outcome :=
  (deliver { m with inlet := { m.inlet with buffer := r.rest } } r.items).andThen fun m =>
    match r.error with
    | some e => m.close e.fault
    | none => ⟨m, [], []⟩

/-- The peer sends bytes. -/
def send (bytes : Bytes) : Outcome :=
  if m.inlet.isClosed then ⟨m, [], []⟩
  else m.hear (Decoder.frames.drain (m.inlet.buffer ++ bytes))

/-- The peer ends its stream. -/
def finish : Outcome :=
  if m.inlet.isClosed then ⟨m, [], []⟩
  else
    (m.hear (Decoder.frames.drainLast m.inlet.buffer)).andThen fun m =>
      if m.inlet.isClosed then ⟨m, [], []⟩
      else m.close ⟨.unexpectedEof, "connection closed by peer"⟩

/-- The peer stops receiving. -/
def deafen : Outcome := proceed { m with outlet := m.outlet.deafen }

/-- The transport can be written to again. -/
def wake (treatments : List Treatment) : Outcome :=
  proceed { m with outlet := { m.outlet with treatments } }

/-- What a happening leads to. -/
def step : Happening → Outcome
  | .start id unit request timeout => m.start id unit request timeout
  | .cancel id => m.cancel id
  | .disconnect id => m.disconnect id
  | .advance span => m.advance span
  | .receive most => m.receive (most.getD m.backlog)
  | .send bytes => m.send bytes
  | .finish => m.finish
  | .deafen => m.deafen
  | .wake treatments => m.wake treatments

/-- What a sequence of happenings leads to. -/
def run (m : Master) : List Happening → Outcome
  | [] => ⟨m, [], []⟩
  | h :: hs => (m.step h).andThen fun m => m.run hs

end Master

end Modbus
