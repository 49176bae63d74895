import Modbus.Transaction.Table

/-!
# Tickets of transactions

Whoever allocates a transaction id holds a ticket for it until the response has been taken or the
ticket is dropped. The desk keeps the table of ids together with the tickets that are held, each
under the serial of its allocation, and passes received frames on to them.
-/

namespace Modbus

/-- What a ticket is given: the frame with its response, or the reason why none will come. -/
abbrev Delivery := Except Error Frame

/-- A ticket that somebody holds. -/
structure Ticket where
  id : TransactionId
  /-- Whether the request has been handed over to the transport. -/
  isSent : Bool := false
  /-- What has been delivered and not yet taken. -/
  delivery : Option Delivery := none

/-- The tickets of a connection and the table of its transaction ids. -/
structure Desk where
  table : Table := {}
  tickets : Std.TreeMap Serial Ticket := ∅

namespace Desk

/-- What the holder of a ticket finds. -/
inductive Outlook where
  /-- Nothing has come so far. -/
  | waiting
  /-- There is a delivery to take. -/
  | ready (delivery : Delivery)
  /-- Nothing has come, and nothing can come, because the table does not know the ticket. -/
  | severed

/-- What is said to the holder of a severed ticket. -/
def severedError : Error := .transport ⟨.brokenPipe, "connection closed"⟩

/-- The delivery for which the holder of a ticket need not wait. -/
def Outlook.delivery? : Outlook → Option Delivery
  | waiting => none
  | ready delivery => some delivery
  | severed => some (.error severedError)

variable (d : Desk)

/-- Issues a ticket. -/
def allocate : Except Error (Serial × Ticket × Desk) := do
  let (id, table) ← d.table.allocate
  let ticket : Ticket := { id }
  let serial := d.table.nextSerial
  return (serial, ticket, ⟨table, d.tickets.insert serial ticket⟩)

/-- Changes a ticket that is held. -/
def modify (serial : Serial) (f : Ticket → Ticket) : Desk :=
  match d.tickets[serial]? with
  | none => d
  | some ticket => { d with tickets := d.tickets.insert serial (f ticket) }

/-- Notes that the request of a ticket has been handed over to the transport. -/
def markSent (serial : Serial) : Desk := d.modify serial ({ · with isSent := true })

/-- Puts a delivery on a ticket. -/
def deliver (delivery : Delivery) (serial : Serial) : Desk :=
  d.modify serial ({ · with delivery := some delivery })

/-- Drops a ticket. -/
def drop (serial : Serial) : Desk :=
  match d.tickets[serial]? with
  | none => d
  | some ticket => ⟨d.table.release ticket.id serial ticket.isSent, d.tickets.erase serial⟩

/-- What the holder of a ticket finds, if the ticket is held. -/
def outlook? (serial : Serial) : Option Outlook :=
  d.tickets[serial]?.map fun ticket =>
    match ticket.delivery with
    | some delivery => .ready delivery
    | none =>
      if d.table.entries[ticket.id]? = some (.pending serial) then .waiting else .severed

/-- Passes a received frame on to the ticket that waits for it. -/
def resolve (f : Frame) : Desk :=
  match d.table.resolve f.header.transaction with
  | (table, none) => { d with table }
  | (table, some serial) => { d with table }.deliver (.ok f) serial

/-- Closes the table and tells all tickets without a delivery the first reason for closing. -/
def close (reason : Fault) : Desk :=
  let (table, serials) := d.table.close reason
  let first := table.closed.getD reason
  serials.foldl (·.deliver (.error (.transport first))) { d with table }

end Desk

/-- What can be done at a desk. -/
inductive DeskAction where
  | allocate
  | markSent (serial : Serial)
  | drop (serial : Serial)
  /-- Takes the delivery of a ticket, if there is one, which ends the ticket. -/
  | take (serial : Serial)
  | resolve (frame : Frame)
  | close (reason : Fault)

namespace Desk

/-- The desk after an action. -/
def act (d : Desk) : DeskAction → Desk
  | .allocate =>
    match d.allocate with
    | .ok (_, _, d) => d
    | .error _ => d
  | .markSent serial => d.markSent serial
  | .drop serial => d.drop serial
  | .take serial =>
    match (d.outlook? serial).bind Outlook.delivery? with
    | some _ => d.drop serial
    | none => d
  | .resolve frame => d.resolve frame
  | .close reason => d.close reason

/-- The desk after a sequence of actions. -/
def run (d : Desk) (actions : List DeskAction) : Desk := actions.foldl act d

end Desk

end Modbus
