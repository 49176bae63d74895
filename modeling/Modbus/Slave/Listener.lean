import Modbus.Slave.Connection

/-!
# Listeners

A listener accepts connections and serves them at the same time, each with a service of its own. If
the number of connections is limited, there is a slot for each: a connection takes one before its
service is set up, and is dropped when none is free. The slot is free again when the set-up gives no
service, and when the connection ends, however it ends. Services are set up one after another, while
the connections that are being served go on. Connections that end with an error are reported. An
aborted listener drops everything.
-/

namespace Modbus

/-- How setting up the service of a connection ends. -/
inductive Setup (κ : Type) where
  | service (key : κ)
  /-- There is no service for the connection. -/
  | nothing
  | failed (fault : Fault)

/-- A connection that is being served, and the key of its service. -/
structure Guest (κ : Type) where
  number : Nat
  key : κ
  connection : Connection := {}

/-- How listening comes to its end. -/
inductive Terminated where
  | finished
  | aborted
  deriving DecidableEq, Repr

/-- A listener whose services have keys. -/
structure Listener (κ : Type) where
  /-- The number of free slots, if the number of connections is limited. -/
  free : Option Nat := none
  /-- The number of the connection whose service is being set up. -/
  newcomer : Option Nat := none
  /-- The connections that are being served. -/
  guests : List (Guest κ) := []
  /-- How many services have been asked for. -/
  setups : Nat := 0
  /-- The errors with which connections have ended. -/
  reports : List Error := []
  isAborted : Bool := false

namespace Listener

variable {κ σ : Type} (l : Listener κ)

/-- A listener with a limit. -/
def limitedTo (limit : Nat) : Listener κ := { free := some limit }

/-- Whether another connection can be taken. -/
def hasRoom : Bool := l.free.all (0 < ·)

/-- Takes a slot. -/
def takeSlot : Listener κ := { l with free := l.free.map (· - 1) }

/-- Gives a slot back. -/
def freeSlot : Listener κ := { l with free := l.free.map (· + 1) }

/-- The numbers of the connections that have taken slots. -/
def holders : List Nat := l.guests.map (·.number) ++ l.newcomer.toList

/-- Whether connections are accepted. While a service is being set up they have to wait. -/
def isListening : Bool := !l.isAborted && l.newcomer.isNone

/-- A connection with a number comes; it is dropped unless it can be taken. -/
def greet (number : Nat) : Listener κ :=
  if l.isListening && l.hasRoom then
    { l.takeSlot with newcomer := some number, setups := l.setups + 1 }
  else l

/-- Setting up the service of the newcomer has ended. -/
def settle (setup : Setup κ) : Listener κ :=
  match l.newcomer with
  | none => l
  | some number =>
    match setup with
    | .service key => { l with newcomer := none, guests := l.guests ++ [⟨number, key, {}⟩] }
    | .nothing | .failed _ => { l.freeSlot with newcomer := none }

/-- Accepts a connection with a number; it is served if it is among the guests afterwards. -/
def accept (number : Nat) (setup : Setup κ) : Listener κ := (l.greet number).settle setup

/-- The guest with a number. -/
def guest? (number : Nat) : Option (Guest κ) := l.guests.find? (·.number = number)

/-- Whether a connection is being served. -/
def serves (number : Nat) : Bool := (l.guest? number).isSome

/-- A guest has ended, with an error or without one. -/
def leave (number : Nat) (cause : Option Error) : Listener κ :=
  { l.freeSlot with
    guests := l.guests.filter (·.number ≠ number)
    reports := l.reports ++ cause.toList }

/-- Puts the connection of a guest in its place, or removes the guest if it has ended. -/
def update (number : Nat) (connection : Connection) : Listener κ :=
  match connection.ended with
  | some cause => l.leave number cause
  | none =>
    { l with guests := l.guests.map fun g =>
        if g.number = number then { g with connection } else g }

/-- Lets something happen to the connection of a guest; gives what is sent to it. -/
def onGuest (number : Nat) (state : σ) (act : κ → Connection → Served σ) :
    Listener κ × σ × Bytes :=
  match l.guest? number with
  | none => (l, state, [])
  | some g =>
    let s := act g.key g.connection
    (l.update number s.connection, s.state, s.sent)

/-- Receives bytes from a guest. -/
def receive (service : κ → Service σ) (number : Nat) (state : σ) (chunk : Bytes) :
    Listener κ × σ × Bytes :=
  l.onGuest number state fun key c => c.receive (service key) state chunk

/-- The stream of a guest ends. -/
def finish (service : κ → Service σ) (number : Nat) (state : σ) : Listener κ × σ × Bytes :=
  l.onGuest number state fun key c => c.finish (service key) state

/-- Stops accepting and drops all connections. -/
def abort : Listener κ :=
  { l with
    guests := []
    newcomer := none
    free := l.free.map (· + l.holders.length)
    isAborted := true }

/-- How listening has come to its end, if it has. -/
def terminated : Option Terminated := if l.isAborted then some .aborted else none

end Listener

end Modbus
