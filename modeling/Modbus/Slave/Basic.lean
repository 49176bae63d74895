import Modbus.Slave.Listener

/-!
# Slaves

A slave serves a process image through a listener while it is open. Units are added only while it is
closed. Opening and closing may alternate any number of times; the image and its registers stay.

An image is a value. The connections of an open slave are served from the image as it was when the
slave was opened, and what is added to the slave later belongs to another image, which shares the
banks of the one before.
-/

namespace Modbus

/-- Where a slave listens. -/
structure SocketAddress where
  host : String
  port : UInt16
  deriving DecidableEq, Repr

namespace SocketAddress

/-- All interfaces of the host. -/
def unspecified (port : UInt16) : SocketAddress := ⟨"0.0.0.0", port⟩

/-- The text of an address. -/
def text (a : SocketAddress) : String := a.host ++ ":" ++ toString a.port.toNat

end SocketAddress

/-- The port on which a slave listens by default. -/
def defaultPort : UInt16 := 1502

/-- The address at which a slave listens by default, on all interfaces of the host. -/
def defaultAddress : String := (SocketAddress.unspecified defaultPort).text

/-- How many connections a slave serves at the same time by default. -/
def defaultMaxConnections : Nat := 5

/-- What an open slave has besides a closed one. -/
structure Running where
  /-- The address that has been bound. -/
  address : SocketAddress
  /-- The image that is served. -/
  image : ProcessImage
  /-- The listener; the keys of its services are images. -/
  listener : Listener ProcessImage

/-- A slave with a process image. -/
structure Slave where
  /-- The address that is to be bound. -/
  address : SocketAddress := .unspecified defaultPort
  maxConnections : Nat := defaultMaxConnections
  image : ProcessImage := {}
  memory : Memory := {}
  running : Option Running := none

namespace Slave

variable (s : Slave)

/-- Whether the slave is open. -/
def isOpen : Bool := s.running.isSome

/-- The address at which the slave listens, while it is open. -/
def localAddress : Option SocketAddress := s.running.map (·.address)

/-- Adds a unit with its bank. -/
def add (unit : UnitId) (bank : Bank) : Except RegisterError Slave :=
  if s.isOpen then .error .inUse
  else do
    let (image, memory) ← s.image.insert unit bank s.memory
    return { s with image, memory }

/-- Opens the slave, unless it is open; gives the address that has been bound. The host may bind
another address than the one it is asked for, or none. -/
def openAt (bind : SocketAddress → Except Fault SocketAddress) :
    Except Fault (SocketAddress × Slave) :=
  match s.running with
  | some r => .ok (r.address, s)
  | none => do
    let address ← bind s.address
    let running := some ⟨address, s.image, .limitedTo s.maxConnections⟩
    return (address, { s with running })

/-- Opens the slave at the address that is to be bound. -/
def openUp : Slave :=
  match s.openAt .ok with
  | .ok (_, s) => s
  | .error _ => s

/-- Closes the slave and drops all connections. -/
def close : Slave := { s with running := none }

/-- Accepts a connection, which is served from the image with which the slave was opened. -/
def accept (number : Nat) : Slave :=
  { s with running := s.running.map fun r =>
      { r with listener := r.listener.accept number (.service r.image) } }

/-- The client with a number, while it is being served. -/
def guest? (number : Nat) : Option (Guest ProcessImage) :=
  s.running.bind (·.listener.guest? number)

/-- Whether a connection is being served. -/
def serves (number : Nat) : Bool := (s.guest? number).isSome

/-- Lets something happen to the listener; gives what is sent to the guest. -/
def onListener
    (act : Listener ProcessImage → Memory → Listener ProcessImage × Memory × Bytes) :
    Slave × Bytes :=
  match s.running with
  | none => (s, [])
  | some r =>
    let (listener, memory, sent) := act r.listener s.memory
    ({ s with running := some { r with listener }, memory }, sent)

/-- Receives bytes on a connection. -/
def receive (number : Nat) (chunk : Bytes) : Slave × Bytes :=
  s.onListener fun l memory => l.receive ProcessImage.handle number memory chunk

/-- The stream of a connection ends. -/
def finish (number : Nat) : Slave × Bytes :=
  s.onListener fun l memory => l.finish ProcessImage.handle number memory

/-- Whether another slave can be opened at the address of this one. -/
def tryAddress : Except Fault Unit :=
  if s.isOpen then .error ⟨.addrInUse, "Address already in use"⟩ else .ok ()

end Slave

end Modbus
