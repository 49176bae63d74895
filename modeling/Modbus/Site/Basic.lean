import Modbus.Master.Session
import Modbus.Site.Network
import Modbus.Slave.Basic

/-!
# Sites

A site is a server and those who are connected to it over a network: sessions of masters, and raw
sockets that send and receive bytes as they like. Bytes are delivered at once and without loss, and
whoever loses the connection notices it at once.
-/

namespace Modbus

/-- What accepts and serves connections, which are known by their numbers. -/
structure Server (τ : Type) where
  /-- Accepts a connection, unless nobody listens. -/
  accept : τ → Nat → Option τ
  /-- Whether a connection is being served. -/
  serves : τ → Nat → Bool
  receive : τ → Nat → Bytes → τ × Bytes
  finish : τ → Nat → τ × Bytes

/-- The other end of a connection. -/
inductive Endpoint where
  | session (session : Session)
  /-- A raw socket, with the bytes that have arrived, and whether the connection is lost. -/
  | raw (arrived : Bytes) (isLost : Bool)
  /-- The connection has been given up. -/
  | gone

/-- A server and the ends of the connections to it, which are numbered from zero. -/
structure Site (τ : Type) where
  network : Network
  host : τ
  endpoints : List Endpoint := []

namespace Endpoint

/-- Bytes arrive. -/
def arrive (bytes : Bytes) : Endpoint → Endpoint
  | session s => session { s with master := (s.master.step (.send bytes)).master }
  | raw arrived isLost => raw (arrived ++ bytes) isLost
  | gone => gone

/-- The connection is lost. -/
def lose : Endpoint → Endpoint
  | session s => session s.finish
  | raw arrived _ => raw arrived true
  | gone => gone

end Endpoint

namespace Site

variable {τ : Type} (server : Server τ) (site : Site τ)

/-- An end of a connection. -/
def endpoint (index : Nat) : Except Breakdown Endpoint :=
  match site.endpoints[index]? with
  | some e => .ok e
  | none => .error (.missing index site.endpoints.length)

/-- The session at the end of a connection. -/
def session (index : Nat) : Except Breakdown Session := do
  match ← site.endpoint index with
  | .session s => return s
  | _ => throw (.missing index site.endpoints.length)

/-- Puts something else at the end of a connection. -/
def put (index : Nat) (e : Endpoint) : Site τ :=
  { site with endpoints := site.endpoints.set index e }

/-- Whoever is no longer served notices it. -/
def notice : Site τ :=
  { site with endpoints := site.endpoints.mapIdx fun n e =>
      if server.serves site.host n then e else e.lose }

/-- Connects. It succeeds even if the server drops the connection at once. -/
def connect (e : Endpoint) : Except SystemFault (Site τ) := do
  site.network.route
  match server.accept site.host site.endpoints.length with
  | none => throw .connectionRefused
  | some host => return notice server { site with host, endpoints := site.endpoints ++ [e] }

/-- Sends bytes to the server; gives what it sends back. -/
def pass (index : Nat) (bytes : Bytes) : Site τ × Bytes :=
  let (host, sent) := server.receive site.host index bytes
  ({ site with host }, sent)

/-- Carries a call out. -/
def execute (index : Nat) (unit : UnitId) (request : Request) (timeout : Option Span) :
    Except Breakdown (Option CallResult × Site τ) := do
  let s ← site.session index
  let asked := s.ask unit request timeout
  let (site, sent) := site.pass server index asked.received
  let heard := Session.hear asked sent
  let lost := if server.serves site.host index then heard else heard.andThen (·.step .finish)
  let (result, s) := s.conclude lost
  return (result, (site.put index (.session s)).notice server)

/-- Carries a call to the selected unit out. -/
def call (index : Nat) (request : Request) : Except Breakdown (Option CallResult × Site τ) := do
  let s ← site.session index
  site.execute server index s.unit request (some s.timeout)

/-- Reads single registers at the same time, from an address on. -/
def readEach (unit : UnitId) (index : Nat) (address : Address) (site : Site τ) :
    Nat → Except Breakdown (List (Option CallResult) × Site τ)
  | 0 => .ok ([], site)
  | n + 1 => do
    let s ← site.session index
    let (result, site) ←
      site.execute server index unit (.readHoldingRegisters address 1) (some s.timeout)
    let (results, site) ← readEach unit index (address + 1) site n
    return (result :: results, site)

/-- Selects the unit of later calls. -/
def select (index : Nat) (unit : UnitId) : Except Breakdown (Site τ) := do
  let s ← site.session index
  return site.put index (.session (s.select unit))

/-- The server sees the end of the stream of a connection. -/
def finish (index : Nat) : Site τ :=
  let (host, sent) := server.finish site.host index
  let endpoints := site.endpoints.modify index (·.arrive sent)
  notice server { site with host, endpoints }

/-- Disconnects a session. -/
def disconnect (index : Nat) : Except Breakdown (Site τ) := do
  let s ← site.session index
  return (site.put index (.session s.disconnect)).finish server index

/-- Gives a connection up. -/
def hangUp (index : Nat) : Except Breakdown (Site τ) := do
  let _ ← site.endpoint index
  return (site.put index .gone).finish server index

/-- Sends bytes through a raw socket. -/
def sendRaw (index : Nat) (bytes : Bytes) : Except Breakdown (Site τ) := do
  let _ ← site.endpoint index
  let (site, sent) := site.pass server index bytes
  return notice server { site with endpoints := site.endpoints.modify index (·.arrive sent) }

/-- Ends the stream of a raw socket. -/
def shutRaw (index : Nat) : Except Breakdown (Site τ) := do
  let _ ← site.endpoint index
  return site.finish server index

/-- Receives a number of bytes through a raw socket, or all there are; tells whether the connection
was lost before they had arrived. -/
def receiveRaw (index : Nat) (length : Nat) : Except Breakdown ((Bytes × Bool) × Site τ) := do
  match ← site.endpoint index with
  | .raw arrived isLost =>
    return ((arrived.take length, isLost && arrived.length < length),
      site.put index (.raw (arrived.drop length) isLost))
  | _ => throw (.missing index site.endpoints.length)

end Site

/-- Listeners as servers, where each connection has a set-up and a service of its own. -/
def Listener.server {κ σ : Type} (setup : Nat → Setup κ) (service : κ → Service σ) :
    Server (Listener κ × σ) where
  accept := fun (l, state) number =>
    if l.isAborted then none else some (l.accept number (setup l.setups), state)
  serves := fun (l, _) number => l.serves number
  receive := fun (l, state) number chunk =>
    let (l, state, sent) := l.receive service number state chunk
    ((l, state), sent)
  finish := fun (l, state) number =>
    let (l, state, sent) := l.finish service number state
    ((l, state), sent)

/-- Slaves as servers. -/
def Slave.server : Server Slave where
  accept := fun s number => if s.isOpen then some (s.accept number) else none
  serves := Slave.serves
  receive := Slave.receive
  finish := Slave.finish

end Modbus
