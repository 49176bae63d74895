import Modbus.Fault

/-!
# Networks

Whether hosts reach each other. On a network without routes an address can be bound, but nothing can
be connected to, not even on the same host.
-/

namespace Modbus

/-- A fault as the operating system reports it. -/
structure SystemFault where
  code : Nat
  kind : FaultKind
  text : String
  deriving DecidableEq, Repr

namespace SystemFault

/-- There is no route to the address. -/
def networkUnreachable : SystemFault := ⟨101, .networkUnreachable, "Network is unreachable"⟩

/-- Nobody listens at the address. -/
def connectionRefused : SystemFault := ⟨111, .connectionRefused, "Connection refused"⟩

/-- All that the operating system says about a fault. -/
def detail (f : SystemFault) : String :=
  "Os \x7b code: " ++ toString f.code ++ ", kind: " ++ f.kind.name ++ ", message: \"" ++ f.text
    ++ "\" \x7d"

end SystemFault

/-- A network between hosts. -/
inductive Network where
  | reachable
  /-- There are no routes. -/
  | unreachable
  deriving DecidableEq, Repr

/-- Refuses a connection over a network without routes. -/
def Network.route : Network → Except SystemFault Unit
  | reachable => .ok ()
  | unreachable => .error .networkUnreachable

/-- What breaks a scenario off. -/
inductive Breakdown where
  /-- A connection that the scenario cannot do without was not made. -/
  | connecting (fault : SystemFault)
  /-- The scenario uses a connection that has not been made. -/
  | missing (index count : Nat)
  deriving DecidableEq, Repr

/-- The wording of a breakdown. -/
def Breakdown.message : Breakdown → String
  | connecting fault => "connect: " ++ fault.detail
  | missing index count =>
    "index out of bounds: the len is " ++ toString count ++ " but the index is " ++ toString index

end Modbus
