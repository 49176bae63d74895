import Modbus.Slave.Connection

/-!
# Scripted services

Services that do not look at registers: one that reads its answers from a script, and one that tells
which connection it belongs to.
-/

namespace Modbus.Service

/-- Gives the answers of a script one after another, whatever is requested, and then refuses. -/
def scripted : Service (List Answer) := fun script _ _ =>
  match script with
  | [] => (.error .illegalFunction, [])
  | answer :: rest => (answer, rest)

/-- Answers a read with its address and the number of the connection, and every other request with
the exception that the unit names. -/
def numbered (number : Nat) : Service PUnit := fun state unit request =>
  match request with
  | .readHoldingRegisters address _ =>
    (.ok (.readHoldingRegisters [address, UInt16.ofNat number]), state)
  | _ => (.error (.ofByte unit), state)

end Modbus.Service
