import Modbus.Pdu.Basic
import Modbus.Register.Image

/-!
# Executing requests

What a slave makes of a request on the registers of its process image. The number of registers is
checked before anything else, so a request for none or too many is refused whatever unit it is
addressed to. Custom functions are not known. Every failure is an exception, and leaves the memory
as it was.
-/

namespace Modbus

/-- What answers requests: the answer, and the state afterwards. -/
abbrev Service (σ : Type) := σ → UnitId → Request → Answer × σ

namespace ProcessImage

/-- Refuses a number of registers that no request may have. -/
def checkQuantity (count : Nat) (most : Quantity) : Except ExceptionCode Unit :=
  if count = 0 ∨ most.toNat < count then .error .illegalDataValue else .ok ()

/-- An access to registers, with the exception that a master is told when it fails. -/
def told {α : Type} (access : Except RegisterError α) : Except ExceptionCode α :=
  access.mapError RegisterError.exception

/-- Executes a request that can be executed. -/
def execute (image : ProcessImage) (memory : Memory) (unit : UnitId) :
    Request → Except ExceptionCode (Response × Memory)
  | .readHoldingRegisters address quantity => do
    checkQuantity quantity.toNat maxReadQuantity
    let words ← told (image.read unit address quantity.toNat memory)
    return (.readHoldingRegisters words, memory)
  | .writeSingleRegister address word => do
    let memory ← told (image.write unit address [word] memory)
    return (.writeSingleRegister address word, memory)
  | .writeMultipleRegisters address words => do
    checkQuantity words.length maxWriteQuantity
    let memory ← told (image.write unit address words memory)
    return (.writeMultipleRegisters address (UInt16.ofNat words.length), memory)
  | .custom .. => .error .illegalFunction

/-- Answers a request from the registers of an image. -/
def handle (image : ProcessImage) : Service Memory := fun memory unit request =>
  match image.execute memory unit request with
  | .ok (response, memory) => (.ok response, memory)
  | .error e => (.error e, memory)

end ProcessImage

end Modbus
