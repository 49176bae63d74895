import Modbus.Text.Hex

/-!
# Function codes

A request and its response name a function by one byte. The register functions have names, every
other code is a custom one. `FunctionCode.ofByte` takes the name where there is one, so it never
makes a custom code of a named byte, but such codes exist and differ from the named ones.
-/

namespace Modbus

/-- What a request asks for. -/
inductive FunctionCode where
  | readHoldingRegisters
  | writeSingleRegister
  | writeMultipleRegisters
  | custom (code : UInt8)
  deriving DecidableEq, Repr

namespace FunctionCode

/-- The function that a byte names. -/
def ofByte (b : UInt8) : FunctionCode :=
  if b = 0x03 then readHoldingRegisters
  else if b = 0x06 then writeSingleRegister
  else if b = 0x10 then writeMultipleRegisters
  else custom b

/-- The byte of a function. -/
def byte : FunctionCode → UInt8
  | readHoldingRegisters => 0x03
  | writeSingleRegister => 0x06
  | writeMultipleRegisters => 0x10
  | custom code => code

/-- The text of a function. -/
def text (f : FunctionCode) : String := Text.hexByte f.byte

@[simp] theorem byte_ofByte (b : UInt8) : (ofByte b).byte = b := by
  unfold ofByte
  split
  · simp [byte, *]
  · split
    · simp [byte, *]
    · split <;> simp [byte, *]

end FunctionCode

end Modbus
