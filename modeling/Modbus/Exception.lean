import Modbus.Function

/-!
# Exception codes

A slave that cannot answer a request gives an exception code instead, in one byte. A response with
an exception names the function of the request as well.
-/

namespace Modbus

/-- Why a slave does not answer a request. -/
inductive ExceptionCode where
  | illegalFunction
  | illegalDataAddress
  | illegalDataValue
  | slaveDeviceFailure
  | acknowledge
  | slaveDeviceBusy
  | memoryParityError
  | gatewayPathUnavailable
  | gatewayTargetDevice
  | custom (code : UInt8)
  deriving DecidableEq, Repr

namespace ExceptionCode

/-- The exception that a byte names. -/
def ofByte (b : UInt8) : ExceptionCode :=
  match b.toNat with
  | 0x01 => illegalFunction
  | 0x02 => illegalDataAddress
  | 0x03 => illegalDataValue
  | 0x04 => slaveDeviceFailure
  | 0x05 => acknowledge
  | 0x06 => slaveDeviceBusy
  | 0x08 => memoryParityError
  | 0x0A => gatewayPathUnavailable
  | 0x0B => gatewayTargetDevice
  | _ => custom b

/-- The byte of an exception. -/
def byte : ExceptionCode → UInt8
  | illegalFunction => 0x01
  | illegalDataAddress => 0x02
  | illegalDataValue => 0x03
  | slaveDeviceFailure => 0x04
  | acknowledge => 0x05
  | slaveDeviceBusy => 0x06
  | memoryParityError => 0x08
  | gatewayPathUnavailable => 0x0A
  | gatewayTargetDevice => 0x0B
  | custom code => code

/-- The description of an exception. -/
def text : ExceptionCode → String
  | illegalFunction => "Illegal function"
  | illegalDataAddress => "Illegal data address"
  | illegalDataValue => "Illegal data value"
  | slaveDeviceFailure => "Slave device failure"
  | acknowledge => "Acknowledge"
  | slaveDeviceBusy => "Slave device busy"
  | memoryParityError => "Memory parity error"
  | gatewayPathUnavailable => "Gateway path unavailable"
  | gatewayTargetDevice => "Gateway target device failed to respond"
  | custom _ => "Custom"

@[simp] theorem byte_ofByte (b : UInt8) : (ofByte b).byte = b := by
  unfold ofByte
  split
  case h_10 => rfl
  all_goals exact UInt8.toNat_inj.1 (Eq.symm ‹_›)

end ExceptionCode

/-- A response that carries an exception. -/
structure ExceptionResponse where
  function : FunctionCode
  exception : ExceptionCode
  deriving DecidableEq, Repr

namespace ExceptionResponse

/-- The text of a response with an exception. -/
def text (r : ExceptionResponse) : String :=
  "Modbus function " ++ r.function.text ++ ": " ++ r.exception.text

/-- The description of a response with an exception is that of the exception. -/
def description (r : ExceptionResponse) : String := r.exception.text

end ExceptionResponse

end Modbus
