import Modbus.Text.Hex

/-!
# Unit identifiers

A unit is a logical device behind an endpoint, addressed by one byte. All 256 identifiers can be
served; some have a conventional meaning.
-/

namespace Modbus

/-- The identifier of a unit. -/
abbrev UnitId := UInt8

namespace UnitId

/-- The identifier that addresses all devices of a serial line. Over TCP it is an ordinary unit. -/
def broadcast : UnitId := 0

/-- The smallest identifier of a single device. -/
def minDevice : UnitId := 1

/-- The largest identifier of a single device. -/
def maxDevice : UnitId := 247

/-- The identifier of a device that is reached directly, without a gateway. -/
def tcpDevice : UnitId := 255

/-- Whether a unit is the broadcast unit. -/
def isBroadcast (u : UnitId) : Bool := u = broadcast

/-- Whether a unit is a single device. -/
def isSingleDevice (u : UnitId) : Bool := minDevice ≤ u && u ≤ maxDevice

/-- Whether an identifier is reserved. -/
def isReserved (u : UnitId) : Bool := maxDevice < u

/-- The text of a unit: its decimal number, and its hexadecimal one in parentheses. -/
def text (u : UnitId) : String := toString u.toNat ++ " (" ++ Text.hexByte u ++ ")"

end UnitId

end Modbus
