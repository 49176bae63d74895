/-!
# Hexadecimal texts

Codes and identifiers are shown with two, protocol identifiers with four upper-case hexadecimal
digits behind `0x`.
-/

namespace Modbus.Text

/-- The upper-case hexadecimal digit of a number below sixteen. -/
def hexDigit (n : Nat) : Char :=
  if n < 10 then Char.ofNat ('0'.toNat + n) else Char.ofNat ('A'.toNat + (n - 10))

/-- The last `width` hexadecimal digits of a number, the most significant first. -/
def hexDigits : Nat → Nat → List Char
  | 0, _ => []
  | width + 1, n => hexDigits width (n / 16) ++ [hexDigit (n % 16)]

/-- A byte as `0x` and two digits. -/
def hexByte (b : UInt8) : String := "0x" ++ String.ofList (hexDigits 2 b.toNat)

/-- A word as `0x` and four digits. -/
def hexWord (w : UInt16) : String := "0x" ++ String.ofList (hexDigits 4 w.toNat)

end Modbus.Text
