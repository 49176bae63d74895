import Modbus.Text.Blank
import Modbus.Unit.Basic

/-!
# Reading unit identifiers

A unit identifier is written in decimal (`15`) or, behind `0x` or `0X`, in hexadecimal (`0x0F`).
Blanks around it are ignored, one plus sign in front of the digits is allowed, and so is any number
of leading zeros. `UnitId.parse` reads from left to right, and the first character that cannot be
read decides the error: it is no digit, or with it the number exceeds a byte.
-/

namespace Modbus

/-- Why a text is no unit identifier. -/
inductive UnitIdError where
  /-- There is nothing to read. -/
  | empty
  /-- A character is no digit of the base, or a sign stands alone. -/
  | invalidDigit
  /-- The number does not fit into a byte. -/
  | overflow
  deriving DecidableEq, Repr

/-- The wording of an error. -/
def UnitIdError.message : UnitIdError → String
  | .empty => "cannot parse integer from empty string"
  | .invalidDigit => "invalid digit found in string"
  | .overflow => "number too large to fit in target type"

namespace UnitId

/-- The value of a digit, of either case where it is a letter. -/
def digitValue? (base : Nat) (c : Char) : Option Nat :=
  let value :=
    if '0' ≤ c ∧ c ≤ '9' then some (c.toNat - '0'.toNat)
    else if 'a' ≤ c ∧ c ≤ 'z' then some (c.toNat - 'a'.toNat + 10)
    else if 'A' ≤ c ∧ c ≤ 'Z' then some (c.toNat - 'A'.toNat + 10)
    else none
  value.filter (· < base)

/-- Reads the digits that follow a number already read. -/
def readDigits (base : Nat) : Nat → List Char → Except UnitIdError Nat
  | n, [] => .ok n
  | n, c :: cs =>
    match digitValue? base c with
    | none => .error .invalidDigit
    | some d => if n * base + d < 256 then readDigits base (n * base + d) cs else .error .overflow

/-- Reads digits behind an optional plus sign. -/
def readNumber (base : Nat) : List Char → Except UnitIdError Nat
  | [] => .error .empty
  | ['+'] => .error .invalidDigit
  | '+' :: cs => readDigits base 0 cs
  | cs => readDigits base 0 cs

/-- Reads a unit identifier. -/
def parseChars (cs : List Char) : Except UnitIdError UnitId :=
  match Text.trim cs with
  | '0' :: 'x' :: digits | '0' :: 'X' :: digits => UInt8.ofNat <$> readNumber 16 digits
  | digits => UInt8.ofNat <$> readNumber 10 digits

/-- Reads a unit identifier from a text. -/
def parse (s : String) : Except UnitIdError UnitId := parseChars s.toList

end UnitId

end Modbus
