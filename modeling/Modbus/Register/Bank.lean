import Modbus.Exception
import Modbus.Wire.Word
import Modbus.Unit.Basic

/-!
# Register banks

A bank is a fixed number of registers, addressed from zero. Reading and writing concern a range of
at least one register that has to lie inside the bank; addresses do not wrap around.
-/

namespace Modbus

/-- Why an access to the registers of a unit fails. -/
inductive RegisterError where
  /-- The range is empty or does not lie inside the bank. -/
  | illegalAddress (address : Address) (count length : Nat)
  /-- No bank belongs to the unit. -/
  | unknownUnit (unit : UnitId)
  /-- A bank belongs to the unit already. -/
  | unitAlreadyRegistered (unit : UnitId)
  /-- The image is being served and takes no units. -/
  | inUse
  /-- An earlier access to the bank of the unit broke off, so that its contents are not trusted. -/
  | poisoned (unit : UnitId)
  deriving DecidableEq, Repr

namespace RegisterError

/-- The exception that a master is told. -/
def exception : RegisterError → ExceptionCode
  | illegalAddress .. | unknownUnit _ => .illegalDataAddress
  | unitAlreadyRegistered _ | inUse | poisoned _ => .slaveDeviceFailure

/-- The wording of an error. -/
def message : RegisterError → String
  | illegalAddress address count length =>
    "illegal address range " ++ toString address.toNat ++ "+" ++ toString count ++ " for a bank of "
      ++ toString length ++ " registers"
  | unknownUnit unit => "unknown unit " ++ unit.text
  | unitAlreadyRegistered unit => "unit " ++ unit.text ++ " is already registered"
  | inUse => "process image is in use"
  | poisoned unit => "register bank of unit " ++ unit.text ++ " is poisoned"

end RegisterError

/-- A row of registers. -/
structure Bank where
  words : List Word
  deriving DecidableEq, Repr

namespace Bank

/-- A bank of registers that hold zero. -/
def zeros (length : Nat) : Bank := ⟨List.replicate length 0⟩

/-- The number of registers. -/
def length (b : Bank) : Nat := b.words.length

/-- The word in a register, if the bank has it. -/
def get? (b : Bank) (address : Address) : Option Word := b.words[address.toNat]?

/-- Whether a range has a register and lies inside the bank. -/
def Covers (b : Bank) (address : Address) (count : Nat) : Prop :=
  0 < count ∧ address.toNat + count ≤ b.length

instance (b : Bank) (address : Address) (count : Nat) : Decidable (b.Covers address count) :=
  inferInstanceAs (Decidable (_ ∧ _))

/-- The error of a range that the bank does not cover. -/
def illegal (b : Bank) (address : Address) (count : Nat) : RegisterError :=
  .illegalAddress address count b.length

/-- The words in a range of registers. -/
def read (b : Bank) (address : Address) (count : Nat) : Except RegisterError (List Word) :=
  if b.Covers address count then .ok ((b.words.drop address.toNat).take count)
  else .error (b.illegal address count)

/-- The bank after words have been written into the registers from an address on. -/
def write (b : Bank) (address : Address) (values : List Word) : Except RegisterError Bank :=
  if b.Covers address values.length then
    .ok ⟨b.words.take address.toNat ++ values ++ b.words.drop (address.toNat + values.length)⟩
  else .error (b.illegal address values.length)

/-- Writing does not change the number of registers. -/
theorem length_of_write {b b' : Bank} {address : Address} {values : List Word}
    (h : b.write address values = .ok b') : b'.length = b.length := by
  unfold write at h
  split at h
  · rename_i hc
    cases h
    have := hc.2
    simp only [length, List.length_append, List.length_take, List.length_drop] at this ⊢
    omega
  · cases h

end Bank

end Modbus
