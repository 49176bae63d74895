import Modbus.Register.Bank
import Std.Data.TreeMap

/-!
# Process images

A process image binds units to banks. The banks themselves live in cells of a `Memory`, and an image
holds the numbers of cells, so a copy of an image shares the banks bound so far, while what is bound
later belongs to one of the copies only. An access that breaks off while it holds a bank poisons its
cell for good.
-/

namespace Modbus

/-- A bank and whether an access to it broke off. -/
structure Cell where
  bank : Bank
  isPoisoned : Bool := false
  deriving DecidableEq, Repr

/-- The cells of all banks, numbered from zero in the order in which the banks were bound. -/
structure Memory where
  cells : List Cell := []
  deriving DecidableEq, Repr

/-- The units of a slave and the cells of their banks. -/
structure ProcessImage where
  cellOf : Std.TreeMap UnitId Nat := ∅

namespace ProcessImage

/-- The units of an image, in ascending order. -/
def units (image : ProcessImage) : List UnitId := image.cellOf.keys

/-- The number of units. -/
def size (image : ProcessImage) : Nat := image.cellOf.size

variable (image : ProcessImage) (unit : UnitId)

/-- Binds a unit to a new bank. -/
def insert (bank : Bank) (memory : Memory) : Except RegisterError (ProcessImage × Memory) :=
  if unit ∈ image.cellOf then
    .error (.unitAlreadyRegistered unit)
  else
    .ok (⟨image.cellOf.insert unit memory.cells.length⟩, ⟨memory.cells ++ [⟨bank, false⟩]⟩)

/-- The cell of a unit, with its number. -/
def resolve (memory : Memory) : Except RegisterError (Nat × Cell) :=
  match image.cellOf[unit]? with
  | none => .error (.unknownUnit unit)
  | some n =>
    match memory.cells[n]? with
    | none => .error (.unknownUnit unit)
    | some cell => .ok (n, cell)

/-- The cell of a unit whose bank can be accessed, with its number. -/
def lock (memory : Memory) : Except RegisterError (Nat × Cell) := do
  let (n, cell) ← image.resolve unit memory
  if cell.isPoisoned then throw (.poisoned unit) else return (n, cell)

/-- The words in a range of registers of a unit. -/
def read (address : Address) (count : Nat) (memory : Memory) :
    Except RegisterError (List Word) := do
  let (_, cell) ← image.lock unit memory
  cell.bank.read address count

/-- The memory after words have been written into registers of a unit. -/
def write (address : Address) (values : List Word) (memory : Memory) :
    Except RegisterError Memory := do
  let (n, cell) ← image.lock unit memory
  let bank ← cell.bank.write address values
  return ⟨memory.cells.set n { cell with bank }⟩

/-- The memory after an access to the bank of a unit has broken off. -/
def poison (memory : Memory) : Except RegisterError Memory := do
  let (n, cell) ← image.resolve unit memory
  return ⟨memory.cells.set n { cell with isPoisoned := true }⟩

/-- The number of registers of a unit, which is not known of a poisoned bank. -/
def bankLength (memory : Memory) : Except RegisterError (Option Nat) := do
  let (_, cell) ← image.resolve unit memory
  return if cell.isPoisoned then none else some cell.bank.length

end ProcessImage

/-- Binds units to new banks, one after another. -/
def ProcessImage.insertAll (image : ProcessImage) (memory : Memory) :
    List (UnitId × Bank) → Except RegisterError (ProcessImage × Memory)
  | [] => .ok (image, memory)
  | (unit, bank) :: rest => do
    let (image, memory) ← image.insert unit bank memory
    insertAll image memory rest

end Modbus
