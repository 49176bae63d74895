import Modbus.Register.Image

/-!
# Access to registers

What reading and writing come to, register by register. A write that succeeds puts its values into
the registers of its range and leaves the other ones alone (`Bank.getElem?_write`). Through an image
an access first finds the cell of its unit: there may be none, it may be poisoned, or its bank can
be accessed (`ProcessImage.Standing`), and nothing else matters for the error of the access. A write
or a poisoning that succeeds changes this one cell (`ProcessImage.write_inv`,
`ProcessImage.poison_inv`).
-/

namespace Modbus

namespace Bank

variable {b b' : Bank} {address : Address} {values : List Word} {count : Nat}

/-- A write that succeeds replaces the words of its range, which the bank covers. -/
theorem write_inv (h : b.write address values = .ok b') : b.Covers address values.length ∧
    b'.words =
      b.words.take address.toNat ++ values ++ b.words.drop (address.toNat + values.length) := by
  unfold write at h
  split at h
  · cases h
    exact ⟨‹_›, rfl⟩
  · cases h

/-- After a write a register holds the value for it if it is in the range of the write, and what it
held before if it is not. -/
theorem getElem?_write (h : b.write address values = .ok b') (n : Nat) :
    b'.words[n]? =
      if address.toNat ≤ n ∧ n < address.toNat + values.length then values[n - address.toNat]?
      else b.words[n]? := by
  obtain ⟨⟨-, hend⟩, hwords⟩ := write_inv h
  have hfront : (b.words.take address.toNat).length = address.toNat := by
    rw [List.length_take]
    simp only [length] at hend
    omega
  rw [hwords, List.append_assoc]
  by_cases hbelow : n < address.toNat
  · rw [if_neg (by omega), List.getElem?_append_left (by omega), List.getElem?_take_of_lt hbelow]
  · rw [List.getElem?_append_right (by omega), hfront]
    by_cases hinside : n < address.toNat + values.length
    · rw [if_pos ⟨by omega, hinside⟩, List.getElem?_append_left (by omega)]
    · rw [if_neg (by omega), List.getElem?_append_right (by omega), List.getElem?_drop]
      congr 1
      omega

end Bank

/-- A cell after values have been written into its registers from an address on: no other register
has changed. -/
structure Cell.IsWritten (before after : Cell) (address : Address) (values : List Word) : Prop where
  length : after.bank.length = before.bank.length
  isPoisoned : after.isPoisoned = before.isPoisoned
  words : ∀ r, after.bank.words[r]? =
    if address.toNat ≤ r ∧ r < address.toNat + values.length then values[r - address.toNat]?
    else before.bank.words[r]?

/-- A write that succeeds leaves the cell of its bank written. -/
theorem Cell.isWritten_of_write {cell : Cell} {bank : Bank} {address : Address}
    {values : List Word} (h : cell.bank.write address values = .ok bank) :
    cell.IsWritten { cell with bank } address values :=
  ⟨Bank.length_of_write h, rfl, Bank.getElem?_write h⟩

namespace ProcessImage

variable (image : ProcessImage) (unit : UnitId) (memory : Memory)

/-- The cell that an image has for a unit. -/
def cell? : Option Cell := image.cellOf[unit]?.bind (memory.cells[·]?)

/-- How a unit of an image stands. -/
inductive Standing : Prop where
  /-- The unit has no bank. -/
  | unknown (h : image.cell? unit memory = none)
  /-- The unit has a bank, but it cannot be accessed any more. -/
  | poisoned {n : Nat} {cell : Cell} (hn : image.cellOf[unit]? = some n)
    (hcell : memory.cells[n]? = some cell) (hp : cell.isPoisoned = true)
  /-- The unit has a bank that can be accessed. -/
  | sound {n : Nat} {cell : Cell} (hn : image.cellOf[unit]? = some n)
    (hcell : memory.cells[n]? = some cell) (hp : cell.isPoisoned = false)

/-- Every unit of an image stands in one of these ways. -/
theorem standing : image.Standing unit memory := by
  cases hn : image.cellOf[unit]? with
  | none => exact .unknown (by simp [cell?, hn])
  | some n =>
    cases hcell : memory.cells[n]? with
    | none => exact .unknown (by simp [cell?, hn, hcell])
    | some cell =>
      cases hp : cell.isPoisoned with
      | true => exact .poisoned hn hcell hp
      | false => exact .sound hn hcell hp

variable {image unit memory} {memory' : Memory} {n : Nat} {cell : Cell} {address : Address}
  {count : Nat} {values : List Word}

/-- The cell of a unit is the one to which the image points. -/
theorem cell?_of_cellOf (hn : image.cellOf[unit]? = some n) :
    image.cell? unit memory = memory.cells[n]? := by
  simp [cell?, hn]

/-! ## Finding the cell of a unit -/

/-- A unit without a bank is not found. -/
theorem resolve_of_unknown (h : image.cell? unit memory = none) :
    image.resolve unit memory = .error (.unknownUnit unit) := by
  unfold resolve
  cases hn : image.cellOf[unit]? with
  | none => rfl
  | some n =>
    rw [cell?_of_cellOf hn] at h
    simp only [h]

/-- Any other unit is found with its cell. -/
theorem resolve_of_cell (hn : image.cellOf[unit]? = some n) (hcell : memory.cells[n]? = some cell) :
    image.resolve unit memory = .ok (n, cell) := by
  simp only [resolve, hn, hcell]

/-- Nobody gets access to a unit without a bank. -/
theorem lock_of_unknown (h : image.cell? unit memory = none) :
    image.lock unit memory = .error (.unknownUnit unit) := by
  rw [lock, resolve_of_unknown h]
  rfl

/-- Nor does anybody to a poisoned one. -/
theorem lock_of_poisoned (hn : image.cellOf[unit]? = some n) (hcell : memory.cells[n]? = some cell)
    (hp : cell.isPoisoned = true) : image.lock unit memory = .error (.poisoned unit) := by
  rw [lock, resolve_of_cell hn hcell]
  simp only [bind, Except.bind, hp, if_true]
  rfl

/-- Any other unit is accessed by its cell. -/
theorem lock_of_sound (hn : image.cellOf[unit]? = some n) (hcell : memory.cells[n]? = some cell)
    (hp : cell.isPoisoned = false) : image.lock unit memory = .ok (n, cell) := by
  rw [lock, resolve_of_cell hn hcell]
  simp only [bind, Except.bind, hp]
  rfl

/-! ## Reading, writing and poisoning -/

/-- Reading a unit without a bank fails. -/
theorem read_of_unknown (h : image.cell? unit memory = none) :
    image.read unit address count memory = .error (.unknownUnit unit) := by
  rw [read, lock_of_unknown h]
  rfl

/-- So does reading a poisoned one. -/
theorem read_of_poisoned (hn : image.cellOf[unit]? = some n) (hcell : memory.cells[n]? = some cell)
    (hp : cell.isPoisoned = true) :
    image.read unit address count memory = .error (.poisoned unit) := by
  rw [read, lock_of_poisoned hn hcell hp]
  rfl

/-- Any other unit is read as its bank is. -/
theorem read_of_sound (hn : image.cellOf[unit]? = some n) (hcell : memory.cells[n]? = some cell)
    (hp : cell.isPoisoned = false) :
    image.read unit address count memory = cell.bank.read address count := by
  rw [read, lock_of_sound hn hcell hp]
  rfl

/-- Writing to a unit without a bank fails. -/
theorem write_of_unknown (h : image.cell? unit memory = none) :
    image.write unit address values memory = .error (.unknownUnit unit) := by
  rw [write, lock_of_unknown h]
  rfl

/-- So does writing to a poisoned one. -/
theorem write_of_poisoned (hn : image.cellOf[unit]? = some n) (hcell : memory.cells[n]? = some cell)
    (hp : cell.isPoisoned = true) :
    image.write unit address values memory = .error (.poisoned unit) := by
  rw [write, lock_of_poisoned hn hcell hp]
  rfl

/-- To any other unit one writes as to its bank, which replaces the old one in the cell. -/
theorem write_of_sound (hn : image.cellOf[unit]? = some n) (hcell : memory.cells[n]? = some cell)
    (hp : cell.isPoisoned = false) :
    image.write unit address values memory =
      (cell.bank.write address values).map
        fun bank => ⟨memory.cells.set n { cell with bank }⟩ := by
  rw [write, lock_of_sound hn hcell hp]
  simp only [bind, Except.bind]
  cases cell.bank.write address values <;> rfl

/-- A write that succeeds changes the bank of one cell, that of its unit. -/
theorem write_inv (h : image.write unit address values memory = .ok memory') :
    ∃ n cell bank, image.cellOf[unit]? = some n ∧ memory.cells[n]? = some cell ∧
      cell.isPoisoned = false ∧ cell.bank.write address values = .ok bank ∧
      memory' = ⟨memory.cells.set n { cell with bank }⟩ := by
  cases image.standing unit memory with
  | unknown hnone => rw [write_of_unknown hnone] at h; cases h
  | poisoned hn hcell hp => rw [write_of_poisoned hn hcell hp] at h; cases h
  | @sound n cell hn hcell hp =>
    rw [write_of_sound hn hcell hp] at h
    cases hw : cell.bank.write address values with
    | error e => rw [hw] at h; cases h
    | ok bank =>
      rw [hw] at h
      cases h
      exact ⟨n, cell, bank, hn, hcell, hp, hw, rfl⟩

/-- A poisoning that succeeds marks one cell, that of its unit. -/
theorem poison_inv (h : image.poison unit memory = .ok memory') :
    ∃ n cell, image.cellOf[unit]? = some n ∧ memory.cells[n]? = some cell ∧
      memory' = ⟨memory.cells.set n { cell with isPoisoned := true }⟩ := by
  rw [poison] at h
  cases hcell : image.cell? unit memory with
  | none => rw [resolve_of_unknown hcell] at h; cases h
  | some cell =>
    obtain ⟨n, hn, hcell⟩ := Option.bind_eq_some_iff.1 hcell
    rw [resolve_of_cell hn hcell] at h
    cases h
    exact ⟨n, cell, hn, hcell, rfl⟩

/-- What uses a bank without failing as a poisoned one does fails so if and only if the unit sees a
poisoned cell. -/
theorem use_eq_poisoned_iff {α : Type} {use : Nat × Cell → Except RegisterError α}
    {other : UnitId} (huse : ∀ found, use found ≠ .error (.poisoned other)) :
    (image.lock unit memory >>= use) = .error (.poisoned other) ↔
      other = unit ∧ ∃ cell, image.cell? unit memory = some cell ∧ cell.isPoisoned = true := by
  cases image.standing unit memory with
  | unknown hnone => simp [lock_of_unknown hnone, hnone, bind, Except.bind]
  | poisoned hn hcell hp =>
    rw [lock_of_poisoned hn hcell hp, cell?_of_cellOf hn, hcell]
    simp only [bind, Except.bind, Except.error.injEq, RegisterError.poisoned.injEq,
      Option.some.injEq, exists_eq_left', hp, and_true]
    exact eq_comm
  | sound hn hcell hp =>
    rw [lock_of_sound hn hcell hp, cell?_of_cellOf hn, hcell]
    simp [bind, Except.bind, hp, huse]

/-- Reading fails for a poisoned unit if and only if its cell is poisoned. -/
theorem read_eq_poisoned_iff {other : UnitId} :
    image.read unit address count memory = .error (.poisoned other) ↔
      other = unit ∧ ∃ cell, image.cell? unit memory = some cell ∧ cell.isPoisoned = true := by
  refine use_eq_poisoned_iff fun (_, cell) h => ?_
  have hread : cell.bank.read address count = _ := h
  rw [Bank.read] at hread
  split at hread <;> cases hread

/-- So does writing. -/
theorem write_eq_poisoned_iff {other : UnitId} :
    image.write unit address values memory = .error (.poisoned other) ↔
      other = unit ∧ ∃ cell, image.cell? unit memory = some cell ∧ cell.isPoisoned = true := by
  refine use_eq_poisoned_iff fun (_, cell) h => ?_
  cases hw : cell.bank.write address values with
  | error e =>
    simp only [hw, bind, Except.bind] at h
    rw [Bank.write] at hw
    split at hw <;> cases hw
    cases h
  | ok bank =>
    simp only [hw, bind, Except.bind] at h
    cases h

/-- Binding a unit fails if and only if it is bound already. -/
theorem insert_eq_error_iff (bank : Bank) {e : RegisterError} :
    image.insert unit bank memory = .error e ↔
      e = .unitAlreadyRegistered unit ∧ unit ∈ image.cellOf := by
  unfold insert
  split <;> simp [*, eq_comm]

/-- Binding a unit that succeeds adds a cell at the end and binds the unit, which has been free, to
it. -/
theorem insert_inv {bank : Bank} {image' : ProcessImage}
    (h : image.insert unit bank memory = .ok (image', memory')) : unit ∉ image.cellOf ∧
      image' = ⟨image.cellOf.insert unit memory.cells.length⟩ ∧
      memory' = ⟨memory.cells ++ [⟨bank, false⟩]⟩ := by
  unfold insert at h
  split at h
  · cases h
  · cases h
    exact ⟨‹_›, rfl, rfl⟩

end ProcessImage

end Modbus
