import Modbus.Proofs.Register.Lineage
import Modbus.Proofs.Slave.Execution

/-!
# Registers as a plain machine

A register machine has a row of words for each of its units and knows nothing of cells, of banks
that are shared, or of locks. It answers a request by rules that can be read off one after another:
a custom function is not known; a number of registers outside the limits is refused whatever the
unit; a unit without a row, or a range that goes beyond the row, is an illegal address; a row that
has broken down answers nothing. Otherwise a read gives the words that are there, and a write
replaces those in its range and none besides.

Executing requests on a process image is what this machine does, on the contents of the image
(`ProcessImage.answer_contents`, `ProcessImage.takeTurns_contents`). This needs that no two units of
an image have the same bank, which holds of every image that has come about by binding units and
copying (`Gallery.isProper_image`).
-/

namespace Modbus

/-- A row of registers. -/
structure Row where
  words : List Word
  isBroken : Bool := false

namespace Row

/-- The words of a range. -/
def pick (words : List Word) (address count : Nat) : List Word :=
  (List.range count).map fun n => (words[address + n]?).getD 0

/-- Words of which those from an address on have been replaced by values. -/
def replace (words : List Word) (address : Nat) (values : List Word) : List Word :=
  words.mapIdx fun n word => if address ≤ n then (values[n - address]?).getD word else word

end Row

/-- A register machine: the rows of its units. -/
abbrev RegisterMachine := UnitId → Option Row

/-- Whether a request, if it is carried out, writes to a register. -/
def Request.Writes : Request → Nat → Prop
  | writeSingleRegister address _, n => n = address.toNat
  | writeMultipleRegisters address words, n =>
    address.toNat ≤ n ∧ n < address.toNat + words.length
  | _, _ => False

/-- What happens to a slave: it is asked for something, or an access to a unit breaks off. -/
inductive Turn where
  | request (unit : UnitId) (request : Request)
  | poison (unit : UnitId)

namespace RegisterMachine

variable (m : RegisterMachine) (unit : UnitId)

/-- The words of a unit, if a range of them can be accessed. -/
def find (address : Address) (count : Nat) : Except ExceptionCode (List Word) :=
  match m unit with
  | none => .error .illegalDataAddress
  | some row =>
    if row.isBroken then .error .slaveDeviceFailure
    else if row.words.length < address.toNat + count then .error .illegalDataAddress
    else .ok row.words

/-- Puts a row in the place of that of a unit. -/
def put (row : Row) : RegisterMachine := fun other => if other = unit then some row else m other

/-- Answers a request. -/
def answer : Request → Answer × RegisterMachine
  | .custom .. => (.error .illegalFunction, m)
  | .readHoldingRegisters address quantity =>
    if quantity.toNat < 1 ∨ 125 < quantity.toNat then (.error .illegalDataValue, m)
    else
      match m.find unit address quantity.toNat with
      | .error e => (.error e, m)
      | .ok words =>
        (.ok (.readHoldingRegisters (Row.pick words address.toNat quantity.toNat)), m)
  | .writeSingleRegister address word =>
    match m.find unit address 1 with
    | .error e => (.error e, m)
    | .ok words =>
      (.ok (.writeSingleRegister address word),
        m.put unit { words := Row.replace words address.toNat [word] })
  | .writeMultipleRegisters address values =>
    if values.length < 1 ∨ 123 < values.length then (.error .illegalDataValue, m)
    else
      match m.find unit address values.length with
      | .error e => (.error e, m)
      | .ok words =>
        (.ok (.writeMultipleRegisters address (UInt16.ofNat values.length)),
          m.put unit { words := Row.replace words address.toNat values })

/-- The row of a unit, if it has one, breaks down. -/
def breakDown : RegisterMachine := fun other =>
  if other = unit then (m unit).map fun row => { row with isBroken := true } else m other

/-- Takes turns one after another; gives the answers to the requests among them. -/
def takeTurns (m : RegisterMachine) : List Turn → List Answer × RegisterMachine
  | [] => ([], m)
  | .request unit request :: turns =>
    let (answer, m) := m.answer unit request
    let (answers, m) := takeTurns m turns
    (answer :: answers, m)
  | .poison unit :: turns => takeTurns (m.breakDown unit) turns

/-- The word in a register of a unit. -/
def word? (n : Nat) : Option Word := (m unit).bind (·.words[n]?)

end RegisterMachine

namespace ProcessImage

variable (image : ProcessImage) (memory : Memory)

/-- What an image has in its registers. -/
def contents : RegisterMachine := fun unit =>
  (image.cell? unit memory).map fun cell => ⟨cell.bank.words, cell.isPoisoned⟩

/-- Takes turns one after another on the registers of an image; gives the answers to the requests
among them. A poisoning that fails changes nothing. -/
def takeTurns (memory : Memory) : List Turn → List Answer × Memory
  | [] => ([], memory)
  | .request unit request :: turns =>
    let (answer, memory) := image.handle memory unit request
    let (answers, memory) := takeTurns memory turns
    (answer :: answers, memory)
  | .poison unit :: turns =>
    match image.poison unit memory with
    | .ok memory => takeTurns memory turns
    | .error _ => takeTurns memory turns

/-- Whether no two units of an image have the same bank. -/
def IsProper : Prop :=
  ∀ (unit unit' : UnitId) (n : Nat), image.cellOf[unit]? = some n →
    image.cellOf[unit']? = some n → unit = unit'

end ProcessImage

/-- In every image of a run the units have different banks: they have been bound by different
acts. -/
theorem Gallery.isProper_image {acts : List (Nat × GalleryAct)} (h : IsRun acts) (n i : Nat) :
    ((after acts n).image i).IsProper := by
  intro unit unit' c hc hc'
  obtain ⟨k, hd, hd'⟩ := (same_cell_iff h).1 ⟨c, hc, hc'⟩
  obtain ⟨-, j, bank, hs⟩ := hd.origin
  obtain ⟨-, j', bank', hs'⟩ := hd'.origin
  cases (hs.unique hs').2
  rfl

/-! ## Words -/

namespace Row

variable {words : List Word} {address : Nat}

/-- Picking words that are there is taking a part of the row. -/
theorem pick_eq {count : Nat} (h : address + count ≤ words.length) :
    pick words address count = (words.drop address).take count := by
  apply List.ext_getElem
  · simp [pick]
    omega
  · intro n hn hn'
    have hlt : address + n < words.length := by simp [pick] at hn; omega
    simp [pick, hlt]

/-- A word is replaced by the value for its place, if there is one. -/
theorem getElem?_replace (values : List Word) (n : Nat) : (replace words address values)[n]? =
    (words[n]?).map fun word =>
      if address ≤ n then (values[n - address]?).getD word else word := by
  simp [replace, List.getElem?_mapIdx]

end Row

/-- A write to a bank replaces words of its row. -/
theorem Bank.words_of_write {b b' : Bank} {address : Address} {values : List Word}
    (h : b.write address values = .ok b') :
    b'.words = Row.replace b.words address.toNat values := by
  obtain ⟨⟨-, hend⟩, -⟩ := Bank.write_inv h
  apply List.ext_getElem?
  intro n
  rw [Bank.getElem?_write h, Row.getElem?_replace]
  split
  · rename_i hin
    have hlt : n < b.words.length := by simp only [length] at hend; omega
    have hvalue : n - address.toNat < values.length := by omega
    simp [hlt, hvalue, hin.1]
  · rename_i hout
    cases b.words[n]? with
    | none => rfl
    | some word =>
      have hvalue (hle : address.toNat ≤ n) : values[n - address.toNat]? = none :=
        List.getElem?_eq_none (by omega)
      simp +contextual [hvalue]

/-! ## Finding the row of a unit -/

namespace ProcessImage

variable {image : ProcessImage} {memory : Memory} {unit : UnitId} {address : Address}
  {count n : Nat} {cell : Cell} {values : List Word}

/-- A unit that is not known has no row. -/
theorem find_of_unknown (h : image.cell? unit memory = none) :
    (image.contents memory).find unit address count = .error .illegalDataAddress := by
  simp only [RegisterMachine.find, contents, h, Option.map_none]

/-- The row of a poisoned unit is broken down. -/
theorem find_of_poisoned (hn : image.cellOf[unit]? = some n) (hcell : memory.cells[n]? = some cell)
    (hp : cell.isPoisoned = true) :
    (image.contents memory).find unit address count = .error .slaveDeviceFailure := by
  simp only [RegisterMachine.find, contents, cell?_of_cellOf hn, hcell, Option.map_some, hp,
    if_true]

/-- The row of any other unit is found if the range lies within it. -/
theorem find_of_sound (hn : image.cellOf[unit]? = some n) (hcell : memory.cells[n]? = some cell)
    (hp : cell.isPoisoned = false) :
    (image.contents memory).find unit address count =
      if cell.bank.length < address.toNat + count then .error .illegalDataAddress
      else .ok cell.bank.words := by
  simp only [RegisterMachine.find, contents, cell?_of_cellOf hn, hcell, Option.map_some, hp]
  rfl

/-- Reading registers is reading the row of their unit. -/
theorem told_read (hcount : 0 < count) : told (image.read unit address count memory) =
    ((image.contents memory).find unit address count).map
      fun words => Row.pick words address.toNat count := by
  cases image.standing unit memory with
  | unknown hnone => rw [read_of_unknown hnone, find_of_unknown hnone]; rfl
  | poisoned hn hcell hp => rw [read_of_poisoned hn hcell hp, find_of_poisoned hn hcell hp]; rfl
  | @sound n cell hn hcell hp =>
    rw [read_of_sound hn hcell hp, find_of_sound hn hcell hp, Bank.read]
    by_cases hend : address.toNat + count ≤ cell.bank.length
    · rw [if_pos ⟨hcount, hend⟩, if_neg (Nat.not_lt.2 hend)]
      exact congrArg Except.ok (Row.pick_eq hend).symm
    · rw [if_neg (fun hcovers => hend hcovers.2), if_pos (Nat.not_le.1 hend)]
      rfl

/-- Changing a cell changes the row of the one unit that has it. -/
theorem contents_set (himage : image.IsProper) (hn : image.cellOf[unit]? = some n)
    (hcell : memory.cells[n]? = some cell) (cell' : Cell) :
    image.contents ⟨memory.cells.set n cell'⟩ =
      (image.contents memory).put unit ⟨cell'.bank.words, cell'.isPoisoned⟩ := by
  have hlt : n < memory.cells.length := (List.getElem?_eq_some_iff.1 hcell).1
  funext other
  by_cases hother : other = unit
  · subst hother
    simp [contents, RegisterMachine.put, cell?_of_cellOf hn, hlt]
  · simp only [contents, RegisterMachine.put, if_neg hother, cell?]
    cases hn' : image.cellOf[other]? with
    | none => rfl
    | some n' =>
      have hne : n ≠ n' := fun heq => hother (himage other unit n' hn' (heq ▸ hn))
      simp [List.getElem?_set_ne hne]

variable (memory unit address) in
/-- Writing registers replaces words in the row of their unit, or fails as finding the row does. -/
theorem told_write (himage : image.IsProper) (hvalues : 0 < values.length) :
    (∃ e, told (image.write unit address values memory) = .error e ∧
      (image.contents memory).find unit address values.length = .error e) ∨
    ∃ memory' words, told (image.write unit address values memory) = .ok memory' ∧
      (image.contents memory).find unit address values.length = .ok words ∧
      image.contents memory' = (image.contents memory).put unit
        { words := Row.replace words address.toNat values } := by
  cases image.standing unit memory with
  | unknown hnone =>
    rw [write_of_unknown hnone]
    exact .inl ⟨_, rfl, find_of_unknown hnone⟩
  | poisoned hn hcell hp =>
    rw [write_of_poisoned hn hcell hp]
    exact .inl ⟨_, rfl, find_of_poisoned hn hcell hp⟩
  | @sound n cell hn hcell hp =>
    rw [write_of_sound hn hcell hp, find_of_sound hn hcell hp]
    cases hw : cell.bank.write address values with
    | error e =>
      rw [Bank.write] at hw
      split at hw
      · cases hw
      · rename_i hcovers
        cases hw
        have hend : cell.bank.length < address.toNat + values.length :=
          Nat.not_le.1 fun hend => hcovers ⟨hvalues, hend⟩
        exact .inl ⟨_, rfl, if_pos hend⟩
    | ok bank =>
      have hend := (Bank.write_inv hw).1.2
      refine .inr ⟨_, cell.bank.words, rfl, if_neg (Nat.not_lt.2 hend), ?_⟩
      rw [contents_set himage hn hcell, Bank.words_of_write hw, hp]

variable (memory unit) in
/-- Poisoning a unit breaks down its row, if it has one. -/
theorem contents_poison (himage : image.IsProper) :
    (∀ memory', image.poison unit memory = .ok memory' →
      image.contents memory' = (image.contents memory).breakDown unit) ∧
    ∀ e, image.poison unit memory = .error e →
      image.contents memory = (image.contents memory).breakDown unit := by
  constructor
  · intro memory' h
    obtain ⟨n, cell, hn, hcell, rfl⟩ := poison_inv h
    rw [contents_set himage hn hcell]
    funext other
    simp [RegisterMachine.put, RegisterMachine.breakDown, contents, cell?_of_cellOf hn, hcell]
  · intro e h
    have hnone : image.cell? unit memory = none := by
      cases hcell : image.cell? unit memory with
      | none => rfl
      | some cell =>
        obtain ⟨n, hn, hcell⟩ := Option.bind_eq_some_iff.1 hcell
        rw [poison, resolve_of_cell hn hcell] at h
        cases h
    funext other
    by_cases hother : other = unit
    · subst hother
      simp [RegisterMachine.breakDown, contents, hnone]
    · simp [RegisterMachine.breakDown, hother]

/-! ## Answering requests -/

/-- A number of registers is refused if it is zero or above the most that is allowed. -/
theorem checkQuantity_eq (count : Nat) (most : Quantity) : checkQuantity count most =
    if count < 1 ∨ most.toNat < count then .error .illegalDataValue else .ok () := by
  simp only [checkQuantity, Nat.lt_one_iff]

/-- **Executing a request is what the register machine does** on the contents of the image. -/
theorem answer_contents (himage : image.IsProper) (request : Request) :
    (image.contents memory).answer unit request =
      ((image.handle memory unit request).1,
        image.contents (image.handle memory unit request).2) := by
  cases request with
  | readHoldingRegisters address quantity =>
    have hmost : maxReadQuantity.toNat = 125 := rfl
    simp only [RegisterMachine.answer, handle, execute, checkQuantity_eq, hmost, bind, Except.bind]
    split
    · rfl
    · rename_i hquantity
      rw [told_read (by omega)]
      cases (image.contents memory).find unit address quantity.toNat <;> rfl
  | writeSingleRegister address word =>
    simp only [RegisterMachine.answer, handle, execute, bind, Except.bind]
    have hone : 0 < [word].length := Nat.one_pos
    rcases told_write memory unit address himage hone with
      ⟨e, hw, hfind⟩ | ⟨memory', words, hw, hfind, hcontents⟩
    · simp only [hw, List.length_singleton ▸ hfind]
    · simp only [hw, List.length_singleton ▸ hfind, ← hcontents]
      rfl
  | writeMultipleRegisters address values =>
    have hmost : maxWriteQuantity.toNat = 123 := rfl
    simp only [RegisterMachine.answer, handle, execute, checkQuantity_eq, hmost, bind, Except.bind]
    split
    · rfl
    · rename_i hlength
      have hvalues : 0 < values.length := by omega
      rcases told_write memory unit address himage hvalues with
        ⟨e, hw, hfind⟩ | ⟨memory', words, hw, hfind, hcontents⟩
      · simp only [hw, hfind]
      · simp only [hw, hfind, ← hcontents]
        rfl
  | custom code data => rfl

/-- The answer to a request is the one of the register machine. -/
theorem answer_handle (himage : image.IsProper) (memory : Memory) (unit : UnitId)
    (request : Request) : (image.handle memory unit request).1 =
      ((image.contents memory).answer unit request).1 := by
  rw [answer_contents himage]

/-- The registers after a request are those of the register machine. -/
theorem contents_handle (himage : image.IsProper) (memory : Memory) (unit : UnitId)
    (request : Request) : image.contents (image.handle memory unit request).2 =
      ((image.contents memory).answer unit request).2 := by
  rw [answer_contents himage]

/-- Turns that are taken on the registers of an image are those of the register machine. -/
theorem takeTurns_contents (himage : image.IsProper) (memory : Memory) (turns : List Turn) :
    (image.contents memory).takeTurns turns =
      ((image.takeTurns memory turns).1, image.contents (image.takeTurns memory turns).2) := by
  induction turns generalizing memory with
  | nil => rfl
  | cons turn turns ih =>
    cases turn with
    | request unit request =>
      simp only [RegisterMachine.takeTurns, takeTurns, answer_contents himage, ih]
    | poison unit =>
      obtain ⟨hok, herror⟩ := contents_poison memory unit himage
      simp only [RegisterMachine.takeTurns, takeTurns]
      cases h : image.poison unit memory with
      | ok memory' => simp only [← hok memory' h, ih]
      | error e => simp only [← herror e h, ih]

/-- A request that is answered by an exception has changed nothing. -/
theorem handle_of_exception {request : Request} {e : ExceptionCode}
    (h : (image.handle memory unit request).1 = .error e) :
    (image.handle memory unit request).2 = memory := by
  unfold handle at h ⊢
  split at h
  · cases h
  · rfl

/-- A read changes nothing. -/
theorem handle_read (quantity : Quantity) :
    (image.handle memory unit (.readHoldingRegisters address quantity)).2 = memory := by
  simp only [handle, execute, bind, Except.bind]
  cases checkQuantity quantity.toNat maxReadQuantity with
  | error e => rfl
  | ok u =>
    cases told (image.read unit address quantity.toNat memory) <;> rfl

/-- Executing a request changes at most one cell, that of its unit. -/
theorem handle_cells (image : ProcessImage) (memory : Memory) (unit : UnitId) (request : Request) :
    (image.handle memory unit request).2 = memory ∨
      ∃ n cell, image.cellOf[unit]? = some n ∧
        (image.handle memory unit request).2 = ⟨memory.cells.set n cell⟩ := by
  have hwrite {address : Address} {values : List Word} {memory' : Memory}
      (h : told (image.write unit address values memory) = .ok memory') :
      ∃ n cell, image.cellOf[unit]? = some n ∧ memory' = ⟨memory.cells.set n cell⟩ := by
    cases hw : image.write unit address values memory with
    | error e => rw [hw] at h; cases h
    | ok made =>
      rw [hw] at h
      cases h
      obtain ⟨n, cell, bank, hn, -, -, -, rfl⟩ := write_inv hw
      exact ⟨n, _, hn, rfl⟩
  cases request with
  | readHoldingRegisters address quantity => exact .inl (handle_read quantity)
  | writeSingleRegister address word =>
    simp only [handle, execute, bind, Except.bind]
    cases hw : told (image.write unit address [word] memory) with
    | error e => exact .inl rfl
    | ok memory' => exact .inr (hwrite hw)
  | writeMultipleRegisters address values =>
    simp only [handle, execute, bind, Except.bind]
    cases checkQuantity values.length maxWriteQuantity with
    | error e => exact .inl rfl
    | ok u =>
      cases hw : told (image.write unit address values memory) with
      | error e => exact .inl rfl
      | ok memory' => exact .inr (hwrite hw)
  | custom code data => exact .inl rfl

end ProcessImage

namespace RegisterMachine

variable {m : RegisterMachine} {unit unit' : UnitId} {address : Address} {count n : Nat}

/-- Only the words of a row that is there can be found. -/
theorem exists_row_of_find {words : List Word} (h : m.find unit address count = .ok words) :
    ∃ row, m unit = some row ∧ row.words = words := by
  unfold find at h
  cases hrow : m unit with
  | none => rw [hrow] at h; cases h
  | some row =>
    rw [hrow] at h
    dsimp only at h
    split at h
    · cases h
    · split at h
      · cases h
      · cases h
        exact ⟨row, rfl, rfl⟩

/-- Replacing words in the row of a unit changes words in the range of the values only. -/
theorem word?_put_replace {words values : List Word}
    (hfind : m.find unit address count = .ok words)
    (h : (m.put unit { words := Row.replace words address.toNat values }).word? unit' n ≠
      m.word? unit' n) :
    unit' = unit ∧ address.toNat ≤ n ∧ n < address.toNat + values.length := by
  obtain ⟨row, hrow, rfl⟩ := exists_row_of_find hfind
  by_cases hunit : unit' = unit
  · subst hunit
    simp only [word?, put, if_true, Option.bind_some, hrow, Row.getElem?_replace] at h
    cases hword : row.words[n]? with
    | none => simp [hword] at h
    | some word =>
      by_cases hle : address.toNat ≤ n
      · refine ⟨rfl, hle, Nat.lt_of_not_le fun hout => h ?_⟩
        simp [hword, List.getElem?_eq_none (show values.length ≤ n - address.toNat by omega)]
      · simp [hword, hle] at h
  · simp [word?, put, hunit] at h

/-- A word that a request changes is in a register of its unit to which the request writes. -/
theorem writes_of_word?_ne {request : Request}
    (h : (m.answer unit request).2.word? unit' n ≠ m.word? unit' n) :
    unit' = unit ∧ request.Writes n := by
  cases request with
  | readHoldingRegisters address quantity =>
    simp only [answer] at h
    split at h
    · exact absurd rfl h
    · split at h <;> exact absurd rfl h
  | writeSingleRegister address word =>
    simp only [answer] at h
    split at h
    · exact absurd rfl h
    · rename_i words hfind
      obtain ⟨hunit, hle, hlt⟩ := word?_put_replace hfind h
      refine ⟨hunit, ?_⟩
      simp only [List.length_singleton] at hlt
      simp only [Request.Writes]
      omega
  | writeMultipleRegisters address values =>
    simp only [answer] at h
    split at h
    · exact absurd rfl h
    · split at h
      · exact absurd rfl h
      · rename_i words hfind
        exact word?_put_replace hfind h
  | custom code data => exact absurd rfl h

end RegisterMachine

namespace ProcessImage

variable {image : ProcessImage} {memory : Memory} {unit unit' : UnitId}

/-- So it is when a request is executed on the registers of an image. -/
theorem writes_of_handle (himage : image.IsProper) {request : Request} {n : Nat}
    (h : (image.contents (image.handle memory unit request).2).word? unit' n ≠
      (image.contents memory).word? unit' n) : unit' = unit ∧ request.Writes n := by
  rw [contents_handle himage] at h
  exact RegisterMachine.writes_of_word?_ne h

/-- What an image makes of requests is what a register machine makes of them. -/
structure RunsAsMachine (image : ProcessImage) (memory : Memory) : Prop where
  /-- Whatever turns are taken, the answers and the contents at the end are those of the machine. -/
  refines : ∀ turns, (image.contents memory).takeTurns turns =
    ((image.takeTurns memory turns).1, image.contents (image.takeTurns memory turns).2)
  /-- A further request that is answered by an exception changes no bank. -/
  exception : ∀ turns unit request e, let memory' := (image.takeTurns memory turns).2
    (image.handle memory' unit request).1 = .error e →
      (image.handle memory' unit request).2 = memory'
  /-- Nor does a read. -/
  read : ∀ turns unit address quantity, let memory' := (image.takeTurns memory turns).2
    (image.handle memory' unit (.readHoldingRegisters address quantity)).2 = memory'
  /-- No request changes a register other than those of its unit to which it writes. -/
  others : ∀ turns unit request unit' n, let memory' := (image.takeTurns memory turns).2
    (image.contents (image.handle memory' unit request).2).word? unit' n ≠
      (image.contents memory').word? unit' n → unit' = unit ∧ request.Writes n

/-- **A process image is a register machine.** Whatever requests are executed on an image of a
gallery, and whatever units are poisoned in between, the answers and the contents of the registers
are those of the machine, and nothing is changed besides. -/
theorem runs_as_machine {acts : List (Nat × GalleryAct)} (h : Gallery.IsRun acts) (n i : Nat) :
    ((Gallery.after acts n).image i).RunsAsMachine (Gallery.after acts n).memory := by
  have himage := Gallery.isProper_image h n i
  constructor
  case refines => exact fun turns => takeTurns_contents himage _ turns
  case exception => exact fun turns unit request e he => handle_of_exception he
  case read => exact fun turns unit address quantity => handle_read quantity
  case others => exact fun turns unit request unit' r hne => writes_of_handle himage hne

/-- Turns on the image of which there is a copy: a write through the image, a range that goes beyond
the row, and a unit that is poisoned before it is read. -/
def copiedTurns : List Turn :=
  [.request 3 (.writeMultipleRegisters 0 [7, 8]), .request 3 (.readHoldingRegisters 0 3),
    .request 3 (.writeSingleRegister 3 1), .poison 1, .request 1 (.readHoldingRegisters 0 1),
    .request 1 (.readHoldingRegisters 0 126), .request 2 (.custom 0x41 [])]

/-- They are answered by the rules of the machine. -/
theorem runs_as_machine_copiedTurns : Gallery.IsRun Gallery.copyingRun ∧
    let g := Gallery.after Gallery.copyingRun 5
    ((g.image 0).takeTurns g.memory copiedTurns).1 =
      [.ok (.writeMultipleRegisters 0 2), .ok (.readHoldingRegisters [7, 8, 30]),
        .error .illegalDataAddress, .error .slaveDeviceFailure, .error .illegalDataValue,
        .error .illegalFunction] := by
  refine ⟨Gallery.isRun_copyingRun, ?_⟩
  intro g
  have hrefines := (runs_as_machine Gallery.isRun_copyingRun 5 0).refines copiedTurns
  rw [← (Prod.mk.inj hrefines).1]
  rfl

end ProcessImage

end Modbus
