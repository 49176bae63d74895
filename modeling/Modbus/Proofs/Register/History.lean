import Modbus.Proofs.Register.Machine

/-!
# What has been done to registers

A history of registers is the list of the banks that have been bound to units and of the requests
that have been answered, in order. `RegisterMachine.registers` reads off it what the registers hold:
the banks as they were bound, with the writes that have been answered by a response, one after
another. Requests that an image executes go on with such a history (`Recorded.executeAll`), and so
does a bank that is bound to a free unit (`Recorded.insert`).
-/

namespace Modbus

/-- Something that is done to the registers of a slave. -/
inductive RegisterDeed where
  /-- A unit is bound to a bank. -/
  | bind (unit : UnitId) (bank : Bank)
  /-- A request is answered. -/
  | answer (unit : UnitId) (request : Request) (answer : Answer)

namespace RegisterMachine

variable (m : RegisterMachine) (unit : UnitId)

/-- Replaces words in the row of a unit, from an address on. -/
def overwrite (address : Address) (values : List Word) : RegisterMachine := fun other =>
  if other = unit then
    (m unit).map fun row => { row with words := Row.replace row.words address.toNat values }
  else m other

/-- Writes what a request asks to write. -/
def carryOut : Request → RegisterMachine
  | .writeSingleRegister address word => m.overwrite unit address [word]
  | .writeMultipleRegisters address words => m.overwrite unit address words
  | .readHoldingRegisters .. | .custom .. => m

/-- The registers after something has been done to them: a write that has been answered by an
exception leaves them alone. -/
def after : RegisterDeed → RegisterMachine
  | .bind unit bank => m.put unit { words := bank.words }
  | .answer unit request (.ok _) => m.carryOut unit request
  | .answer _ _ (.error _) => m

/-- What a history has made of the registers, which are none at first. -/
def registers (ds : List RegisterDeed) : RegisterMachine := ds.foldl after fun _ => none

variable {m unit}

/-- The registers after one more deed are those before it, changed by it. -/
theorem registers_concat (ds : List RegisterDeed) (d : RegisterDeed) :
    registers (ds ++ [d]) = (registers ds).after d := by
  simp [registers]

/-- Putting replaced words in the place of a row that can be accessed is overwriting. -/
theorem put_eq_overwrite {address : Address} {count : Nat} {words : List Word}
    (hfind : m.find unit address count = .ok words) (values : List Word) :
    m.put unit { words := Row.replace words address.toNat values } =
      m.overwrite unit address values := by
  unfold find at hfind
  cases hrow : m unit with
  | none => rw [hrow] at hfind; cases hfind
  | some row =>
    rw [hrow] at hfind
    dsimp only at hfind
    split at hfind
    · cases hfind
    · split at hfind <;> cases hfind
      rename_i hsound _
      funext other
      simp [put, overwrite, hrow, Bool.eq_false_iff.2 hsound]

/-- An answer tells what has been done to the registers. -/
theorem after_answer (m : RegisterMachine) (unit : UnitId) (request : Request) :
    (m.answer unit request).2 = m.after (.answer unit request (m.answer unit request).1) := by
  cases request with
  | readHoldingRegisters address quantity =>
    simp only [answer]
    split
    · rfl
    · split <;> rfl
  | writeSingleRegister address word =>
    simp only [answer]
    split
    · rfl
    · exact put_eq_overwrite ‹_› _
  | writeMultipleRegisters address values =>
    simp only [answer]
    split
    · rfl
    · split
      · rfl
      · exact put_eq_overwrite ‹_› _
  | custom code data => rfl

/-- A read that is answered by a response gives the words that are in its range. -/
theorem answer_read {address : Address} {quantity : Quantity} {r : Response}
    (h : (m.answer unit (.readHoldingRegisters address quantity)).1 = .ok r) :
    ∃ row, m unit = some row ∧ address.toNat + quantity.toNat ≤ row.words.length ∧
      r = .readHoldingRegisters ((row.words.drop address.toNat).take quantity.toNat) := by
  simp only [answer] at h
  split at h
  · cases h
  · split at h
    · cases h
    · rename_i words hfind
      cases h
      obtain ⟨row, hrow, rfl⟩ := exists_row_of_find hfind
      have hend : address.toNat + quantity.toNat ≤ row.words.length := by
        simp only [find, hrow] at hfind
        split at hfind
        · cases hfind
        · split at hfind
          · cases hfind
          · omega
      exact ⟨row, hrow, hend, by rw [Row.pick_eq hend]⟩

end RegisterMachine

/-- Every answer of a history is the one that the registers give as the deeds before it have left
them. -/
def AreFaithful (ds : List RegisterDeed) : Prop :=
  ∀ j unit request answer, ds[j]? = some (.answer unit request answer) →
    answer = ((RegisterMachine.registers (ds.take j)).answer unit request).1

namespace AreFaithful

variable {ds : List RegisterDeed} {d : RegisterDeed}

/-- A history stays faithful with one more deed, if this is no answer or the right one. -/
theorem concat (h : AreFaithful ds) (hd : ∀ unit request answer, d = .answer unit request answer →
    answer = ((RegisterMachine.registers ds).answer unit request).1) : AreFaithful (ds ++ [d]) := by
  intro j unit request answer hj
  rcases Nat.lt_trichotomy j ds.length with hlt | rfl | hgt
  · rw [List.getElem?_append_left hlt] at hj
    rw [List.take_append_of_le_length (Nat.le_of_lt hlt)]
    exact h j unit request answer hj
  · rw [List.getElem?_concat_length] at hj
    rw [List.take_left]
    exact hd unit request answer (Option.some.inj hj)
  · rw [List.getElem?_eq_none (by simp; omega)] at hj
    cases hj

end AreFaithful

/-- The deeds of answering requests. -/
def RegisterDeed.answering (orders : List (UnitId × Request)) (answers : List Answer) :
    List RegisterDeed :=
  List.zipWith (fun order answer => .answer order.1 order.2 answer) orders answers

/-- The registers of an image are what a history has made of them. -/
structure Recorded (image : ProcessImage) (memory : Memory) (ds : List RegisterDeed) : Prop where
  contents : image.contents memory = RegisterMachine.registers ds
  areFaithful : AreFaithful ds

namespace Recorded

variable {image : ProcessImage} {memory : Memory} {ds : List RegisterDeed}

/-- An image that executes a request goes on with the history. -/
theorem execute (himage : image.IsProper) (h : Recorded image memory ds) (unit : UnitId)
    (request : Request) : Recorded image (image.handle memory unit request).2
      (ds ++ [.answer unit request (image.handle memory unit request).1]) := by
  have htold := ProcessImage.answer_handle himage memory unit request
  have hleft := ProcessImage.contents_handle himage memory unit request
  rw [h.contents] at htold hleft
  constructor
  case contents => rw [hleft, RegisterMachine.registers_concat, htold, RegisterMachine.after_answer]
  case areFaithful =>
    refine h.areFaithful.concat ?_
    rintro _ _ _ ⟨rfl, rfl, rfl⟩
    exact htold

/-- So it does with requests one after another. -/
theorem executeAll (himage : image.IsProper) (orders : List (UnitId × Request))
    (h : Recorded image memory ds) :
    Recorded image (Service.executeAll image.handle memory orders).2
      (ds ++ RegisterDeed.answering orders (Service.executeAll image.handle memory orders).1) := by
  induction orders generalizing memory ds with
  | nil => simpa [RegisterDeed.answering, Service.executeAll] using h
  | cons order rest ih =>
    have hrest := ih (h.execute himage order.1 order.2)
    rw [List.append_assoc] at hrest
    exact hrest

end Recorded

namespace ProcessImage

variable {image image' : ProcessImage} {memory memory' : Memory} {unit : UnitId} {bank : Bank}

/-- The cells that an image names are there. -/
def IsWithin (image : ProcessImage) (memory : Memory) : Prop :=
  ∀ (unit : UnitId) (n : Nat), image.cellOf[unit]? = some n → n < memory.cells.length

/-- Executing a request neither adds nor removes a cell. -/
theorem length_cells_handle (image : ProcessImage) (memory : Memory) (unit : UnitId)
    (request : Request) :
    (image.handle memory unit request).2.cells.length = memory.cells.length := by
  rcases image.handle_cells memory unit request with h | ⟨n, cell, -, h⟩
  · rw [h]
  · rw [h, List.length_set]

/-- Executing requests one after another neither adds nor removes a cell. -/
theorem length_cells_executeAll (image : ProcessImage) (memory : Memory)
    (orders : List (UnitId × Request)) :
    (Service.executeAll image.handle memory orders).2.cells.length = memory.cells.length := by
  induction orders generalizing memory with
  | nil => rfl
  | cons order rest ih => exact (ih _).trans (image.length_cells_handle memory _ _)

/-- A unit that is bound gets a new cell, behind all others, and nothing else changes. -/
theorem cellOf_insert (h : image.insert unit bank memory = .ok (image', memory')) (other : UnitId) :
    image'.cellOf[other]? =
      if other = unit then some memory.cells.length else image.cellOf[other]? := by
  obtain ⟨-, rfl, -⟩ := insert_inv h
  rw [Std.TreeMap.getElem?_insert]
  simp only [Std.LawfulEqCmp.compare_eq_iff_eq, eq_comm (a := other)]

/-- The units of an image to which a unit has been added. -/
theorem mem_insert (h : image.insert unit bank memory = .ok (image', memory')) (other : UnitId) :
    other ∈ image'.cellOf ↔ other = unit ∨ other ∈ image.cellOf := by
  obtain ⟨-, rfl, -⟩ := insert_inv h
  rw [Std.TreeMap.mem_insert, Std.LawfulEqCmp.compare_eq_iff_eq, eq_comm]

/-- All units of an image to which a unit has been added have a cell. -/
theorem IsWithin.insert (h : image.insert unit bank memory = .ok (image', memory'))
    (hwithin : image.IsWithin memory) : image'.IsWithin memory' := by
  intro other n hn
  rw [cellOf_insert h] at hn
  obtain ⟨-, -, rfl⟩ := insert_inv h
  rw [List.length_append]
  split at hn
  · cases hn
    exact Nat.lt_succ_self _
  · exact Nat.lt_succ_of_lt (hwithin other n hn)

/-- A new bank is not the bank of another unit. -/
theorem IsProper.insert (h : image.insert unit bank memory = .ok (image', memory'))
    (hwithin : image.IsWithin memory) (hproper : image.IsProper) : image'.IsProper := by
  intro first second n hfirst hsecond
  rw [cellOf_insert h] at hfirst hsecond
  split at hfirst <;> split at hsecond
  · rename_i hf hs
    exact hf.trans hs.symm
  · cases hfirst
    exact absurd (hwithin second _ hsecond) (Nat.lt_irrefl _)
  · cases hsecond
    exact absurd (hwithin first _ hfirst) (Nat.lt_irrefl _)
  · exact hproper first second n hfirst hsecond

/-- The row of a unit that is bound is the bank as it was given, and no other row changes. -/
theorem contents_insert (h : image.insert unit bank memory = .ok (image', memory'))
    (hwithin : image.IsWithin memory) :
    image'.contents memory' = (image.contents memory).put unit { words := bank.words } := by
  funext other
  have hcell := cellOf_insert h other
  obtain ⟨-, -, rfl⟩ := insert_inv h
  simp only [contents, RegisterMachine.put, cell?, hcell]
  split
  · simp
  · cases hn : image.cellOf[other]? with
    | none => rfl
    | some n =>
      have hlt := hwithin other n hn
      simp [List.getElem?_append_left hlt]

end ProcessImage

/-- A bank that is bound to a free unit goes on with the history. -/
theorem Recorded.insert {image image' : ProcessImage} {memory memory' : Memory}
    {ds : List RegisterDeed} {unit : UnitId} {bank : Bank}
    (h : image.insert unit bank memory = .ok (image', memory')) (hwithin : image.IsWithin memory)
    (hrecorded : Recorded image memory ds) : Recorded image' memory' (ds ++ [.bind unit bank]) := by
  constructor
  case contents =>
    rw [ProcessImage.contents_insert h hwithin, hrecorded.contents,
      RegisterMachine.registers_concat]
    rfl
  case areFaithful =>
    refine hrecorded.areFaithful.concat ?_
    intro _ _ _ heq
    cases heq

end Modbus
