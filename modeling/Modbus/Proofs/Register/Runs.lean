import Modbus.Proofs.Register.Access
import Modbus.Register.Gallery

/-!
# Runs of a gallery

A run of a gallery is a list of acts, each with the number of the image it goes through, and
`Gallery.after` is the gallery after the first acts of it. `Gallery.Change` says what an act that
succeeds can do: it binds a unit to a new cell, changes the contents of one cell, or appends a copy
of an image. What becomes of the bindings (`Gallery.Change.cellOf`) and of the cells
(`Gallery.Change.cell`) is read off it once. Cells are never removed, so the number of cells tells
when a cell has been made (`Gallery.eq_of_length_cells`).
-/

namespace Modbus

/-- What is done to a gallery through one of its images. -/
inductive GalleryAct where
  | insert (unit : UnitId) (bank : Bank)
  | read (unit : UnitId) (address : Address) (count : Nat)
  | write (unit : UnitId) (address : Address) (values : List Word)
  | clone
  | poison (unit : UnitId)

namespace Gallery

/-- An act through an image, which may fail. -/
def attempt (g : Gallery) (index : Nat) : GalleryAct → Except RegisterError Gallery
  | .insert unit bank => g.insert index unit bank
  | .read unit address count => (g.read index unit address count).map fun _ => g
  | .write unit address values => g.write index unit address values
  | .clone => .ok (g.clone index)
  | .poison unit => g.poison index unit

/-- The gallery after an act, which is the same as before if the act fails. -/
def act (g : Gallery) (a : Nat × GalleryAct) : Gallery :=
  match g.attempt a.1 a.2 with
  | .ok g => g
  | .error _ => g

/-- The cell that an image sees for a unit. -/
def cell? (g : Gallery) (index : Nat) (unit : UnitId) : Option Cell :=
  (g.image index).cell? unit g.memory

/-! ## What an act can do -/

/-- What an act through an image does when it succeeds. -/
inductive Change (g : Gallery) (index : Nat) : GalleryAct → Gallery → Prop where
  /-- A free unit is bound to a new cell. -/
  | bound {unit : UnitId} {bank : Bank} (hfree : unit ∉ (g.image index).cellOf) :
    Change g index (.insert unit bank)
      ⟨g.images.set index ⟨(g.image index).cellOf.insert unit g.memory.cells.length⟩,
        ⟨g.memory.cells ++ [⟨bank, false⟩]⟩⟩
  | read {unit : UnitId} {address : Address} {count : Nat} :
    Change g index (.read unit address count) g
  /-- The bank of one cell is written to. -/
  | written {unit : UnitId} {address : Address} {values : List Word} {c : Nat} {cell : Cell}
    {bank : Bank} (hc : (g.image index).cellOf[unit]? = some c)
    (hcell : g.memory.cells[c]? = some cell)
    (hw : cell.bank.write address values = .ok bank) :
    Change g index (.write unit address values)
      { g with memory := ⟨g.memory.cells.set c { cell with bank }⟩ }
  | copied : Change g index .clone (g.clone index)
  /-- One cell is marked. -/
  | poisoned {unit : UnitId} {c : Nat} {cell : Cell} (hc : (g.image index).cellOf[unit]? = some c)
    (hcell : g.memory.cells[c]? = some cell) :
    Change g index (.poison unit)
      { g with memory := ⟨g.memory.cells.set c { cell with isPoisoned := true }⟩ }

variable {g g' : Gallery} {i j c : Nat} {a : GalleryAct} {unit unit' : UnitId}

/-- An act that succeeds does what its kind allows. -/
theorem change_of_attempt (h : g.attempt i a = .ok g') : g.Change i a g' := by
  cases a with
  | insert unit bank =>
    simp only [attempt, insert, bind, Except.bind] at h
    cases hi : (g.image i).insert unit bank g.memory with
    | error e => rw [hi] at h; cases h
    | ok made =>
      rw [hi] at h
      cases h
      obtain ⟨hfree, himage, hmemory⟩ := ProcessImage.insert_inv hi
      rw [himage, hmemory]
      exact .bound hfree
  | read unit address count =>
    simp only [attempt] at h
    cases hr : g.read i unit address count with
    | error e => rw [hr] at h; cases h
    | ok words => rw [hr] at h; cases h; exact .read
  | write unit address values =>
    simp only [attempt, write, bind, Except.bind] at h
    cases hw : (g.image i).write unit address values g.memory with
    | error e => rw [hw] at h; cases h
    | ok memory =>
      rw [hw] at h
      cases h
      obtain ⟨c, cell, bank, hc, hcell, -, hbank, rfl⟩ := ProcessImage.write_inv hw
      exact .written hc hcell hbank
  | clone => cases h; exact .copied
  | poison unit =>
    simp only [attempt, poison, bind, Except.bind] at h
    cases hp : (g.image i).poison unit g.memory with
    | error e => rw [hp] at h; cases h
    | ok memory =>
      rw [hp] at h
      cases h
      obtain ⟨c, cell, hc, hcell, rfl⟩ := ProcessImage.poison_inv hp
      exact .poisoned hc hcell

/-- An image that is replaced leaves the other ones as they are. -/
theorem image_set {image : ProcessImage} {memory : Memory} (hi : i < g.images.length) :
    (⟨g.images.set i image, memory⟩ : Gallery).image j = if j = i then image else g.image j := by
  simp only [Gallery.image, List.getElem?_set]
  by_cases h : j = i
  · subst h
    simp [hi]
  · simp [h, Ne.symm h]

/-- A clone has the units of its original, behind all other images. -/
theorem image_clone :
    (g.clone i).image j = if j = g.images.length then g.image i else g.image j := by
  simp only [Gallery.image, clone]
  rcases Nat.lt_trichotomy j g.images.length with h | h | h
  · rw [List.getElem?_append_left h, if_neg (Nat.ne_of_lt h)]
  · subst h
    simp
  · rw [if_neg (Nat.ne_of_gt h), List.getElem?_eq_none (by simp; omega),
      List.getElem?_eq_none (Nat.le_of_lt h)]

/-- An image that is not there has no units. -/
theorem lt_of_cellOf (h : (g.image j).cellOf[unit]? = some c) :
    j < g.images.length := by
  refine Nat.lt_of_not_le fun hle => ?_
  rw [image, List.getElem?_eq_none hle] at h
  simp at h

/-- A binding after an act has been made by it, or copied by it, or has been there before. -/
theorem Change.cellOf (h : g.Change i a g') (hi : i < g.images.length) :
    (g'.image j).cellOf[unit]? = some c ↔
      ((∃ bank, a = .insert unit bank) ∧ j = i ∧ c = g.memory.cells.length) ∨
      (a = .clone ∧ j = g.images.length ∧ (g.image i).cellOf[unit]? = some c) ∨
      (g.image j).cellOf[unit]? = some c := by
  cases h with
  | @bound unit₀ bank hfree =>
    rw [image_set hi]
    by_cases hj : j = i
    · subst hj
      rw [if_pos rfl, Std.TreeMap.getElem?_insert]
      by_cases hu : unit₀ = unit
      · subst hu
        have hnone : (g.image j).cellOf[unit₀]? = none := Std.TreeMap.getElem?_eq_none hfree
        simp [hnone, eq_comm]
      · simp [hu]
    · simp [hj]
  | copied =>
    rw [image_clone]
    by_cases hj : j = g.images.length
    · subst hj
      have hnone : (g.image g.images.length).cellOf[unit]? ≠ some c := fun h =>
        absurd (lt_of_cellOf h) (Nat.lt_irrefl _)
      simp [hnone]
    · simp [hj]
  | read => simp
  | written | poisoned => simp [image]

/-- A unit that has just been bound sees the bank as it was given. -/
theorem Change.cell?_of_insert {bank : Bank} (h : g.Change i (.insert unit bank) g')
    (hi : i < g.images.length) : g'.cell? i unit = some ⟨bank, false⟩ := by
  cases h
  simp [cell?, ProcessImage.cell?, image_set hi]

/-- Only a unit that is bound is poisoned. -/
theorem Change.bound_of_poison (h : g.Change i (.poison unit) g') :
    ∃ c, (g.image i).cellOf[unit]? = some c := by
  cases h
  exact ⟨_, ‹_›⟩

/-- A write changes no binding. -/
theorem Change.image_of_write {address : Address} {values : List Word}
    (h : g.Change i (.write unit address values) g') : g'.image j = g.image j := by
  cases h
  rfl

/-- An act keeps all cells, and one that binds a unit adds one. -/
theorem Change.length_cells_le (h : g.Change i a g') :
    g.memory.cells.length ≤ g'.memory.cells.length := by
  cases h <;> simp [clone]

/-- An act that binds a unit makes a cell. -/
theorem Change.length_cells_lt {bank : Bank} (h : g.Change i (.insert unit bank) g') :
    g.memory.cells.length < g'.memory.cells.length := by
  cases h
  simp

/-! ## What is in the cells -/

/-- What is done to a cell that is there, by an act that succeeds. -/
inductive CellChange (g : Gallery) (i : Nat) (a : GalleryAct) (c : Nat) (cell : Cell) :
    Cell → Prop where
  /-- Values are written into its bank. -/
  | written {unit : UnitId} {address : Address} {values : List Word} {bank : Bank}
    (ha : a = .write unit address values) (hc : (g.image i).cellOf[unit]? = some c)
    (hw : cell.bank.write address values = .ok bank) : CellChange g i a c cell { cell with bank }
  /-- It is marked. -/
  | poisoned {unit : UnitId} (ha : a = .poison unit)
    (hc : (g.image i).cellOf[unit]? = some c) :
    CellChange g i a c cell { cell with isPoisoned := true }
  /-- The act does not write to it and does not mark it. -/
  | kept (hw : ∀ unit address values, a = .write unit address values →
      (g.image i).cellOf[unit]? ≠ some c)
    (hp : ∀ unit, a = .poison unit → (g.image i).cellOf[unit]? ≠ some c) :
    CellChange g i a c cell cell

/-- A cell stays where it is, and an act changes it only through a unit that is bound to it. -/
theorem Change.cell (h : g.Change i a g') {cell : Cell} (hcell : g.memory.cells[c]? = some cell) :
    ∃ cell', g'.memory.cells[c]? = some cell' ∧ CellChange g i a c cell cell' := by
  have hlt : c < g.memory.cells.length := (List.getElem?_eq_some_iff.1 hcell).1
  cases h with
  | bound =>
    refine ⟨cell, ?_, .kept (by simp) (by simp)⟩
    rw [List.getElem?_append_left hlt, hcell]
  | read | copied => exact ⟨cell, hcell, .kept (by simp) (by simp)⟩
  | @written unit address values c₀ cell₀ bank hc hcell₀ hw =>
    by_cases hcc : c₀ = c
    · subst hcc
      cases hcell₀.symm.trans hcell
      exact ⟨_, by simp [hlt], .written rfl hc hw⟩
    · refine ⟨cell, by simp [hcc, hcell], .kept ?_ (by simp)⟩
      rintro _ _ _ ⟨rfl, rfl, rfl⟩ hc'
      exact hcc (Option.some.inj (hc.symm.trans hc'))
  | @poisoned unit c₀ cell₀ hc hcell₀ =>
    by_cases hcc : c₀ = c
    · subst hcc
      cases hcell₀.symm.trans hcell
      exact ⟨_, by simp [hlt], .poisoned rfl hc⟩
    · refine ⟨cell, by simp [hcc, hcell], .kept (by simp) ?_⟩
      rintro _ ⟨rfl⟩ hc'
      exact hcc (Option.some.inj (hc.symm.trans hc'))

/-- A cell that is there after an act has been there before, or has been made by the act and is not
poisoned. -/
theorem Change.cell_before (h : g.Change i a g') {cell' : Cell}
    (hcell' : g'.memory.cells[c]? = some cell') :
    (∃ cell, g.memory.cells[c]? = some cell ∧ CellChange g i a c cell cell') ∨
      c = g.memory.cells.length ∧ cell'.isPoisoned = false := by
  by_cases hlt : c < g.memory.cells.length
  · obtain ⟨_, hkept, hchange⟩ := h.cell (List.getElem?_eq_getElem hlt)
    cases hkept.symm.trans hcell'
    exact .inl ⟨_, List.getElem?_eq_getElem hlt, hchange⟩
  · have hlt' : c < g'.memory.cells.length := (List.getElem?_eq_some_iff.1 hcell').1
    cases h with
    | bound =>
      obtain rfl : c = g.memory.cells.length := by
        simp only [List.length_append, List.length_singleton] at hlt'
        omega
      rw [List.getElem?_append_right (Nat.le_refl _), Nat.sub_self] at hcell'
      cases hcell'
      exact .inr ⟨rfl, rfl⟩
    | read | copied => exact absurd hlt' hlt
    | written | poisoned => exact absurd (by simpa using hlt') hlt

/-! ## Runs -/

variable (acts : List (Nat × GalleryAct))

/-- The gallery after the first acts of a run. -/
def after (n : Nat) : Gallery := (acts.take n).foldl act {}

/-- Every act goes through an image that is there. -/
def IsRun : Prop := ∀ n i a, acts[n]? = some (i, a) → i < (after acts n).images.length

/-- At a position of a run, an act through an image succeeds. -/
def SucceedsAt (n : Nat) (index : Nat) (a : GalleryAct) : Prop :=
  acts[n]? = some (index, a) ∧ ∃ g, (after acts n).attempt index a = .ok g

variable {acts} {n m k k' : Nat}

/-- Behind an act, the gallery is the one before it with the act done. -/
theorem after_succ (h : acts[n]? = some (i, a)) :
    after acts (n + 1) = (after acts n).act (i, a) := by
  simp [after, List.take_add_one, h]

/-- There is nothing behind the last act. -/
theorem after_succ_of_none (h : acts[n]? = none) : after acts (n + 1) = after acts n := by
  simp [after, List.take_add_one, h]

/-- An act that fails changes nothing. -/
theorem after_succ_of_error {e : RegisterError} (h : acts[n]? = some (i, a))
    (he : (after acts n).attempt i a = .error e) : after acts (n + 1) = after acts n := by
  simp only [after_succ h, act, he]

/-- What an act that succeeds has done. -/
theorem SucceedsAt.change (h : SucceedsAt acts n i a) :
    (after acts n).Change i a (after acts (n + 1)) := by
  obtain ⟨ha, g, hg⟩ := h
  have hafter : after acts (n + 1) = g := by simp only [after_succ ha, act, hg]
  rw [hafter]
  exact change_of_attempt hg

/-- At every position of a run an act succeeds, or nothing changes. -/
theorem succeeds_or_stays (acts : List (Nat × GalleryAct)) (n : Nat) :
    (∃ i a, SucceedsAt acts n i a) ∨
      (∀ i a, ¬ SucceedsAt acts n i a) ∧ after acts (n + 1) = after acts n := by
  cases ha : acts[n]? with
  | none =>
    refine .inr ⟨fun i a h => ?_, after_succ_of_none ha⟩
    rw [h.1] at ha
    cases ha
  | some x =>
    obtain ⟨i, a⟩ := x
    cases hg : (after acts n).attempt i a with
    | ok g => exact .inl ⟨i, a, ha, g, hg⟩
    | error e =>
      refine .inr ⟨fun j b h => ?_, after_succ_of_error ha hg⟩
      obtain ⟨hb, g, hok⟩ := h
      cases ha.symm.trans hb
      rw [hg] at hok
      cases hok

theorem SucceedsAt.unique {b : GalleryAct} (h : SucceedsAt acts n i a)
    (h' : SucceedsAt acts n j b) : i = j ∧ a = b := by
  cases h.1.symm.trans h'.1
  exact ⟨rfl, rfl⟩

theorem length_cells_succ (acts : List (Nat × GalleryAct)) (n : Nat) :
    (after acts n).memory.cells.length ≤ (after acts (n + 1)).memory.cells.length := by
  rcases succeeds_or_stays acts n with ⟨i, a, h⟩ | ⟨-, h⟩
  · exact h.change.length_cells_le
  · exact Nat.le_of_eq (by rw [h])

theorem length_cells_le (h : m ≤ n) :
    (after acts m).memory.cells.length ≤ (after acts n).memory.cells.length := by
  induction h with
  | refl => exact Nat.le_refl _
  | step _ ih => exact Nat.le_trans ih (length_cells_succ acts _)

/-- A unit that is bound during a run is bound to a cell that has not been there before, and that is
there from then on. -/
theorem SucceedsAt.length_cells_lt {bank : Bank} (h : SucceedsAt acts k i (.insert unit bank))
    (hk : k < n) : (after acts k).memory.cells.length < (after acts n).memory.cells.length :=
  Nat.lt_of_lt_of_le h.change.length_cells_lt (length_cells_le hk)

/-- Acts that bind units make different cells. -/
theorem eq_of_length_cells {bank bank' : Bank}
    (h : SucceedsAt acts k i (.insert unit bank)) (h' : SucceedsAt acts k' j (.insert unit' bank'))
    (heq : (after acts k).memory.cells.length = (after acts k').memory.cells.length) : k = k' := by
  rcases Nat.lt_trichotomy k k' with hlt | rfl | hgt
  · exact absurd heq (Nat.ne_of_lt (h.length_cells_lt hlt))
  · rfl
  · exact absurd heq.symm (Nat.ne_of_lt (h'.length_cells_lt hgt))

end Gallery

end Modbus
