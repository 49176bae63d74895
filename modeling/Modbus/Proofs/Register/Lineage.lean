import Modbus.Proofs.Register.Runs

/-!
# Who shares a bank with whom

A gallery grows by copies, and a copy shares the banks that its original has at that moment. So two
bindings lead to the same bank if and only if both descend, through copies, from one and the same
act that has bound a unit (`Gallery.Descends`). The bank that an act makes has as its number the
number of banks before the act; from this the cells to which the units of an image are bound are
told from the acts alone (`Gallery.cellOf_iff_descends`), and likewise which of the cells are
poisoned (`Gallery.isPoisoned_iff`). `Gallery.run_shares_by_descent` says what this means for
reading and writing.
-/

namespace Modbus

namespace Gallery

variable (acts : List (Nat × GalleryAct))

/-- After the first acts of a run, the binding of a unit in an image descends from the act at a
position: this act has bound the unit, in the image itself or in one of which the image is a copy,
or a copy of a copy. -/
inductive Descends : Nat → Nat → UnitId → Nat → Prop where
  | bound {n i : Nat} {unit : UnitId} {bank : Bank} (h : SucceedsAt acts n i (.insert unit bank)) :
    Descends (n + 1) i unit n
  | copied {n i k : Nat} {unit : UnitId} (h : SucceedsAt acts n i .clone)
    (hd : Descends n i unit k) : Descends (n + 1) (after acts n).images.length unit k
  | kept {n i k : Nat} {unit : UnitId} (hd : Descends n i unit k) : Descends (n + 1) i unit k

variable {acts} {n m i j k k' c : Nat} {a : GalleryAct} {unit unit' : UnitId}

/-! ## Descent -/

/-- What a binding descends from has bound this unit before. -/
theorem Descends.origin (h : Descends acts n i unit k) :
    k < n ∧ ∃ j bank, SucceedsAt acts k j (.insert unit bank) := by
  induction h with
  | bound h => exact ⟨Nat.lt_succ_self _, _, _, h⟩
  | copied _ _ ih | kept _ ih => exact ⟨Nat.lt_succ_of_lt ih.1, ih.2⟩

theorem Descends.of_le (h : Descends acts n i unit k) (hle : n ≤ m) :
    Descends acts m i unit k := by
  induction hle with
  | refl => exact h
  | step _ ih => exact .kept ih

/-- Where the bindings after an act come from. -/
theorem descends_succ : Descends acts (n + 1) j unit k ↔
    ((∃ bank, SucceedsAt acts n j (.insert unit bank)) ∧ k = n) ∨
    (∃ i, SucceedsAt acts n i .clone ∧ j = (after acts n).images.length ∧
      Descends acts n i unit k) ∨
    Descends acts n j unit k := by
  constructor
  · intro h
    cases h with
    | bound h => exact .inl ⟨⟨_, h⟩, rfl⟩
    | copied h hd => exact .inr (.inl ⟨_, h, rfl, hd⟩)
    | kept hd => exact .inr (.inr hd)
  · rintro (⟨⟨bank, h⟩, rfl⟩ | ⟨i, h, rfl, hd⟩ | hd)
    · exact .bound h
    · exact .copied h hd
    · exact .kept hd

/-- A unit of an image is bound to the cell that was made by the act from which the binding
descends. -/
theorem cellOf_iff_descends (h : IsRun acts) (n j : Nat) (unit : UnitId) (c : Nat) :
    ((after acts n).image j).cellOf[unit]? = some c ↔
      ∃ k, Descends acts n j unit k ∧ c = (after acts k).memory.cells.length := by
  induction n generalizing j with
  | zero =>
    refine iff_of_false (fun hc => ?_) (fun ⟨k, hd, _⟩ => by cases hd)
    have hj : j = 0 := Nat.lt_one_iff.1 (lt_of_cellOf hc)
    subst hj
    simp [after, image] at hc
  | succ n ih =>
    rcases succeeds_or_stays acts n with ⟨i, a, hs⟩ | ⟨hnone, hstays⟩
    · rw [hs.change.cellOf (h n i a hs.1), ih, ih]
      simp only [descends_succ]
      constructor
      · rintro (⟨⟨bank, rfl⟩, rfl, rfl⟩ | ⟨rfl, rfl, k, hd, hc⟩ | ⟨k, hd, hc⟩)
        · exact ⟨n, .inl ⟨⟨bank, hs⟩, rfl⟩, rfl⟩
        · exact ⟨k, .inr (.inl ⟨i, hs, rfl, hd⟩), hc⟩
        · exact ⟨k, .inr (.inr hd), hc⟩
      · rintro ⟨k, ⟨⟨bank, hb⟩, rfl⟩ | ⟨i', hc', rfl, hd⟩ | hd, hc⟩
        · obtain ⟨rfl, rfl⟩ := hs.unique hb
          exact .inl ⟨⟨bank, rfl⟩, rfl, hc⟩
        · obtain ⟨rfl, rfl⟩ := hs.unique hc'
          exact .inr (.inl ⟨rfl, rfl, k, hd, hc⟩)
        · exact .inr (.inr ⟨k, hd, hc⟩)
    · rw [hstays, ih]
      simp only [descends_succ, hnone, exists_false, false_and, false_or]

/-- A binding descends from one act only. -/
theorem Descends.unique (h : IsRun acts) (hd : Descends acts n i unit k)
    (hd' : Descends acts n i unit k') : k = k' := by
  obtain ⟨-, _, _, hs⟩ := hd.origin
  obtain ⟨-, _, _, hs'⟩ := hd'.origin
  have hc := (cellOf_iff_descends h n i unit _).2 ⟨k, hd, rfl⟩
  have hc' := (cellOf_iff_descends h n i unit _).2 ⟨k', hd', rfl⟩
  exact eq_of_length_cells hs hs' (Option.some.inj (hc.symm.trans hc'))

/-- Two bindings lead to the same cell if and only if they descend from the same act. -/
theorem same_cell_iff (h : IsRun acts) :
    (∃ c, ((after acts n).image i).cellOf[unit]? = some c ∧
      ((after acts m).image j).cellOf[unit']? = some c) ↔
    ∃ k, Descends acts n i unit k ∧ Descends acts m j unit' k := by
  simp only [cellOf_iff_descends h]
  constructor
  · rintro ⟨c, ⟨k, hd, hc⟩, k', hd', hc'⟩
    obtain ⟨-, _, _, hs⟩ := hd.origin
    obtain ⟨-, _, _, hs'⟩ := hd'.origin
    cases eq_of_length_cells hs hs' (hc.symm.trans hc')
    exact ⟨k, hd, hd'⟩
  · rintro ⟨k, hd, hd'⟩
    exact ⟨_, ⟨k, hd, rfl⟩, k, hd', rfl⟩

/-- A unit that is bound has a cell. -/
theorem lt_length_cells (h : IsRun acts) (hc : ((after acts n).image i).cellOf[unit]? = some c) :
    c < (after acts n).memory.cells.length := by
  obtain ⟨k, hd, rfl⟩ := (cellOf_iff_descends h n i unit c).1 hc
  obtain ⟨hk, _, _, hs⟩ := hd.origin
  exact hs.length_cells_lt hk

/-- The units of an image are those whose binding descends from some act. -/
theorem mem_units_iff (h : IsRun acts) :
    unit ∈ ((after acts n).image i).units ↔ ∃ k, Descends acts n i unit k := by
  rw [ProcessImage.units, Std.TreeMap.mem_keys, Std.TreeMap.mem_iff_isSome_getElem?,
    Option.isSome_iff_exists]
  simp only [cellOf_iff_descends h]
  exact ⟨fun ⟨_, k, hd, _⟩ => ⟨k, hd⟩, fun ⟨k, hd⟩ => ⟨_, k, hd, rfl⟩⟩

/-! ## What is seen of the cells -/

/-- A cell is poisoned if and only if some act has done so, through a unit that was bound to it. -/
theorem isPoisoned_iff (h : IsRun acts) {cell : Cell}
    (hcell : (after acts n).memory.cells[c]? = some cell) :
    cell.isPoisoned = true ↔ ∃ m < n, ∃ i unit, SucceedsAt acts m i (.poison unit) ∧
      ((after acts m).image i).cellOf[unit]? = some c := by
  induction n generalizing cell with
  | zero => simp [after] at hcell
  | succ n ih =>
    rw [Nat.exists_lt_succ_right]
    rcases succeeds_or_stays acts n with ⟨i, a, hs⟩ | ⟨hnone, hstays⟩
    · rcases hs.change.cell_before hcell with ⟨before, hbefore, hchange⟩ | ⟨rfl, hfresh⟩
      · cases hchange with
        | @written unit address values bank ha =>
          subst ha
          rw [or_iff_left, ← ih hbefore]
          rintro ⟨j, unit', hs', -⟩
          cases (hs.unique hs').2
        | poisoned ha hc =>
          subst ha
          exact iff_of_true rfl (.inr ⟨i, _, hs, hc⟩)
        | kept _ hp =>
          rw [or_iff_left, ih hbefore]
          rintro ⟨j, unit', hs', hc⟩
          obtain ⟨rfl, rfl⟩ := hs.unique hs'
          exact hp _ rfl hc
      · -- nothing has been bound to the new cell before
        have hunbound {m : Nat} (hm : m ≤ n) {j : Nat} {unit' : UnitId}
            (hc : ((after acts m).image j).cellOf[unit']? =
              some (after acts n).memory.cells.length) : False :=
          Nat.lt_irrefl _ (Nat.lt_of_lt_of_le (lt_length_cells h hc) (length_cells_le hm))
        rw [hfresh]
        refine iff_of_false (by simp) ?_
        rintro (⟨m, hm, j, unit', -, hc⟩ | ⟨j, unit', -, hc⟩)
        · exact hunbound (Nat.le_of_lt hm) hc
        · exact hunbound (Nat.le_refl n) hc
    · rw [hstays] at hcell
      simp only [hnone, false_and, exists_false, or_false]
      exact ih hcell

variable (acts) in
/-- After the first acts of a run, two bindings descend from the same act. -/
def Shares (n : Nat) (i : Nat) (unit : UnitId) (j : Nat) (unit' : UnitId) : Prop :=
  ∃ k, Descends acts n i unit k ∧ Descends acts n j unit' k

/-- A unit that is bound sees a cell that is there. -/
theorem exists_cell (h : IsRun acts) (hc : ((after acts n).image i).cellOf[unit]? = some c) :
    ∃ cell, (after acts n).memory.cells[c]? = some cell ∧
      (after acts n).cell? i unit = some cell := by
  have hcell := List.getElem?_eq_getElem (lt_length_cells h hc)
  exact ⟨_, hcell, by rw [cell?, ProcessImage.cell?_of_cellOf hc, hcell]⟩

/-- What a unit of an image is bound to stays so. -/
theorem cellOf_of_le (h : IsRun acts) (hle : n ≤ m)
    (hc : ((after acts n).image i).cellOf[unit]? = some c) :
    ((after acts m).image i).cellOf[unit]? = some c := by
  obtain ⟨k, hd, hk⟩ := (cellOf_iff_descends h n i unit c).1 hc
  exact (cellOf_iff_descends h m i unit c).2 ⟨k, hd.of_le hle, hk⟩

/-- What an act that succeeds makes of the cell that a unit sees. -/
theorem SucceedsAt.cell? (h : IsRun acts) (hs : SucceedsAt acts n i a)
    (hc : ((after acts n).image j).cellOf[unit']? = some c) :
    ∃ cell cell', (after acts n).cell? j unit' = some cell ∧
      (after acts (n + 1)).cell? j unit' = some cell' ∧
      CellChange (after acts n) i a c cell cell' := by
  obtain ⟨cell, hcell, hsees⟩ := exists_cell h hc
  obtain ⟨cell', hcell', hchange⟩ := hs.change.cell hcell
  refine ⟨cell, cell', hsees, ?_, hchange⟩
  rw [Gallery.cell?, ProcessImage.cell?_of_cellOf (cellOf_of_le h (Nat.le_succ n) hc), hcell']

/-- Whoever sees a poisoned cell shares it with a unit through which it has been poisoned. -/
theorem poisoned_iff_shares (h : IsRun acts) :
    (∃ cell, (after acts n).cell? j unit' = some cell ∧ cell.isPoisoned = true) ↔
    ∃ m < n, ∃ i unit, SucceedsAt acts m i (.poison unit) ∧ Shares acts n i unit j unit' := by
  constructor
  · rintro ⟨cell, hsees, hp⟩
    obtain ⟨c, hc, hcell⟩ := Option.bind_eq_some_iff.1 hsees
    obtain ⟨m, hm, i, unit, hs, hc₀⟩ := (isPoisoned_iff h hcell).1 hp
    have hc' := cellOf_of_le h (Nat.le_of_lt hm) hc₀
    exact ⟨m, hm, i, unit, hs, (same_cell_iff h).1 ⟨c, hc', hc⟩⟩
  · rintro ⟨m, hm, i, unit, hs, hshares⟩
    obtain ⟨c, hc, hc'⟩ := (same_cell_iff h).2 hshares
    obtain ⟨cell, hcell, hsees⟩ := exists_cell h hc'
    refine ⟨cell, hsees, (isPoisoned_iff h hcell).2 ⟨m, hm, i, unit, hs, ?_⟩⟩
    -- the unit was bound when it was poisoned, and it is still bound to the same cell
    obtain ⟨c₀, hc₀⟩ := hs.change.bound_of_poison
    rw [hc₀, ← cellOf_of_le h (Nat.le_of_lt hm) hc₀, hc]

/-- What the copies of a run share: banks, as far as they have been bound before copying. -/
structure SharesByDescent (acts : List (Nat × GalleryAct)) : Prop where
  /-- What a unit of an image is bound to stays so. -/
  stays : ∀ {n m i c : Nat} {unit : UnitId}, n ≤ m →
    ((after acts n).image i).cellOf[unit]? = some c →
      ((after acts m).image i).cellOf[unit]? = some c
  /-- Binding a unit fails if and only if it is bound in this image. -/
  refused : ∀ {n i : Nat} {unit : UnitId} {bank : Bank} {e : RegisterError},
    acts[n]? = some (i, .insert unit bank) →
      ((after acts n).attempt i (.insert unit bank) = .error e ↔
        e = .unitAlreadyRegistered unit ∧ unit ∈ ((after acts n).image i).units)
  /-- A unit that has just been bound sees the bank as it was given. -/
  bound : ∀ {n i unit bank}, SucceedsAt acts n i (.insert unit bank) →
    (after acts (n + 1)).cell? i unit = some ⟨bank, false⟩
  /-- An act that fails changes nothing in any image. -/
  unchanged : ∀ {n i a} {e : RegisterError}, acts[n]? = some (i, a) →
    (after acts n).attempt i a = .error e → after acts (n + 1) = after acts n
  /-- Two bindings lead to the same bank if and only if they descend from the same act. -/
  same_bank : ∀ {n i j : Nat} {unit unit' : UnitId},
    (∃ c, ((after acts n).image i).cellOf[unit]? = some c ∧
      ((after acts n).image j).cellOf[unit']? = some c) ↔ Shares acts n i unit j unit'
  /-- A write changes the registers in its range, as seen by those who share the bank, and nothing
  that anybody else sees. -/
  written : ∀ {n i unit address values}, SucceedsAt acts n i (.write unit address values) →
    ∀ j unit',
      (Shares acts n i unit j unit' → ∃ before after',
        (after acts n).cell? j unit' = some before ∧
        (after acts (n + 1)).cell? j unit' = some after' ∧
        before.IsWritten after' address values) ∧
      (¬ Shares acts n i unit j unit' →
        (after acts (n + 1)).cell? j unit' = (after acts n).cell? j unit')
  /-- No other act changes a register that anybody sees. -/
  others : ∀ {n i a}, SucceedsAt acts n i a →
    (∀ unit address values, a ≠ .write unit address values) →
    ∀ {j unit' before}, (after acts n).cell? j unit' = some before →
      ∃ after', (after acts (n + 1)).cell? j unit' = some after' ∧ after'.bank = before.bank
  /-- What is read through an image is in the bank that it sees. -/
  reads : ∀ {n i : Nat} {unit : UnitId} {cell : Cell}, (after acts n).cell? i unit = some cell →
    cell.isPoisoned = false → ∀ address count,
      (after acts n).read i unit address count = cell.bank.read address count
  /-- Reading fails for a poisoned bank if and only if it has been poisoned through somebody with
  whom the bank is shared. -/
  poisoned_read : ∀ {n j unit' other address count},
    (after acts n).read j unit' address count = .error (.poisoned other) ↔
      other = unit' ∧
        ∃ m < n, ∃ i unit, SucceedsAt acts m i (.poison unit) ∧ Shares acts n i unit j unit'
  /-- So does writing. -/
  poisoned_write : ∀ {n j unit' other address values},
    (after acts n).attempt j (.write unit' address values) = .error (.poisoned other) ↔
      other = unit' ∧
        ∃ m < n, ∃ i unit, SucceedsAt acts m i (.poison unit) ∧ Shares acts n i unit j unit'
  /-- The units of an image are listed in ascending order. -/
  ascending : ∀ n i, ((after acts n).image i).units.Pairwise (· < ·)
  /-- They are those that some act has bound in it, or in an image of which it is a copy. -/
  listed : ∀ {n i : Nat} {unit : UnitId},
    unit ∈ ((after acts n).image i).units ↔ ∃ k, Descends acts n i unit k
  /-- This act is the only one. -/
  origin : ∀ {n i unit k k'}, Descends acts n i unit k → Descends acts n i unit k' → k = k'

theorem written_of_succeedsAt (h : IsRun acts) {address : Address} {values : List Word}
    (hs : SucceedsAt acts n i (.write unit address values)) (j : Nat) (unit' : UnitId) :
    (Shares acts n i unit j unit' → ∃ before after', (after acts n).cell? j unit' = some before ∧
      (after acts (n + 1)).cell? j unit' = some after' ∧ before.IsWritten after' address values) ∧
    (¬ Shares acts n i unit j unit' →
      (after acts (n + 1)).cell? j unit' = (after acts n).cell? j unit') := by
  cases hc : ((after acts n).image j).cellOf[unit']? with
  | none =>
    have himage := hs.change.image_of_write (j := j)
    refine ⟨fun hshares => ?_, fun _ => ?_⟩
    · obtain ⟨c, -, hc'⟩ := (same_cell_iff h).2 hshares
      rw [hc] at hc'
      cases hc'
    · simp [Gallery.cell?, ProcessImage.cell?, himage, hc]
  | some c =>
    obtain ⟨cell, cell', hsees, hsees', hchange⟩ := hs.cell? h hc
    cases hchange with
    | written ha hci hw =>
      cases ha
      have hshares := (same_cell_iff h).1 ⟨c, hci, hc⟩
      exact ⟨fun _ => ⟨cell, _, hsees, hsees', Cell.isWritten_of_write hw⟩,
        fun hnot => absurd hshares hnot⟩
    | poisoned ha => cases ha
    | kept hw =>
      refine ⟨fun hshares => ?_, fun _ => by rw [hsees, hsees']⟩
      obtain ⟨c', hci, hc'⟩ := (same_cell_iff h).2 hshares
      cases hc.symm.trans hc'
      exact absurd hci (hw _ _ _ rfl)

/-- **Copies share the banks that their originals have had.** In every run, two bindings lead to the
same bank if and only if they descend from the act that has made it; what is written to a bank or
poisons it is seen by those who share it, and by nobody else. -/
theorem run_shares_by_descent (h : IsRun acts) : SharesByDescent acts := by
  constructor
  case stays => exact fun hle hc => cellOf_of_le h hle hc
  case refused =>
    intro n i unit bank e _
    have hmem : unit ∈ ((after acts n).image i).units ↔ unit ∈ ((after acts n).image i).cellOf :=
      Std.TreeMap.mem_keys
    rw [hmem, ← ProcessImage.insert_eq_error_iff bank]
    simp only [attempt, insert, bind, Except.bind]
    cases ((after acts n).image i).insert unit bank (after acts n).memory with
    | error e' => simp
    | ok made => simp [pure, Except.pure]
  case bound => exact fun hs => hs.change.cell?_of_insert (h _ _ _ hs.1)
  case unchanged => exact fun ha he => after_succ_of_error ha he
  case same_bank => exact same_cell_iff h
  case written => exact fun hs => written_of_succeedsAt h hs
  case others =>
    intro n i a hs hnot j unit' before hsees
    obtain ⟨c, hc, -⟩ := Option.bind_eq_some_iff.1 hsees
    obtain ⟨cell, cell', hcell, hsees', hchange⟩ := hs.cell? h hc
    cases hsees.symm.trans hcell
    refine ⟨cell', hsees', ?_⟩
    cases hchange with
    | written ha => exact absurd ha (hnot _ _ _)
    | poisoned => rfl
    | kept => rfl
  case reads =>
    intro n i unit cell hsees hp address count
    obtain ⟨c, hc, hcell⟩ := Option.bind_eq_some_iff.1 hsees
    exact ProcessImage.read_of_sound hc hcell hp
  case poisoned_read =>
    intro n j unit' other address count
    rw [← poisoned_iff_shares h]
    exact ProcessImage.read_eq_poisoned_iff
  case poisoned_write =>
    intro n j unit' other address values
    have hwrite : ((after acts n).image j).write unit' address values (after acts n).memory =
      .error (.poisoned other) ↔ _ := ProcessImage.write_eq_poisoned_iff
    rw [← poisoned_iff_shares h, cell?, ← hwrite]
    simp only [attempt, write, bind, Except.bind]
    cases ((after acts n).image j).write unit' address values (after acts n).memory with
    | error e => simp
    | ok memory => simp [pure, Except.pure]
  case ascending =>
    intro n i
    have hordered := Std.TreeMap.ordered_keys (t := ((after acts n).image i).cellOf)
    exact hordered.imp fun hlt => Std.compare_eq_lt.1 hlt
  case listed => exact mem_units_iff h
  case origin => exact fun hd hd' => hd.unique h hd'

/-- A run in which an image is copied after one of its units has been bound. Another unit is bound
in the image and in the copy apart; the shared bank is written to through the copy and poisoned
through the image. -/
def copyingRun : List (Nat × GalleryAct) :=
  [(0, .insert 3 ⟨[10, 20, 30]⟩), (0, .clone), (1, .insert 1 ⟨[5]⟩), (0, .insert 1 ⟨[5]⟩),
    (1, .write 3 1 [99]), (0, .poison 3)]

theorem isRun_copyingRun : IsRun copyingRun := by
  intro n i a ha
  match n, ha with
  | 0, ha | 1, ha | 2, ha | 3, ha | 4, ha | 5, ha => cases ha; decide

/-- The image sees what has been written through the copy, and the copy finds its bank poisoned, but
the unit that both have bound apart is not shared. -/
theorem run_shares_by_descent_copyingRun : IsRun copyingRun ∧
    (∃ cell, (after copyingRun 5).cell? 0 3 = some cell ∧ cell.bank.words[1]? = some 99) ∧
    (∀ address count, (after copyingRun 6).read 1 3 address count = .error (.poisoned 3)) ∧
    ¬ Shares copyingRun 6 0 1 1 1 := by
  have hshares := run_shares_by_descent isRun_copyingRun
  have hbound : SucceedsAt copyingRun 0 0 (.insert 3 ⟨[10, 20, 30]⟩) := ⟨rfl, _, rfl⟩
  have hcopied : SucceedsAt copyingRun 1 0 .clone := ⟨rfl, _, rfl⟩
  have hd : Descends copyingRun 2 0 3 0 := .kept (.bound hbound)
  have hd' : Descends copyingRun 2 1 3 0 := .copied hcopied (.bound hbound)
  have hwrite : SucceedsAt copyingRun 4 1 (.write 3 1 [99]) := ⟨rfl, _, rfl⟩
  have hpoison : SucceedsAt copyingRun 5 0 (.poison 3) := ⟨rfl, _, rfl⟩
  refine ⟨isRun_copyingRun, ?_, fun address count => ?_, fun hnot => ?_⟩
  · obtain ⟨before, after', -, hsees, hwritten⟩ :=
      (hshares.written hwrite 0 3).1 ⟨0, hd'.of_le (by decide), hd.of_le (by decide)⟩
    exact ⟨after', hsees, hwritten.words 1⟩
  · exact hshares.poisoned_read.2 ⟨rfl, 5, by decide, 0, 3, hpoison, 0, hd.of_le (by decide),
      hd'.of_le (by decide)⟩
  · obtain ⟨c, hc, hc'⟩ := hshares.same_bank.2 hnot
    have h : ((after copyingRun 6).image 0).cellOf[(1 : UnitId)]? = some 2 := rfl
    have h' : ((after copyingRun 6).image 1).cellOf[(1 : UnitId)]? = some 1 := rfl
    cases h.symm.trans hc
    cases h'.symm.trans hc'

end Gallery

end Modbus
