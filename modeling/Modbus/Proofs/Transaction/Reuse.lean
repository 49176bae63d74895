import Modbus.Proofs.Transaction.Allocation

/-!
# How soon an id is used again

The counter of a table goes round the ring of ids. An id that is ahead of it is not passed before it
has been handed out or skipped (`Table.Search.ahead_le_of_not_mem`), and from an id that has been
handed out to the same id again the counter has the whole ring to go. So every other id has its turn
in between (`Desk.others_between`): ids are used again as late as the ids in use allow.

This is about ids that are found free. An abandoned id that is reclaimed is handed out where the
counter is not.
-/

namespace Modbus

open TransactionId (ahead ahead_add ahead_lt ahead_next ahead_self eq_of_ahead_eq)

namespace TransactionId

variable {start id id' : TransactionId}

/-- The way to an id leads over the ids in front of it. -/
theorem ahead_add_of_le (h : ahead start id ≤ ahead start id') :
    ahead start id + ahead id id' = ahead start id' := by
  have := ahead_add start id id'
  have := ahead_lt start id
  have := ahead_lt start id'
  have := ahead_lt id id'
  simp only [Table.capacity] at *
  omega

/-- From the next id on, an id is as far ahead as anything can be. -/
theorem ahead_of_next (id : TransactionId) : ahead (id + 1) id + 1 = Table.capacity := by
  have hnext := ahead_next id id
  have hround := ahead_add id (id + 1) id
  have := ahead_lt (id + 1) id
  simp only [ahead_self, Table.capacity] at *
  omega

end TransactionId

open TransactionId (ahead_add_of_le ahead_of_next)

namespace Table.Search

variable {t : Table} {start origin id id' : TransactionId} {skipped : List TransactionId}

/-- A counter that has not passed an id does not pass it by a search that neither skips nor finds
it. -/
theorem ahead_next_le (h : t.Search start skipped id) (hs : id' ∉ skipped) (hne : id' ≠ id)
    (hle : ahead origin start ≤ ahead origin id') : ahead origin (id + 1) ≤ ahead origin id' := by
  have hlt : ahead start id < ahead start id' :=
    Nat.lt_of_le_of_ne (h.ahead_le_of_not_mem hs) fun heq => hne (eq_of_ahead_eq heq).symm
  have hway := ahead_add_of_le hle
  have hround := ahead_lt origin id'
  have hid := ahead_add origin start id
  rw [ahead_next, hid]
  simp only [capacity] at *
  omega

end Table.Search

namespace Desk

variable {actions : List DeskAction} {m n : Nat} {serial serial' : Serial}
  {origin id id' : TransactionId}

/-- At a position of a run, the search for a free id skips an id. -/
def SkipsAt (actions : List DeskAction) (n : Nat) (id : TransactionId) : Prop :=
  ∃ serial found skipped, IssuesAt actions n serial found ∧
    (after actions n).table.Search (after actions n).table.nextId skipped found ∧ id ∈ skipped

/-- An id that is handed out is found by the search, and the counter goes on behind it, unless the
id is reclaimed. -/
theorem IssuesAt.search (h : IssuesAt actions n serial id) (hno : ¬ ReclaimsAt actions n id) :
    ∃ skipped, (after actions n).table.Search (after actions n).table.nextId skipped id ∧
      (after actions (n + 1)).table.nextId = id + 1 := by
  have hissues := h
  obtain ⟨ha, ticket, d', hok, rfl⟩ := h
  obtain ⟨table, htable, -, -, rfl⟩ := allocate_inv hok
  obtain ⟨-, ⟨hfull, -⟩ | ⟨-, hfree, rfl⟩⟩ := Table.allocate_inv htable
  · have hsize := Nat.le_antisymm (after actions n).table.size_le_capacity hfull
    exact absurd ⟨hsize, serial, hissues⟩ hno
  · obtain ⟨skipped, hsearch, -⟩ := Table.firstFree_eq_some_iff.1 hfree
    refine ⟨skipped, hsearch, ?_⟩
    rw [after_succ ha, act, hok]
    exact Table.nextId_enter

/-- The counter stays where it is as long as no ticket is issued. -/
theorem nextId_of_not_issued (h : ∀ serial id, ¬ IssuesAt actions n serial id) :
    (after actions (n + 1)).table.nextId = (after actions n).table.nextId := by
  cases ha : actions[n]? with
  | none => rw [after_succ_of_none ha]
  | some a =>
    rw [after_succ ha]
    by_cases halloc : a = .allocate
    · subst halloc
      cases hok : (after actions n).allocate with
      | error e => rw [act_allocate_of_error hok]
      | ok issued =>
        obtain ⟨serial, ticket, d'⟩ := issued
        exact absurd ⟨ha, ticket, d', hok, rfl⟩ (h serial ticket.id)
    · exact (counters_act halloc).1

/-- What happens at one position leaves an id ahead that is neither handed out nor skipped then. -/
theorem ahead_step (hno : ∀ id, ¬ ReclaimsAt actions n id)
    (hissued : ∀ serial, ¬ IssuesAt actions n serial id') (hskipped : ¬ SkipsAt actions n id')
    (h : ahead origin (after actions n).table.nextId ≤ ahead origin id') :
    ahead origin (after actions (n + 1)).table.nextId ≤ ahead origin id' := by
  by_cases hi : ∃ serial id, IssuesAt actions n serial id
  · obtain ⟨serial, id, hi⟩ := hi
    obtain ⟨skipped, hsearch, hnext⟩ := hi.search (hno id)
    rw [hnext]
    refine hsearch.ahead_next_le ?_ ?_ h
    · exact fun hs => hskipped ⟨serial, id, skipped, hi, hsearch, hs⟩
    · exact fun heq => hissued serial (heq ▸ hi)
  · rw [nextId_of_not_issued fun serial id h' => hi ⟨serial, id, h'⟩]
    exact h

/-- So does any number of them. -/
theorem ahead_run (hmn : m ≤ n) (hno : ∀ k id, m ≤ k → k < n → ¬ ReclaimsAt actions k id)
    (hissued : ∀ k serial, m ≤ k → k < n → ¬ IssuesAt actions k serial id')
    (hskipped : ∀ k, m ≤ k → k < n → ¬ SkipsAt actions k id')
    (h : ahead origin (after actions m).table.nextId ≤ ahead origin id') :
    ahead origin (after actions n).table.nextId ≤ ahead origin id' := by
  induction hmn with
  | refl => exact h
  | @step n hle ih =>
    refine ahead_step (hno n · hle (Nat.lt_succ_self n)) (hissued n · hle (Nat.lt_succ_self n))
      (hskipped n hle (Nat.lt_succ_self n)) (ih ?_ ?_ ?_)
    · exact fun k id hk hlt => hno k id hk (Nat.lt_succ_of_lt hlt)
    · exact fun k serial hk hlt => hissued k serial hk (Nat.lt_succ_of_lt hlt)
    · exact fun k hk hlt => hskipped k hk (Nat.lt_succ_of_lt hlt)

/-- If all ids are in use and one of them is given back before its request has been sent, it is the
next one that is handed out. -/
theorem Ascends.allocate_drop {d : Desk} {freed : Serial} (h : Ascends d Table.capacity)
    (hfreed : freed < Table.capacity) :
    (d.drop freed).table.entries.size < Table.capacity ∧
      ∃ ticket d', (d.drop freed).allocate = .ok (Table.capacity, ticket, d') ∧
        ticket.id = UInt16.ofNat freed := by
  have hticket := h.tickets freed
  rw [if_pos hfreed] at hticket
  have htable := table_drop hticket
  have hentries (id : TransactionId) : (d.drop freed).table.entries[id]? =
      if UInt16.ofNat freed = id then none else some (.pending id.toNat) := by
    have hfirst := h.pending (UInt16.ofNat freed)
    rw [TransactionId.toNat_ofNat hfreed] at hfirst
    rw [htable, Table.getElem?_release, hfirst, h.pending]
    simp
  have hopen : (d.drop freed).table.closed = none := by
    rw [htable, Table.closed_release, h.closed]
  have hfree : UInt16.ofNat freed ∉ (d.drop freed).table.entries :=
    Table.not_mem_of_none (by rw [hentries, if_pos rfl])
  have hroom := Table.size_lt_capacity hfree
  obtain ⟨skipped, id, hsearch, hok⟩ := Table.allocate_of_room hopen hroom
  obtain rfl : UInt16.ofNat freed = id := Classical.byContradiction fun hne =>
    hsearch.not_mem (Table.mem_of_entry (by rw [hentries, if_neg hne]))
  have hserial : (d.drop freed).table.nextSerial = Table.capacity := by
    rw [htable, Table.nextSerial_release, h.nextSerial]
  have hissued := allocate_eq_ok hok
  rw [hserial] at hissued
  exact ⟨hroom, _, _, hissued, rfl⟩

/-- **Every other id has its turn before an id is used again**: between two allocations that return
the same id, each of the other ids is handed out, or it is found in use and skipped, unless ids are
reclaimed. -/
theorem others_between (hm : IssuesAt actions m serial id) (hn : IssuesAt actions n serial' id)
    (hmn : m < n) (hno : ∀ k reclaimed, m ≤ k → k ≤ n → ¬ ReclaimsAt actions k reclaimed)
    (other : TransactionId) (hother : other ≠ id) :
    (∃ k, m < k ∧ k < n ∧ ∃ between, IssuesAt actions k between other) ∨
      ∃ k, m < k ∧ k ≤ n ∧ SkipsAt actions k other ∧
        other ∈ (after actions k).table.entries := by
  refine Classical.byContradiction fun hnone => ?_
  have hissued (k : Nat) (between : Serial) (hk : m < k) (hlt : k < n) :
      ¬ IssuesAt actions k between other := fun h => hnone (.inl ⟨k, hk, hlt, between, h⟩)
  have hskipped (k : Nat) (hk : m < k) (hle : k ≤ n) : ¬ SkipsAt actions k other := by
    rintro ⟨between, found, skipped, hi, hsearch, hs⟩
    exact hnone (.inr ⟨k, hk, hle, ⟨between, found, skipped, hi, hsearch, hs⟩,
      hsearch.mem_of_skipped hs⟩)
  -- the counter starts behind the id
  obtain ⟨-, -, hstart⟩ := hm.search (hno m id (Nat.le_refl m) (Nat.le_of_lt hmn))
  have hrun : ahead (id + 1) (after actions n).table.nextId ≤ ahead (id + 1) other := by
    refine ahead_run (m := m + 1) hmn ?_ hissued ?_ ?_
    · exact fun k reclaimed hk hlt => hno k reclaimed (Nat.le_of_lt hk) (Nat.le_of_lt hlt)
    · exact fun k hk hlt => hskipped k hk (Nat.le_of_lt hlt)
    · rw [hstart, ahead_self]
      exact Nat.zero_le _
  -- and arrives at it again by a search that does not skip the other one
  obtain ⟨skipped, hsearch, -⟩ := hn.search (hno n id (Nat.le_of_lt hmn) (Nat.le_refl n))
  have hle : ahead (after actions n).table.nextId id ≤ ahead (after actions n).table.nextId other :=
    hsearch.ahead_le_of_not_mem fun hs =>
      hskipped n hmn (Nat.le_refl n) ⟨serial', id, skipped, hn, hsearch, hs⟩
  have hround := ahead_of_next id
  have hway := ahead_add_of_le hrun
  have hne : ahead (id + 1) other ≠ ahead (id + 1) id := fun heq => hother (eq_of_ahead_eq heq)
  have hlast := ahead_lt (id + 1) other
  have hwhole := ahead_add (id + 1) (after actions n).table.nextId id
  simp only [Table.capacity] at *
  omega

/-- All ids are handed out, and the sixth of them is given back and handed out again. The fourth one
is skipped then. -/
theorem others_between_sixthAgain :
    (∃ k, 5 < k ∧ k < Table.capacity + 1 ∧
        ∃ between, IssuesAt (afterFull [.drop 5, .allocate]) k between 3) ∨
      ∃ k, 5 < k ∧ k ≤ Table.capacity + 1 ∧ SkipsAt (afterFull [.drop 5, .allocate]) k 3 ∧
        3 ∈ (after (afterFull [.drop 5, .allocate]) k).table.entries := by
  have hsixth : (5 : Serial) < Table.capacity := by decide
  have hdrop : (afterFull [.drop 5, .allocate])[Table.capacity]? = some (.drop 5) :=
    getElem?_afterFull_add 0
  have hlast : (afterFull [.drop 5, .allocate])[Table.capacity + 1]? = some .allocate :=
    getElem?_afterFull_add 1
  have hfull : Ascends (after (afterFull [.drop 5, .allocate]) Table.capacity) Table.capacity :=
    ascends_afterFull (Nat.le_refl Table.capacity)
  have hafter : after (afterFull [.drop 5, .allocate]) (Table.capacity + 1) =
      (after (afterFull [.drop 5, .allocate]) Table.capacity).drop 5 := by
    rw [after_succ hdrop, act]
  obtain ⟨hroom, ticket, d', hok, hid⟩ := hfull.allocate_drop hsixth
  rw [← hafter] at hroom hok
  refine others_between (issuesAt_afterFull hsixth) ⟨hlast, ticket, d', hok, hid⟩
    (Nat.lt_succ_of_lt hsixth) ?_ 3 (by decide)
  rintro k reclaimed - hk ⟨hsize, serial, hissues⟩
  rcases Nat.lt_trichotomy k Table.capacity with hlt | rfl | hgt
  · exact absurd (hsize.symm.trans (ascends_afterFull (Nat.le_of_lt hlt)).size) (Nat.ne_of_gt hlt)
  · exact absurd (hissues.1.symm.trans hdrop) (by simp)
  · obtain rfl : k = Table.capacity + 1 := Nat.le_antisymm hk hgt
    exact absurd hsize (Nat.ne_of_lt hroom)

end Desk

end Modbus
