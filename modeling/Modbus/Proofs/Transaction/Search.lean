import Modbus.Proofs.Transaction.History

/-!
# How an id is found

The ids follow one another in a ring: behind the last one comes the first. How far an id is ahead of
another one is a number of steps (`TransactionId.ahead`).

The search for a free id goes round this ring and skips the ids in use. Nothing in it bounds the
number of steps (`Table.Search`). It ends because a table that is not full lacks an id, which comes
nearer with every id that is skipped (`Table.exists_search`). It finds the first id that is free,
and skips those in front of it (`Table.Search.mem_skipped_iff`, `Table.Search.ahead_le`). The search
among a bounded number of ids finds the same, if it may go so far (`Table.firstFree_eq_some_iff`).

If no id is free, one that is abandoned is looked for, and it is the one with the smallest serial
(`Table.oldestAbandoned_inv`).
-/

namespace Modbus

namespace TransactionId

/-- How many steps an id is ahead of another one, in ascending order and from zero on behind the
last one. -/
def ahead (start id : TransactionId) : Nat := (id - start).toNat

variable {start id id' : TransactionId}

theorem ahead_eq (start id : TransactionId) :
    ahead start id = (id.toNat + 65536 - start.toNat) % 65536 := by
  have := start.toNat_lt
  rw [ahead, UInt16.toNat_sub]
  omega

theorem toNat_lt_capacity (id : TransactionId) : id.toNat < Table.capacity := id.toNat_lt

theorem toNat_ofNat {n : Nat} (h : n < Table.capacity) : (UInt16.ofNat n).toNat = n :=
  Nat.mod_eq_of_lt h

theorem ahead_lt (start id : TransactionId) : ahead start id < Table.capacity :=
  toNat_lt_capacity _

@[simp] theorem ahead_self (id : TransactionId) : ahead id id = 0 := by simp [ahead]

/-- Ids that are as far ahead are the same. -/
theorem eq_of_ahead_eq (h : ahead start id = ahead start id') : id = id' := by
  have := start.toNat_lt
  have := id.toNat_lt
  have := id'.toNat_lt
  rw [ahead_eq, ahead_eq] at h
  exact UInt16.toNat_inj.1 (by omega)

/-- Distances add up, once round the ring at most. -/
theorem ahead_add (start id id' : TransactionId) :
    ahead start id' = (ahead start id + ahead id id') % Table.capacity := by
  have := start.toNat_lt
  have := id.toNat_lt
  have := id'.toNat_lt
  simp only [ahead_eq, Table.capacity]
  omega

theorem ahead_next (start id : TransactionId) :
    ahead start (id + 1) = (ahead start id + 1) % Table.capacity := by
  have hone : ahead id (id + 1) = 1 := by
    have := id.toNat_lt
    rw [ahead_eq, UInt16.toNat_add]
    simp
    omega
  rw [ahead_add start id (id + 1), hone]

/-- Any other id is nearer from the next id on. -/
theorem ahead_of_ne (h : id ≠ start) : ahead start id = ahead (start + 1) id + 1 := by
  have hpos : ahead start id ≠ 0 := fun hzero =>
    h (eq_of_ahead_eq (hzero.trans (ahead_self start).symm))
  have hnext := ahead_next start start
  have hsum := ahead_add start (start + 1) id
  have := ahead_lt (start + 1) id
  have := ahead_lt start id
  simp only [ahead_self, Table.capacity] at *
  omega

end TransactionId

open TransactionId (ahead ahead_self ahead_of_ne ahead_lt)

namespace Table

variable {t : Table} {start id : TransactionId} {skipped : List TransactionId} {n : Nat}

/-! ## Free ids -/

/-- The search for an id that is not in use, which skips ids that are, one after another. -/
inductive Search (t : Table) : TransactionId → List TransactionId → TransactionId → Prop where
  /-- The id at which the search has arrived is free. -/
  | found {id : TransactionId} (h : id ∉ t.entries) : Search t id [] id
  /-- It is in use, and the search goes on behind it. -/
  | skip {start id : TransactionId} {skipped : List TransactionId} (h : start ∈ t.entries)
    (next : Search t (start + 1) skipped id) : Search t start (start :: skipped) id

namespace Search

/-- What is found is free. -/
theorem not_mem (h : t.Search start skipped id) : id ∉ t.entries := by
  induction h with
  | found h => exact h
  | skip _ _ ih => exact ih

/-- The id that is found is one step farther from an id that is skipped than from the next one. -/
theorem ahead_skip (hmem : start ∈ t.entries) (next : t.Search (start + 1) skipped id) :
    ahead start id = ahead (start + 1) id + 1 := by
  have hne : id ≠ start := fun heq => next.not_mem (heq ▸ hmem)
  exact ahead_of_ne hne

/-- The ids that are skipped are those in front of the one that is found. -/
theorem mem_skipped_iff (h : t.Search start skipped id) (id' : TransactionId) :
    id' ∈ skipped ↔ ahead start id' < ahead start id := by
  induction h with
  | found => simp
  | @skip start id skipped hmem next ih =>
    have hid := ahead_skip hmem next
    rw [List.mem_cons, ih]
    by_cases heq : id' = start
    · simp [heq, hid]
    · have := ahead_of_ne heq
      simp only [heq, false_or]
      omega

/-- They are in use. -/
theorem mem_of_skipped (h : t.Search start skipped id) {id' : TransactionId}
    (hs : id' ∈ skipped) : id' ∈ t.entries := by
  induction h with
  | found => cases hs
  | skip hmem _ ih =>
    rcases List.mem_cons.1 hs with rfl | hs
    · exact hmem
    · exact ih hs

/-- An id that is not skipped is not in front of the one that is found. -/
theorem ahead_le_of_not_mem (h : t.Search start skipped id) {id' : TransactionId}
    (hs : id' ∉ skipped) : ahead start id ≤ ahead start id' :=
  Nat.le_of_not_lt fun hlt => hs ((h.mem_skipped_iff id').2 hlt)

/-- So what is found is the first id that is free. -/
theorem ahead_le (h : t.Search start skipped id) {free : TransactionId} (hf : free ∉ t.entries) :
    ahead start id ≤ ahead start free :=
  h.ahead_le_of_not_mem fun hs => hf (h.mem_of_skipped hs)

/-- As many ids are skipped as the one that is found is ahead. -/
theorem length_skipped (h : t.Search start skipped id) : skipped.length = ahead start id := by
  induction h with
  | found => simp
  | skip hmem next ih => rw [List.length_cons, ih, ahead_skip hmem next]

end Search

/-- The search ends if there is a free id, which is ahead of its start. -/
theorem exists_search_of_free {free : TransactionId} (hf : free ∉ t.entries)
    (start : TransactionId) : ∃ skipped id, t.Search start skipped id := by
  induction hn : ahead start free generalizing start with
  | zero =>
    obtain rfl : free = start := TransactionId.eq_of_ahead_eq (hn.trans (ahead_self start).symm)
    exact ⟨[], free, .found hf⟩
  | succ n ih =>
    by_cases hmem : start ∈ t.entries
    · have hne : free ≠ start := fun heq => hf (heq ▸ hmem)
      have hnext := ahead_of_ne hne
      obtain ⟨skipped, id, next⟩ := ih (start + 1) (by omega)
      exact ⟨start :: skipped, id, .skip hmem next⟩
    · exact ⟨[], start, .found hmem⟩

/-- A table that is not full lacks an id. -/
theorem exists_not_mem (h : t.entries.size < capacity) : ∃ id : TransactionId, id ∉ t.entries := by
  refine Classical.byContradiction fun hall => ?_
  -- the table would have all ids among its keys
  have hsub : List.range capacity ⊆ t.entries.keys.map (·.toNat) := by
    intro n hn
    have hmem : UInt16.ofNat n ∈ t.entries := Classical.byContradiction fun hid => hall ⟨_, hid⟩
    have hnat := TransactionId.toNat_ofNat (List.mem_range.1 hn)
    exact List.mem_map.2 ⟨UInt16.ofNat n, Std.TreeMap.mem_keys.2 hmem, hnat⟩
  have hlength := List.nodup_range.length_le_of_subset hsub
  rw [List.length_range, List.length_map, Std.TreeMap.length_keys] at hlength
  exact Nat.not_le.2 h hlength

/-- A table with all ids is full. -/
theorem size_eq_capacity (h : ∀ id : TransactionId, id ∈ t.entries) :
    t.entries.size = capacity := by
  refine Nat.le_antisymm t.size_le_capacity (Nat.le_of_not_lt fun hroom => ?_)
  obtain ⟨id, hid⟩ := exists_not_mem hroom
  exact hid (h id)

/-- A table that lacks an id is not full. -/
theorem size_lt_capacity (h : id ∉ t.entries) : t.entries.size < capacity := by
  have hle := size_le_capacity (t.enter id id)
  rwa [size_enter_of_not_mem h] at hle

/-- The search for a free id ends if the table is not full. -/
theorem exists_search (h : t.entries.size < capacity) (start : TransactionId) :
    ∃ skipped id, t.Search start skipped id := by
  obtain ⟨free, hf⟩ := exists_not_mem h
  exact exists_search_of_free hf start

/-- A search among a number of ids finds what the search finds that may go on, if it is one of
these. -/
theorem firstFree_eq_some_iff : t.firstFree start n = some id ↔
    ∃ skipped, t.Search start skipped id ∧ skipped.length < n := by
  induction n generalizing start with
  | zero => simp [firstFree]
  | succ n ih =>
    rw [firstFree]
    split <;> rename_i hmem
    · rw [ih]
      constructor
      · rintro ⟨skipped, next, hlt⟩
        exact ⟨start :: skipped, .skip hmem next, Nat.succ_lt_succ hlt⟩
      · rintro ⟨skipped, h, hlt⟩
        cases h with
        | found hnot => exact absurd hmem hnot
        | skip _ next => exact ⟨_, next, Nat.lt_of_succ_lt_succ hlt⟩
    · constructor
      · intro h
        cases h
        exact ⟨[], .found hmem, Nat.succ_pos n⟩
      · rintro ⟨skipped, h, -⟩
        cases h with
        | found => rfl
        | skip hmem' => exact absurd hmem' hmem

/-- All ids are searched. -/
theorem firstFree_eq_of_search (h : t.Search start skipped id) :
    t.firstFree start capacity = some id :=
  firstFree_eq_some_iff.2 ⟨skipped, h, h.length_skipped ▸ ahead_lt start id⟩

/-- An id that is the next one and not in use is handed out. -/
theorem allocate_eq (hc : t.closed = none) (h : t.nextId ∉ t.entries) :
    t.allocate = .ok (t.nextId, t.enter t.nextId (t.nextId + 1)) := by
  rw [allocate, hc]
  dsimp only
  rw [if_neg (Nat.not_le.2 (size_lt_capacity h)), firstFree_eq_of_search (.found h)]

/-- The ids with the numbers in a range are pending, each for the allocation with its number, and no
others are in use. -/
def Consecutive (t : Table) (m n : Nat) : Prop :=
  ∀ id : TransactionId, t.entries[id]? =
    if m ≤ id.toNat ∧ id.toNat < n then some (.pending id.toNat) else none

/-- The id behind them is free. -/
theorem Consecutive.not_mem {m : Nat} (h : t.Consecutive m n) (hn : n < capacity) :
    UInt16.ofNat n ∉ t.entries := by
  refine not_mem_of_none ?_
  rw [h, TransactionId.toNat_ofNat hn, if_neg fun hlt => Nat.lt_irrefl n hlt.2]

/-- It is handed out next. -/
theorem Consecutive.enter {m : Nat} {next : TransactionId} (h : t.Consecutive m n) (hmn : m ≤ n)
    (hn : n < capacity) (hserial : t.nextSerial = n) :
    (t.enter (UInt16.ofNat n) next).Consecutive m (n + 1) := by
  intro id
  rw [getElem?_enter, h, hserial]
  by_cases heq : UInt16.ofNat n = id
  · subst heq
    rw [if_pos rfl, TransactionId.toNat_ofNat hn, if_pos ⟨hmn, Nat.lt_succ_self n⟩]
  · have hne : id.toNat ≠ n := fun hid => heq (by rw [← hid, UInt16.ofNat_toNat])
    have hiff : m ≤ id.toNat ∧ id.toNat < n + 1 ↔ m ≤ id.toNat ∧ id.toNat < n := by omega
    rw [if_neg heq]
    simp only [hiff]

/-! ## Abandoned ids -/

/-- Of the best entry so far and another one, the abandoned one with the smaller serial. -/
def older (best : Option (Serial × TransactionId)) (id : TransactionId) (e : Entry) :
    Option (Serial × TransactionId) :=
  match e, best with
  | .pending _, _ => best
  | .abandoned serial, none => some (serial, id)
  | .abandoned serial, some (least, _) => if serial < least then some (serial, id) else best

/-- What has been found among entries: nothing if none of them is abandoned, and otherwise the
abandoned one with the smallest serial. -/
def IsOldest (l : List (TransactionId × Entry)) : Option (Serial × TransactionId) → Prop
  | none => ∀ id serial, (id, Entry.abandoned serial) ∉ l
  | some (least, id) => (id, .abandoned least) ∈ l ∧
      ∀ id' serial, (id', Entry.abandoned serial) ∈ l → least ≤ serial

/-- One more entry is looked at. -/
theorem IsOldest.concat {l : List (TransactionId × Entry)}
    {best : Option (Serial × TransactionId)} (h : IsOldest l best) (id : TransactionId)
    (e : Entry) :
    IsOldest (l ++ [(id, e)]) (older best id e) := by
  cases e with
  | pending serial =>
    cases best with
    | none => simpa [IsOldest, older] using h
    | some b => simpa [IsOldest, older] using h
  | abandoned serial =>
    cases best with
    | none =>
      refine ⟨by simp, fun id' serial' hmem => ?_⟩
      rcases List.mem_append.1 hmem with hold | hnew
      · exact absurd hold (h id' serial')
      · cases List.mem_singleton.1 hnew
        exact Nat.le_refl serial
    | some b =>
      obtain ⟨least, oldest⟩ := b
      obtain ⟨hfound, hleast⟩ := h
      have hall {bound : Serial} (hb : bound ≤ least) (hs : bound ≤ serial) (id' : TransactionId)
          (serial' : Serial)
          (hmem : (id', Entry.abandoned serial') ∈ l ++ [(id, .abandoned serial)]) :
          bound ≤ serial' := by
        rcases List.mem_append.1 hmem with hold | hnew
        · exact Nat.le_trans hb (hleast id' serial' hold)
        · cases List.mem_singleton.1 hnew
          exact hs
      simp only [older]
      split <;> rename_i hlt
      · exact ⟨by simp, hall (Nat.le_of_lt hlt) (Nat.le_refl serial)⟩
      · exact ⟨List.mem_append_left _ hfound, hall (Nat.le_refl least) (Nat.le_of_not_lt hlt)⟩

/-- Any number of entries is looked at. -/
theorem IsOldest.foldl {l : List (TransactionId × Entry)} {best : Option (Serial × TransactionId)}
    (h : IsOldest l best) (l' : List (TransactionId × Entry)) :
    IsOldest (l ++ l') (l'.foldl (fun best p => older best p.1 p.2) best) := by
  induction l' generalizing l best with
  | nil => simpa using h
  | cons p l' ih => simpa using ih (h.concat p.1 p.2)

theorem exists_isOldest (t : Table) : ∃ best, t.oldestAbandoned = best.map (·.2) ∧
    IsOldest t.entries.toList best := by
  have hnone : IsOldest [] none := fun _ _ => List.not_mem_nil
  refine ⟨t.entries.foldl older none, rfl, ?_⟩
  rw [Std.TreeMap.foldl_eq_foldl_toList]
  exact hnone.foldl t.entries.toList

/-- What is reclaimed is the abandoned id with the smallest serial. -/
theorem oldestAbandoned_inv (h : t.oldestAbandoned = some id) :
    ∃ serial, t.entries[id]? = some (.abandoned serial) ∧
      ∀ (id' : TransactionId) (serial' : Serial),
        t.entries[id']? = some (.abandoned serial') → serial ≤ serial' := by
  obtain ⟨best, hbest, holdest⟩ := t.exists_isOldest
  obtain ⟨⟨serial, id⟩, rfl, rfl⟩ := Option.map_eq_some_iff.1 (hbest.symm.trans h)
  obtain ⟨hfound, hleast⟩ := holdest
  refine ⟨serial, Std.TreeMap.mem_toList_iff_getElem?_eq_some.1 hfound, fun id' serial' he => ?_⟩
  exact hleast id' serial' (Std.TreeMap.mem_toList_iff_getElem?_eq_some.2 he)

/-- Nothing can be reclaimed if and only if no id is abandoned. -/
theorem oldestAbandoned_eq_none_iff : t.oldestAbandoned = none ↔
    ∀ (id : TransactionId) (serial : Serial), t.entries[id]? ≠ some (.abandoned serial) := by
  constructor
  · intro h id serial he
    obtain ⟨best, hbest, holdest⟩ := t.exists_isOldest
    obtain rfl := Option.map_eq_none_iff.1 (hbest.symm.trans h)
    exact holdest id serial (Std.TreeMap.mem_toList_iff_getElem?_eq_some.2 he)
  · intro h
    refine Option.eq_none_iff_forall_ne_some.2 fun id hid => ?_
    obtain ⟨serial, he, -⟩ := oldestAbandoned_inv hid
    exact h id serial he

end Table

end Modbus
