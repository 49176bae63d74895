import Modbus.Proofs.Transaction.Closure

/-!
# Which id is handed out

An allocation has four outcomes, and the state of the table decides which one it is
(`Desk.allocates_by_state`). If there is a free id, the first one from the counter on is handed out,
and the counter goes on behind it. If all ids are in use, an abandoned one is handed out anew, and
the counter stays where it is. If nothing is abandoned, or the table has been closed, the allocation
fails, and nothing changes.

So a fresh desk hands out the ids in ascending order until all are in use
(`Desk.ascends_replicate`).
-/

namespace Modbus

open TransactionId (ahead)

namespace Table

variable {t : Table} {id next : TransactionId}

/-- An open table that is not full hands out what the search for a free id finds. -/
theorem allocate_of_room (hopen : t.closed = none) (hroom : t.entries.size < capacity) :
    ∃ skipped id, t.Search t.nextId skipped id ∧ t.allocate = .ok (id, t.enter id (id + 1)) := by
  obtain ⟨skipped, id, h⟩ := exists_search hroom t.nextId
  refine ⟨skipped, id, h, ?_⟩
  rw [allocate, hopen]
  dsimp only
  rw [if_neg (Nat.not_le.2 hroom), firstFree_eq_of_search h]

/-- An open table that is full hands out the abandoned id with the smallest serial. -/
theorem allocate_of_abandoned (hopen : t.closed = none) (hfull : t.entries.size = capacity)
    (habandoned : ∃ (id : TransactionId) (serial : Serial),
      t.entries[id]? = some (.abandoned serial)) :
    ∃ (id : TransactionId) (serial : Serial), t.entries[id]? = some (.abandoned serial) ∧
      (∀ (id' : TransactionId) (serial' : Serial),
        t.entries[id']? = some (.abandoned serial') → serial ≤ serial') ∧
      t.allocate = .ok (id, t.enter id t.nextId) := by
  cases ho : t.oldestAbandoned with
  | none =>
    obtain ⟨id, serial, he⟩ := habandoned
    exact absurd he (oldestAbandoned_eq_none_iff.1 ho id serial)
  | some id =>
    obtain ⟨serial, he, hleast⟩ := oldestAbandoned_inv ho
    refine ⟨id, serial, he, hleast, ?_⟩
    rw [allocate, hopen]
    dsimp only
    rw [if_pos (Nat.le_of_eq hfull.symm), ho]

/-- An open table whose ids are all pending hands out none. -/
theorem allocate_of_pending (hopen : t.closed = none)
    (hall : ∀ id : TransactionId, ∃ serial, t.entries[id]? = some (.pending serial)) :
    t.allocate = .error (.protocol .transactionIdsExhausted) := by
  have hfull : capacity ≤ t.entries.size := by
    refine Nat.le_of_eq (size_eq_capacity fun id => ?_).symm
    obtain ⟨serial, he⟩ := hall id
    exact mem_of_entry he
  have hnone : t.oldestAbandoned = none := by
    refine oldestAbandoned_eq_none_iff.2 fun id serial he => ?_
    obtain ⟨serial', he'⟩ := hall id
    rw [he] at he'
    cases he'
  rw [allocate, hopen]
  dsimp only
  rw [if_pos hfull, hnone]

/-- The ids of a full table are abandoned or pending. -/
theorem abandoned_or_pending (hfull : t.entries.size = capacity) :
    (∃ (id : TransactionId) (serial : Serial), t.entries[id]? = some (.abandoned serial)) ∨
      ∀ id : TransactionId, ∃ serial, t.entries[id]? = some (.pending serial) := by
  refine Classical.or_iff_not_imp_left.2 fun hnone id => ?_
  cases he : t.entries[id]? with
  | none => exact absurd hfull (Nat.ne_of_lt (size_lt_capacity (not_mem_of_none he)))
  | some e =>
    cases e with
    | pending serial => exact ⟨serial, rfl⟩
    | abandoned serial => exact absurd ⟨id, serial, he⟩ hnone

end Table

namespace Desk

variable {d d' : Desk} {actions : List DeskAction} {n : Nat} {id next : TransactionId}
  {reason : Fault}

/-- What the table hands out is issued as a ticket. -/
theorem allocate_eq_ok {table : Table} (h : d.table.allocate = .ok (id, table)) :
    d.allocate = .ok (d.table.nextSerial, { id },
      ⟨table, d.tickets.insert d.table.nextSerial { id }⟩) := by
  simp only [allocate, h, bind, Except.bind, pure, Except.pure]

/-- What the table refuses is refused. -/
theorem allocate_eq_error {e : Error} (h : d.table.allocate = .error e) :
    d.allocate = .error e := by
  simp only [allocate, h, bind, Except.bind]

/-- An allocation that fails changes nothing. -/
theorem act_allocate_of_error {e : Error} (h : d.allocate = .error e) : d.act .allocate = d := by
  rw [act, h]

/-- An allocation hands out an id, which is pending then, with a new ticket. No other id and no
other ticket is affected. -/
structure HandsOut (d : Desk) (id next : TransactionId) (d' : Desk) : Prop where
  allocate : d.allocate = .ok (d.table.nextSerial, { id }, d')
  act : d.act .allocate = d'
  nextId : d'.table.nextId = next
  nextSerial : d'.table.nextSerial = d.table.nextSerial + 1
  closed : d'.table.closed = d.table.closed
  pending : d'.table.entries[id]? = some (.pending d.table.nextSerial)
  entries : ∀ id' : TransactionId, id' ≠ id → d'.table.entries[id']? = d.table.entries[id']?
  ticket : d'.tickets[d.table.nextSerial]? = some { id }
  tickets : ∀ serial : Serial, serial ≠ d.table.nextSerial →
    d'.tickets[serial]? = d.tickets[serial]?

/-- What the table enters for an id is handed out by the desk. -/
theorem handsOut (h : d.table.allocate = .ok (id, d.table.enter id next)) :
    d.HandsOut id next
      ⟨d.table.enter id next, d.tickets.insert d.table.nextSerial { id }⟩ where
  allocate := allocate_eq_ok h
  act := by rw [Desk.act, allocate_eq_ok h]
  nextId := Table.nextId_enter
  nextSerial := Table.nextSerial_enter
  closed := Table.closed_enter
  pending := by rw [Table.getElem?_enter, if_pos rfl]
  entries id' hne := by rw [Table.getElem?_enter, if_neg hne.symm]
  ticket := by simp
  tickets serial hne := by simp [Std.TreeMap.getElem?_insert, hne.symm]

/-- A closed table has the first reason for which it has been closed. -/
theorem closesAt_of_closed (h : (after actions n).table.closed = some reason) :
    ∃ j < n, ClosesAt actions j reason := by
  have hcloses : ∃ k < n, ∃ later, actions[k]? = some (.close later) := by
    refine Classical.byContradiction fun hnone => ?_
    rw [open_of_not_closed fun k hk later ha => hnone ⟨k, hk, later, ha⟩] at h
    cases h
  obtain ⟨k, hk, later, ha⟩ := hcloses
  obtain ⟨j, hj, first, hfirst⟩ := exists_closesAt ha
  have hlt : j < n := Nat.lt_of_le_of_lt hj hk
  rw [hfirst.table hlt] at h
  cases h
  exact ⟨j, hlt, hfirst⟩

/-- What an allocation does to a desk, after the first actions of a run. -/
structure Allocates (actions : List DeskAction) (n : Nat) (d : Desk) : Prop where
  /-- If not all ids are in use, the search from the counter on ends at the first free id. This id
  is handed out, and the counter goes on behind it. -/
  room : d.table.closed = none → d.table.entries.size < Table.capacity →
    ∃ skipped id d', d.table.Search d.table.nextId skipped id ∧ id ∉ d.table.entries ∧
      (∀ free : TransactionId, free ∉ d.table.entries →
        ahead d.table.nextId id ≤ ahead d.table.nextId free) ∧
      d.HandsOut id (id + 1) d' ∧ d'.table.entries.size = d.table.entries.size + 1
  /-- If all ids are in use and some of them are abandoned, one of these is handed out, and the
  counter stays where it is. -/
  reclaim : d.table.closed = none → d.table.entries.size = Table.capacity →
    (∃ (id : TransactionId) (serial : Serial),
      d.table.entries[id]? = some (.abandoned serial)) →
    ∃ (id : TransactionId) (serial : Serial) (d' : Desk),
      d.table.entries[id]? = some (.abandoned serial) ∧ d.HandsOut id d.table.nextId d' ∧
        d'.table.entries.size = d.table.entries.size
  /-- If all ids are pending, the allocation fails. -/
  exhausted : d.table.closed = none →
    (∀ id : TransactionId, ∃ serial, d.table.entries[id]? = some (.pending serial)) →
    d.allocate = .error (.protocol .transactionIdsExhausted) ∧ d.act .allocate = d
  /-- If the table has been closed, it fails with the first reason for that. -/
  closed : ∀ reason, d.table.closed = some reason →
    (∃ j < n, ClosesAt actions j reason) ∧ d.allocate = .error (.transport reason) ∧
      d.act .allocate = d
  /-- There is no other case. -/
  cases : d.table.closed.isSome ∨ d.table.entries.size < Table.capacity ∨
    d.table.entries.size = Table.capacity ∧
      ((∃ (id : TransactionId) (serial : Serial),
        d.table.entries[id]? = some (.abandoned serial)) ∨
          ∀ id : TransactionId, ∃ serial, d.table.entries[id]? = some (.pending serial))

/-- **An allocation hands out the first free id**, or an abandoned one if none is free, or fails, in
every state of every run. -/
theorem allocates_by_state (actions : List DeskAction) (n : Nat) :
    Allocates actions n (after actions n) := by
  generalize hd : after actions n = d
  constructor
  case room =>
    intro hopen hroom
    obtain ⟨skipped, id, hsearch, hok⟩ := Table.allocate_of_room hopen hroom
    refine ⟨skipped, id, _, hsearch, hsearch.not_mem, ?_, handsOut hok, ?_⟩
    · intro free hfree
      exact hsearch.ahead_le hfree
    · exact Table.size_enter_of_not_mem hsearch.not_mem
  case reclaim =>
    intro hopen hfull habandoned
    obtain ⟨id, serial, he, -, hok⟩ := Table.allocate_of_abandoned hopen hfull habandoned
    exact ⟨id, serial, _, he, handsOut hok, Table.size_enter_of_mem (Table.mem_of_entry he)⟩
  case exhausted =>
    intro hopen hall
    have herror := allocate_eq_error (Table.allocate_of_pending hopen hall)
    exact ⟨herror, act_allocate_of_error herror⟩
  case closed =>
    intro reason hclosed
    have herror := allocate_of_closed hclosed
    exact ⟨closesAt_of_closed (hd ▸ hclosed), herror, act_allocate_of_error herror⟩
  case cases =>
    rcases Nat.lt_or_eq_of_le d.table.size_le_capacity with hroom | hfull
    · exact .inr (.inl hroom)
    · exact .inr (.inr ⟨hfull, Table.abandoned_or_pending hfull⟩)

/-! ## The first allocations -/

/-- A desk at which nothing has been done but to issue a number of tickets. -/
structure Ascends (d : Desk) (n : Nat) : Prop where
  closed : d.table.closed = none
  nextId : d.table.nextId = UInt16.ofNat n
  nextSerial : d.table.nextSerial = n
  size : d.table.entries.size = n
  entries : d.table.Consecutive 0 n
  tickets : ∀ serial : Serial,
    d.tickets[serial]? = if serial < n then some { id := UInt16.ofNat serial } else none

/-- A new desk has handed out nothing. -/
theorem Ascends.initial : Ascends {} 0 where
  closed := rfl
  nextId := rfl
  nextSerial := rfl
  size := rfl
  entries id := by simp
  tickets serial := by simp

/-- At last all ids are pending. -/
theorem Ascends.pending (h : Ascends d Table.capacity) (id : TransactionId) :
    d.table.entries[id]? = some (.pending id.toNat) := by
  rw [h.entries, if_pos ⟨Nat.zero_le _, TransactionId.toNat_lt_capacity id⟩]

/-- As long as there is room, the next ticket has the next id. -/
theorem Ascends.allocate (h : Ascends d n) (hn : n < Table.capacity) :
    ∃ d', d.HandsOut (UInt16.ofNat n) (UInt16.ofNat n + 1) d' ∧ Ascends d' (n + 1) := by
  have hfree : UInt16.ofNat n ∉ d.table.entries := h.entries.not_mem hn
  have hok := Table.allocate_eq h.closed (h.nextId ▸ hfree)
  rw [h.nextId] at hok
  have hout := handsOut hok
  refine ⟨_, hout, ?_⟩
  constructor
  case closed => rw [hout.closed, h.closed]
  case nextId => rw [hout.nextId, UInt16.ofNat_add]; rfl
  case nextSerial => rw [hout.nextSerial, h.nextSerial]
  case size => exact (Table.size_enter_of_not_mem hfree).trans (congrArg (· + 1) h.size)
  case entries => exact h.entries.enter (Nat.zero_le n) hn h.nextSerial
  case tickets =>
    intro serial
    by_cases heq : serial = n
    · have hlt : serial < n + 1 := Nat.lt_succ_of_le (Nat.le_of_eq heq)
      have hnext : serial = d.table.nextSerial := heq.trans h.nextSerial.symm
      rw [if_pos hlt, hnext, hout.ticket, h.nextSerial]
    · have hiff : serial < n + 1 ↔ serial < n :=
        ⟨fun hlt => Nat.lt_of_le_of_ne (Nat.le_of_lt_succ hlt) heq, Nat.lt_succ_of_lt⟩
      rw [hout.tickets serial (h.nextSerial ▸ heq), h.tickets]
      simp only [hiff]

/-- A fresh desk hands out the ids in ascending order, until all of them are in use. -/
theorem ascends_replicate (hn : n ≤ Table.capacity) :
    Ascends (run {} (List.replicate n .allocate)) n := by
  induction n with
  | zero => exact .initial
  | succ n ih =>
    obtain ⟨d', hout, h⟩ := (ih (Nat.le_of_succ_le hn)).allocate hn
    rw [List.replicate_succ', run, List.foldl_append]
    change Ascends ((run {} (List.replicate n .allocate)).act .allocate) (n + 1)
    rw [hout.act]
    exact h

/-- A run that begins with as many allocations as there are ids. -/
def afterFull (more : List DeskAction) : List DeskAction :=
  List.replicate Table.capacity .allocate ++ more

variable {more : List DeskAction}

/-- The first actions are as many allocations as there are ids. -/
theorem getElem?_afterFull (hn : n < Table.capacity) : (afterFull more)[n]? = some .allocate := by
  have hlt : n < (List.replicate Table.capacity DeskAction.allocate).length := by
    rwa [List.length_replicate]
  rw [afterFull, List.getElem?_append_left hlt, List.getElem?_replicate, if_pos hn]

/-- Other actions come behind them. -/
theorem getElem?_afterFull_add (k : Nat) :
    (afterFull more)[Table.capacity + k]? = more[k]? := by
  have hle : (List.replicate Table.capacity DeskAction.allocate).length ≤ Table.capacity + k := by
    rw [List.length_replicate]
    exact Nat.le_add_right _ k
  rw [afterFull, List.getElem?_append_right hle, List.length_replicate, Nat.add_sub_cancel_left]

/-- Until then each of them issues the next ticket for the next id. -/
theorem ascends_afterFull (hn : n ≤ Table.capacity) : Ascends (after (afterFull more) n) n := by
  rw [after, afterFull, List.take_append_of_le_length (by rwa [List.length_replicate]),
    List.take_replicate, Nat.min_eq_left hn]
  exact ascends_replicate hn

/-- Each of these allocations issues the next id. -/
theorem issuesAt_afterFull (hn : n < Table.capacity) :
    IssuesAt (afterFull more) n n (UInt16.ofNat n) := by
  have h : Ascends (after (afterFull more) n) n := ascends_afterFull (Nat.le_of_lt hn)
  obtain ⟨d', hout, -⟩ := h.allocate hn
  have hok := hout.allocate
  rw [h.nextSerial] at hok
  exact ⟨getElem?_afterFull hn, _, d', hok, rfl⟩

end Desk

end Modbus
