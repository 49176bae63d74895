import Modbus.Transaction.Desk

/-!
# What the operations of a desk change

One lemma for each operation of a table or a desk, which says everything that the operation can do
to the entries and to the tickets. Runs of a desk are reasoned about through these lemmas alone:
`Table.allocate_inv` and `Desk.allocate_inv` for the two ways in which an id is found,
`Table.getElem?_release` for a ticket that is given up, `Desk.getElem?_resolve` and
`Desk.getElem?_close` for the deliveries.
-/

namespace Modbus

namespace Table

variable {t t' : Table} {id next : TransactionId} {serial : Serial}

/-- An id with an entry is in use. -/
theorem mem_of_entry {e : Entry} (h : t.entries[id]? = some e) : id ∈ t.entries := by
  rw [Std.TreeMap.mem_iff_isSome_getElem?, h]
  rfl

/-- An id without an entry is free. -/
theorem not_mem_of_none (h : t.entries[id]? = none) : id ∉ t.entries := by
  rw [Std.TreeMap.mem_iff_isSome_getElem?, h]
  exact Bool.false_ne_true

/-- The entries after an id has been handed out. -/
@[simp] theorem getElem?_enter (id' : TransactionId) :
    (t.enter id next).entries[id']? =
      if id = id' then some (.pending t.nextSerial) else t.entries[id']? := by
  simp [enter, Std.TreeMap.getElem?_insert]

/-- A free id that is handed out is one more in use. -/
theorem size_enter_of_not_mem (h : id ∉ t.entries) :
    (t.enter id next).entries.size = t.entries.size + 1 := by
  rw [enter, Std.TreeMap.size_insert, if_neg (by rwa [← Std.TreeMap.mem_iff_contains])]

/-- An id that is handed out anew has been in use before. -/
theorem size_enter_of_mem (h : id ∈ t.entries) :
    (t.enter id next).entries.size = t.entries.size := by
  rw [enter, Std.TreeMap.size_insert, if_pos (by rwa [← Std.TreeMap.mem_iff_contains])]

@[simp] theorem closed_enter : (t.enter id next).closed = t.closed := rfl

@[simp] theorem nextSerial_enter : (t.enter id next).nextSerial = t.nextSerial + 1 := rfl

@[simp] theorem nextId_enter : (t.enter id next).nextId = next := rfl

/-- What has been looked for and found is an id that is not in use. -/
theorem not_mem_of_firstFree {start : TransactionId} {n : Nat}
    (h : t.firstFree start n = some id) : id ∉ t.entries := by
  induction n generalizing start with
  | zero => cases h
  | succ n ih =>
    rw [firstFree] at h
    split at h
    · exact ih h
    · cases h
      assumption

/-- An id is handed out only by an open table. If there is an id that is not in use, it is one of
these; otherwise it is taken from an abandoned entry. -/
theorem allocate_inv (h : t.allocate = .ok (id, t')) :
    t.closed = none ∧
      (capacity ≤ t.entries.size ∧ t.oldestAbandoned = some id ∧ t' = t.enter id t.nextId ∨
        t.entries.size < capacity ∧ t.firstFree t.nextId capacity = some id ∧
          t' = t.enter id (id + 1)) := by
  unfold allocate at h
  cases hc : t.closed with
  | some reason => simp [hc] at h
  | none =>
    refine ⟨rfl, ?_⟩
    simp only [hc] at h
    split at h
    · rename_i hfull
      cases ho : t.oldestAbandoned with
      | none => simp [ho] at h
      | some id' =>
        simp only [ho] at h
        cases h
        exact .inl ⟨hfull, rfl, rfl⟩
    · rename_i hroom
      cases hf : t.firstFree t.nextId capacity with
      | none => simp [hf] at h
      | some id' =>
        simp only [hf] at h
        cases h
        exact .inr ⟨Nat.lt_of_not_le hroom, rfl, rfl⟩

/-- Whatever id is handed out, the table afterwards is that of `enter`. -/
theorem eq_enter_of_allocate (h : t.allocate = .ok (id, t')) : ∃ next, t' = t.enter id next := by
  rcases (allocate_inv h).2 with ⟨-, -, rfl⟩ | ⟨-, -, rfl⟩ <;> exact ⟨_, rfl⟩

/-- The entries after an allocation has been given up. -/
theorem getElem?_release (sent : Bool) (id' : TransactionId) :
    (t.release id serial sent).entries[id']? =
      if id = id' ∧ t.entries[id]? = some (.pending serial) then
        if sent then some (.abandoned serial) else none
      else t.entries[id']? := by
  unfold release
  split <;> rename_i hp
  · by_cases hid : id = id'
    · subst hid
      cases sent <;> simp [hp]
    · cases sent <;> simp [hid, Std.TreeMap.getElem?_insert, Std.TreeMap.getElem?_erase]
  · simp [hp]

@[simp] theorem closed_release (sent : Bool) : (t.release id serial sent).closed = t.closed := by
  unfold release
  split <;> rfl

@[simp] theorem nextSerial_release (sent : Bool) :
    (t.release id serial sent).nextSerial = t.nextSerial := by
  unfold release
  split <;> rfl

@[simp] theorem nextId_release (sent : Bool) : (t.release id serial sent).nextId = t.nextId := by
  unfold release
  split <;> rfl

/-- The entries after a response has come. -/
@[simp] theorem getElem?_resolve (id' : TransactionId) :
    (t.resolve id).1.entries[id']? = if id = id' then none else t.entries[id']? := by
  unfold resolve
  split <;> rename_i he
  · by_cases hid : id = id'
    · rw [if_pos hid, ← hid, he]
    · rw [if_neg hid]
  · simp [Std.TreeMap.getElem?_erase]

@[simp] theorem closed_resolve : (t.resolve id).1.closed = t.closed := by
  unfold resolve
  split <;> rfl

@[simp] theorem nextSerial_resolve : (t.resolve id).1.nextSerial = t.nextSerial := by
  unfold resolve
  split <;> rfl

@[simp] theorem nextId_resolve : (t.resolve id).1.nextId = t.nextId := by
  unfold resolve
  split <;> rfl

/-- A response is passed on to the allocation whose entry is pending, and to no other. -/
theorem resolve_snd_eq_some : (t.resolve id).2 = some serial ↔
    t.entries[id]? = some (.pending serial) := by
  unfold resolve
  split <;> rename_i he
  · simp [he]
  · rename_i e
    cases e <;> simp [he, Entry.pending?]

end Table

namespace Desk

variable {d d' : Desk} {serial : Serial} {ticket : Ticket}

/-- A serial is held if and only if there is a ticket with it. -/
theorem held_iff : serial ∈ d.tickets ↔ ∃ ticket, d.tickets[serial]? = some ticket := by
  rw [Std.TreeMap.mem_iff_isSome_getElem?, Option.isSome_iff_exists]

/-- A ticket is issued under the next serial, for the id that the table hands out. -/
theorem allocate_inv (h : d.allocate = .ok (serial, ticket, d')) :
    ∃ table, d.table.allocate = .ok (ticket.id, table) ∧ serial = d.table.nextSerial ∧
      ticket = { id := ticket.id } ∧ d' = ⟨table, d.tickets.insert serial ticket⟩ := by
  unfold allocate at h
  cases ha : d.table.allocate with
  | error e => simp [ha, bind, Except.bind] at h
  | ok r =>
    obtain ⟨id, table⟩ := r
    simp only [ha, bind, Except.bind, pure, Except.pure] at h
    cases h
    exact ⟨table, rfl, rfl, rfl, rfl⟩

/-- No ticket is issued when the table has been closed. -/
theorem allocate_of_closed {reason : Fault} (h : d.table.closed = some reason) :
    d.allocate = .error (.transport reason) := by
  simp [allocate, Table.allocate, h, bind, Except.bind]

/-- No ticket is issued because the table has been closed, or because all ids are in use. -/
theorem allocate_error_inv {e : Error} (h : d.allocate = .error e) :
    (∃ reason, d.table.closed = some reason ∧ e = .transport reason) ∨
      e = .protocol .transactionIdsExhausted := by
  cases hc : d.table.closed with
  | some reason =>
    rw [allocate_of_closed hc] at h
    cases h
    exact .inl ⟨reason, rfl, rfl⟩
  | none =>
    cases ha : d.table.allocate with
    | ok r => simp [allocate, ha, bind, Except.bind, pure, Except.pure] at h
    | error e' =>
      obtain rfl : e' = e := by simpa [allocate, ha, bind, Except.bind] using h
      simp only [Table.allocate, hc] at ha
      split at ha <;> split at ha <;> cases ha <;> exact .inr rfl

/-- The table does not change with what is noted on a ticket. -/
@[simp] theorem table_modify (f : Ticket → Ticket) : (d.modify serial f).table = d.table := by
  unfold modify
  split <;> rfl

/-- The tickets after one of them has been changed. -/
theorem getElem?_modify (f : Ticket → Ticket) (serial' : Serial) :
    (d.modify serial f).tickets[serial']? =
      if serial = serial' then d.tickets[serial']?.map f else d.tickets[serial']? := by
  unfold modify
  split <;> rename_i ht
  · by_cases hs : serial = serial'
    · rw [if_pos hs, ← hs, ht]
      rfl
    · rw [if_neg hs]
  · by_cases hs : serial = serial'
    · subst hs
      simp [ht]
    · simp [hs, Std.TreeMap.getElem?_insert]

/-- That a request has been sent is noted on its ticket only. -/
@[simp] theorem table_markSent : (d.markSent serial).table = d.table := table_modify _

/-- A delivery is put on a ticket only. -/
@[simp] theorem table_deliver (delivery : Delivery) : (d.deliver delivery serial).table = d.table :=
  table_modify _

/-- The tickets after one has been dropped. -/
theorem getElem?_drop (serial' : Serial) :
    (d.drop serial).tickets[serial']? =
      if serial = serial' then none else d.tickets[serial']? := by
  unfold drop
  split <;> rename_i ht
  · by_cases hs : serial = serial'
    · rw [if_pos hs, ← hs, ht]
    · rw [if_neg hs]
  · simp [Std.TreeMap.getElem?_erase]

/-- The table after a ticket has been dropped. -/
theorem table_drop (h : d.tickets[serial]? = some ticket) :
    (d.drop serial).table = d.table.release ticket.id serial ticket.isSent := by
  simp [drop, h]

/-- Dropping a ticket that is not held does nothing. -/
theorem drop_of_none (h : d.tickets[serial]? = none) : d.drop serial = d := by
  simp [drop, h]

/-- What the holder of a ticket finds is a frame if and only if it has been delivered. -/
theorem outlook?_eq_ready {delivery : Delivery} :
    d.outlook? serial = some (.ready delivery) ↔
      ∃ ticket, d.tickets[serial]? = some ticket ∧ ticket.delivery = some delivery := by
  unfold outlook?
  cases ht : d.tickets[serial]? with
  | none => simp
  | some ticket =>
    cases hd : ticket.delivery with
    | some delivery' => simp [hd]
    | none =>
      simp only [Option.map_some, hd, Option.some.injEq, exists_eq_left', reduceCtorEq, iff_false]
      split <;> simp

/-- A reply stays on its ticket when another ticket is dropped. -/
theorem ready_drop {serial' : Serial} {delivery : Delivery}
    (h : d.outlook? serial = some (.ready delivery)) (hs : serial' ≠ serial) :
    (d.drop serial').outlook? serial = some (.ready delivery) := by
  rw [outlook?_eq_ready] at *
  rwa [getElem?_drop, if_neg hs]

/-- The table of a desk that receives a frame. -/
theorem table_resolve (f : Frame) :
    (d.resolve f).table = (d.table.resolve f.header.transaction).1 := by
  unfold resolve
  split <;> rename_i h <;> simp [h]

/-- The tickets of a desk that receives a frame: it is put on the one whose entry is pending. -/
theorem getElem?_resolve (f : Frame) (serial' : Serial) :
    (d.resolve f).tickets[serial']? =
      if d.table.entries[f.header.transaction]? = some (.pending serial') then
        d.tickets[serial']?.map ({ · with delivery := some (.ok f) })
      else d.tickets[serial']? := by
  simp only [← Table.resolve_snd_eq_some]
  unfold resolve
  split <;> rename_i h
  · simp [h]
  · rename_i serial
    rw [deliver, getElem?_modify]
    simp [h]

/-- Delivering one thing to several tickets. -/
theorem getElem?_foldl_deliver (delivery : Delivery) (serials : List Serial) (serial' : Serial) :
    (serials.foldl (·.deliver delivery) d).tickets[serial']? =
      if serial' ∈ serials then
        d.tickets[serial']?.map ({ · with delivery := some delivery })
      else d.tickets[serial']? := by
  induction serials generalizing d with
  | nil => simp
  | cons s serials ih =>
    rw [List.foldl_cons, ih, deliver, getElem?_modify]
    by_cases hs : s = serial'
    · subst hs
      cases d.tickets[s]? <;> simp
    · simp [hs, Ne.symm hs]

/-- Such deliveries do not touch the table. -/
theorem table_foldl_deliver (delivery : Delivery) (serials : List Serial) :
    (serials.foldl (·.deliver delivery) d).table = d.table := by
  induction serials generalizing d with
  | nil => rfl
  | cons s serials ih => rw [List.foldl_cons, ih, table_deliver]

/-- The table of a desk that has been closed. -/
theorem table_close (reason : Fault) : (d.close reason).table = (d.table.close reason).1 := by
  unfold close
  rw [table_foldl_deliver]

/-- The tickets of a desk that has been closed: those whose entries were pending are told the first
reason. -/
theorem getElem?_close (reason : Fault) (serial' : Serial) :
    (d.close reason).tickets[serial']? =
      if serial' ∈ (d.table.close reason).2 then
        d.tickets[serial']?.map
          ({ · with delivery := some (.error (.transport (d.table.closed.getD reason))) })
      else d.tickets[serial']? := by
  have hfirst : (d.table.close reason).1.closed.getD reason = d.table.closed.getD reason := by
    cases h : d.table.closed <;> simp [Table.close, h]
  unfold close
  rw [getElem?_foldl_deliver, hfirst]

/-! ## Actions -/

/-- Taking a delivery drops the ticket, and where there is none nothing happens. -/
theorem act_take (d : Desk) (serial : Serial) :
    d.act (.take serial) = d.drop serial ∨ d.act (.take serial) = d := by
  simp only [act]
  split
  · exact .inl rfl
  · exact .inr rfl

/-- The ways in which a ticket has come to be as it is after an action. -/
inductive TicketStep (d : Desk) (serial : Serial) : DeskAction → Ticket → Prop where
  /-- It has been issued. -/
  | issued {t : Ticket} {d' : Desk} (h : d.allocate = .ok (serial, t, d')) :
    TicketStep d serial .allocate t
  /-- It has been like that before. -/
  | kept {a : DeskAction} {t : Ticket} (h : d.tickets[serial]? = some t)
    (ha : a ≠ .markSent serial) : TicketStep d serial a t
  /-- Its holder has marked it. -/
  | marked {t : Ticket} (h : d.tickets[serial]? = some t) :
    TicketStep d serial (.markSent serial) { t with isSent := true }
  /-- A frame has been put on it. -/
  | answered {f : Frame} {t : Ticket} (h : d.tickets[serial]? = some t)
    (he : d.table.entries[f.header.transaction]? = some (.pending serial)) :
    TicketStep d serial (.resolve f) { t with delivery := some (.ok f) }
  /-- The table has been closed. -/
  | refused {reason : Fault} {t : Ticket} {e : Error} (h : d.tickets[serial]? = some t) :
    TicketStep d serial (.close reason) { t with delivery := some (.error e) }

/-- Dropping a ticket leaves the others alone. -/
theorem tickets_of_drop {serial' : Serial}
    (h : (d.drop serial').tickets[serial]? = some ticket) : d.tickets[serial]? = some ticket := by
  rw [getElem?_drop] at h
  split at h
  · cases h
  · exact h

/-- Whatever is done, a ticket that is held then has come about in one of these ways. -/
theorem ticketStep {a : DeskAction} (h : (d.act a).tickets[serial]? = some ticket) :
    TicketStep d serial a ticket := by
  cases a with
  | allocate =>
    simp only [act] at h
    split at h
    · rename_i s t d' hok
      obtain ⟨table, -, -, -, rfl⟩ := allocate_inv hok
      simp only [Std.TreeMap.getElem?_insert, Nat.compare_eq_eq] at h
      split at h
      · subst s
        cases h
        exact .issued hok
      · exact .kept h (by simp)
    · exact .kept h (by simp)
  | markSent s =>
    simp only [act, markSent, getElem?_modify] at h
    split at h
    · subst s
      obtain ⟨t, ht, rfl⟩ := Option.map_eq_some_iff.1 h
      exact .marked ht
    · exact .kept h (by simpa)
  | drop s => exact .kept (tickets_of_drop h) (by simp)
  | take s =>
    rcases act_take d s with ha | ha <;> rw [ha] at h
    · exact .kept (tickets_of_drop h) (by simp)
    · exact .kept h (by simp)
  | resolve f =>
    simp only [act, getElem?_resolve] at h
    split at h
    · obtain ⟨t, ht, rfl⟩ := Option.map_eq_some_iff.1 h
      exact .answered ht ‹_›
    · exact .kept h (by simp)
  | close reason =>
    simp only [act, getElem?_close] at h
    split at h
    · obtain ⟨t, ht, rfl⟩ := Option.map_eq_some_iff.1 h
      exact .refused ht
    · exact .kept h (by simp)

/-- The entries after a ticket has been dropped. -/
theorem entries_drop (d : Desk) (serial : Serial) (id : TransactionId) :
    (d.drop serial).table.entries[id]? = d.table.entries[id]? ∨
      ∃ ticket, d.tickets[serial]? = some ticket ∧ ticket.id = id ∧
        d.table.entries[id]? = some (.pending serial) ∧
        (d.drop serial).table.entries[id]? =
          if ticket.isSent then some (.abandoned serial) else none := by
  cases ht : d.tickets[serial]? with
  | none => exact .inl (by rw [drop_of_none ht])
  | some ticket =>
    rw [table_drop ht, Table.getElem?_release]
    split <;> rename_i hp
    · obtain ⟨rfl, hp⟩ := hp
      exact .inr ⟨ticket, rfl, rfl, hp, rfl⟩
    · exact .inl rfl

/-- A table is closed by one action only. -/
theorem closed_act {a : DeskAction} (ha : ∀ reason, a ≠ .close reason) :
    (d.act a).table.closed = d.table.closed := by
  have hdrop (serial : Serial) : (d.drop serial).table.closed = d.table.closed := by
    cases ht : d.tickets[serial]? with
    | none => rw [drop_of_none ht]
    | some ticket => rw [table_drop ht, Table.closed_release]
  cases a with
  | allocate =>
    simp only [act]
    split
    · rename_i hok
      obtain ⟨table, htable, -, -, rfl⟩ := allocate_inv hok
      obtain ⟨next, rfl⟩ := Table.eq_enter_of_allocate htable
      exact Table.closed_enter
    · rfl
  | markSent serial => simp [act]
  | drop serial => exact hdrop serial
  | take serial =>
    rcases act_take d serial with h | h <;> rw [h]
    exact hdrop serial
  | resolve f => simp [act, table_resolve]
  | close reason => exact absurd rfl (ha reason)

/-- The counters of a table are moved by one action only. -/
theorem counters_act {a : DeskAction} (ha : a ≠ .allocate) :
    (d.act a).table.nextId = d.table.nextId ∧
      (d.act a).table.nextSerial = d.table.nextSerial := by
  have hdrop (serial : Serial) : (d.drop serial).table.nextId = d.table.nextId ∧
      (d.drop serial).table.nextSerial = d.table.nextSerial := by
    cases ht : d.tickets[serial]? with
    | none =>
      rw [drop_of_none ht]
      exact ⟨rfl, rfl⟩
    | some ticket =>
      rw [table_drop ht]
      exact ⟨Table.nextId_release _, Table.nextSerial_release _⟩
  cases a with
  | allocate => exact absurd rfl ha
  | markSent serial => simp [act]
  | drop serial => exact hdrop serial
  | take serial =>
    rcases act_take d serial with h | h
    · rw [h]
      exact hdrop serial
    · rw [h]
      exact ⟨rfl, rfl⟩
  | resolve f => simp [act, table_resolve]
  | close reason => simp [act, table_close, Table.close]

/-- The ways in which an entry has come to be as it is after an action. -/
inductive EntryStep (d : Desk) (id : TransactionId) : DeskAction → Entry → Prop where
  /-- The id has been handed out. -/
  | issued {s : Serial} {t : Ticket} {d' : Desk} (h : d.allocate = .ok (s, t, d'))
    (hid : t.id = id) : EntryStep d id .allocate (.pending s)
  /-- It has been like that before. -/
  | kept {a : DeskAction} {e : Entry} (h : d.table.entries[id]? = some e) : EntryStep d id a e
  /-- Its ticket has been dropped after the request had been sent. -/
  | abandoned {a : DeskAction} {s : Serial} {t : Ticket} (ha : a = .drop s ∨ a = .take s)
    (h : d.table.entries[id]? = some (.pending s)) (ht : d.tickets[s]? = some t)
    (hid : t.id = id) (hs : t.isSent = true) : EntryStep d id a (.abandoned s)

/-- The entries that are left when a ticket is dropped or has its delivery taken. -/
theorem entryStep_of_drop {a : DeskAction} {id : TransactionId} {e : Entry}
    (ha : a = .drop serial ∨ a = .take serial)
    (h : (d.drop serial).table.entries[id]? = some e) : EntryStep d id a e := by
  rcases entries_drop d serial id with hk | ⟨t, ht, hid, hp, hr⟩
  · exact .kept (hk ▸ h)
  · rw [hr] at h
    cases hs : t.isSent <;> simp only [hs, if_true, Bool.false_eq_true, if_false] at h <;> cases h
    exact .abandoned ha hp ht hid hs

/-- Whatever is done, an entry that is in the table then has come about in one of these ways. -/
theorem entryStep {a : DeskAction} {id : TransactionId} {e : Entry}
    (h : (d.act a).table.entries[id]? = some e) : EntryStep d id a e := by
  cases a with
  | allocate =>
    simp only [act] at h
    split at h
    · rename_i s t d' hok
      obtain ⟨table, htable, rfl, -, rfl⟩ := allocate_inv hok
      obtain ⟨next, rfl⟩ := Table.eq_enter_of_allocate htable
      rw [Table.getElem?_enter] at h
      split at h
      · cases h
        exact .issued hok ‹_›
      · exact .kept h
    · exact .kept h
  | markSent s => exact .kept (by simpa [act] using h)
  | drop s => exact entryStep_of_drop (.inl rfl) h
  | take s =>
    rcases act_take d s with ha | ha <;> rw [ha] at h
    · exact entryStep_of_drop (.inr rfl) h
    · exact .kept h
  | resolve f =>
    simp only [act, table_resolve, Table.getElem?_resolve] at h
    split at h
    · cases h
    · exact .kept h
  | close reason => simp [act, table_close, Table.close] at h

end Desk

end Modbus
