import Modbus.Proofs.Transaction.Search

/-!
# Tickets and entries agree

Tickets and entries know each other only by an id and a serial. Nevertheless they agree
(`Desk.Agrees`): an entry is pending if and only if its ticket is held and has no delivery. One
lemma for each operation says that it keeps this, also when a ticket is dropped whose id has been
answered, handed out anew, abandoned or reclaimed meanwhile; `Desk.Agrees.act` is all of them in
one. It follows that nobody waits in vain for an entry that is gone
(`Desk.Agrees.outlook?_ne_severed`).
-/

namespace Modbus

namespace Table

variable {t : Table} {id : TransactionId}

/-- An id that is handed out has not been pending. -/
theorem not_pending_of_allocate {t' : Table} (h : t.allocate = .ok (id, t')) (serial : Serial) :
    t.entries[id]? ≠ some (.pending serial) := by
  intro hp
  rcases (allocate_inv h).2 with ⟨-, ho, -⟩ | ⟨-, hf, -⟩
  · obtain ⟨serial', ha, -⟩ := oldestAbandoned_inv ho
    rw [hp] at ha
    cases ha
  · exact not_mem_of_firstFree hf (mem_of_entry hp)

/-- Those who are told that the table is closed are those whose entries are pending. -/
theorem mem_close {reason : Fault} {serial : Serial} :
    serial ∈ (t.close reason).2 ↔
      ∃ id : TransactionId, t.entries[id]? = some (.pending serial) := by
  have hvalues : t.entries.values = t.entries.toList.map Prod.snd := by
    rw [List.map_eq_foldr]
    exact Std.TreeMap.foldr_eq_foldr_toList
  simp only [close, hvalues, List.mem_filterMap, List.mem_map, Prod.exists, exists_eq_right]
  constructor
  · rintro ⟨e, ⟨id, hmem⟩, he⟩
    cases e with
    | pending serial' =>
      cases he
      exact ⟨id, Std.TreeMap.mem_toList_iff_getElem?_eq_some.1 hmem⟩
    | abandoned => cases he
  · rintro ⟨id, hid⟩
    exact ⟨.pending serial, ⟨id, Std.TreeMap.mem_toList_iff_getElem?_eq_some.2 hid⟩, rfl⟩

end Table

namespace Desk

/-! ## Entries and tickets -/

/-- The entries that are pending are those of the tickets that are held without a delivery. -/
structure Agrees (d : Desk) : Prop where
  pending_iff : ∀ {id : TransactionId} {serial : Serial},
    d.table.entries[id]? = some (.pending serial) ↔
      ∃ ticket, d.tickets[serial]? = some ticket ∧ ticket.id = id ∧ ticket.delivery = none

namespace Agrees

variable {d : Desk}

/-- A new ticket has a new entry, which is in nobody's way. -/
theorem allocate (h : d.Agrees) {serial : Serial} {ticket : Ticket} {d' : Desk}
    (hok : d.allocate = .ok (serial, ticket, d')) (hfresh : d.table.nextSerial ∉ d.tickets) :
    d'.Agrees := by
  obtain ⟨table, htable, rfl, hticket, rfl⟩ := allocate_inv hok
  have hnew := Table.not_pending_of_allocate htable
  have hdelivery : ticket.delivery = none := by rw [hticket]
  obtain ⟨next, rfl⟩ := Table.eq_enter_of_allocate htable
  constructor
  intro id serial
  rw [Table.getElem?_enter, Std.TreeMap.getElem?_insert]
  by_cases hs : d.table.nextSerial = serial
  · subst hs
    have hnone : d.table.entries[id]? ≠ some (.pending d.table.nextSerial) := fun hp => by
      obtain ⟨ticket', ht, -⟩ := h.pending_iff.1 hp
      exact hfresh (held_iff.2 ⟨_, ht⟩)
    by_cases hid : ticket.id = id
    · simp [hid, hdelivery]
    · simp [hid, hnone]
  · by_cases hid : ticket.id = id
    · -- the id has not been pending, so no other ticket without a delivery has it
      subst hid
      have hnone := mt h.pending_iff.2 (hnew serial)
      simpa [hs, Nat.compare_eq_eq] using hnone
    · simpa [hs, hid, Nat.compare_eq_eq] using h.pending_iff

theorem markSent (h : d.Agrees) (serial : Serial) : (d.markSent serial).Agrees := by
  constructor
  intro id serial'
  rw [table_markSent, h.pending_iff, Desk.markSent, getElem?_modify]
  split
  · cases d.tickets[serial']? <;> simp
  · rfl

/-- A ticket that is dropped takes its entry along, if it has one. -/
theorem drop (h : d.Agrees) (serial : Serial) : (d.drop serial).Agrees := by
  constructor
  intro id serial'
  rw [getElem?_drop]
  rcases entries_drop d serial id with hkept | ⟨ticket, ht, hid, hpending, hfreed⟩
  · rw [hkept, h.pending_iff]
    by_cases hs : serial = serial'
    · -- an entry that is kept is not the one of the ticket
      subst hs
      have hnone : ¬ ∃ ticket, d.tickets[serial]? = some ticket ∧ ticket.id = id ∧
          ticket.delivery = none := by
        rintro hheld
        have hpending := h.pending_iff.2 hheld
        obtain ⟨ticket, ht, hid, -⟩ := hheld
        rw [hpending, table_drop ht, Table.getElem?_release, hid, if_pos ⟨rfl, hpending⟩] at hkept
        split at hkept <;> cases hkept
      simpa using hnone
    · rw [if_neg hs]
  · rw [hfreed]
    constructor
    · intro hp
      split at hp <;> cases hp
    · rintro ⟨ticket', ht', hid', hd'⟩
      split at ht'
      · cases ht'
      · have := h.pending_iff.2 ⟨ticket', ht', hid', hd'⟩
        rw [hpending] at this
        cases this
        exact absurd rfl ‹_›

/-- A frame that reaches a ticket takes its entry away. -/
theorem resolve (h : d.Agrees) (f : Frame) : (d.resolve f).Agrees := by
  constructor
  intro id serial
  rw [table_resolve, Table.getElem?_resolve, getElem?_resolve]
  by_cases hid : f.header.transaction = id
  · rw [if_pos hid, hid]
    split <;> rename_i hp
    · cases d.tickets[serial]? <;> simp
    · simpa using mt h.pending_iff.2 hp
  · rw [if_neg hid, h.pending_iff]
    split <;> rename_i hp
    · -- the ticket that is reached has another id
      obtain ⟨ticket, ht, hid', -⟩ := h.pending_iff.1 hp
      have hne : ticket.id ≠ id := fun heq => hid (hid'.symm.trans heq)
      simp [ht, hne]
    · rfl

/-- Closing takes all entries away, and every ticket without a delivery has one then. -/
theorem close (h : d.Agrees) (reason : Fault) : (d.close reason).Agrees := by
  constructor
  intro id serial
  have hempty : (d.close reason).table.entries[id]? = none := by
    simp [table_close, Table.close]
  rw [hempty, getElem?_close]
  split <;> rename_i hp
  · cases d.tickets[serial]? <;> simp
  · refine iff_of_false (by simp) ?_
    rintro ⟨ticket, ht, -, hd⟩
    exact hp (Table.mem_close.2 ⟨ticket.id, h.pending_iff.2 ⟨ticket, ht, rfl, hd⟩⟩)

/-- Whatever is done keeps tickets and entries in agreement. -/
theorem act (h : d.Agrees) (hfresh : d.table.nextSerial ∉ d.tickets) (a : DeskAction) :
    (d.act a).Agrees := by
  cases a with
  | allocate =>
    simp only [Desk.act]
    split
    · exact h.allocate ‹_› hfresh
    · exact h
  | markSent serial => exact h.markSent serial
  | drop serial => exact h.drop serial
  | take serial =>
    rcases act_take d serial with ha | ha <;> rw [ha]
    · exact h.drop serial
    · exact h
  | resolve f => exact h.resolve f
  | close reason => exact h.close reason

/-- Nothing can come only to those who have what they wait for. -/
theorem outlook?_ne_severed (h : d.Agrees) (serial : Serial) :
    d.outlook? serial ≠ some .severed := by
  unfold outlook?
  cases ht : d.tickets[serial]? with
  | none => simp
  | some ticket =>
    cases hd : ticket.delivery with
    | some => simp [hd]
    | none => simp [hd, h.pending_iff.2 ⟨ticket, ht, rfl, hd⟩]

/-- Who waits holds a ticket without a delivery. -/
theorem outlook?_eq_waiting (h : d.Agrees) {serial : Serial} :
    d.outlook? serial = some .waiting ↔
      ∃ ticket, d.tickets[serial]? = some ticket ∧ ticket.delivery = none := by
  unfold outlook?
  cases ht : d.tickets[serial]? with
  | none => simp
  | some ticket =>
    cases hd : ticket.delivery with
    | some => simp [hd]
    | none => simp [hd, h.pending_iff.2 ⟨ticket, ht, rfl, hd⟩]

/-- A reply stays on its ticket until the ticket is dropped. -/
theorem ready_act (h : d.Agrees) (hfresh : d.table.nextSerial ∉ d.tickets) {serial : Serial}
    {reply : Delivery} (hready : d.outlook? serial = some (.ready reply)) {a : DeskAction}
    (hdrop : a ≠ .drop serial) (htake : a ≠ .take serial) :
    (d.act a).outlook? serial = some (.ready reply) := by
  obtain ⟨ticket, ht, hd⟩ := outlook?_eq_ready.1 hready
  have hnone (id : TransactionId) : d.table.entries[id]? ≠ some (.pending serial) := fun hp => by
    obtain ⟨ticket', ht', -, hd'⟩ := h.pending_iff.1 hp
    rw [ht] at ht'
    cases ht'
    rw [hd] at hd'
    cases hd'
  cases a with
  | drop s => exact ready_drop hready fun hs => hdrop (hs ▸ rfl)
  | take s =>
    rcases act_take d s with ha | ha <;> rw [ha]
    · exact ready_drop hready fun hs => htake (hs ▸ rfl)
    · exact hready
  | allocate =>
    rw [outlook?_eq_ready]
    simp only [Desk.act]
    split
    · rename_i s t d' hok
      obtain ⟨table, -, rfl, -, rfl⟩ := allocate_inv hok
      have hne : d.table.nextSerial ≠ serial := fun hs =>
        hfresh (hs ▸ held_iff.2 ⟨ticket, ht⟩)
      exact ⟨ticket, by simp [Std.TreeMap.getElem?_insert, hne, ht], hd⟩
    · exact ⟨ticket, ht, hd⟩
  | markSent s =>
    rw [outlook?_eq_ready, Desk.act, Desk.markSent, getElem?_modify, ht]
    split
    · exact ⟨_, rfl, hd⟩
    · exact ⟨ticket, rfl, hd⟩
  | resolve f =>
    rw [outlook?_eq_ready, Desk.act, getElem?_resolve, if_neg (hnone _)]
    exact ⟨ticket, ht, hd⟩
  | close reason =>
    rw [outlook?_eq_ready, Desk.act, getElem?_close, if_neg fun hs => ?_]
    · exact ⟨ticket, ht, hd⟩
    · obtain ⟨id, hp⟩ := Table.mem_close.1 hs
      exact hnone id hp

/-- Who waits for a response is given the frame that is passed on with the id. -/
theorem ready_resolve (h : d.Agrees) {f : Frame} {serial : Serial}
    (hp : d.table.entries[f.header.transaction]? = some (.pending serial)) :
    (d.resolve f).outlook? serial = some (.ready (.ok f)) := by
  obtain ⟨ticket, ht, -⟩ := h.pending_iff.1 hp
  rw [outlook?_eq_ready, getElem?_resolve, if_pos hp, ht]
  exact ⟨_, rfl, rfl⟩

/-- Who waits for a response when the table is closed for the first time is given the reason. -/
theorem ready_close (h : d.Agrees) (hopen : d.table.closed = none) {id : TransactionId}
    {serial : Serial} (hp : d.table.entries[id]? = some (.pending serial)) (reason : Fault) :
    (d.close reason).outlook? serial = some (.ready (.error (.transport reason))) := by
  obtain ⟨ticket, ht, -⟩ := h.pending_iff.1 hp
  rw [outlook?_eq_ready, getElem?_close, if_pos (Table.mem_close.2 ⟨id, hp⟩), ht, hopen]
  exact ⟨_, rfl, rfl⟩

end Agrees

/-! ## Tickets that are held -/

variable {serial : Serial}

theorem mem_drop (d : Desk) (s : Serial) :
    serial ∈ (d.drop s).tickets ↔ serial ∈ d.tickets ∧ s ≠ serial := by
  rw [Std.TreeMap.mem_iff_isSome_getElem?, Std.TreeMap.mem_iff_isSome_getElem?, getElem?_drop]
  split <;> simp [*]

/-- What is held after an action. -/
theorem mem_act (d : Desk) (a : DeskAction) : serial ∈ (d.act a).tickets ↔
    (a = .allocate ∧ ∃ ticket d', d.allocate = .ok (serial, ticket, d')) ∨
      serial ∈ d.tickets ∧ a ≠ .drop serial ∧
        (a = .take serial → (d.outlook? serial).bind Outlook.delivery? = none) := by
  cases a with
  | allocate =>
    simp only [act]
    split
    · rename_i s ticket d' hok
      obtain ⟨table, -, -, -, rfl⟩ := allocate_inv hok
      simp only [Std.TreeMap.mem_insert, Nat.compare_eq_eq, hok]
      constructor
      · rintro (rfl | h)
        · exact .inl ⟨trivial, _, _, rfl⟩
        · exact .inr ⟨h, by simp⟩
      · rintro (⟨-, _, _, h⟩ | h)
        · cases h
          exact .inl rfl
        · exact .inr h.1
    · simp [*]
  | markSent s =>
    rw [act, Std.TreeMap.mem_iff_isSome_getElem?, Desk.markSent, getElem?_modify]
    split <;> simp
  | drop s =>
    rw [act, mem_drop]
    simp
  | take s =>
    simp only [act]
    split <;> rename_i h
    · rw [mem_drop]
      by_cases hs : s = serial
      · subst hs
        simp [h]
      · simp [hs]
    · by_cases hs : s = serial
      · subst hs
        simp [h]
      · simp [hs]
  | resolve f =>
    rw [act, Std.TreeMap.mem_iff_isSome_getElem?, getElem?_resolve]
    split <;> simp
  | close reason =>
    rw [act, Std.TreeMap.mem_iff_isSome_getElem?, getElem?_close]
    split <;> simp

end Desk

end Modbus
