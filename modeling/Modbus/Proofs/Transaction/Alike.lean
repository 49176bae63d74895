import Modbus.Proofs.Transaction.Operations

/-!
# Desks that differ in the frames of others

Two desks are alike for the holder of one ticket if they have the same table and the same tickets,
but for the frames that other tickets have been given (`Desk.Alike`). The table reads nothing of a
frame but its transaction id, and a ticket is dropped in the same way whatever frame is on it. So
the two desks stay alike when the same is done at both, and also when they receive two frames that
have the same id, as long as a frame for this ticket is the same (`Desk.Alike.resolve`).
-/

namespace Modbus

/-- What two desks hold under one serial: the same, or, if the ticket is not one's own, tickets with
different frames on them. -/
inductive Ticket.Alike (isOwn : Prop) : Option Ticket → Option Ticket → Prop where
  | same (ticket : Option Ticket) : Alike isOwn ticket ticket
  | frames (hother : ¬ isOwn) (id : TransactionId) (isSent : Bool) (f f' : Frame) :
    Alike isOwn (some ⟨id, isSent, some (.ok f)⟩) (some ⟨id, isSent, some (.ok f')⟩)

namespace Desk

/-- Two desks are alike for the holder of a ticket. -/
structure Alike (own : Serial) (d d' : Desk) : Prop where
  table : d'.table = d.table
  tickets : ∀ serial, Ticket.Alike (serial = own) d.tickets[serial]? d'.tickets[serial]?

namespace Alike

variable {own : Serial} {d d' : Desk} {f f' : Frame}

/-- A desk is alike to itself. -/
theorem refl (d : Desk) : d.Alike own d := ⟨rfl, fun _ => .same _⟩

/-- Holders of tickets find the same, or others than oneself find frames. -/
theorem outlook? (h : d.Alike own d') (serial : Serial) :
    d'.outlook? serial = d.outlook? serial ∨
      serial ≠ own ∧ ∃ f f', d.outlook? serial = some (.ready (.ok f)) ∧
        d'.outlook? serial = some (.ready (.ok f')) := by
  have ht := h.tickets serial
  unfold Desk.outlook?
  rw [h.table]
  generalize d.tickets[serial]? = ticket, d'.tickets[serial]? = ticket' at ht
  cases ht with
  | same => exact .inl rfl
  | frames hother id isSent f f' => exact .inr ⟨hother, f, f', rfl, rfl⟩

/-- Marking the same ticket as sent keeps desks alike. -/
theorem markSent (h : d.Alike own d') (serial : Serial) :
    (d.markSent serial).Alike own (d'.markSent serial) where
  table := by rw [table_markSent, table_markSent, h.table]
  tickets serial' := by
    have ht := h.tickets serial'
    rw [Desk.markSent, Desk.markSent, getElem?_modify, getElem?_modify]
    generalize d.tickets[serial']? = ticket, d'.tickets[serial']? = ticket' at ht
    split
    · cases ht with
      | same => exact .same _
      | frames hother id isSent f f' => exact .frames hother id true f f'
    · exact ht

/-- Dropping the same ticket keeps them alike. -/
theorem drop (h : d.Alike own d') (serial : Serial) :
    (d.drop serial).Alike own (d'.drop serial) where
  table := by
    have ht := h.tickets serial
    unfold Desk.drop
    cases hd : d.tickets[serial]? <;> cases hd' : d'.tickets[serial]? <;> rw [hd, hd'] at ht <;>
      cases ht <;> simp [h.table]
  tickets serial' := by
    rw [getElem?_drop, getElem?_drop]
    split
    · exact .same none
    · exact h.tickets serial'

/-- Both desks issue the same ticket, or refuse it for the same reason. -/
theorem allocate (h : d.Alike own d') :
    (∃ e, d.allocate = .error e ∧ d'.allocate = .error e) ∨
      ∃ serial ticket e e', d.allocate = .ok (serial, ticket, e) ∧
        d'.allocate = .ok (serial, ticket, e') ∧ e.Alike own e' := by
  unfold Desk.allocate
  rw [h.table]
  cases d.table.allocate with
  | error e => exact .inl ⟨e, rfl, rfl⟩
  | ok r =>
    obtain ⟨id, table⟩ := r
    refine .inr ⟨_, _, _, _, rfl, rfl, rfl, fun serial => ?_⟩
    simp only [Std.TreeMap.getElem?_insert]
    split
    · exact .same _
    · exact h.tickets serial

/-- Both desks receive frames with the same id. If the id belongs to one's own ticket, the frame is
the same. -/
theorem resolve (h : d.Alike own d') (hid : f'.header.transaction = f.header.transaction)
    (hown : (d.table.resolve f.header.transaction).2 = some own → f' = f) :
    (d.resolve f).Alike own (d'.resolve f') where
  table := by rw [table_resolve, table_resolve, h.table, hid]
  tickets serial := by
    have ht := h.tickets serial
    rw [getElem?_resolve, getElem?_resolve, h.table, hid]
    generalize d.tickets[serial]? = ticket, d'.tickets[serial]? = ticket' at ht
    split <;> rename_i hpending
    · have hticket (t : Ticket) : Ticket.Alike (serial = own)
          (some { t with delivery := some (.ok f) })
          (some { t with delivery := some (.ok f') }) := by
        by_cases hs : serial = own
        · rw [hown (Table.resolve_snd_eq_some.2 (hs ▸ hpending))]
          exact .same _
        · exact .frames hs t.id t.isSent f f'
      cases ht with
      | same ticket =>
        cases ticket with
        | none => exact .same none
        | some ticket => exact hticket ticket
      | frames _ id isSent g _ => exact hticket ⟨id, isSent, some (.ok g)⟩
    · exact ht

/-- Closing both for the same reason keeps them alike. -/
theorem close (h : d.Alike own d') (reason : Fault) :
    (d.close reason).Alike own (d'.close reason) where
  table := by rw [table_close, table_close, h.table]
  tickets serial := by
    have ht := h.tickets serial
    rw [getElem?_close, getElem?_close, h.table]
    generalize d.tickets[serial]? = ticket, d'.tickets[serial]? = ticket' at ht
    split
    · cases ht <;> exact .same _
    · exact ht

end Alike

end Desk

end Modbus
