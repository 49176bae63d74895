import Modbus.Proofs.Transaction.Operations

/-!
# The history of a desk

A run of a desk is a list of actions, and `Desk.after` is the desk after the first actions of it.
What a run has done so far is told by the positions at which it did so: an allocation issues a
ticket for an id (`IssuesAt`), and reclaims the id if the table was full (`ReclaimsAt`); the holder
of a ticket marks it as sent (`MarksAt`). Tickets are known by their serials, which are never used
twice (`IssuesAt.unique`).

The peer of the desk is described by a function from positions to serials: `asked n` is the ticket
whose request is answered by the frame that is received at position `n` (`AnswersAt`).
-/

namespace Modbus

namespace Table

/-- A table has at most as many entries as there are transaction ids. -/
theorem size_le_capacity (t : Table) : t.entries.size ≤ capacity := by
  have hids : (t.entries.keys.map (·.toNat)).Nodup :=
    List.Pairwise.map _ (fun _ _ hne heq => hne (UInt16.toNat_inj.1 heq)) t.entries.nodup_keys
  have hsub : t.entries.keys.map (·.toNat) ⊆ List.range capacity := by
    intro n hn
    obtain ⟨id, -, rfl⟩ := List.mem_map.1 hn
    exact List.mem_range.2 id.toNat_lt
  simpa using hids.length_le_of_subset hsub

end Table

namespace Desk

variable (actions : List DeskAction)

/-- The desk after the first actions of a run. -/
def after (n : Nat) : Desk := run {} (actions.take n)

variable {actions} {n : Nat} {a : DeskAction} {serial : Serial} {id : TransactionId}

/-- Behind all actions, the desk is that of the run. -/
theorem after_length (actions : List DeskAction) :
    after actions actions.length = run {} actions := by
  rw [after, List.take_length]

/-- Behind an action, the desk is the one before it with the action done. -/
theorem after_succ (h : actions[n]? = some a) :
    after actions (n + 1) = (after actions n).act a := by
  simp [after, run, List.take_add_one, h]

/-- There is nothing behind the last action. -/
theorem after_succ_of_none (h : actions[n]? = none) :
    after actions (n + 1) = after actions n := by
  simp [after, run, List.take_add_one, h]

variable (actions)

/-- At a position of a run, a ticket for an id is issued. -/
def IssuesAt (n : Nat) (serial : Serial) (id : TransactionId) : Prop :=
  actions[n]? = some .allocate ∧
    ∃ ticket d, (after actions n).allocate = .ok (serial, ticket, d) ∧ ticket.id = id

/-- At a position of a run, an id is handed out although all ids are in use. -/
def ReclaimsAt (n : Nat) (id : TransactionId) : Prop :=
  (after actions n).table.entries.size = Table.capacity ∧ ∃ serial, IssuesAt actions n serial id

/-- At a position of a run, the holder of a ticket marks it as sent. -/
def MarksAt (n : Nat) (serial : Serial) : Prop :=
  actions[n]? = some (.markSent serial) ∧ serial ∈ (after actions n).tickets

/-- At a position of a run, a frame is received that answers the request of a ticket. -/
def AnswersAt (asked : Nat → Serial) (n : Nat) (serial : Serial) : Prop :=
  (∃ f, actions[n]? = some (.resolve f)) ∧ asked n = serial

/-- The peer answers each request at most once, and only requests that have been sent: whatever
frame is received carries the id of a ticket that has been marked as sent and has not been answered
before. -/
def AnswersOnce (asked : Nat → Serial) : Prop :=
  ∀ n f, actions[n]? = some (.resolve f) →
    (∃ j < n, IssuesAt actions j (asked n) f.header.transaction) ∧
      (∃ j < n, MarksAt actions j (asked n)) ∧ ¬ ∃ j < n, AnswersAt actions asked j (asked n)

/-- In the course of a step, the holder of a ticket comes to find a frame. -/
def Obtains (before after : Desk) (serial : Serial) (f : Frame) : Prop :=
  before.outlook? serial ≠ some (.ready (.ok f)) ∧ after.outlook? serial = some (.ready (.ok f))

variable {actions}

/-! ## Serials -/

/-- An allocation uses the next serial, and with it the serial is used up. -/
theorem IssuesAt.nextSerial (h : IssuesAt actions n serial id) :
    serial = (after actions n).table.nextSerial ∧
      (after actions (n + 1)).table.nextSerial = serial + 1 := by
  obtain ⟨ha, ticket, d, hok, -⟩ := h
  obtain ⟨table, htable, rfl, -, rfl⟩ := allocate_inv hok
  refine ⟨rfl, ?_⟩
  rw [after_succ ha]
  simp only [act, hok]
  obtain ⟨next, rfl⟩ := Table.eq_enter_of_allocate htable
  rfl

/-- No action uses a serial a second time. -/
theorem nextSerial_le_act (d : Desk) (a : DeskAction) :
    d.table.nextSerial ≤ (d.act a).table.nextSerial := by
  by_cases ha : a = .allocate
  · subst ha
    simp only [act]
    split
    · rename_i hok
      obtain ⟨table, htable, -, -, rfl⟩ := allocate_inv hok
      obtain ⟨next, rfl⟩ := Table.eq_enter_of_allocate htable
      exact Nat.le_succ _
    · exact Nat.le_refl _
  · exact Nat.le_of_eq (counters_act ha).2.symm

/-- Serials are used up in order, all along a run. -/
theorem nextSerial_after_le {m : Nat} (h : m ≤ n) :
    (after actions m).table.nextSerial ≤ (after actions n).table.nextSerial := by
  induction h with
  | refl => exact Nat.le_refl _
  | @step n _ ih =>
    cases ha : actions[n]? with
    | none => rwa [after_succ_of_none ha]
    | some a =>
      rw [after_succ ha]
      exact Nat.le_trans ih (nextSerial_le_act _ _)

/-- A ticket that has been issued has a serial in front of the next one. -/
theorem IssuesAt.lt_nextSerial {m : Nat} (h : IssuesAt actions m serial id) (hm : m < n) :
    serial < (after actions n).table.nextSerial := by
  have hle : (after actions (m + 1)).table.nextSerial ≤ (after actions n).table.nextSerial :=
    nextSerial_after_le hm
  rw [h.nextSerial.2] at hle
  exact hle

/-- Tickets with the same serial are the same. -/
theorem IssuesAt.unique {m : Nat} {id' : TransactionId} (h : IssuesAt actions m serial id)
    (h' : IssuesAt actions n serial id') : m = n ∧ id = id' := by
  have hmn : m = n := by
    rcases Nat.lt_trichotomy m n with hlt | heq | hgt
    · exact absurd h'.nextSerial.1 (Nat.ne_of_lt (h.lt_nextSerial hlt))
    · exact heq
    · exact absurd h.nextSerial.1 (Nat.ne_of_lt (h'.lt_nextSerial hgt))
  subst hmn
  obtain ⟨-, ticket, d, hok, rfl⟩ := h
  obtain ⟨-, ticket', d', hok', rfl⟩ := h'
  rw [hok] at hok'
  cases hok'
  exact ⟨rfl, rfl⟩

/-! ## Where tickets and entries come from

What holds of the first actions of a run is shown by induction on their number; the last of them is
read back with `ticketStep` and `entryStep`.
-/

/-- A property of desks that the desk without tickets has and that every action keeps holds all
along a run. -/
theorem after_induction {p : Nat → Desk → Prop} (zero : p 0 {})
    (act : ∀ n a, actions[n]? = some a → p n (after actions n) →
      p (n + 1) ((after actions n).act a))
    (idle : ∀ n, actions[n]? = none → p n (after actions n) → p (n + 1) (after actions n))
    (n : Nat) : p n (after actions n) := by
  induction n with
  | zero => exact zero
  | succ n ih =>
    cases ha : actions[n]? with
    | none =>
      rw [after_succ_of_none ha]
      exact idle n ha ih
    | some a =>
      rw [after_succ ha]
      exact act n a ha ih

/-- A ticket that is held has been issued for its id. -/
theorem issued_of_held {ticket : Ticket} (h : (after actions n).tickets[serial]? = some ticket) :
    ∃ j < n, IssuesAt actions j serial ticket.id := by
  revert ticket
  refine after_induction (p := fun n d => ∀ {ticket}, d.tickets[serial]? = some ticket →
    ∃ j < n, IssuesAt actions j serial ticket.id) ?_ ?_ ?_ n
  · simp
  · intro n a ha ih ticket h
    cases ticketStep h with
    | issued hok => exact ⟨n, Nat.lt_succ_self n, ha, _, _, hok, rfl⟩
    | kept ht | marked ht | answered ht | refused ht =>
      exact (ih ht).imp fun j hj => ⟨Nat.lt_succ_of_lt hj.1, hj.2⟩
  · intro n _ ih ticket h
    exact (ih h).imp fun j hj => ⟨Nat.lt_succ_of_lt hj.1, hj.2⟩

/-- An entry belongs to a ticket that has been issued for its id. -/
theorem issued_of_entry {e : Entry} (h : (after actions n).table.entries[id]? = some e) :
    ∃ j < n, IssuesAt actions j e.serial id := by
  revert e
  refine after_induction (p := fun n d => ∀ {e}, d.table.entries[id]? = some e →
    ∃ j < n, IssuesAt actions j e.serial id) ?_ ?_ ?_ n
  · simp
  · intro n a ha ih e h
    cases entryStep h with
    | issued hok hid => exact ⟨n, Nat.lt_succ_self n, ha, _, _, hok, hid⟩
    | kept he => exact (ih he).imp fun j hj => ⟨Nat.lt_succ_of_lt hj.1, hj.2⟩
    | abandoned _ he => exact (ih he).imp fun j hj => ⟨Nat.lt_succ_of_lt hj.1, hj.2⟩
  · intro n _ ih e h
    exact (ih h).imp fun j hj => ⟨Nat.lt_succ_of_lt hj.1, hj.2⟩

/-- Only a ticket that has been issued is marked as sent. -/
theorem MarksAt.lt_nextSerial (h : MarksAt actions n serial) :
    serial < (after actions n).table.nextSerial := by
  obtain ⟨-, hmem⟩ := h
  obtain ⟨ticket, ht⟩ := held_iff.1 hmem
  obtain ⟨j, hj, hi⟩ := issued_of_held ht
  exact hi.lt_nextSerial hj

/-- A ticket that is held has been marked as sent if and only if its holder has done so. -/
theorem isSent_iff_marked {ticket : Ticket}
    (h : (after actions n).tickets[serial]? = some ticket) :
    ticket.isSent = true ↔ ∃ j < n, MarksAt actions j serial := by
  revert ticket
  refine after_induction (p := fun n d => ∀ {ticket}, d.tickets[serial]? = some ticket →
    (ticket.isSent = true ↔ ∃ j < n, MarksAt actions j serial)) ?_ ?_ ?_ n
  · simp
  · intro n a ha ih ticket h
    rw [Nat.exists_lt_succ_right]
    have hnow : MarksAt actions n serial → a = .markSent serial := fun hm =>
      Option.some.inj (ha.symm.trans hm.1)
    cases ticketStep h with
    | issued hok =>
      -- a ticket that is issued now cannot have been marked before
      obtain ⟨-, -, hs, ht, -⟩ := allocate_inv hok
      rw [ht]
      refine iff_of_false (by simp) ?_
      rintro (⟨j, hj, hm⟩ | hm)
      · exact absurd (Nat.lt_of_lt_of_le hm.lt_nextSerial (nextSerial_after_le (Nat.le_of_lt hj)))
          (hs ▸ Nat.lt_irrefl _)
      · cases hnow hm
    | kept ht hne => rw [ih ht, or_iff_left fun hm => hne (hnow hm)]
    | marked ht =>
      exact iff_of_true rfl (.inr ⟨ha, held_iff.2 ⟨_, ht⟩⟩)
    | answered ht | refused ht => rw [ih ht, or_iff_left fun hm => nomatch hnow hm]
  · intro n ha ih ticket h
    rw [Nat.exists_lt_succ_right, or_iff_left fun hm => by rw [hm.1] at ha; cases ha]
    exact ih h

/-- A closed table is empty. -/
theorem entries_of_closed (h : (after actions n).table.closed.isSome) :
    (after actions n).table.entries[id]? = none := by
  revert h
  refine after_induction (p := fun _ d => d.table.closed.isSome → d.table.entries[id]? = none)
    ?_ ?_ ?_ n
  · simp
  · intro n a ha ih h
    refine Option.eq_none_iff_forall_ne_some.2 fun e he => ?_
    by_cases hc : ∃ reason, a = .close reason
    · obtain ⟨reason, rfl⟩ := hc
      simp [act, table_close, Table.close] at he
    · rw [closed_act fun reason hr => hc ⟨reason, hr⟩] at h
      cases entryStep he with
      | issued hok =>
        obtain ⟨table, htable, -⟩ := allocate_inv hok
        rw [(Table.allocate_inv htable).1] at h
        cases h
      | kept hk | abandoned _ hk =>
        rw [ih h] at hk
        cases hk
  · exact fun _ _ ih h => ih h

end Desk

end Modbus
