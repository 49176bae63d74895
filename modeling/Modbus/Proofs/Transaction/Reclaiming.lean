import Modbus.Proofs.Transaction.Allocation
import Modbus.Proofs.Transaction.Representation

/-!
# Which id is reclaimed

If all ids are in use, the table reclaims an abandoned one. The entries of abandoned ids tell when
their tickets have been issued, and not when these have been given up (`Desk.GivesUpAt`). So the id
that is reclaimed is the one whose ticket has been issued first (`Desk.reclaims_first_issued`). It
is the longest abandoned one as long as no ticket that has been issued later is given up earlier,
which may happen (`Desk.reclaims_abandoned_last`).
-/

namespace Modbus

namespace Desk

variable {actions : List DeskAction} {i j n : Nat} {serial serial' : Serial}
  {id id' : TransactionId}

/-- Tickets are numbered in the order in which they are issued. -/
theorem IssuesAt.lt_iff (h : IssuesAt actions i serial id) (h' : IssuesAt actions j serial' id') :
    serial < serial' ↔ i < j := by
  have hmono {i j : Nat} {serial serial' : Serial} {id id' : TransactionId}
      (h : IssuesAt actions i serial id) (h' : IssuesAt actions j serial' id') (hij : i < j) :
      serial < serial' := by
    rw [h'.nextSerial.1]
    exact h.lt_nextSerial hij
  constructor
  · intro hlt
    rcases Nat.lt_trichotomy i j with hij | rfl | hji
    · exact hij
    · exact absurd (h.nextSerial.1.trans h'.nextSerial.1.symm) (Nat.ne_of_lt hlt)
    · exact absurd hlt (Nat.lt_asymm (hmono h' h hji))
  · exact hmono h h'

/-! ## Abandonment -/

/-- At a position of a run, a ticket is given up, and its id is abandoned. -/
def GivesUpAt (actions : List DeskAction) (n : Nat) (serial : Serial) (id : TransactionId) : Prop :=
  (after actions n).table.entries[id]? = some (.pending serial) ∧
    (after actions (n + 1)).table.entries[id]? = some (.abandoned serial)

/-- An id that is abandoned has been given up with its ticket. -/
theorem exists_givesUpAt (h : (after actions n).table.entries[id]? = some (.abandoned serial)) :
    ∃ k < n, GivesUpAt actions k serial id := by
  induction n with
  | zero => simp [after, run] at h
  | succ n ih =>
    have hearlier (hkept : (after actions n).table.entries[id]? = some (.abandoned serial)) :
        ∃ k < n + 1, GivesUpAt actions k serial id :=
      (ih hkept).imp fun k hk => ⟨Nat.lt_succ_of_lt hk.1, hk.2⟩
    cases ha : actions[n]? with
    | none => exact hearlier (after_succ_of_none ha ▸ h)
    | some a =>
      have hact := h
      rw [after_succ ha] at hact
      cases entryStep hact with
      | kept hkept => exact hearlier hkept
      | abandoned _ hp => exact ⟨n, Nat.lt_succ_self n, hp, h⟩

/-- A ticket is given up once. -/
theorem GivesUpAt.unique (h : GivesUpAt actions i serial id)
    (h' : GivesUpAt actions j serial id') : i = j := by
  have hlater {i j : Nat} {id id' : TransactionId} (h : GivesUpAt actions i serial id)
      (h' : GivesUpAt actions j serial id') : ¬ i < j := by
    intro hij
    obtain ⟨-, -, k, -, -, hk, -, -, hdrop, -⟩ := dropped_of_abandoned h.2
    exact (pending_iff.1 h'.1).1.2 ⟨k, Nat.lt_of_lt_of_le hk hij, hdrop⟩
  exact Nat.le_antisymm (Nat.le_of_not_lt (hlater h' h)) (Nat.le_of_not_lt (hlater h h'))

/-- An id is abandoned, and it has been so since a position of the run. -/
def AbandonedSince (actions : List DeskAction) (n : Nat) (id : TransactionId) (k : Nat) : Prop :=
  k < n ∧ ∃ serial, GivesUpAt actions k serial id ∧
    (after actions n).table.entries[id]? = some (.abandoned serial)

/-- Of all abandoned ids, one has been abandoned for the longest time. -/
def IsLongestAbandoned (actions : List DeskAction) (n : Nat) (id : TransactionId) : Prop :=
  ∃ k, AbandonedSince actions n id k ∧
    ∀ other k', AbandonedSince actions n other k' → k ≤ k'

theorem AbandonedSince.unique {k k' : Nat} (h : AbandonedSince actions n id k)
    (h' : AbandonedSince actions n id k') : k = k' := by
  obtain ⟨-, serial, hk, he⟩ := h
  obtain ⟨-, serial', hk', he'⟩ := h'
  rw [he] at he'
  cases he'
  exact hk.unique hk'

/-! ## Giving up in another order

All ids are handed out, and the first two tickets are given up, the second one before the first.
-/

/-- The entries after a ticket has been given up whose request has been sent. -/
theorem getElem?_drop_sent {d : Desk} {ticket : Ticket} (ht : d.tickets[serial]? = some ticket)
    (hs : ticket.isSent = true) (he : d.table.entries[ticket.id]? = some (.pending serial))
    (id : TransactionId) : (d.drop serial).table.entries[id]? =
      if ticket.id = id then some (.abandoned serial) else d.table.entries[id]? := by
  rw [table_drop ht, Table.getElem?_release, he, hs]
  simp

/-- The first two ids are abandoned, and all others are pending. -/
structure FirstTwoAbandoned (d : Desk) : Prop where
  closed : d.table.closed = none
  size : d.table.entries.size = Table.capacity
  entries : ∀ id : TransactionId, d.table.entries[id]? =
    if 0 = id then some (.abandoned 0)
    else if 1 = id then some (.abandoned 1) else some (.pending id.toNat)

/-- The second ticket is given up, and then the first one. -/
theorem Ascends.giveUp {d : Desk} (h : Ascends d Table.capacity) :
    (∀ id : TransactionId,
      ((d.markSent 0).markSent 1).table.entries[id]? = some (.pending id.toNat)) ∧
    (∀ id : TransactionId, (((d.markSent 0).markSent 1).drop 1).table.entries[id]? =
      if 1 = id then some (.abandoned 1) else some (.pending id.toNat)) ∧
    FirstTwoAbandoned ((((d.markSent 0).markSent 1).drop 1).drop 0) := by
  have hentries (id : TransactionId) :
      ((d.markSent 0).markSent 1).table.entries[id]? = some (.pending id.toNat) := by
    rw [table_markSent, table_markSent, h.pending]
  have hticket {serial : Serial} (hs : serial = 0 ∨ serial = 1) :
      ((d.markSent 0).markSent 1).tickets[serial]? =
        some { id := UInt16.ofNat serial, isSent := true } := by
    have hlt : serial < Table.capacity := by
      rcases hs with rfl | rfl
      · decide
      · decide
    have hfull := h.tickets serial
    rw [if_pos hlt] at hfull
    rcases hs with rfl | rfl
    · simp [markSent, getElem?_modify, hfull]
    · simp [markSent, getElem?_modify, hfull]
  have hopen : ((d.markSent 0).markSent 1).table.closed = none := by
    rw [table_markSent, table_markSent, h.closed]
  generalize (d.markSent 0).markSent 1 = sent at hentries hticket hopen
  have hsecond := hticket (.inr rfl)
  have hfirst : (sent.drop 1).tickets[(0 : Serial)]? = some { id := 0, isSent := true } := by
    rw [getElem?_drop, if_neg (by decide)]
    exact hticket (.inl rfl)
  have hdrop (id : TransactionId) : (sent.drop 1).table.entries[id]? =
      if 1 = id then some (.abandoned 1) else some (.pending id.toNat) := by
    rw [getElem?_drop_sent hsecond rfl (hentries 1), hentries]
    rfl
  have hboth (id : TransactionId) : ((sent.drop 1).drop 0).table.entries[id]? =
      if 0 = id then some (.abandoned 0)
      else if 1 = id then some (.abandoned 1) else some (.pending id.toNat) := by
    rw [getElem?_drop_sent hfirst rfl (hdrop 0), hdrop]
  refine ⟨hentries, hdrop, ?_, ?_, hboth⟩
  · rw [table_drop hfirst, Table.closed_release, table_drop hsecond, Table.closed_release, hopen]
  · refine Table.size_eq_capacity fun id => ?_
    have hid := hboth id
    split at hid
    · exact Table.mem_of_entry hid
    · split at hid
      · exact Table.mem_of_entry hid
      · exact Table.mem_of_entry hid

/-- All ids are handed out, the first two tickets are given up after their requests have been sent,
the second one before the first, and another ticket is asked for. -/
def disorder : List DeskAction :=
  afterFull [.markSent 0, .markSent 1, .drop 1, .drop 0, .allocate]

theorem disorder_givesUp : FirstTwoAbandoned (after disorder (Table.capacity + 4)) ∧
    GivesUpAt disorder (Table.capacity + 2) 1 1 ∧
    GivesUpAt disorder (Table.capacity + 3) 0 0 := by
  have hstep (k : Nat) {a : DeskAction}
      (ha : [.markSent 0, .markSent 1, .drop 1, .drop 0, .allocate][k]? = some a) :
      after disorder (Table.capacity + k + 1) = (after disorder (Table.capacity + k)).act a :=
    after_succ ((getElem?_afterFull_add k).trans ha)
  have hsent : after disorder (Table.capacity + 2) =
      ((after disorder Table.capacity).markSent 0).markSent 1 := by
    rw [hstep 1 rfl, hstep 0 rfl, act, act, Nat.add_zero]
  have hfirst : after disorder (Table.capacity + 3) =
      (after disorder (Table.capacity + 2)).drop 1 := by
    rw [hstep 2 rfl, act]
  have hsecond : after disorder (Table.capacity + 4) =
      (after disorder (Table.capacity + 3)).drop 0 := by
    rw [hstep 3 rfl, act]
  have hfull : Ascends (after disorder Table.capacity) Table.capacity :=
    ascends_afterFull (Nat.le_refl Table.capacity)
  obtain ⟨hentries, hdrop, hboth⟩ := hfull.giveUp
  rw [← hsent] at hentries hdrop hboth
  rw [← hfirst] at hdrop hboth
  rw [← hsecond] at hboth
  refine ⟨hboth, ⟨hentries 1, ?_⟩, ?_, ?_⟩
  · rw [hdrop, if_pos rfl]
  · rw [hdrop, if_neg (by decide)]
    rfl
  · rw [hboth.entries, if_pos rfl]

/-! ## Reclaiming -/

/-- What is reclaimed at a position of a run. -/
structure Reclaims (actions : List DeskAction) (n : Nat) (id : TransactionId) (serial : Serial) :
    Prop where
  reclaimed : ReclaimsAt actions n id
  /-- It has been abandoned before. -/
  abandoned : (after actions n).table.entries[id]? = some (.abandoned serial)
  since : ∃ i k, i < k ∧ k < n ∧ IssuesAt actions i serial id ∧ GivesUpAt actions k serial id
  /-- The tickets of all other abandoned ids have been issued later. -/
  first_issued : ∀ {other : TransactionId} {later : Serial} {i j : Nat}, other ≠ id →
    (after actions n).table.entries[other]? = some (.abandoned later) →
      IssuesAt actions i serial id → IssuesAt actions j later other → i < j
  /-- It is the longest abandoned id, unless one of these tickets has been given up earlier. -/
  longest_iff : IsLongestAbandoned actions n id ↔
    ¬ ∃ (other : TransactionId) (later : Serial) (j k : Nat), serial < later ∧
      (after actions n).table.entries[other]? = some (.abandoned later) ∧
      GivesUpAt actions j later other ∧ GivesUpAt actions k serial id ∧ j < k

/-- An allocation at an open desk without a free id reclaims the abandoned id with the smallest
serial. -/
theorem exists_reclaimsAt (ha : actions[n]? = some .allocate)
    (hopen : (after actions n).table.closed = none)
    (hfull : (after actions n).table.entries.size = Table.capacity)
    (habandoned : ∃ (id : TransactionId) (serial : Serial),
      (after actions n).table.entries[id]? = some (.abandoned serial)) :
    ∃ id serial, ReclaimsAt actions n id ∧
      (after actions n).table.entries[id]? = some (.abandoned serial) ∧
      ∀ (id' : TransactionId) (serial' : Serial),
        (after actions n).table.entries[id']? = some (.abandoned serial') → serial ≤ serial' := by
  obtain ⟨id, serial, he, hleast, hok⟩ := Table.allocate_of_abandoned hopen hfull habandoned
  refine ⟨id, serial, ⟨hfull, _, ha, _, _, (handsOut hok).allocate, rfl⟩, he, hleast⟩

/-- **The abandoned id that has been issued first is reclaimed** if all ids are in use. It is the
longest abandoned one if and only if no ticket that has been issued later was given up earlier. -/
theorem reclaims_first_issued (ha : actions[n]? = some .allocate)
    (hopen : (after actions n).table.closed = none)
    (hfull : (after actions n).table.entries.size = Table.capacity)
    (habandoned : ∃ (id : TransactionId) (serial : Serial),
      (after actions n).table.entries[id]? = some (.abandoned serial)) :
    ∃ id serial, Reclaims actions n id serial := by
  obtain ⟨id, serial, hreclaims, he, hleast⟩ := exists_reclaimsAt ha hopen hfull habandoned
  have hlater {other : TransactionId} {later : Serial} (hne : other ≠ id)
      (ho : (after actions n).table.entries[other]? = some (.abandoned later)) : serial < later :=
    Nat.lt_of_le_of_ne (hleast other later ho) fun heq => hne (id_eq_of_serial ho he heq.symm)
  obtain ⟨k, hk, hgives⟩ := exists_givesUpAt he
  obtain ⟨i, hi, hissues⟩ := issued_of_entry hgives.1
  refine ⟨id, serial, ?_⟩
  constructor
  case reclaimed => exact hreclaims
  case abandoned => exact he
  case since => exact ⟨i, k, hi, hk, hissues, hgives⟩
  case first_issued =>
    intro other later i j hne ho hi hj
    exact (hi.lt_iff hj).1 (hlater hne ho)
  case longest_iff =>
    constructor
    · rintro ⟨k, ⟨-, serial', hk, he'⟩, hlongest⟩ ⟨other, later, j, k', -, ho, hj, hk', hjk⟩
      rw [he] at he'
      cases he'
      obtain rfl := hk.unique hk'
      obtain ⟨l, hl, hj'⟩ := exists_givesUpAt ho
      obtain rfl := hj.unique hj'
      exact Nat.not_le.2 hjk (hlongest other j ⟨hl, later, hj, ho⟩)
    · intro hnone
      refine ⟨k, ⟨hk, serial, hgives, he⟩, ?_⟩
      rintro other j ⟨-, later, hj, ho⟩
      refine Nat.le_of_not_lt fun hjk => ?_
      have hne : other ≠ id := by
        rintro rfl
        rw [he] at ho
        cases ho
        exact Nat.ne_of_lt hjk (hj.unique hgives)
      exact hnone ⟨other, later, j, k, hlater hne ho, ho, hj, hgives, hjk⟩

/-- The id of the ticket that was issued first is reclaimed in the end. -/
theorem reclaims_first_issued_disorder :
    ∃ id serial, Reclaims disorder (Table.capacity + 4) id serial := by
  obtain ⟨hdesk, -⟩ := disorder_givesUp
  refine reclaims_first_issued ?_ hdesk.closed hdesk.size ⟨0, 0, ?_⟩
  · exact getElem?_afterFull_add 4
  · rw [hdesk.entries, if_pos rfl]

/-- But the other ticket was given up before, and its id has been abandoned for a longer time. -/
theorem reclaims_abandoned_last :
    ReclaimsAt disorder (Table.capacity + 4) 0 ∧
      AbandonedSince disorder (Table.capacity + 4) 0 (Table.capacity + 3) ∧
      AbandonedSince disorder (Table.capacity + 4) 1 (Table.capacity + 2) ∧
      ¬ IsLongestAbandoned disorder (Table.capacity + 4) 0 := by
  obtain ⟨hdesk, hsecond, hfirst⟩ := disorder_givesUp
  have hzero : (after disorder (Table.capacity + 4)).table.entries[(0 : TransactionId)]? =
      some (.abandoned 0) := by
    rw [hdesk.entries, if_pos rfl]
  have hone : (after disorder (Table.capacity + 4)).table.entries[(1 : TransactionId)]? =
      some (.abandoned 1) := by
    rw [hdesk.entries, if_neg (by decide), if_pos rfl]
  have hsince : AbandonedSince disorder (Table.capacity + 4) 0 (Table.capacity + 3) :=
    ⟨Nat.lt_succ_self _, 0, hfirst, hzero⟩
  have hlonger : AbandonedSince disorder (Table.capacity + 4) 1 (Table.capacity + 2) :=
    ⟨Nat.lt_succ_of_lt (Nat.lt_succ_self _), 1, hsecond, hone⟩
  obtain ⟨id, serial, hreclaims, he, hleast⟩ :=
    exists_reclaimsAt (getElem?_afterFull_add 4) hdesk.closed hdesk.size ⟨0, 0, hzero⟩
  obtain rfl : serial = 0 := Nat.le_zero.1 (hleast 0 0 hzero)
  obtain rfl : id = 0 := id_eq_of_serial he hzero rfl
  refine ⟨hreclaims, hsince, hlonger, ?_⟩
  rintro ⟨k, hk, hlongest⟩
  obtain rfl := hk.unique hsince
  exact Nat.not_succ_le_self _ (hlongest 1 _ hlonger)

end Desk

end Modbus
