import Modbus.Proofs.Transaction.Agreement
import Modbus.Proofs.Transaction.History

/-!
# The table represents the tickets

What is in the table is told by the history of a run: which tickets have been issued (`IssuesAt`),
marked as sent (`MarksAt`), dropped (`DropsAt`) and given a reply (`RepliesAt`). Pending entries are
those of the tickets that are live without a reply, and abandoned ones those of tickets that have
been dropped after they had been marked, and before a reply came (`Desk.represents_tickets`).

Looking at a ticket changes nothing (`Desk.outlook?`). So a holder who has seen the reply and keeps
the ticket for a while is one who drops it later, and `DeskAction.take` is looking and dropping in
one.
-/

namespace Modbus

namespace Desk

/-! ## The history of tickets -/

variable (actions : List DeskAction)

/-- At a position of a run, a ticket ends: its holder drops it, or takes its delivery. -/
def DropsAt (n : Nat) (serial : Serial) : Prop :=
  serial ∈ (after actions n).tickets ∧
    (actions[n]? = some (.drop serial) ∨
      actions[n]? = some (.take serial) ∧
        ∃ delivery, (after actions n).outlook? serial = some (.ready delivery))

/-- At a position of a run, a ticket is given a reply. -/
inductive RepliesAt (n : Nat) (serial : Serial) : Delivery → Prop where
  /-- A frame is received, and the table says that it is the response for the ticket. -/
  | answer {f : Frame} (ha : actions[n]? = some (.resolve f))
    (hs : ((after actions n).table.resolve f.header.transaction).2 = some serial) :
    RepliesAt n serial (.ok f)
  /-- The table is closed, and it says that the ticket waits for a response. -/
  | refuse {reason : Fault} (ha : actions[n]? = some (.close reason))
    (hs : serial ∈ ((after actions n).table.close reason).2) :
    RepliesAt n serial (.error (.transport ((after actions n).table.closed.getD reason)))

/-- A ticket has been issued for an id and has not been dropped. -/
def IsLive (n : Nat) (serial : Serial) (id : TransactionId) : Prop :=
  (∃ j < n, IssuesAt actions j serial id) ∧ ¬ ∃ j < n, DropsAt actions j serial

/-- A ticket has been given a reply. -/
def IsReplied (n : Nat) (serial : Serial) : Prop :=
  ∃ j < n, ∃ reply, RepliesAt actions j serial reply

variable {actions} {n : Nat} {id : TransactionId}

/-- The next ticket is not held. -/
theorem nextSerial_not_held (actions : List DeskAction) (n : Nat) :
    (after actions n).table.nextSerial ∉ (after actions n).tickets := by
  intro hmem
  obtain ⟨ticket, ht⟩ := held_iff.1 hmem
  obtain ⟨j, hj, hi⟩ := issued_of_held ht
  exact Nat.lt_irrefl _ (hi.lt_nextSerial hj)

/-- Entries with the same serial are the same. -/
theorem id_eq_of_serial {id' : TransactionId} {e e' : Entry}
    (h : (after actions n).table.entries[id]? = some e)
    (h' : (after actions n).table.entries[id']? = some e') (hs : e.serial = e'.serial) :
    id = id' := by
  obtain ⟨j, -, hi⟩ := issued_of_entry h
  obtain ⟨k, -, hi'⟩ := issued_of_entry h'
  exact (hi.unique (hs ▸ hi')).2

/-- Tickets and entries agree all along a run. -/
theorem agrees (actions : List DeskAction) (n : Nat) : (after actions n).Agrees := by
  refine after_induction (p := fun _ d => d.Agrees) ?_ ?_ ?_ n
  · exact ⟨by simp⟩
  · exact fun n a _ h => h.act (nextSerial_not_held actions n) a
  · exact fun _ _ h => h

/-- Only who waits is given a reply. -/
theorem RepliesAt.waiting {reply : Delivery} (h : RepliesAt actions n serial reply) :
    ∃ ticket, (after actions n).tickets[serial]? = some ticket ∧ ticket.delivery = none := by
  have hpending : ∃ id : TransactionId,
      (after actions n).table.entries[id]? = some (.pending serial) := by
    cases h with
    | answer _ hs => exact ⟨_, Table.resolve_snd_eq_some.1 hs⟩
    | refuse _ hs => exact Table.mem_close.1 hs
  obtain ⟨id, hp⟩ := hpending
  obtain ⟨ticket, ht, -, hd⟩ := (agrees actions n).pending_iff.1 hp
  exact ⟨ticket, ht, hd⟩

/-- A reply is put on the ticket. -/
theorem RepliesAt.delivered {reply : Delivery} (h : RepliesAt actions n serial reply)
    {ticket : Ticket} (ht : (after actions (n + 1)).tickets[serial]? = some ticket) :
    ticket.delivery = some reply := by
  cases h with
  | answer ha hs =>
    rw [after_succ ha, act, getElem?_resolve, if_pos (Table.resolve_snd_eq_some.1 hs)] at ht
    obtain ⟨_, -, rfl⟩ := Option.map_eq_some_iff.1 ht
    rfl
  | refuse ha hs =>
    rw [after_succ ha, act, getElem?_close, if_pos hs] at ht
    obtain ⟨_, -, rfl⟩ := Option.map_eq_some_iff.1 ht
    rfl

/-- Without a reply, what is on a ticket stays as it is. -/
theorem delivery_succ {ticket ticket' : Ticket}
    (ht : (after actions n).tickets[serial]? = some ticket)
    (ht' : (after actions (n + 1)).tickets[serial]? = some ticket')
    (h : ¬ ∃ reply, RepliesAt actions n serial reply) : ticket'.delivery = ticket.delivery := by
  cases ha : actions[n]? with
  | none =>
    rw [after_succ_of_none ha, ht] at ht'
    cases ht'
    rfl
  | some a =>
    rw [after_succ ha] at ht'
    by_cases hclose : ∃ reason, a = .close reason
    · obtain ⟨reason, rfl⟩ := hclose
      rw [act, getElem?_close, if_neg fun hs => h ⟨_, .refuse ha hs⟩, ht] at ht'
      cases ht'
      rfl
    · cases ticketStep ht' with
      | issued hok =>
        obtain ⟨-, -, rfl, -⟩ := allocate_inv hok
        exact absurd (held_iff.2 ⟨_, ht⟩)
          (nextSerial_not_held actions n)
      | kept ht'' _ | marked ht'' =>
        rw [ht] at ht''
        cases ht''
        rfl
      | answered _ he => exact absurd ⟨_, .answer ha (Table.resolve_snd_eq_some.2 he)⟩ h
      | @refused reason => exact absurd ⟨reason, rfl⟩ hclose

/-- A ticket is held if it has just been issued, or has been held and is not dropped. -/
theorem mem_succ : serial ∈ (after actions (n + 1)).tickets ↔
    (∃ id, IssuesAt actions n serial id) ∨
      serial ∈ (after actions n).tickets ∧ ¬ DropsAt actions n serial := by
  cases ha : actions[n]? with
  | none => simp [after_succ_of_none ha, IssuesAt, DropsAt, ha]
  | some a =>
    rw [after_succ ha, mem_act]
    have htake : (∃ delivery, (after actions n).outlook? serial = some (.ready delivery)) ↔
        (((after actions n).outlook? serial).bind Outlook.delivery?).isSome := by
      have hsevered := (agrees actions n).outlook?_ne_severed serial
      cases ho : (after actions n).outlook? serial with
      | none => simp
      | some o => cases o <;> simp_all [Outlook.delivery?]
    have hissue : (∃ id, IssuesAt actions n serial id) ↔
        a = .allocate ∧ ∃ ticket d', (after actions n).allocate = .ok (serial, ticket, d') := by
      constructor
      · rintro ⟨_, ha', ticket, d', hok, -⟩
        exact ⟨Option.some.inj (ha.symm.trans ha'), ticket, d', hok⟩
      · rintro ⟨rfl, ticket, d', hok⟩
        exact ⟨ticket.id, ha, ticket, d', hok, rfl⟩
    rw [hissue, DropsAt, ha, htake]
    refine or_congr_right (and_congr_right fun hmem => ?_)
    simp [hmem]

/-- The serial of a ticket that is held is in front of the next one. -/
theorem lt_nextSerial_of_held (h : serial ∈ (after actions n).tickets) :
    serial < (after actions n).table.nextSerial := by
  obtain ⟨ticket, ht⟩ := held_iff.1 h
  obtain ⟨j, hj, hi⟩ := issued_of_held ht
  exact hi.lt_nextSerial hj

/-- A ticket that is issued now has not been held before. -/
theorem IssuesAt.not_held_before (h : IssuesAt actions n serial id) {j : Nat} (hj : j ≤ n) :
    serial ∉ (after actions j).tickets := by
  intro hmem
  have hlt := Nat.lt_of_lt_of_le (lt_nextSerial_of_held hmem) (nextSerial_after_le hj)
  rw [← h.nextSerial.1] at hlt
  exact Nat.lt_irrefl _ hlt

/-- A ticket is held from its issue until it is dropped. -/
theorem isLive_iff : IsLive actions n serial id ↔
    ∃ ticket, (after actions n).tickets[serial]? = some ticket ∧ ticket.id = id := by
  have hheld : serial ∈ (after actions n).tickets ↔
      (∃ j < n, ∃ id, IssuesAt actions j serial id) ∧ ¬ ∃ j < n, DropsAt actions j serial := by
    induction n with
    | zero => simp [after, run]
    | succ n ih =>
      rw [mem_succ, ih, Nat.exists_lt_succ_right, Nat.exists_lt_succ_right]
      constructor
      · rintro (⟨id, hi⟩ | ⟨⟨hi, hd⟩, hd'⟩)
        · refine ⟨.inr ⟨id, hi⟩, ?_⟩
          rintro (⟨j, hj, hd⟩ | hd)
          · exact hi.not_held_before (Nat.le_of_lt hj) hd.1
          · exact hi.not_held_before (Nat.le_refl n) hd.1
        · exact ⟨.inl hi, fun hd'' => hd''.elim hd hd'⟩
      · rintro ⟨hi | hi, hd⟩
        · exact .inr ⟨⟨hi, fun hd' => hd (.inl hd')⟩, fun hd' => hd (.inr hd')⟩
        · exact .inl hi
  constructor
  · rintro ⟨⟨j, hj, hi⟩, hd⟩
    have hmem := hheld.2 ⟨⟨j, hj, id, hi⟩, hd⟩
    obtain ⟨ticket, ht⟩ := held_iff.1 hmem
    obtain ⟨k, -, hi'⟩ := issued_of_held ht
    exact ⟨ticket, ht, (hi.unique hi').2.symm⟩
  · rintro ⟨ticket, ht, rfl⟩
    exact ⟨issued_of_held ht, (hheld.1 (held_iff.2 ⟨_, ht⟩)).2⟩

/-- Two replies at one position are the same. -/
theorem RepliesAt.eq {reply reply' : Delivery} (h : RepliesAt actions n serial reply)
    (h' : RepliesAt actions n serial reply') : reply = reply' := by
  cases h with
  | answer ha =>
    cases h' with
    | answer ha' => rw [ha] at ha'; cases ha'; rfl
    | refuse ha' => rw [ha] at ha'; cases ha'
  | refuse ha =>
    cases h' with
    | answer ha' => rw [ha] at ha'; cases ha'
    | refuse ha' => rw [ha] at ha'; cases ha'; rfl

/-- What is on a ticket that is held is the reply that it has been given. -/
theorem delivery_iff {ticket : Ticket} {reply : Delivery}
    (h : (after actions n).tickets[serial]? = some ticket) :
    ticket.delivery = some reply ↔ ∃ j < n, RepliesAt actions j serial reply := by
  induction n generalizing ticket with
  | zero => simp [after, run] at h
  | succ n ih =>
    rw [Nat.exists_lt_succ_right]
    have hmem : serial ∈ (after actions (n + 1)).tickets := held_iff.2 ⟨_, h⟩
    rcases mem_succ.1 hmem with ⟨id, hi⟩ | ⟨hheld, -⟩
    · -- a ticket that is issued now has nothing on it, and nobody has replied to it before
      have hnone : ticket.delivery = none := by
        obtain ⟨ha, ticket', d, hok, -⟩ := hi
        rw [after_succ ha] at h
        obtain ⟨table, -, -, hticket, rfl⟩ := allocate_inv hok
        simp only [act, hok, Std.TreeMap.getElem?_insert_self, Option.some.injEq] at h
        rw [← h, hticket]
      refine iff_of_false (by simp [hnone]) ?_
      have hwaits {j : Nat} (hj : j ≤ n) : ¬ RepliesAt actions j serial reply := fun hr => by
        obtain ⟨ticket', ht', -⟩ := hr.waiting
        exact hi.not_held_before hj (held_iff.2 ⟨_, ht'⟩)
      rintro (⟨j, hj, hr⟩ | hr)
      · exact hwaits (Nat.le_of_lt hj) hr
      · exact hwaits (Nat.le_refl n) hr
    · obtain ⟨before, hb⟩ := held_iff.1 hheld
      by_cases hr : ∃ reply', RepliesAt actions n serial reply'
      · obtain ⟨reply', hr⟩ := hr
        obtain ⟨_, hb', hwaits⟩ := hr.waiting
        rw [hb] at hb'
        cases hb'
        rw [hr.delivered h, ← ih hb, hwaits]
        constructor
        · intro he
          cases he
          exact .inr hr
        · rintro (he | hr')
          · cases he
          · rw [hr.eq hr']
      · rw [delivery_succ hb h hr, ih hb, or_iff_left fun hr' => hr ⟨reply, hr'⟩]

/-- Who has been given a reply is given no other one. -/
theorem RepliesAt.unique {j : Nat} {reply reply' : Delivery} (h : RepliesAt actions j serial reply)
    (h' : RepliesAt actions n serial reply') : j = n ∧ reply = reply' := by
  have hlater {j n : Nat} {reply reply' : Delivery} (h : RepliesAt actions j serial reply)
      (h' : RepliesAt actions n serial reply') : ¬ j < n := fun hlt => by
    obtain ⟨ticket, ht, hd⟩ := h'.waiting
    rw [(delivery_iff ht).2 ⟨j, hlt, h⟩] at hd
    cases hd
  obtain rfl : j = n :=
    Nat.le_antisymm (Nat.le_of_not_lt (hlater h' h)) (Nat.le_of_not_lt (hlater h h'))
  exact ⟨rfl, h.eq h'⟩

/-- The pending entries are those of the tickets that have been issued, not been dropped and not
been given a reply. -/
theorem pending_iff : (after actions n).table.entries[id]? = some (.pending serial) ↔
    IsLive actions n serial id ∧ ¬ IsReplied actions n serial := by
  rw [(agrees actions n).pending_iff, isLive_iff]
  constructor
  · rintro ⟨ticket, ht, hid, hd⟩
    refine ⟨⟨ticket, ht, hid⟩, ?_⟩
    rintro ⟨j, hj, reply, hr⟩
    rw [(delivery_iff ht).2 ⟨j, hj, hr⟩] at hd
    cases hd
  · rintro ⟨⟨ticket, ht, hid⟩, hr⟩
    refine ⟨ticket, ht, hid, Option.eq_none_iff_forall_ne_some.2 fun reply hd => ?_⟩
    obtain ⟨j, hj, hreply⟩ := (delivery_iff ht).1 hd
    exact hr ⟨j, hj, reply, hreply⟩

/-- Whoever has dropped a ticket does not hold it any more. -/
theorem DropsAt.not_held {j : Nat} (h : DropsAt actions j serial) (hj : j < n) :
    serial ∉ (after actions n).tickets := by
  intro hmem
  obtain ⟨ticket, ht⟩ := held_iff.1 hmem
  exact (isLive_iff.2 ⟨ticket, ht, rfl⟩).2 ⟨j, hj, h⟩

/-- Whoever has dropped a ticket is given no reply any more. -/
theorem DropsAt.not_replied {j : Nat} (h : DropsAt actions j serial)
    (hnone : ¬ IsReplied actions j serial) : ¬ IsReplied actions n serial := by
  rintro ⟨k, -, reply, hr⟩
  rcases Nat.lt_trichotomy k j with hlt | rfl | hgt
  · exact hnone ⟨k, hlt, reply, hr⟩
  · rcases h.2 with ha | ⟨ha, -⟩ <;> cases hr with
    | answer ha' | refuse ha' => rw [ha] at ha'; cases ha'
  · obtain ⟨ticket, ht, -⟩ := hr.waiting
    exact h.not_held hgt (held_iff.2 ⟨_, ht⟩)

/-- An abandoned entry belongs to a ticket that has been marked as sent and then dropped without a
reply. -/
theorem dropped_of_abandoned
    (h : (after actions n).table.entries[id]? = some (.abandoned serial)) :
    ∃ i j k, i < j ∧ j < k ∧ k < n ∧ IssuesAt actions i serial id ∧ MarksAt actions j serial ∧
      DropsAt actions k serial ∧ ¬ IsReplied actions n serial := by
  induction n with
  | zero => simp [after, run] at h
  | succ n ih =>
    have hkept (h : (after actions n).table.entries[id]? = some (.abandoned serial)) :
        ∃ i j k, i < j ∧ j < k ∧ k < n + 1 ∧ IssuesAt actions i serial id ∧
          MarksAt actions j serial ∧ DropsAt actions k serial ∧
          ¬ IsReplied actions (n + 1) serial := by
      obtain ⟨i, j, k, hij, hjk, hk, hi, hm, hd, hr⟩ := ih h
      refine ⟨i, j, k, hij, hjk, Nat.lt_succ_of_lt hk, hi, hm, hd, hd.not_replied fun hr' => hr ?_⟩
      exact hr'.imp fun l hl => ⟨Nat.lt_trans hl.1 hk, hl.2⟩
    cases ha : actions[n]? with
    | none => exact hkept (after_succ_of_none ha ▸ h)
    | some a =>
      have hact := after_succ ha
      rw [hact] at h
      cases entryStep h with
      | kept he => exact hkept he
      | @abandoned _ _ ticket hdrop hp ht hid hs =>
        obtain ⟨i, hin, hi⟩ := issued_of_held ht
        obtain ⟨j, hjn, hm⟩ := (isSent_iff_marked ht).1 hs
        have hij : i < j := by
          refine Nat.lt_of_not_le fun hle => ?_
          exact hi.not_held_before hle hm.2
        have hwaits : ticket.delivery = none := by
          obtain ⟨ticket', ht', -, hd⟩ := (agrees actions n).pending_iff.1 hp
          rw [ht] at ht'
          cases ht'
          exact hd
        have hmem : serial ∈ (after actions n).tickets := held_iff.2 ⟨_, ht⟩
        have hd : DropsAt actions n serial := by
          refine ⟨hmem, ?_⟩
          rcases hdrop with rfl | rfl
          · exact .inl ha
          · -- there is nothing to take
            have hwaiting := (agrees actions n).outlook?_eq_waiting.2 ⟨ticket, ht, hwaits⟩
            simp [act, hwaiting, Outlook.delivery?, hp] at h
        refine ⟨i, j, n, hij, hjn, Nat.lt_succ_self n, hid ▸ hi, hm, hd, hd.not_replied ?_⟩
        exact (pending_iff.1 hp).2

/-- The table represents the tickets after the first actions of a run. -/
structure Represents (actions : List DeskAction) (n : Nat) : Prop where
  /-- There are not more entries than ids. -/
  size_le : (after actions n).table.entries.size ≤ Table.capacity
  /-- Every entry has a serial that has been used, and no other entry has it. -/
  serial_lt : ∀ {id : TransactionId} {e : Entry},
    (after actions n).table.entries[id]? = some e → e.serial < (after actions n).table.nextSerial
  serial_unique : ∀ {id id' : TransactionId} {e e' : Entry},
    (after actions n).table.entries[id]? = some e →
      (after actions n).table.entries[id']? = some e' → e.serial = e'.serial → id = id'
  /-- Pending entries are those of the tickets that have been issued, not been dropped and not been
  given a reply. -/
  pending_iff : ∀ {id : TransactionId} {serial : Serial},
    (after actions n).table.entries[id]? = some (.pending serial) ↔
      IsLive actions n serial id ∧ ¬ IsReplied actions n serial
  /-- Abandoned entries are those of tickets that have been marked as sent and then dropped without
  a reply. -/
  abandoned : ∀ {id : TransactionId} {serial : Serial},
    (after actions n).table.entries[id]? = some (.abandoned serial) →
      ∃ i j k, i < j ∧ j < k ∧ k < n ∧ IssuesAt actions i serial id ∧ MarksAt actions j serial ∧
        DropsAt actions k serial ∧ ¬ IsReplied actions n serial
  /-- A ticket is given at most one reply. -/
  reply_unique : ∀ {j k : Nat} {serial : Serial} {reply reply' : Delivery},
    RepliesAt actions j serial reply → RepliesAt actions k serial reply' →
      j = k ∧ reply = reply'
  /-- Who holds a ticket finds its reply, or may wait for one. -/
  ready_iff : ∀ {serial : Serial} {reply : Delivery},
    (after actions n).outlook? serial = some (.ready reply) ↔
      (∃ id, IsLive actions n serial id) ∧ ∃ j < n, RepliesAt actions j serial reply
  waiting_iff : ∀ {serial : Serial}, (after actions n).outlook? serial = some .waiting ↔
    (∃ id, IsLive actions n serial id) ∧ ¬ IsReplied actions n serial
  not_severed : ∀ serial, (after actions n).outlook? serial ≠ some .severed
  /-- Dropping a ticket leaves the entries of others alone, whatever their ids. -/
  drop_other : ∀ {id : TransactionId} {e : Entry} (serial : Serial),
    (after actions n).table.entries[id]? = some e → e.serial ≠ serial →
      ((after actions n).drop serial).table.entries[id]? = some e
  /-- Once all tickets have been dropped, only abandoned entries are left. -/
  only_abandoned : (∀ serial id, ¬ IsLive actions n serial id) →
    ∀ {id : TransactionId} {e : Entry}, (after actions n).table.entries[id]? = some e →
      ∃ serial, e = .abandoned serial

/-- A ticket that is held is live, and the other way round. -/
theorem exists_isLive_iff : (∃ id, IsLive actions n serial id) ↔
    ∃ ticket, (after actions n).tickets[serial]? = some ticket := by
  simp only [isLive_iff]
  constructor
  · rintro ⟨_, ticket, ht, -⟩
    exact ⟨ticket, ht⟩
  · rintro ⟨ticket, ht⟩
    exact ⟨ticket.id, ticket, ht, rfl⟩

/-- Who holds a ticket finds the reply that has come for it. -/
theorem outlook?_ready_iff : (after actions n).outlook? serial = some (.ready reply) ↔
    (∃ id, IsLive actions n serial id) ∧ ∃ j < n, RepliesAt actions j serial reply := by
  rw [outlook?_eq_ready, exists_isLive_iff]
  constructor
  · rintro ⟨ticket, ht, hd⟩
    exact ⟨⟨ticket, ht⟩, (delivery_iff ht).1 hd⟩
  · rintro ⟨⟨ticket, ht⟩, hr⟩
    exact ⟨ticket, ht, (delivery_iff ht).2 hr⟩

/-- **The table represents the tickets**, in every state of every run. -/
theorem represents_tickets (actions : List DeskAction) (n : Nat) : Represents actions n where
  size_le := (after actions n).table.size_le_capacity
  serial_lt h := by
    obtain ⟨j, hj, hi⟩ := issued_of_entry h
    exact hi.lt_nextSerial hj
  serial_unique := id_eq_of_serial
  pending_iff := pending_iff
  abandoned := dropped_of_abandoned
  reply_unique h h' := h.unique h'
  ready_iff := outlook?_ready_iff
  waiting_iff := by
    intro serial
    have hreplied {ticket : Ticket} (ht : (after actions n).tickets[serial]? = some ticket) :
        ticket.delivery = none ↔ ¬ IsReplied actions n serial := by
      simp only [Option.eq_none_iff_forall_ne_some, ne_eq, delivery_iff ht, IsReplied]
      exact ⟨fun h ⟨j, hj, reply, hr⟩ => h reply ⟨j, hj, hr⟩,
        fun h reply ⟨j, hj, hr⟩ => h ⟨j, hj, reply, hr⟩⟩
    rw [(agrees actions n).outlook?_eq_waiting, exists_isLive_iff]
    constructor
    · rintro ⟨ticket, ht, hd⟩
      exact ⟨⟨ticket, ht⟩, (hreplied ht).1 hd⟩
    · rintro ⟨⟨ticket, ht⟩, hr⟩
      exact ⟨ticket, ht, (hreplied ht).2 hr⟩
  not_severed := (agrees actions n).outlook?_ne_severed
  drop_other serial h hs := by
    rcases entries_drop (after actions n) serial _ with hkept | ⟨_, -, -, hp, -⟩
    · rw [hkept, h]
    · rw [h] at hp
      cases hp
      exact absurd rfl hs
  only_abandoned hdropped := by
    intro id e h
    cases e with
    | pending serial => exact absurd (pending_iff.1 h).1 (hdropped serial id)
    | abandoned serial => exact ⟨serial, rfl⟩

end Desk

end Modbus
