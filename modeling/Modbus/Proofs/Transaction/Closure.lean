import Modbus.Proofs.Transaction.Representation

/-!
# A closed table stays closed

The first time a table is closed decides about everything that follows. Whoever waits then is given
the reason, and from then on the table is one and the same, empty and closed for this reason,
whatever is done (`Desk.table_act_of_closed`). So nothing can be allocated or answered any more.
What has been given to a ticket before stays on it until it is dropped (`Desk.ready_of_le`).
`Desk.closed_for_good` puts this together, for every close of every run.
-/

namespace Modbus

namespace Desk

variable {d : Desk} {reason : Fault}

/-- Nothing that is done changes an empty table that has been closed, another close included. -/
theorem table_act_of_closed (hempty : d.table.entries = ∅) (hclosed : d.table.closed = some reason)
    (a : DeskAction) : (d.act a).table = d.table := by
  have hdrop (serial : Serial) : (d.drop serial).table = d.table := by
    cases ht : d.tickets[serial]? with
    | none => rw [drop_of_none ht]
    | some ticket => simp [table_drop ht, Table.release, hempty]
  cases a with
  | allocate => simp [act, allocate_of_closed hclosed]
  | markSent serial => exact table_markSent
  | drop serial => exact hdrop serial
  | take serial =>
    rcases act_take d serial with h | h <;> rw [h]
    exact hdrop serial
  | resolve f => simp [act, table_resolve, Table.resolve, hempty]
  | close later =>
    rw [act, table_close, Table.close, hclosed, Option.some_or, ← hempty, ← hclosed]

variable {actions : List DeskAction} {j k n : Nat} {serial : Serial} {reply : Delivery}

variable (actions) in
/-- At a position of a run, the table is closed for the first time. -/
structure ClosesAt (n : Nat) (reason : Fault) : Prop where
  closes : actions[n]? = some (.close reason)
  first : ∀ j < n, ∀ earlier, actions[j]? ≠ some (.close earlier)

/-- Among the closes of a run up to a position, one is the first. -/
theorem exists_closesAt (h : actions[k]? = some (.close reason)) :
    ∃ n ≤ k, ∃ first, ClosesAt actions n first := by
  induction k using Nat.strongRecOn generalizing reason with
  | ind k ih =>
    by_cases hearlier : ∃ j < k, ∃ earlier, actions[j]? = some (.close earlier)
    · obtain ⟨j, hj, earlier, h⟩ := hearlier
      obtain ⟨n, hn, first⟩ := ih j hj h
      exact ⟨n, Nat.le_trans hn (Nat.le_of_lt hj), first⟩
    · exact ⟨k, Nat.le_refl k, reason, h, fun j hj earlier he => hearlier ⟨j, hj, earlier, he⟩⟩

/-- A table that nobody has closed is open. -/
theorem open_of_not_closed (h : ∀ j < n, ∀ earlier, actions[j]? ≠ some (.close earlier)) :
    (after actions n).table.closed = none := by
  induction n with
  | zero => rfl
  | succ n ih =>
    have hopen := ih fun j hj => h j (Nat.lt_succ_of_lt hj)
    cases ha : actions[n]? with
    | none => rw [after_succ_of_none ha, hopen]
    | some a =>
      have hother (earlier : Fault) : a ≠ .close earlier := fun he =>
        h n (Nat.lt_succ_self n) earlier (he ▸ ha)
      rw [after_succ ha, closed_act hother, hopen]

/-- After the first close the table does not change any more. -/
theorem ClosesAt.table (h : ClosesAt actions n reason) (hk : n < k) :
    (after actions k).table =
      { (after actions n).table with entries := ∅, closed := some reason } := by
  induction hk with
  | refl =>
    rw [after_succ h.closes, act, table_close, Table.close, open_of_not_closed h.first]
    rfl
  | @step k hk ih =>
    cases ha : actions[k]? with
    | none => rw [after_succ_of_none ha, ih]
    | some a =>
      have hempty : (after actions k).table.entries = ∅ := by rw [ih]
      have hclosed : (after actions k).table.closed = some reason := by rw [ih]
      rw [after_succ ha, table_act_of_closed hempty hclosed, ih]

/-- Nobody is given a reply after the first close. -/
theorem ClosesAt.not_repliesAt (h : ClosesAt actions n reason) (hk : n < k) :
    ¬ RepliesAt actions k serial reply := by
  intro hr
  obtain ⟨ticket, ht, hd⟩ := hr.waiting
  have hpending := (agrees actions k).pending_iff.2 ⟨ticket, ht, rfl, hd⟩
  simp [h.table hk] at hpending

/-- A reply that somebody finds stays on the ticket until it is dropped. -/
theorem ready_of_le (h : (after actions j).outlook? serial = some (.ready reply)) (hjk : j ≤ k)
    (hheld : ∀ i, j ≤ i → i < k → ¬ DropsAt actions i serial) :
    (after actions k).outlook? serial = some (.ready reply) := by
  induction hjk with
  | refl => exact h
  | @step k hk ih =>
    have hready := ih fun i hi hik => hheld i hi (Nat.lt_succ_of_lt hik)
    have hkept := hheld k hk (Nat.lt_succ_self k)
    obtain ⟨ticket, ht, -⟩ := outlook?_eq_ready.1 hready
    have hmem : serial ∈ (after actions k).tickets := held_iff.2 ⟨ticket, ht⟩
    cases ha : actions[k]? with
    | none => rw [after_succ_of_none ha, hready]
    | some a =>
      rw [after_succ ha]
      refine (agrees actions k).ready_act (nextSerial_not_held actions k) hready ?_ ?_
      · rintro rfl
        exact hkept ⟨hmem, .inl ha⟩
      · rintro rfl
        exact hkept ⟨hmem, .inr ⟨ha, reply, hready⟩⟩

/-- What somebody finds after the first close but has not been given in it has been found before. -/
theorem ClosesAt.ready_before (h : ClosesAt actions n reason) (hk : n < k)
    (hready : (after actions k).outlook? serial = some (.ready reply))
    (hreply : ¬ RepliesAt actions n serial reply) :
    (after actions n).outlook? serial = some (.ready reply) := by
  obtain ⟨ticket, ht, hd⟩ := outlook?_eq_ready.1 hready
  obtain ⟨j, -, hr⟩ := (delivery_iff ht).1 hd
  have hj : j < n := by
    rcases Nat.lt_trichotomy j n with hlt | rfl | hgt
    · exact hlt
    · exact absurd hr hreply
    · exact absurd hr (h.not_repliesAt hgt)
  -- the ticket has been held when it was given the reply, and it still is
  have hnot : ¬ ∃ i < k, DropsAt actions i serial := (isLive_iff.2 ⟨ticket, ht, rfl⟩).2
  obtain ⟨waiting, hw, -⟩ := hr.waiting
  obtain ⟨⟨i, hi, hissue⟩, -⟩ := isLive_iff.2 ⟨waiting, hw, rfl⟩
  have hlive : IsLive actions n serial waiting.id :=
    ⟨⟨i, Nat.lt_trans hi hj, hissue⟩, fun ⟨i, hi, hdrop⟩ => hnot ⟨i, Nat.lt_trans hi hk, hdrop⟩⟩
  obtain ⟨before, hb, -⟩ := isLive_iff.1 hlive
  exact outlook?_eq_ready.2 ⟨before, hb, (delivery_iff hb).2 ⟨j, hj, hr⟩⟩

variable (actions) in
/-- What follows from the first close of a table. -/
structure StaysClosed (n : Nat) (reason : Fault) : Prop where
  /-- Whoever holds a ticket without a reply is given the reason. -/
  told : ∀ {serial : Serial} {id : TransactionId}, IsLive actions n serial id →
    ¬ IsReplied actions n serial →
      RepliesAt actions n serial (.error (.transport reason)) ∧
        (after actions (n + 1)).outlook? serial = some (.ready (.error (.transport reason)))
  /-- The table is empty and keeps the reason, and its counters stand still. -/
  table : ∀ k > n, (after actions k).table =
    { (after actions n).table with entries := ∅, closed := some reason }
  /-- Nobody is issued a ticket, and trying to changes nothing. -/
  refused : ∀ k > n, (after actions k).allocate = .error (.transport reason) ∧
    (after actions k).act .allocate = after actions k
  /-- Nobody is given a reply. -/
  silent : ∀ k > n, ∀ serial reply, ¬ RepliesAt actions k serial reply
  /-- A frame that somebody finds has been found before the close. -/
  frames : ∀ k > n, ∀ serial f, (after actions k).outlook? serial = some (.ready (.ok f)) →
    (after actions n).outlook? serial = some (.ready (.ok f))
  /-- Whatever reply has been given, before or by the close, stays on its ticket. -/
  keeps : ∀ {j k : Nat} {serial : Serial} {reply : Delivery}, n ≤ j → j ≤ k →
    (after actions j).outlook? serial = some (.ready reply) →
      (∀ i, j ≤ i → i < k → ¬ DropsAt actions i serial) →
        (after actions k).outlook? serial = some (.ready reply)

/-- Whoever waits when the table is closed for the first time is given the reason. -/
theorem ClosesAt.told (h : ClosesAt actions n reason) {id : TransactionId}
    (hlive : IsLive actions n serial id) (hnone : ¬ IsReplied actions n serial) :
    RepliesAt actions n serial (.error (.transport reason)) ∧
      (after actions (n + 1)).outlook? serial = some (.ready (.error (.transport reason))) := by
  have hopen := open_of_not_closed h.first
  have hpending := pending_iff.2 ⟨hlive, hnone⟩
  constructor
  · have hr : RepliesAt actions n serial _ := .refuse h.closes (Table.mem_close.2 ⟨id, hpending⟩)
    rwa [hopen] at hr
  · rw [after_succ h.closes]
    exact (agrees actions n).ready_close hopen hpending reason

/-- **A closed table stays closed** for the first reason. For every close in a run there is a first
one, and what has been decided then stays as it is, whatever is done afterwards. -/
theorem closed_for_good {later : Fault} (h : actions[k]? = some (.close later)) :
    ∃ n ≤ k, ∃ reason, ClosesAt actions n reason ∧ StaysClosed actions n reason := by
  obtain ⟨n, hn, reason, hfirst⟩ := exists_closesAt h
  refine ⟨n, hn, reason, hfirst, ?_⟩
  constructor
  case told => exact hfirst.told
  case table => exact fun k hk => hfirst.table hk
  case refused =>
    intro k hk
    have hrefused : (after actions k).allocate = .error (.transport reason) :=
      allocate_of_closed (by rw [hfirst.table hk])
    exact ⟨hrefused, by rw [act, hrefused]⟩
  case silent => exact fun k hk serial reply => hfirst.not_repliesAt hk
  case frames =>
    intro k hk serial f hready
    refine hfirst.ready_before hk hready fun hr => ?_
    cases hr with
    | answer ha => rw [hfirst.closes] at ha; cases ha
  case keeps => exact fun _ hjk hready hheld => ready_of_le hready hjk hheld

/-- A run in which the first ticket has its frame when the table is closed, and the second one is
answered too late, after another close. -/
def closingRun : List DeskAction :=
  [.allocate, .allocate, .markSent 0, .markSent 1, .resolve ⟨⟨0, 15⟩, [0x83, 2]⟩,
    .close ⟨.unexpectedEof, "connection closed by peer"⟩, .close ⟨.other, "ignored"⟩,
    .resolve ⟨⟨1, 15⟩, [0x83, 2]⟩, .allocate]

/-- Each of them finds at the end what it has been given first, and nobody is issued a ticket. -/
theorem closed_for_good_closingRun :
    closingRun[6]? = some (.close ⟨.other, "ignored"⟩) ∧
      let d := after closingRun 9
      let e : Error := .transport ⟨.unexpectedEof, "connection closed by peer"⟩
      d.outlook? 0 = some (.ready (.ok ⟨⟨0, 15⟩, [0x83, 2]⟩)) ∧
        d.outlook? 1 = some (.ready (.error e)) ∧ (∃ e', d.allocate = .error e' ∧ e' = e) ∧
        d.table.nextSerial = 2 := by
  have hlater : closingRun[6]? = some (.close ⟨.other, "ignored"⟩) := rfl
  obtain ⟨n, hn, reason, hfirst, hstays⟩ := closed_for_good hlater
  obtain ⟨rfl, hreason⟩ : n = 5 ∧ reason = ⟨.unexpectedEof, "connection closed by peer"⟩ := by
    have hcloses := hfirst.closes
    match n, hn, hcloses with
    | 5, _, h => cases h; exact ⟨rfl, rfl⟩
    | 6, _, _ => exact absurd rfl (hfirst.first 5 (by decide) _)
    | 0, _, h | 1, _, h | 2, _, h | 3, _, h | 4, _, h => cases h
  subst hreason
  have hheld (i : Nat) (serial : Serial) : ¬ DropsAt closingRun i serial := by
    rintro ⟨-, ha | ⟨ha, -⟩⟩
    · match i, ha with
      | 0, ha | 1, ha | 2, ha | 3, ha | 4, ha | 5, ha | 6, ha | 7, ha | 8, ha => cases ha
    · match i, ha with
      | 0, ha | 1, ha | 2, ha | 3, ha | 4, ha | 5, ha | 6, ha | 7, ha | 8, ha => cases ha
  have hframe : (after closingRun 5).outlook? 0 = some (.ready (.ok ⟨⟨0, 15⟩, [0x83, 2]⟩)) := rfl
  have htold : (after closingRun 6).outlook? 1 =
      some (.ready (.error (.transport ⟨.unexpectedEof, "connection closed by peer"⟩))) := rfl
  refine ⟨hlater, ?_, ?_, ⟨_, (hstays.refused 9 (by decide)).1, rfl⟩, ?_⟩
  · exact hstays.keeps (Nat.le_refl 5) (by decide) hframe fun i _ _ => hheld i 0
  · exact hstays.keeps (by decide) (by decide) htold fun i _ _ => hheld i 1
  · rw [hstays.table 9 (by decide)]
    rfl

end Desk

end Modbus
