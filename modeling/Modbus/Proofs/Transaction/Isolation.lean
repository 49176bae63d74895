import Modbus.Proofs.Transaction.History

/-!
# Late responses reach nobody else

A transaction id is used again and again, while responses may come late or never. As long as the
peer answers each request at most once (`Desk.AnswersOnce`), a frame can only reach the ticket whose
request it answers, unless its id was reclaimed when all ids were in use.

The reason is that a request that may still be answered occupies its own entry: its holder has not
dropped it, or has dropped it after sending it, and then the entry stays behind as an abandoned one
(`Desk.Occupies`). No other ticket can have the id meanwhile. `Desk.KeepsIds` is this invariant,
`keepsIds` shows it for every run, and `obtains_own_answer` reads it at the step at which a frame
was received.
-/

namespace Modbus

namespace Desk

variable {actions : List DeskAction} {asked : Nat → Serial} {n : Nat} {serial : Serial}
  {id : TransactionId}

/-- An id is occupied by a ticket: the entry is that of the ticket, and it is pending as long as the
ticket is held. -/
def Occupies (d : Desk) (serial : Serial) (id : TransactionId) : Prop :=
  ∃ e, d.table.entries[id]? = some e ∧ e.serial = serial ∧
    (serial ∈ d.tickets → e = .pending serial)

/-- Two tickets do not occupy one id. -/
theorem Occupies.unique {d : Desk} {serial' : Serial} (h : Occupies d serial id)
    (h' : Occupies d serial' id) : serial = serial' := by
  obtain ⟨e, he, rfl, -⟩ := h
  obtain ⟨e', he', rfl, -⟩ := h'
  rw [he] at he'
  cases he'
  rfl

/-- What leaves an entry and does not issue its ticket leaves it occupied. -/
theorem Occupies.congr {d d' : Desk} (h : Occupies d serial id)
    (he : d'.table.entries[id]? = d.table.entries[id]?)
    (ht : serial ∈ d'.tickets → serial ∈ d.tickets) : Occupies d' serial id := by
  obtain ⟨e, hid, hs, hp⟩ := h
  exact ⟨e, he.trans hid, hs, fun hm => hp (ht hm)⟩

variable (actions asked) in
/-- A request that may still be answered: its ticket has been issued for an id, it is held or has
been marked as sent, it has not been answered, and its id has not been reclaimed. -/
structure Unanswered (n : Nat) (serial : Serial) (id : TransactionId) : Prop where
  issued : ∃ j < n, IssuesAt actions j serial id
  held_or_marked : serial ∈ (after actions n).tickets ∨ ∃ j < n, MarksAt actions j serial
  not_answered : ¬ ∃ j < n, AnswersAt actions asked j serial
  not_reclaimed : ¬ ∃ j < n, ReclaimsAt actions j id

/-- Occupied ids outlive the allocation of other ids. -/
theorem Occupies.allocate {d d' : Desk} {s : Serial} {ticket : Ticket}
    (h : Occupies d serial id) (hok : d.allocate = .ok (s, ticket, d')) (hne : serial ≠ s)
    (hfull : d.table.entries.size = Table.capacity → ticket.id ≠ id) : Occupies d' serial id := by
  obtain ⟨table, htable, rfl, -, rfl⟩ := allocate_inv hok
  have hid : ticket.id ≠ id := by
    rintro rfl
    obtain ⟨-, ⟨hsize, -, -⟩ | ⟨-, hfree, -⟩⟩ := Table.allocate_inv htable
    · exact hfull (Nat.le_antisymm d.table.size_le_capacity hsize) rfl
    · obtain ⟨e, he, -⟩ := h
      exact Table.not_mem_of_firstFree hfree (Table.mem_of_entry he)
  obtain ⟨next, rfl⟩ := Table.eq_enter_of_allocate htable
  refine h.congr (by rw [Table.getElem?_enter, if_neg hid]) fun hm => ?_
  rw [Std.TreeMap.mem_insert, Nat.compare_eq_eq] at hm
  exact hm.resolve_left (Ne.symm hne)

/-- Occupied ids outlive the dropping of tickets, that of their own too if it has been marked as
sent. -/
theorem Occupies.drop {d : Desk} {s : Serial} (h : Occupies d serial id)
    (hsent : s = serial → ∀ ticket, d.tickets[serial]? = some ticket → ticket.isSent = true) :
    Occupies (d.drop s) serial id := by
  rcases entries_drop d s id with hk | ⟨t, ht, -, hp, hr⟩
  · refine h.congr hk fun hm => ?_
    simp only [Std.TreeMap.mem_iff_isSome_getElem?, getElem?_drop] at hm ⊢
    split at hm
    · cases hm
    · exact hm
  · obtain ⟨e, he, rfl, -⟩ := h
    rw [hp] at he
    cases he
    refine ⟨.abandoned s, by rw [hr, hsent rfl t ht, if_pos rfl], rfl, fun hm => ?_⟩
    rw [Std.TreeMap.mem_iff_isSome_getElem?, Entry.serial, getElem?_drop, if_pos rfl] at hm
    cases hm

/-- A request that may still be answered was so before, unless its ticket has just been issued. -/
theorem Unanswered.before (h : Unanswered actions asked (n + 1) serial id)
    (hi : ¬ IssuesAt actions n serial id)
    (ht : serial ∈ (after actions (n + 1)).tickets → serial ∈ (after actions n).tickets) :
    Unanswered actions asked n serial id where
  issued := (Nat.exists_lt_succ_right.1 h.issued).resolve_right hi
  held_or_marked := by
    rcases h.held_or_marked with hm | hm
    · exact .inl (ht hm)
    · exact (Nat.exists_lt_succ_right.1 hm).symm.imp_left (·.2)
  not_answered := fun ⟨j, hj, ha⟩ => h.not_answered ⟨j, Nat.lt_succ_of_lt hj, ha⟩
  not_reclaimed := fun ⟨j, hj, hr⟩ => h.not_reclaimed ⟨j, Nat.lt_succ_of_lt hj, hr⟩

/-- What is held after an action other than an allocation was held before. -/
theorem mem_of_mem_act {d : Desk} {a : DeskAction} (ha : a ≠ .allocate)
    (h : serial ∈ (d.act a).tickets) : serial ∈ d.tickets := by
  rw [Std.TreeMap.mem_iff_isSome_getElem?, Option.isSome_iff_exists] at h ⊢
  obtain ⟨ticket, h⟩ := h
  cases ticketStep h with
  | issued => exact absurd rfl ha
  | kept ht | marked ht | answered ht | refused ht => exact ⟨_, ht⟩

/-- A request that may still be answered was so before an action other than an allocation. -/
theorem Unanswered.before_act {a : DeskAction} (h : Unanswered actions asked (n + 1) serial id)
    (ha : actions[n]? = some a) (hne : a ≠ .allocate) : Unanswered actions asked n serial id := by
  refine h.before (fun hi => ?_) (fun hm => ?_)
  · exact hne (Option.some.inj (ha.symm.trans hi.1))
  · rw [after_succ ha] at hm
    exact mem_of_mem_act hne hm

/-- A table that is open has been open before. -/
theorem open_before (h : (after actions (n + 1)).table.closed = none) :
    (after actions n).table.closed = none := by
  cases ha : actions[n]? with
  | none => rwa [after_succ_of_none ha] at h
  | some a =>
    rw [after_succ ha] at h
    rw [← h, closed_act]
    rintro reason rfl
    simp [act, table_close, Table.close] at h

/-! ## The invariant -/

variable (actions asked) in
/-- In an open table, the id of a request that may still be answered is occupied by its ticket. -/
def KeepsIds (n : Nat) : Prop :=
  ∀ {serial id}, (after actions n).table.closed = none →
    Unanswered actions asked n serial id → Occupies (after actions n) serial id

/-- An allocation gives the new ticket its id, and takes no id that is occupied. -/
theorem KeepsIds.allocate (hk : KeepsIds actions asked n) (ha : actions[n]? = some .allocate) :
    KeepsIds actions asked (n + 1) := by
  intro serial id hopen hu
  have hopen' := open_before hopen
  cases hok : (after actions n).allocate with
  | error e =>
    have hact : after actions (n + 1) = after actions n := by rw [after_succ ha, act, hok]
    have hi : ¬ IssuesAt actions n serial id := by
      rintro ⟨-, ticket, d, hok', -⟩
      rw [hok] at hok'
      cases hok'
    rw [hact]
    exact hk hopen' (hu.before hi fun hm => hact ▸ hm)
  | ok r =>
    obtain ⟨s, ticket, d⟩ := r
    have hact : after actions (n + 1) = d := by rw [after_succ ha, act, hok]
    have hissue : IssuesAt actions n s ticket.id := ⟨ha, ticket, d, hok, rfl⟩
    rw [hact]
    by_cases hs : serial = s
    · -- the ticket is the one that is issued now
      subst hs
      obtain ⟨j, -, hj⟩ := hu.issued
      obtain ⟨-, rfl⟩ := hj.unique hissue
      obtain ⟨table, htable, hserial, -, rfl⟩ := allocate_inv hok
      obtain ⟨next, rfl⟩ := Table.eq_enter_of_allocate htable
      exact ⟨.pending serial, by rw [Table.getElem?_enter, if_pos rfl, hserial], rfl,
        fun _ => rfl⟩
    · have hi : ¬ IssuesAt actions n serial id := by
        rintro ⟨-, ticket', d', hok', -⟩
        rw [hok] at hok'
        cases hok'
        exact hs rfl
      have hu' : Unanswered actions asked n serial id := by
        refine hu.before hi fun hm => ?_
        obtain ⟨table, -, -, -, rfl⟩ := allocate_inv hok
        rw [hact, Std.TreeMap.mem_insert, Nat.compare_eq_eq] at hm
        exact hm.resolve_left (Ne.symm hs)
      refine (hk hopen' hu').allocate hok hs ?_
      rintro hsize rfl
      exact hu.not_reclaimed ⟨n, Nat.lt_succ_self n, hsize, s, hissue⟩

/-- A ticket that is dropped leaves its id occupied if its request may still be answered, since it
has been marked as sent then. -/
theorem KeepsIds.drop (hk : KeepsIds actions asked n) {a : DeskAction} (ha : actions[n]? = some a)
    {s : Serial} (hact : (after actions n).act a = (after actions n).drop s)
    (hne : a ≠ .allocate) (hne' : ∀ s, a ≠ .markSent s) : KeepsIds actions asked (n + 1) := by
  intro serial id hopen hu
  have hocc := hk (open_before hopen) (hu.before_act ha hne)
  have hdrop := (after_succ ha).trans hact
  rw [hdrop]
  refine hocc.drop ?_
  rintro rfl ticket ht
  rw [isSent_iff_marked ht]
  rcases hu.held_or_marked with hm | hm
  · rw [hdrop, Std.TreeMap.mem_iff_isSome_getElem?, getElem?_drop, if_pos rfl] at hm
    cases hm
  · refine (Nat.exists_lt_succ_right.1 hm).resolve_right fun hm => ?_
    exact hne' s (Option.some.inj (ha.symm.trans hm.1))

/-- A frame frees the id of the request that it answers, which is nobody else's. -/
theorem KeepsIds.resolve (h : AnswersOnce actions asked) (hk : KeepsIds actions asked n) {f : Frame}
    (ha : actions[n]? = some (.resolve f)) : KeepsIds actions asked (n + 1) := by
  intro serial id hopen hu
  have hopen' := open_before hopen
  have hbefore := hu.before_act ha nofun
  have hocc := hk hopen' hbefore
  have hne : serial ≠ asked n := by
    intro heq
    exact hu.not_answered ⟨n, Nat.lt_succ_self n, ⟨f, ha⟩, heq.symm⟩
  have hid : f.header.transaction ≠ id := by
    rintro rfl
    obtain ⟨hissued, hmarked, hanswered⟩ := h n f ha
    have hasked : Unanswered actions asked n (asked n) f.header.transaction :=
      ⟨hissued, .inr hmarked, hanswered, hbefore.not_reclaimed⟩
    exact hne (hocc.unique (hk hopen' hasked))
  rw [after_succ ha]
  refine hocc.congr ?_ (mem_of_mem_act nofun)
  simp [act, table_resolve, hid]

/-- All along a run, requests that may still be answered keep their ids. -/
theorem keepsIds (h : AnswersOnce actions asked) (n : Nat) : KeepsIds actions asked n := by
  induction n with
  | zero =>
    intro serial id _ hu
    obtain ⟨j, hj, -⟩ := hu.issued
    cases hj
  | succ n ih =>
    cases ha : actions[n]? with
    | none =>
      intro serial id hopen hu
      have hi : ¬ IssuesAt actions n serial id := by
        intro hi
        rw [hi.1] at ha
        cases ha
      rw [after_succ_of_none ha]
      exact ih (open_before hopen) (hu.before hi fun hm => by rwa [after_succ_of_none ha] at hm)
    | some a =>
      cases a with
      | allocate => exact ih.allocate ha
      | drop s => exact ih.drop ha rfl (by simp) (by simp)
      | resolve f => exact ih.resolve h ha
      | markSent s =>
        intro serial id hopen hu
        rw [after_succ ha]
        have hbefore := ih (open_before hopen) (hu.before_act ha (by simp))
        refine hbefore.congr ?_ (mem_of_mem_act (by simp))
        simp [act]
      | take s =>
        rcases act_take (after actions n) s with hact | hact
        · exact ih.drop ha hact (by simp) (by simp)
        · intro serial id hopen hu
          rw [after_succ ha, hact]
          exact ih (open_before hopen) (hu.before_act ha (by simp))
      | close reason =>
        intro serial id hopen
        rw [after_succ ha] at hopen
        simp [act, table_close, Table.close] at hopen

/-! ## Received frames -/

/-- Whoever has a frame came to find it at some step before. -/
theorem exists_obtains {f : Frame}
    (h : (after actions n).outlook? serial = some (.ready (.ok f))) :
    ∃ k < n, Obtains (after actions k) (after actions (k + 1)) serial f := by
  induction n with
  | zero => cases h
  | succ n ih =>
    by_cases hbefore : (after actions n).outlook? serial = some (.ready (.ok f))
    · obtain ⟨k, hk, ho⟩ := ih hbefore
      exact ⟨k, Nat.lt_succ_of_lt hk, ho⟩
    · exact ⟨n, Nat.lt_succ_self n, hbefore, h⟩

/-- A frame is found by the holder of the ticket whose entry is removed by it. -/
theorem Obtains.resolved {f : Frame}
    (h : Obtains (after actions n) (after actions (n + 1)) serial f) :
    actions[n]? = some (.resolve f) ∧
      (after actions n).table.entries[f.header.transaction]? = some (.pending serial) := by
  obtain ⟨hbefore, hafter⟩ := h
  rw [Ne, outlook?_eq_ready] at hbefore
  rw [outlook?_eq_ready] at hafter
  obtain ⟨ticket, ht, hd⟩ := hafter
  cases ha : actions[n]? with
  | none =>
    rw [after_succ_of_none ha] at ht
    exact absurd ⟨ticket, ht, hd⟩ hbefore
  | some a =>
    rw [after_succ ha] at ht
    cases ticketStep ht with
    | issued hok =>
      obtain ⟨-, -, -, hnew, -⟩ := allocate_inv hok
      rw [hnew] at hd
      cases hd
    | kept hb | marked hb => exact absurd ⟨_, hb, hd⟩ hbefore
    | refused ht => cases hd
    | answered ht he =>
      cases hd
      exact ⟨rfl, he⟩

/-- **A frame reaches the ticket that it answers.** When the holder of a ticket finds a frame, it
came to do so when the frame was received, and the frame carries the id of the ticket. It is the
answer to the request of this very ticket, unless the id has been reclaimed before because all ids
were in use; and it always is if no allocation has found the table full. -/
theorem obtains_own_answer (h : AnswersOnce actions asked) {f : Frame}
    (hready : (after actions n).outlook? serial = some (.ready (.ok f))) :
    ∃ k < n, Obtains (after actions k) (after actions (k + 1)) serial f ∧
      actions[k]? = some (.resolve f) ∧
      (∃ j < k, IssuesAt actions j serial f.header.transaction) ∧
      (asked k = serial ∨ ∃ j < k, ReclaimsAt actions j f.header.transaction) ∧
      ((∀ j < k, actions[j]? = some .allocate →
        (after actions j).table.entries.size < Table.capacity) → asked k = serial) := by
  obtain ⟨k, hk, ho⟩ := exists_obtains hready
  obtain ⟨ha, he⟩ := ho.resolved
  have hown : (¬ ∃ j < k, ReclaimsAt actions j f.header.transaction) → asked k = serial := by
    intro hr
    obtain ⟨hi, hm, hn⟩ := h k f ha
    have hopen : (after actions k).table.closed = none := by
      cases hc : (after actions k).table.closed with
      | none => rfl
      | some reason =>
        rw [entries_of_closed (by simp [hc])] at he
        cases he
    obtain ⟨e, he', hs, -⟩ := keepsIds h k hopen ⟨hi, .inr hm, hn, hr⟩
    rw [he] at he'
    cases he'
    exact hs.symm
  refine ⟨k, hk, ho, ha, issued_of_entry he, ?_, fun hroom => hown ?_⟩
  · by_cases hr : ∃ j < k, ReclaimsAt actions j f.header.transaction
    · exact .inr hr
    · exact .inl (hown hr)
  · rintro ⟨j, hj, hsize, -, ha', -⟩
    exact absurd hsize (Nat.ne_of_lt (hroom j hj ha'))

/-- A run in which a ticket is dropped after its request has been sent, and its answer comes while
the next ticket waits for its own. -/
def lateRun : List DeskAction :=
  [.allocate, .markSent 0, .drop 0, .allocate, .markSent 1, .resolve ⟨⟨0, 15⟩, [0x83, 2]⟩,
    .resolve ⟨⟨1, 15⟩, [0x83, 2]⟩]

/-- The frame that the second ticket finds is the answer to its own request, not the late one. -/
theorem obtains_own_answer_lateRun :
    AnswersOnce lateRun (· - 5) ∧
      (after lateRun 7).outlook? 1 = some (.ready (.ok ⟨⟨1, 15⟩, [0x83, 2]⟩)) ∧
      ∃ k < 7, Obtains (after lateRun k) (after lateRun (k + 1)) 1 ⟨⟨1, 15⟩, [0x83, 2]⟩ ∧
        k - 5 = 1 := by
  have hanswers : AnswersOnce lateRun (· - 5) := by
    intro n f h
    match n, h with
    | 0, h | 1, h | 2, h | 3, h | 4, h | _ + 7, h => cases h
    | 5, h =>
      cases h
      refine ⟨⟨0, by decide, rfl, _, _, rfl, rfl⟩, ⟨1, by decide, rfl, by decide⟩, ?_⟩
      rintro ⟨j, hj, ⟨f, hf⟩, -⟩
      match j, hf with
      | 0, hf | 1, hf | 2, hf | 3, hf | 4, hf => cases hf
    | 6, h =>
      cases h
      refine ⟨⟨3, by decide, rfl, _, _, rfl, rfl⟩, ⟨4, by decide, rfl, by decide⟩, ?_⟩
      rintro ⟨j, hj, -, ha⟩
      have ha : j - 5 = 1 := ha
      omega
  have hready : (after lateRun 7).outlook? 1 = some (.ready (.ok ⟨⟨1, 15⟩, [0x83, 2]⟩)) := rfl
  obtain ⟨k, hk, ho, -, -, -, hroom⟩ := obtains_own_answer hanswers hready
  refine ⟨hanswers, hready, k, hk, ho, hroom fun j hj ha => ?_⟩
  match j, ha with
  | 0, _ | 3, _ => decide
  | 1, ha | 2, ha | 4, ha | 5, ha => cases ha
  | j + 6, _ => omega

end Desk

end Modbus
