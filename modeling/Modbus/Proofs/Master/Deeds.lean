import Modbus.Proofs.Master.Output
import Modbus.Proofs.Transaction.Representation

/-!
# What the deeds of a master tell

The deeds in a trace tell what has become of a master: the state of its desk (`Trace.desk`), which
calls are in progress, namely those that have been started and have not ended, and which tickets are
held, namely those of the calls in progress (`Master.Tells`). A trace can be cut at any deed
(`Trace.cut`), so that all this is known of the master that does it.
-/

namespace Modbus

namespace Deed

/-- The call whose frame is appended to the buffer. -/
def written? : Deed → Option Call
  | write c => some c
  | _ => none

/-- The call that ends. -/
def finished? : Deed → Option Call
  | finish c _ => some c
  | _ => none

/-- The reason for which the table is closed. -/
def reason? : Deed → Option Fault
  | close reason => some reason
  | _ => none

/-- What is done at the desk. -/
def action? : Deed → Option DeskAction
  | start _ => some .allocate
  | write c => some (.markSent c.serial)
  | finish c _ => some (.drop c.serial)
  | read _ => none
  | pass f => some (.resolve f)
  | close reason => some (.close reason)

variable {ds : List Deed} {c : Call}

/-- A call is among the started ones if and only if its start is among the deeds. -/
theorem mem_started : c ∈ ds.filterMap Deed.started? ↔ .start c ∈ ds := by
  rw [List.mem_filterMap]
  constructor
  · rintro ⟨d, hd, hc⟩
    cases d <;> cases hc
    exact hd
  · exact fun hd => ⟨_, hd, rfl⟩

/-- A call is among the written ones if and only if its writing is among the deeds. -/
theorem mem_written : c ∈ ds.filterMap Deed.written? ↔ .write c ∈ ds := by
  rw [List.mem_filterMap]
  constructor
  · rintro ⟨d, hd, hc⟩
    cases d <;> cases hc
    exact hd
  · exact fun hd => ⟨_, hd, rfl⟩

/-- A call is among the finished ones if and only if an ending of it is among the deeds. -/
theorem mem_finished : c ∈ ds.filterMap Deed.finished? ↔ ∃ ending, .finish c ending ∈ ds := by
  rw [List.mem_filterMap]
  constructor
  · rintro ⟨d, hd, hc⟩
    cases d <;> cases hc
    exact ⟨_, hd⟩
  · exact fun ⟨ending, hd⟩ => ⟨_, hd, rfl⟩

end Deed

/-! ## The desk along a trace -/

/-- The desk after the first deeds of a trace. -/
def deskAt (ds : List Deed) (n : Nat) : Desk := Desk.run {} ((ds.take n).filterMap Deed.action?)

/-- The first deeds are the first ones of them and those in between. -/
theorem take_eq_append (ds : List Deed) {n k : Nat} (h : n ≤ k) :
    ds.take k = ds.take n ++ (ds.take k).drop n := by
  have hsplit := (List.take_append_drop n (ds.take k)).symm
  rwa [List.take_take, Nat.min_eq_left h] at hsplit

namespace Master

variable {m : Master} {d : Option Deed} {ds : List Deed} {o : Outcome}

/-- A trace can be cut at any deed. -/
theorem Trace.cut {d : Deed} {n : Nat} (h : Trace m ds o) (hd : ds[n]? = some d) :
    ∃ o₁ o₂ o₃, Trace m (ds.take n) o₁ ∧ Change o₁.master (some d) o₂ ∧
      Trace o₂.master (ds.drop (n + 1)) o₃ ∧
      o = (o₁.andThen fun _ => o₂).andThen fun _ => o₃ := by
  induction h with
  | refl => cases hd
  | @step ds d' o o' h hc ih =>
    by_cases hn : n < ds.length
    · rw [List.getElem?_append_left hn] at hd
      obtain ⟨o₁, o₂, o₃, h₁, hc₁, h₂, rfl⟩ := ih hd
      refine ⟨o₁, o₂, o₃.andThen fun _ => o', ?_, hc₁, ?_, Outcome.andThen_assoc _ _ _⟩
      · rwa [List.take_append_of_le_length (Nat.le_of_lt hn)]
      · rw [List.drop_append_of_le_length hn]
        exact h₂.step hc
    · rw [List.getElem?_append_right (Nat.le_of_not_lt hn)] at hd
      cases d' with
      | none => cases hd
      | some d' =>
        have hlast : n = ds.length := by
          obtain ⟨hlt, -⟩ := List.getElem?_eq_some_iff.1 hd
          simp only [Option.toList_some, List.length_singleton] at hlt
          omega
        subst hlast
        rw [Nat.sub_self] at hd
        cases hd
        refine ⟨o, o', _, ?_, hc, ?_, (Outcome.andThen_stay _).symm⟩
        · rwa [List.take_left]
        · rw [List.drop_eq_nil_of_le (by simp)]
          exact .refl

/-! ## One change -/

/-- What a change does at the desk is told by its deed. -/
theorem Change.desk (h : Change m d o) :
    o.master.desk = m.desk.run (d.toList.filterMap Deed.action?) := by
  cases h with
  | progress hp => cases hp <;> rfl
  | join hnew =>
    obtain ⟨ticket, hallocate, -⟩ := newCall_inv hnew
    show _ = m.desk.act .allocate
    rw [Desk.act, hallocate]
  | _ => rfl

/-- Either nothing is done at the desk, or one action. -/
theorem Change.desk_cases (h : Change m d o) :
    d.bind Deed.action? = none ∧ o.master.desk = m.desk ∨
      ∃ a, d.bind Deed.action? = some a ∧ o.master.desk = m.desk.act a := by
  have hactions : d.toList.filterMap Deed.action? = (d.bind Deed.action?).toList := by
    cases d with
    | none => rfl
    | some d => cases d <;> rfl
  have hdesk := h.desk
  rw [hactions] at hdesk
  cases ha : d.bind Deed.action? with
  | none => rw [ha] at hdesk; exact .inl ⟨rfl, hdesk⟩
  | some a => rw [ha] at hdesk; exact .inr ⟨a, rfl, hdesk⟩

/-- The frame of a call is appended by the deed that says so. -/
theorem Change.written (h : Change m d o) : o.written = d.toList.filterMap Deed.written? := by
  cases h with
  | progress hp => cases hp <;> rfl
  | _ => rfl

@[simp] theorem calls_dropTicket (m : Master) (c : Call) : (m.dropTicket c).calls = m.calls := rfl

/-- With a call, nothing but this call is taken out of a master. -/
theorem calls_remove_isCall (m : Master) (c : Call) :
    (m.remove (·.isCall c)).calls = m.calls.filter (· ≠ c) := by
  have hqueue : (m.queue.filter (!·.isCall c)).filterMap Waiter.call? =
      (m.queue.filterMap Waiter.call?).filter (· ≠ c) := by
    rw [List.filterMap_filter, List.filter_filterMap]
    congr 1
    funext w
    cases w <;> simp [Waiter.isCall, Waiter.call?, Option.filter]
  simp only [calls, remove, hqueue, List.filter_append]
  simp [Waiter.isCall]

/-- With a disconnection, no call is taken out. -/
theorem calls_remove_isDisconnect (m : Master) (id : CallId) :
    (m.remove (·.isDisconnect id)).calls = m.calls := by
  have hqueue : (m.queue.filter (!·.isDisconnect id)).filterMap Waiter.call? =
      m.queue.filterMap Waiter.call? := by
    rw [List.filterMap_filter]
    congr 1
    funext w
    cases w <;> simp [Waiter.isDisconnect, Waiter.call?]
  simp only [calls, remove, hqueue]
  simp [Waiter.isDisconnect]

/-- A call that is taken out of a list stands in front of the rest. -/
theorem perm_filter_ne {cs : List Call} {c : Call} (hc : c ∈ cs) (hnodup : cs.Nodup) :
    (cs.filter (· ≠ c) ++ [c]).Perm cs := by
  have herase : cs.erase c = cs.filter (· ≠ c) := by
    rw [hnodup.erase_eq_filter]
    congr 1
    funext c'
    simp [bne, BEq.beq]
  rw [← herase]
  exact (List.perm_append_singleton _ _).trans (List.perm_cons_erase hc).symm

/-- The calls in progress after a change are those before it, with the call that is started and
without the call that ends. -/
theorem Change.calls (h : Change m d o) (hnodup : m.calls.Nodup) :
    (o.master.calls ++ d.toList.filterMap Deed.finished?).Perm
      (m.calls ++ d.toList.filterMap Deed.started?) := by
  cases h with
  | progress hp =>
    cases hp with
    | write hq _ =>
      simp [Master.calls, hq, withQueue, writeFrame, List.filterMap_cons, Waiter.call?,
        Deed.finished?, Deed.started?]
    | flush => exact .refl _
    | @letGo c rest hq _ =>
      simpa [Master.calls, hq, Waiter.call?] using
        List.perm_append_singleton c (rest.filterMap Waiter.call? ++ m.awaiting)
    | @fail c _ rest _ hq _ =>
      simpa [Master.calls, hq, Waiter.call?, List.filterMap_cons, Deed.finished?, Deed.started?]
        using List.perm_append_singleton c (rest.filterMap Waiter.call? ++ m.awaiting)
    | shut hq => simp [Master.calls, hq, List.filterMap_cons, Waiter.call?]
    | @answer c before behind _ ha _ =>
      have hfront := List.perm_append_singleton c
        (m.queue.filterMap Waiter.call? ++ before ++ behind)
      have hmiddle : (m.queue.filterMap Waiter.call? ++ before ++ c :: behind).Perm
          (c :: (m.queue.filterMap Waiter.call? ++ before ++ behind)) := List.perm_middle
      simpa [Master.calls, ha, dropTicket, withAwaiting, List.filterMap_cons, Deed.finished?,
        Deed.started?] using hfront.trans hmiddle.symm
  | @join _ _ _ _ c _ _ =>
    have hbehind : ([c] ++ m.awaiting).Perm (m.awaiting ++ [c]) := List.perm_append_comm
    simpa [Master.calls, Waiter.call?, List.filterMap_cons, Deed.finished?, Deed.started?] using
      hbehind.append_left (m.queue.filterMap Waiter.call?)
  | queueUp => simp [Master.calls, withQueue, List.filterMap_cons, Waiter.call?]
  | expire hc _ | abandon hc =>
    simpa [calls_remove_isCall, List.filterMap_cons, Deed.finished?, Deed.started?] using
      perm_filter_ne hc hnodup
  | leave id => simp [calls_remove_isDisconnect]
  | _ => simp [Master.calls, List.filterMap_cons, Deed.finished?, Deed.started?]

/-- A call in progress is still in progress after a change, unless it has ended. -/
theorem Change.mem_calls {c : Call} (h : Change m d o) (hnodup : m.calls.Nodup)
    (hc : c ∈ m.calls) : c ∈ o.master.calls ∨ ∃ ending, d = some (.finish c ending) := by
  have hmem := (h.calls hnodup).symm.subset (List.mem_append_left _ hc)
  refine (List.mem_append.1 hmem).imp_right fun hf => ?_
  obtain ⟨ending, hd⟩ := Deed.mem_finished.1 hf
  exact ⟨ending, Option.mem_toList.1 hd⟩

/-- Only a call in progress ends. -/
theorem Change.mem_calls_of_finish {c : Call} {ending : Ending}
    (h : Change m (some (.finish c ending)) o) : c ∈ m.calls := by
  cases h with
  | progress hp =>
    cases hp with
    | fail hq _ => simp [Master.calls, hq, Waiter.call?]
    | answer ha _ => simp [Master.calls, ha]
  | expire hc _ | abandon hc => exact hc

/-- The ticket of a call is issued when the call is started. -/
theorem Change.allocate {c : Call} (h : Change m (some (.start c)) o) :
    ∃ ticket, m.desk.allocate = .ok (c.serial, ticket, o.master.desk) ∧
      ticket.id = c.transaction := by
  cases h with
  | progress hp => cases hp
  | join hnew =>
    obtain ⟨ticket, hallocate, hid, -⟩ := newCall_inv hnew
    exact ⟨ticket, hallocate, hid.symm⟩

/-- A call that takes its delivery finds it at the desk, and its caller is told of it. -/
theorem Change.taken {c : Call} {delivery : Delivery}
    (h : Change m (some (.finish c (.taken delivery))) o) :
    m.deliveryFor? c = some delivery ∧
      o.events = [.finished c.id (c.verdict m.policy delivery)] := by
  cases h with
  | progress hp =>
    cases hp with
    | answer _ hd => exact ⟨hd, rfl⟩

/-- A table that is not closed is closed by the deed that says so. -/
theorem Change.closed (h : Change m d o) :
    o.master.desk.table.closed =
      m.desk.table.closed.or (d.toList.filterMap Deed.reason?).head? := by
  have hdesk := h.desk
  have hkept (a : DeskAction) (ha : o.master.desk = m.desk.act a) (hne : ∀ r, a ≠ .close r) :
      o.master.desk.table.closed = m.desk.table.closed.or none := by
    rw [ha, Desk.closed_act hne, Option.or_none]
  cases d with
  | none => simp [hdesk, Desk.run]
  | some d =>
    cases d with
    | start c => exact hkept .allocate hdesk (by simp)
    | write c => exact hkept (.markSent c.serial) hdesk (by simp)
    | finish c ending => exact hkept (.drop c.serial) hdesk (by simp)
    | read buffer =>
      have : o.master.desk = m.desk := hdesk
      rw [this]
      exact Option.or_none.symm
    | pass f => exact hkept (.resolve f) hdesk (by simp)
    | close reason =>
      have : o.master.desk = m.desk.close reason := hdesk
      rw [this, Desk.table_close]
      rfl

/-! ## All changes -/

/-- The state of the desk is told by the deeds. -/
theorem Trace.desk (h : Trace m ds o) :
    o.master.desk = m.desk.run (ds.filterMap Deed.action?) := by
  induction h with
  | refl => rfl
  | step _ hc ih =>
    rw [List.filterMap_append, Desk.run, List.foldl_append, ← Desk.run, ← Desk.run, ← ih]
    exact hc.desk

/-- The calls that have been written are those whose writing is among the deeds. -/
theorem Trace.written (h : Trace m ds o) : o.written = ds.filterMap Deed.written? := by
  induction h with
  | refl => rfl
  | step _ hc ih => rw [Outcome.written_andThen, List.filterMap_append, ih, hc.written]

/-- The table keeps the first reason for which it is closed. -/
theorem Trace.closed (h : Trace m ds o) :
    o.master.desk.table.closed =
      m.desk.table.closed.or (ds.filterMap Deed.reason?).head? := by
  induction h with
  | refl => simp
  | @step ds d o o' _ hc ih =>
    rw [List.filterMap_append, List.head?_append, Outcome.master_andThen, hc.closed, ih,
      Option.or_assoc]

/-- So the reason is told by what is brought about from outside. -/
theorem Changes.closed {inputs : List Deed} (h : Changes m inputs o) :
    o.master.desk.table.closed =
      m.desk.table.closed.or (inputs.filterMap Deed.reason?).head? := by
  obtain ⟨ds, ht, rfl⟩ := h
  rw [ht.closed, List.filterMap_filter]
  congr 3
  funext d
  cases d <;> rfl

/-- What the deeds of a trace from the beginning tell. -/
structure Tells (ds : List Deed) (o : Outcome) : Prop where
  trace : ∃ policy capacity, Trace (attach policy capacity) ds o
  /-- The calls that have been started are in progress or have ended. -/
  calls : (o.master.calls ++ ds.filterMap Deed.finished?).Perm (ds.filterMap Deed.started?)
  /-- The tickets that are held are those of the calls in progress. -/
  held : ∀ {serial : Serial},
    serial ∈ o.master.desk.tickets ↔ ∃ c ∈ o.master.calls, c.serial = serial

namespace Tells

/-- The frames of the written calls have been sent, and the serials tell the calls apart. -/
theorem sends (h : Tells ds o) : SendsFrames (ds.filterMap Deed.started?) o := by
  obtain ⟨policy, capacity, ht⟩ := h.trace
  exact (SendsFrames.attach policy capacity).trace ht

/-- No call is started twice. -/
theorem nodup (h : Tells ds o) : (ds.filterMap Deed.started?).Nodup :=
  h.sends.serials.imp fun hlt heq => Nat.ne_of_lt hlt (congrArg Call.serial heq)

/-- No call is in progress twice. -/
theorem nodup_calls (h : Tells ds o) : o.master.calls.Nodup :=
  (List.nodup_append.1 (h.calls.nodup_iff.2 h.nodup)).1

/-- A call in progress has been started. -/
theorem started_of_mem (h : Tells ds o) {c : Call} (hc : c ∈ o.master.calls) :
    c ∈ ds.filterMap Deed.started? := h.calls.subset (List.mem_append_left _ hc)

/-- A call that has been started is in progress or has ended. -/
theorem mem_calls_or_finished (h : Tells ds o) {c : Call} (hs : .start c ∈ ds) :
    c ∈ o.master.calls ∨ ∃ ending, .finish c ending ∈ ds := by
  have hmem := h.calls.symm.subset (Deed.mem_started.2 hs)
  exact (List.mem_append.1 hmem).imp_right Deed.mem_finished.1

/-- Calls in progress have serials of their own. -/
theorem eq_of_serial (h : Tells ds o) {c c' : Call} (hc : c ∈ o.master.calls)
    (hc' : c' ∈ o.master.calls) (hs : c.serial = c'.serial) : c = c' :=
  h.sends.eq_of_serial (h.started_of_mem hc) (h.started_of_mem hc') hs

/-- Nothing has been done on a new master. -/
theorem attach (policy : UnitPolicy) (capacity : Nat) :
    Tells [] ⟨Master.attach policy capacity, [], []⟩ where
  trace := ⟨policy, capacity, .refl⟩
  calls := .refl _
  held := by simp [Master.attach, Master.calls]

/-- The tickets of the calls in progress, and no others, are held after a change. -/
theorem held_change (h : Tells ds o) {o' : Outcome} (hc : Change o.master d o') {serial : Serial} :
    serial ∈ o'.master.desk.tickets ↔ ∃ c ∈ o'.master.calls, c.serial = serial := by
  have hcalls := hc.calls h.nodup_calls
  have hsame (hs : d.toList.filterMap Deed.started? = [])
      (hf : d.toList.filterMap Deed.finished? = []) :
      (∃ c ∈ o'.master.calls, c.serial = serial) ↔ ∃ c ∈ o.master.calls, c.serial = serial := by
    rw [hs, hf, List.append_nil, List.append_nil] at hcalls
    simp only [hcalls.mem_iff]
  cases d with
  | none =>
    have hdesk : o'.master.desk = o.master.desk := hc.desk
    rw [hsame rfl rfl, hdesk, h.held]
  | some d =>
    cases d with
    | start c =>
      obtain ⟨ticket, hallocate, -⟩ := hc.allocate
      obtain ⟨table, -, -, -, hdesk'⟩ := Desk.allocate_inv hallocate
      have hmem (c' : Call) : c' ∈ o'.master.calls ↔ c' ∈ o.master.calls ∨ c' = c := by
        simpa [List.filterMap_cons, Deed.started?, Deed.finished?] using hcalls.mem_iff (a := c')
      rw [hdesk', Std.TreeMap.mem_insert, Nat.compare_eq_eq, h.held]
      simp only [hmem]
      constructor
      · rintro (hs | ⟨c', hc', hs⟩)
        · exact ⟨c, .inr rfl, hs⟩
        · exact ⟨c', .inl hc', hs⟩
      · rintro ⟨c', hc' | rfl, hs⟩
        · exact .inr ⟨c', hc', hs⟩
        · exact .inl hs
    | finish c ending =>
      have hperm : (o'.master.calls ++ [c]).Perm o.master.calls := by
        simpa [List.filterMap_cons, Deed.started?, Deed.finished?] using hcalls
      have hmem := hc.mem_calls_of_finish
      have hdrop : o'.master.desk = o.master.desk.drop c.serial := hc.desk
      rw [hdrop, Desk.mem_drop, h.held]
      constructor
      · rintro ⟨⟨c', hc', hs⟩, hne⟩
        rcases List.mem_append.1 (hperm.symm.subset hc') with hc' | hc'
        · exact ⟨c', hc', hs⟩
        · rw [List.mem_singleton.1 hc'] at hs
          exact absurd hs hne
      · rintro ⟨c', hc', rfl⟩
        have hc'' := hperm.subset (List.mem_append_left [c] hc')
        refine ⟨⟨c', hc'', rfl⟩, fun hs => ?_⟩
        obtain rfl := h.eq_of_serial hmem hc'' hs
        have hnodup := hperm.nodup_iff.2 h.nodup_calls
        exact (List.nodup_append.1 hnodup).2.2 c hc' c List.mem_cons_self rfl
    | read | write | pass | close =>
      rw [hsame rfl rfl, ← h.held]
      rcases hc.desk_cases with ⟨-, hdesk⟩ | ⟨a, ha, hdesk⟩
      · rw [hdesk]
      · rw [hdesk, Desk.mem_act]
        cases ha <;> simp

/-- Every change goes on with what the deeds tell. -/
theorem change (h : Tells ds o) {o' : Outcome} (hc : Change o.master d o') :
    Tells (ds ++ d.toList) (o.andThen fun _ => o') where
  trace := by
    obtain ⟨policy, capacity, ht⟩ := h.trace
    exact ⟨policy, capacity, ht.step hc⟩
  calls := by
    have hswap (cs cs' cs'' : List Call) : (cs ++ cs' ++ cs'').Perm (cs ++ cs'' ++ cs') := by
      rw [List.append_assoc, List.append_assoc]
      exact List.perm_append_comm.append_left cs
    rw [List.filterMap_append, List.filterMap_append, ← List.append_assoc]
    have hnow := (hc.calls h.nodup_calls).append_right (ds.filterMap Deed.finished?)
    have hbefore := h.calls.append_right (d.toList.filterMap Deed.started?)
    exact (hswap _ _ _).trans (hnow.trans ((hswap _ _ _).trans hbefore))
  held := h.held_change hc

/-- They tell it all along a run. -/
theorem of_trace {policy : UnitPolicy} {capacity : Nat}
    (h : Trace (Master.attach policy capacity) ds o) : Tells ds o := by
  induction h with
  | refl => exact .attach policy capacity
  | step _ hc ih => exact ih.change hc

/-- The desk is as the deeds tell. -/
theorem desk (h : Tells ds o) : o.master.desk = Desk.run {} (ds.filterMap Deed.action?) := by
  obtain ⟨policy, capacity, ht⟩ := h.trace
  exact ht.desk

/-- Entries and tickets of the desk agree. -/
theorem agrees (h : Tells ds o) : o.master.desk.Agrees := by
  rw [h.desk, ← Desk.after_length]
  exact Desk.agrees _ _

/-- A call has been written if and only if its writing is among the deeds. -/
theorem mem_written (h : Tells ds o) {c : Call} : c ∈ o.written ↔ .write c ∈ ds := by
  obtain ⟨policy, capacity, ht⟩ := h.trace
  rw [ht.written, Deed.mem_written]

/-- A call that has ended is not in progress. -/
theorem not_mem_of_finished (h : Tells ds o) {c : Call} {ending : Ending}
    (hf : .finish c ending ∈ ds) : c ∉ o.master.calls := fun hc =>
  have hnodup := h.calls.nodup_iff.2 h.nodup
  (List.nodup_append.1 hnodup).2.2 c hc c (Deed.mem_finished.2 ⟨ending, hf⟩) rfl

/-- The ticket of a call in progress has the id of the call, and is marked if the frame of the call
has been appended. -/
theorem ticket (h : Tells ds o) {c : Call} (hc : c ∈ o.master.calls) :
    ∃ ticket, o.master.desk.tickets[c.serial]? = some ticket ∧ ticket.id = c.transaction ∧
      (ticket.isSent = true ↔ .write c ∈ ds) := by
  have hmem := h.held.2 ⟨c, hc, rfl⟩
  obtain ⟨ticket, ht⟩ := Desk.held_iff.1 hmem
  obtain ⟨c', hc', hs, hid, hsent⟩ := h.sends.tickets ht
  obtain rfl := h.sends.eq_of_serial hc' (h.started_of_mem hc) hs
  exact ⟨ticket, ht, hid.symm, hsent.trans h.mem_written⟩

/-- A call in progress without a reply waits for one. -/
theorem waiting (h : Tells ds o) {c : Call} (hc : c ∈ o.master.calls)
    (hnone : ∀ reply, o.master.desk.outlook? c.serial ≠ some (.ready reply)) :
    o.master.desk.table.entries[c.transaction]? = some (.pending c.serial) := by
  obtain ⟨ticket, ht, hid, -⟩ := h.ticket hc
  refine h.agrees.pending_iff.2 ⟨ticket, ht, hid, Option.eq_none_iff_forall_ne_some.2 ?_⟩
  exact fun reply hd => hnone reply (Desk.outlook?_eq_ready.2 ⟨ticket, ht, hd⟩)

/-- The next ticket is not held. -/
theorem nextSerial_not_held (h : Tells ds o) :
    o.master.desk.table.nextSerial ∉ o.master.desk.tickets := by
  rw [h.desk, ← Desk.after_length]
  exact Desk.nextSerial_not_held _ _

/-- What the deeds tell goes on along a trace. -/
theorem extend (h : Tells ds o) {ds' : List Deed} {o' : Outcome} (ht : Trace o.master ds' o') :
    Tells (ds ++ ds') (o.andThen fun _ => o') := by
  obtain ⟨policy, capacity, h⟩ := h.trace
  exact of_trace (h.trans ht)

end Tells

/-- What is known of a master before and after a deed. -/
theorem Trace.tells_at {policy : UnitPolicy} {capacity n : Nat} {d : Deed}
    (h : Trace (attach policy capacity) ds o) (hd : ds[n]? = some d) :
    ∃ o₁ o₂ o₃, Tells (ds.take n) o₁ ∧ o₁.master.desk = deskAt ds n ∧
      Change o₁.master (some d) o₂ ∧ Tells (ds.take (n + 1)) (o₁.andThen fun _ => o₂) ∧
      Trace o₂.master (ds.drop (n + 1)) o₃ ∧
      o = (o₁.andThen fun _ => o₂).andThen fun _ => o₃ := by
  obtain ⟨o₁, o₂, o₃, h₁, hc, h₂, ho⟩ := h.cut hd
  have htells := Tells.of_trace h₁
  refine ⟨o₁, o₂, o₃, htells, htells.desk, hc, ?_, h₂, ho⟩
  rw [List.take_add_one, hd]
  exact htells.change hc

end Master

end Modbus
