import Modbus.Proofs.Master.Answers
import Modbus.Proofs.Master.Deadlines

/-!
# What a disconnection does to calls

A disconnection closes the table at once, and ends the stream when it has its turn. In between, the
calls that have been started before it still have their turns, but nothing can come for them any
more: whoever has no reply when the table is closed has been given the reason for it, and takes
nothing else (`Master.Tells.cutOff`). Nobody joins the queue behind a disconnection, because calls
are refused when the table has been closed (`Outcome.IsOrderly`). So no call is left when the
disconnection has its turn (`Master.Tells.calls_of_disconnected`). `Master.run_disconnects` puts
this together.
-/

namespace Modbus

variable {d : Option Deed} {ds ds' : List Deed} {o o' : Outcome} {c : Call} {id : CallId}

/-! ## The queue behind a disconnection -/

/-- Nobody wants to write behind a disconnection, and when one has had its turn, nobody does at
all. -/
structure Outcome.IsOrderly (o : Outcome) : Prop where
  closed : none ∈ o.master.lineup → o.master.desk.table.closed.isSome
  ordered : o.master.lineup.Pairwise fun w w' => w = none → w' = none
  ended : ∀ id, .disconnected id ∈ o.events →
    o.master.desk.table.closed.isSome ∧ ∀ w ∈ o.master.lineup, w = none

namespace Master

variable {m : Master}

/-- A change takes waiters out of the queue, or one joins it: a call if the table is open, or a
disconnection. -/
theorem Change.lineup (h : Change m d o) :
    o.master.lineup.Sublist m.lineup ∨
      (∃ c, m.desk.table.closed = none ∧ o.master.lineup = m.lineup ++ [some c]) ∨
      o.master.lineup = m.lineup ++ [none] := by
  cases h with
  | progress hp =>
    refine .inl ?_
    cases hp with
    | write hq => simp [Master.lineup, hq, withQueue, Waiter.call?]
    | letGo hq | fail hq | shut hq => simp [Master.lineup, hq]
    | flush | answer => exact .refl _
  | @join _ _ _ _ c _ hnew =>
    refine .inr (.inl ⟨c, ?_, by simp [Master.lineup, Waiter.call?]⟩)
    obtain ⟨ticket, hallocate, -⟩ := newCall_inv hnew
    obtain ⟨table, htable, -⟩ := Desk.allocate_inv hallocate
    exact (Table.allocate_inv htable).1
  | queueUp id => exact .inr (.inr (by simp [Master.lineup, withQueue, Waiter.call?]))
  | expire | abandon | leave => exact .inl (List.filter_sublist.map _)
  | _ => exact .inl (.refl _)

/-- A disconnection ends the stream when it is the first in the queue. -/
theorem Change.disconnected (h : Change m d o) (he : .disconnected id ∈ o.events) :
    m.lineup = none :: o.master.lineup ∧ o.master.desk = m.desk := by
  cases h with
  | progress hp =>
    cases hp with
    | shut hq => simp [Master.lineup, hq, Waiter.call?]
    | _ => simp at he
  | _ => simp at he

/-- A table that has been closed stays closed. -/
theorem Change.closed_isSome (h : Change m d o) (hclosed : m.desk.table.closed.isSome) :
    o.master.desk.table.closed.isSome := by
  rw [h.closed]
  cases hc : m.desk.table.closed with
  | none => simp [hc] at hclosed
  | some reason => rfl

end Master

namespace Outcome

open Master

/-- The queue stays in order, if no disconnection joins the queue of an open table. -/
theorem IsOrderly.change (h : o.IsOrderly) (hc : Change o.master d o')
    (hlineup : none ∈ o'.master.lineup →
      none ∈ o.master.lineup ∨ o.master.desk.table.closed.isSome) :
    (o.andThen fun _ => o').IsOrderly := by
  constructor
  case closed => exact fun hnone => hc.closed_isSome ((hlineup hnone).elim h.closed id)
  case ordered =>
    rcases hc.lineup with hsub | ⟨c, hopen, heq⟩ | heq
    · exact h.ordered.sublist hsub
    · -- no disconnection is in the queue that a call joins
      rw [master_andThen, heq, List.pairwise_append]
      refine ⟨h.ordered, List.pairwise_singleton .., fun w hw w' _ hnone => ?_⟩
      have hclosed := h.closed (hnone ▸ hw)
      simp [hopen] at hclosed
    · rw [master_andThen, heq, List.pairwise_append]
      exact ⟨h.ordered, List.pairwise_singleton .., fun _ _ _ hw' _ => List.mem_singleton.1 hw'⟩
  case ended =>
    intro id he
    rcases List.mem_append.1 he with hbefore | hnow
    · obtain ⟨hclosed, hover⟩ := h.ended id hbefore
      refine ⟨hc.closed_isSome hclosed, fun w hw => ?_⟩
      rcases hc.lineup with hsub | ⟨c, hopen, heq⟩ | heq
      · exact hover w (hsub.subset hw)
      · simp [hopen] at hclosed
      · rw [master_andThen, heq] at hw
        exact (List.mem_append.1 hw).elim (hover w) List.mem_singleton.1
    · obtain ⟨hfront, hdesk⟩ := hc.disconnected hnow
      have hordered := h.ordered
      rw [hfront, List.pairwise_cons] at hordered
      refine ⟨?_, fun w hw => hordered.1 w hw rfl⟩
      rw [master_andThen, hdesk]
      exact h.closed (hfront ▸ List.mem_cons_self)

/-- So it does while a master attends to its calls. -/
theorem IsOrderly.attends (h : o.IsOrderly) (ha : Attends o.master o') :
    (o.andThen fun _ => o').IsOrderly := by
  induction ha with
  | refl => exact o.andThen_stay.symm ▸ h
  | step _ ha ih =>
    have := ih.change ha.change ha.lineup
    simpa [andThen, List.append_assoc] using this

/-- After a change that is not seen from outside, too. -/
theorem IsOrderly.attends_after (h : o.IsOrderly) {m : Master} (hc : Change o.master d ⟨m, [], []⟩)
    (hlineup : none ∈ m.lineup → none ∈ o.master.lineup ∨ o.master.desk.table.closed.isSome)
    (ha : Attends m o') : (o.andThen fun _ => o').IsOrderly := by
  have := (h.change hc hlineup).attends ha
  simpa [andThen] using this

/-- Whatever happens, the queue stays in order. -/
theorem IsOrderly.step (h : o.IsOrderly) (happening : Happening) :
    (o.andThen fun m => m.step happening).IsOrderly := by
  cases happening with
  | start id unit request timeout =>
    cases hnew : o.master.newCall id unit request timeout with
    | error e =>
      have hsame := step_of_refused hnew
      show (o.andThen fun _ => o.master.step (.start id unit request timeout)).IsOrderly
      rw [hsame]
      exact h.change (.refuse hnew) .inl
    | ok r =>
      obtain ⟨c, desk⟩ := r
      refine h.attends_after (.join hnew) (fun hnone => .inl ?_) (attends_start hnew)
      simpa [lineup, Waiter.call?] using hnone
  | cancel id =>
    cases hfind : o.master.calls.find? (·.id = id) with
    | some c =>
      have hlineup (hnone : none ∈ ((o.master.dropTicket c).remove (·.isCall c)).lineup) :=
        mem_lineup_of_remove hnone
      exact h.attends_after (.abandon (List.mem_of_find?_eq_some hfind))
        (fun hnone => .inl (hlineup hnone)) (attends_cancel_call hfind)
    | none =>
      exact h.attends_after (.leave id) (fun hnone => .inl (mem_lineup_of_remove hnone))
        (attends_cancel_disconnection hfind)
  | advance span => exact h.attends_after (.tick span) .inl (attends_advance _ span)
  | disconnect id => exact h.attends (attends_disconnect _ id)
  | receive most => exact h.attends (attends_receive _ _)
  | send bytes => exact h.attends (attends_send _ bytes)
  | finish => exact h.attends (attends_finish _)
  | deafen => exact h.attends_after .deafen .inl (proceeds_proceed _).attends
  | wake treatments => exact h.attends_after (.wake treatments) .inl (proceeds_proceed _).attends

theorem IsOrderly.run (h : o.IsOrderly) (hs : List Happening) :
    (o.andThen fun m => m.run hs).IsOrderly := by
  induction hs generalizing o with
  | nil => exact o.andThen_stay.symm ▸ h
  | cons happening hs ih =>
    have := ih (h.step happening)
    rwa [andThen_assoc] at this

/-- So it is in every run. -/
theorem IsOrderly.of_attach {policy : UnitPolicy} {capacity : Nat} (hs : List Happening) :
    ((Master.attach policy capacity).run hs).IsOrderly := by
  have hnew : IsOrderly ⟨Master.attach policy capacity, [], []⟩ := ⟨nofun, .nil, nofun⟩
  have := hnew.run hs
  simpa [andThen] using this

end Outcome

namespace Master

variable {m : Master} {reason : Fault}

/-! ## The end of the stream -/

/-- When the table has been closed, nobody waits for a delivery. -/
theorem Tells.awaiting_of_closed (h : Tells ds o) (hquiet : o.master.IsQuiet)
    (hclosed : o.master.desk.table.closed.isSome) : o.master.awaiting = [] := by
  refine List.eq_nil_iff_forall_not_mem.2 fun c hc => ?_
  obtain ⟨ticket, ht, -⟩ := h.ticket (List.mem_append_right _ hc)
  obtain ⟨-, hpending⟩ := delivery?_eq_none.1 (hquiet c hc) ticket ht
  rw [h.desk, ← Desk.after_length] at hpending hclosed
  rw [Desk.entries_of_closed hclosed] at hpending
  cases hpending

/-- When a disconnection has ended the stream, no call is left. -/
theorem Tells.calls_of_disconnected (h : Tells ds o) (hquiet : o.master.IsQuiet)
    (horderly : o.IsOrderly) (he : .disconnected id ∈ o.events) : o.master.calls = [] := by
  obtain ⟨hclosed, hover⟩ := horderly.ended id he
  have hqueue : o.master.queue.filterMap Waiter.call? = [] := by
    rw [List.filterMap_eq_nil_iff]
    exact fun w hw => hover _ (List.mem_map_of_mem hw)
  rw [Master.calls, hqueue, h.awaiting_of_closed hquiet hclosed, List.append_nil]

/-! ## Calls that are cut off -/

/-- A call that ends in a trace has been in progress before, or it is started in between. -/
theorem Trace.mem_calls_of_finish (h : Tells ds o) (ht : Trace o.master ds' o') {ending : Ending}
    (hf : .finish c ending ∈ ds') : c ∈ o.master.calls ∨ .start c ∈ ds' := by
  obtain ⟨n, hn⟩ := List.mem_iff_getElem?.1 hf
  obtain ⟨o₁, o₂, -, h₁, hc, -⟩ := ht.cut hn
  exact (h₁.mem_calls h hc.mem_calls_of_finish).imp_right fun hs => List.mem_of_mem_take hs

/-- No call ends in two ways. -/
theorem Tells.ending_unique (h : Tells ds o) {ending ending' : Ending}
    (hf : .finish c ending ∈ ds) (hf' : .finish c ending' ∈ ds) : ending = ending' := by
  obtain ⟨policy, capacity, ht⟩ := h.trace
  obtain ⟨j, hj⟩ := List.mem_iff_getElem?.1 hf
  obtain ⟨k, hk⟩ := List.mem_iff_getElem?.1 hf'
  obtain rfl := ht.ends_once hj hk
  rw [hj] at hk
  cases hk
  rfl

/-- A call that has been given a reply takes no other one. -/
theorem Tells.taken_of_ready (h : Tells ds o) (hc : c ∈ o.master.calls) {reply delivery : Delivery}
    (hready : o.master.desk.outlook? c.serial = some (.ready reply)) (ht : Trace o.master ds' o')
    (hf : .finish c (.taken delivery) ∈ ds') : delivery = reply := by
  have hfinished := List.mem_append_right ds hf
  rcases h.keeps hc hready ht with ⟨hc', -⟩ | ⟨ending, hf', htaken⟩
  · exact absurd hc' ((h.extend ht).not_mem_of_finished hfinished)
  · have hending := (h.extend ht).ending_unique (List.mem_append_right ds hf') hfinished
    exact htaken delivery hending

end Master

/-- What the caller of a call can be told that has been cut off from its response. -/
inductive Call.CutOff (c : Call) : Option CallResult → Prop where
  /-- That the transport has failed. -/
  | transport (fault : Fault) : c.CutOff (some (.error (.transport fault)))
  /-- That the timeout of the call has run out. -/
  | timeout {span : Span} (h : c.timeout = some span) : c.CutOff (some (.error (.timeout span)))
  /-- Nothing, if it has given up the call. -/
  | cancelled : c.CutOff none

namespace Master

/-- A call that is given a reason for closing is cut off from its response. -/
theorem Tells.cutOff (h : Tells ds o) (hc : c ∈ o.master.calls)
    (hready : o.master.desk.outlook? c.serial = some (.ready (.error (.transport reason))))
    (ht : Trace o.master ds' o') {ending : Ending} (hf : .finish c ending ∈ ds')
    (policy : UnitPolicy) : c.CutOff (ending.result? policy c) := by
  cases ending with
  | taken delivery =>
    obtain rfl := h.taken_of_ready hc hready ht hf
    exact .transport reason
  | broken fault => exact .transport fault
  | expired =>
    obtain ⟨span, hspan⟩ := (h.extend ht).timeout_of_expired (List.mem_append_right ds hf)
    rw [Ending.result?, hspan]
    exact .timeout hspan
  | cancelled => exact .cancelled

/-- A call that is in the middle of its turn when the disconnection is started goes on writing, but
its response comes too late. -/
example :
    let m := ((attach .warn 4).run [.start 0 1 (.readHoldingRegisters 0 1) none]).master
    let o := m.run [.disconnect 1, .send (Frame.bytes ⟨⟨0, 1⟩, [3, 2, 0, 7]⟩), .receive none]
    o.received.length = 12 ∧
      o.told = [(0, .error (.transport ⟨.notConnected, "disconnected"⟩))] := by
  constructor <;> cbv

end Master

end Modbus
