import Modbus.Proofs.Master.Accounts

/-!
# What comes of a start at once

A call that is not refused joins the queue. If nobody is before it, it has its turn at once, and
then it waits for the transport, or for its response, or the transport fails
(`Master.Trying.proceeds`). A response cannot have come by then. So there are three things that its
caller may be told at once (`Master.Starts`): why the call is refused, that the transport has
failed, or that the time of the call is over. This last one happens to a call with no time at all
when it is started at a full millisecond, and to no other one; it has its turn nevertheless. In all
other cases the call is in progress after its start (`Master.Tells.starts`).
-/

namespace Modbus

/-- Time is over at once if and only if there is none and a full millisecond has come. -/
theorem Span.ceilMillis_add_le_iff {t span : Nat} :
    ceilMillis (t + span) ≤ t ↔ span = 0 ∧ 1000 ∣ t := by
  show 1000 * ((t + span + 999) / 1000) ≤ t ↔ _
  omega

/-! ## Transports that fail -/

/-- The fault with which an attempt to write fails. -/
def Treatment.fault? : Treatment → Option Fault
  | fail _ fault => some fault
  | accept | stall _ => none

namespace Outlet

variable {o : Outlet}

/-- The faults with which the next attempts to write can fail. -/
def faults (o : Outlet) : List Fault :=
  if o.isShut || o.isDeaf then [.brokenPipe] else o.treatments.filterMap Treatment.fault?

/-- An attempt fails with one of them. -/
theorem mem_faults_of_broken {fault : Fault} (h : o.flush.2 = .broken fault) :
    fault ∈ o.faults := by
  unfold flush at h
  unfold faults
  split at h
  · cases h
  · split at h <;> rename_i hbroken
    · cases h
      rw [if_pos hbroken]
      exact List.mem_singleton_self _
    · rw [if_neg hbroken]
      split at h <;> rename_i htreatments
      · dsimp only at h
        split at h <;> cases h
      · rename_i t treatments
        cases t with
        | accept | stall => cases h
        | fail most fault' =>
          cases h
          rw [htreatments]
          exact List.mem_cons_self

/-- No attempt adds to them. -/
theorem faults_flush (o : Outlet) : o.flush.1.faults ⊆ o.faults := by
  unfold flush
  split
  · exact List.Subset.refl _
  · split <;> rename_i hbroken
    · exact List.Subset.refl _
    · split
      · exact List.Subset.refl _
      · rename_i t treatments htreatments
        have htail : treatments.filterMap Treatment.fault? ⊆ o.faults := by
          rw [faults, if_neg hbroken, htreatments]
          exact ((List.sublist_cons_self t treatments).filterMap _).subset
        have hrest : ({ o with treatments } : Outlet).faults =
            treatments.filterMap Treatment.fault? := if_neg hbroken
        cases t <;> exact hrest ▸ htail

end Outlet

namespace Master

variable {m : Master} {d : Option Deed} {ds : List Deed} {o o' : Outcome} {c : Call} {id : CallId}
  {unit : UnitId} {request : Request} {timeout : Option Span} {desk : Desk}

/-! ## The first turn -/

/-- How far the only call in the queue comes by itself, from a master `m`. -/
inductive Try (m : Master) (c : Call) (o : Outcome) : Prop where
  /-- It waits for the transport. -/
  | stalled {isWritten : Bool} (hqueue : o.master.queue = [.call c isWritten])
    (hc : c ∉ o.master.awaiting) (htold : o.told = [])
  /-- It waits for its delivery. -/
  | sent (hqueue : o.master.queue = []) (hc : c ∈ o.master.awaiting) (htold : o.told = [])
  /-- The transport has failed. -/
  | failed {fault : Fault} (hfault : fault ∈ m.outlet.faults) (hqueue : o.master.queue = [])
    (hc : c ∉ o.master.awaiting) (htold : o.told = [(c.id, .error (.transport fault))])

/-- The only call in the queue is on its way, and nothing has been delivered to anybody. -/
structure Trying (m : Master) (c : Call) (o : Outcome) : Prop where
  stage : Try m c o
  faults : o.master.outlet.faults ⊆ m.outlet.faults
  nothing : ∀ c' ∈ o.master.calls, o.master.deliveryFor? c' = none

/-- If somebody is in the queue, it is this call, which waits for the transport. -/
theorem Try.stalled_inv {w : Waiter} {rest : List Waiter} (h : Try m c o)
    (hq : o.master.queue = w :: rest) :
    ∃ isWritten, w = .call c isWritten ∧ rest = [] ∧ c ∉ o.master.awaiting ∧ o.told = [] := by
  cases h with
  | stalled hqueue hc htold =>
    cases hqueue.symm.trans hq
    exact ⟨_, rfl, rfl, hc, htold⟩
  | sent hqueue | failed _ hqueue => cases hqueue.symm.trans hq

/-- Only the call itself does something, and nothing is delivered by it. -/
theorem Trying.progress (h : Trying m c o) (hp : o.master.Progress d o') :
    Trying m c (o.andThen fun _ => o') := by
  obtain ⟨hstage, hfaults, hnothing⟩ := h
  have htold (hnow : o'.told = []) (hbefore : o.told = []) :
      (o.andThen fun _ => o').told = [] := by
    rw [Outcome.told_andThen, hbefore, hnow, List.append_nil]
  have hflush : o.master.outlet.flush.1.faults ⊆ m.outlet.faults :=
    List.Subset.trans (Outlet.faults_flush _) hfaults
  cases hp with
  | @write c' rest hq hroom =>
    obtain ⟨_, hself, rfl, hc, hnone⟩ := hstage.stalled_inv hq
    cases hself
    refine ⟨.stalled rfl hc (htold rfl hnone), hfaults, fun c' hc' => ?_⟩
    refine (deliveryFor?_markSent _ _ _).trans (hnothing c' ?_)
    simpa [calls, hq, withQueue, writeFrame, Waiter.call?] using hc'
  | flush hq =>
    refine ⟨?_, hflush, hnothing⟩
    cases hstage with
    | stalled hqueue hc hnone => exact .stalled hqueue hc (htold rfl hnone)
    | sent hqueue hc hnone => exact .sent hqueue hc (htold rfl hnone)
    | failed hfault hqueue hc hfailed =>
      exact .failed hfault hqueue hc (by rw [Outcome.told_andThen, hfailed]; rfl)
  | @letGo c' rest hq _ =>
    obtain ⟨_, hself, rfl, hc, hnone⟩ := hstage.stalled_inv hq
    cases hself
    refine ⟨.sent rfl (by simp) (htold rfl hnone), hflush, fun c' hc' => hnothing c' ?_⟩
    rw [Master.calls, hq]
    simpa [Master.calls, Waiter.call?, or_comm] using hc'
  | @fail c' _ rest fault hq hf =>
    obtain ⟨_, hself, rfl, hc, hnone⟩ := hstage.stalled_inv hq
    cases hself
    have hfault := hfaults (Outlet.mem_faults_of_broken hf)
    refine ⟨.failed hfault rfl hc ?_, hflush, fun c' hc' => deliveryFor?_drop (hnothing c' ?_)⟩
    · rw [Outcome.told_andThen, hnone]
      rfl
    · exact List.mem_append_right _ hc'
  | shut hq =>
    obtain ⟨_, hself, -⟩ := hstage.stalled_inv hq
    cases hself
  | @answer c' before behind delivery ha hd =>
    have hc' : c' ∈ o.master.calls := List.mem_append_right _ (by simp [ha])
    rw [hnothing c' hc'] at hd
    cases hd

/-- So it is all along the first turn. -/
theorem Trying.proceeds {joined : Master} (h : Trying m c ⟨joined, [], []⟩)
    (hp : Proceeds joined o) : Trying m c o := by
  induction hp with
  | refl => exact h
  | step _ hp ih => exact ih.progress hp

/-! ## New calls -/

/-- Nobody has held the ticket of a call that has just been started. -/
theorem Tells.not_held_of_newCall (h : Tells ds o)
    (hnew : o.master.newCall id unit request timeout = .ok (c, desk)) :
    c.serial ∉ o.master.desk.tickets := by
  obtain ⟨ticket, hallocate, -⟩ := newCall_inv hnew
  obtain ⟨-, -, hserial, -⟩ := Desk.allocate_inv hallocate
  exact hserial ▸ h.nextSerial_not_held

/-- So the call has not been in progress. -/
theorem Tells.not_mem_of_newCall (h : Tells ds o)
    (hnew : o.master.newCall id unit request timeout = .ok (c, desk)) : c ∉ o.master.calls :=
  fun hc => h.not_held_of_newCall hnew (h.held.2 ⟨c, hc, rfl⟩)

/-- Nor has anything been delivered to it. -/
theorem Tells.deliveryFor?_newCall (h : Tells ds o)
    (hnew : o.master.newCall id unit request timeout = .ok (c, desk)) :
    (o.master.join c desk).deliveryFor? c = none := by
  obtain ⟨ticket, hallocate, -⟩ := newCall_inv hnew
  refine deliveryFor?_allocate hallocate (delivery?_eq_none.2 fun ticket' ht => ?_)
  exact absurd (Desk.held_iff.2 ⟨ticket', ht⟩) (h.not_held_of_newCall hnew)

/-- If nobody is before it in the queue, it has its turn at once. -/
theorem Tells.trying_newCall (h : Tells ds o) (hquiet : o.master.IsQuiet)
    (hnew : o.master.newCall id unit request timeout = .ok (c, desk))
    (hqueue : o.master.queue = []) :
    Trying o.master c (enqueue { o.master with desk } (.call c false)) := by
  obtain ⟨ticket, hallocate, -⟩ := newCall_inv hnew
  have hjoined : (o.master.join c desk).queue = [.call c false] := by simp [join, hqueue]
  have hc : c ∉ o.master.awaiting := fun hc =>
    h.not_mem_of_newCall hnew (List.mem_append_right _ hc)
  have hstart : Trying o.master c ⟨o.master.join c desk, [], []⟩ := by
    refine ⟨.stalled hjoined hc rfl, List.Subset.refl _, fun c' hc' => ?_⟩
    rw [Master.calls, hjoined] at hc'
    rcases List.mem_cons.1 hc' with rfl | hwaits
    · exact h.deliveryFor?_newCall hnew
    · exact deliveryFor?_allocate hallocate (hquiet c' hwaits)
  exact hstart.proceeds (proceeds_enqueue { o.master with desk } (.call c false))

/-- A new call in the queue is in progress, and if it has the turn, nobody is behind it; or the
transport has failed in its turn. -/
theorem Tells.enqueued (h : Tells ds o) (hquiet : o.master.IsQuiet)
    (hnew : o.master.newCall id unit request timeout = .ok (c, desk)) :
    let o' := enqueue { o.master with desk } (.call c false)
    (c ∈ o'.master.calls ∧ o'.told = [] ∧
        (o'.master.hasTurn (·.isCall c) → ∃ isWritten, o'.master.queue = [.call c isWritten])) ∨
      (o.master.queue = [] ∧ c ∉ o'.master.calls ∧ ∃ fault ∈ o.master.outlet.faults,
        o'.told = [(c.id, .error (.transport fault))]) := by
  intro o'
  by_cases hqueue : o.master.queue = []
  · have htrying : Trying o.master c o' := h.trying_newCall hquiet hnew hqueue
    cases htrying.stage with
    | stalled hqueue' hc hnone =>
      exact .inl ⟨by simp [Master.calls, hqueue', Waiter.call?], hnone, fun _ => ⟨_, hqueue'⟩⟩
    | sent hqueue' hc hnone =>
      refine .inl ⟨List.mem_append_right _ hc, hnone, fun hturn => ?_⟩
      simp [hasTurn, hqueue'] at hturn
    | failed hfault hqueue' hc htold =>
      exact .inr ⟨hqueue, by simpa [Master.calls, hqueue'] using hc, _, hfault, htold⟩
  · have ho' : o' = ⟨o.master.join c desk, [], []⟩ := by
      simp only [o', enqueue, List.isEmpty_iff, hqueue, if_false]
      rfl
    rw [ho']
    refine .inl ⟨by simp [Master.calls, join, Waiter.call?], rfl, fun hturn => ?_⟩
    -- the turn is that of somebody who has been in the queue before
    obtain ⟨w, rest, hw⟩ := List.exists_cons_of_ne_nil hqueue
    have hself : w.isCall c := by simpa [hasTurn, join, hw] using hturn
    cases w with
    | disconnect => cases hself
    | call c' isWritten =>
      obtain rfl : c' = c := by simpa [Waiter.isCall] using hself
      have hc : c' ∈ o.master.calls := by simp [Master.calls, hw, Waiter.call?]
      exact absurd hc (h.not_mem_of_newCall hnew)

/-- A call that is given up is told that its time is over. Nobody else is told anything, unless
somebody is behind it when it has the turn. -/
theorem told_giveUp (hc : c ∈ m.calls)
    (hturn : m.hasTurn (·.isCall c) → ∃ isWritten, m.queue = [.call c isWritten]) :
    (m.giveUp c).told = [(c.id, .error (.timeout (c.timeout.getD 0)))] := by
  have hnext : ((m.dropTicket c).withdraw (·.isCall c)).told = [] := by
    unfold withdraw
    split <;> rename_i ht
    · obtain ⟨isWritten, hqueue⟩ := hturn ht
      have hempty : ((m.dropTicket c).remove (·.isCall c)).queue = [] := by
        simp [remove, dropTicket, hqueue, Waiter.isCall]
      rw [proceed, hempty]
      rfl
    · rfl
  rw [giveUp, if_pos hc, Outcome.told_andThen]
  exact congrArg (_ :: ·) hnext

/-! ## Starts -/

/-- The deadline of a call is told by its timeout and by the time of its start. -/
theorem deadline_of_newCall (h : m.newCall id unit request timeout = .ok (c, desk)) :
    c.timeout = timeout ∧ c.deadline = timeout.map fun span => (m.clock + span).ceilMillis := by
  unfold newCall at h
  split at h
  · cases h
  · split at h
    · cases h
    · cases h
      exact ⟨rfl, rfl⟩

/-- It has come at the start of a call if and only if the call has no time at all and is started at
a full millisecond. -/
theorem isExpired_newCall (h : m.newCall id unit request timeout = .ok (c, desk)) :
    c.isExpired m.clock ↔ timeout = some 0 ∧ 1000 ∣ m.clock := by
  rw [Call.isExpired, (deadline_of_newCall h).2]
  cases timeout with
  | none => simp
  | some span => simp [Span.ceilMillis_add_le_iff]

/-- A call that is not refused joins the queue, and is given up at once if its deadline has come. -/
theorem step_of_newCall (h : m.newCall id unit request timeout = .ok (c, desk)) :
    m.step (.start id unit request timeout) =
      let o := enqueue { m with desk } (.call c false)
      if c.isExpired m.clock then o.andThen fun m => m.giveUp c else o := by
  simp only [step, start, h]

/-- What comes at once of the start of a call. -/
inductive Starts (m : Master) (id : CallId) (unit : UnitId) (request : Request)
    (timeout : Option Span) : Prop where
  /-- The call is refused. -/
  | refused {e : Error} (hnew : m.newCall id unit request timeout = .error e)
    (htold : (m.step (.start id unit request timeout)).told = [(id, .error e)])
  /-- The call has its turn, and the transport fails. -/
  | failed {c : Call} {desk : Desk} {fault : Fault}
    (hnew : m.newCall id unit request timeout = .ok (c, desk)) (hturn : m.queue = [])
    (hfault : fault ∈ m.outlet.faults)
    (htold : (m.step (.start id unit request timeout)).told = [(id, .error (.transport fault))])
  /-- The call has no time at all, and is started at a full millisecond. -/
  | over {c : Call} {desk : Desk} (hnew : m.newCall id unit request timeout = .ok (c, desk))
    (hzero : timeout = some 0) (hmillis : 1000 ∣ m.clock)
    (htold : (m.step (.start id unit request timeout)).told = [(id, .error (.timeout 0))])
  /-- In all other cases nobody is told anything, and the call is in progress, with a deadline if it
  has a timeout. -/
  | going {c : Call} {desk : Desk} (hnew : m.newCall id unit request timeout = .ok (c, desk))
    (htime : timeout = some 0 → ¬ 1000 ∣ m.clock)
    (hdeadline : c.deadline = timeout.map fun span => (m.clock + span).ceilMillis)
    (hc : c ∈ (m.step (.start id unit request timeout)).master.calls)
    (htold : (m.step (.start id unit request timeout)).told = [])

/-- One of these comes of every start. -/
theorem Tells.starts (h : Tells ds o) (hquiet : o.master.IsQuiet) (id : CallId) (unit : UnitId)
    (request : Request) (timeout : Option Span) : o.master.Starts id unit request timeout := by
  cases hnew : o.master.newCall id unit request timeout with
  | error e =>
    refine .refused hnew ?_
    rw [step_of_refused hnew]
    rfl
  | ok r =>
    obtain ⟨c, desk⟩ := r
    obtain ⟨-, -, -, rfl, -⟩ := newCall_inv hnew
    obtain ⟨htimeout, hdeadline⟩ := deadline_of_newCall hnew
    have hexpired := isExpired_newCall hnew
    have hstep := step_of_newCall hnew
    rcases h.enqueued hquiet hnew with ⟨hc, hnone, hturn⟩ | ⟨hqueue, hgone, fault, hfault, htold⟩
    · by_cases hover : timeout = some 0 ∧ 1000 ∣ o.master.clock
      · rw [if_pos (hexpired.2 hover)] at hstep
        have hgiveUp := told_giveUp hc hturn
        rw [htimeout, hover.1] at hgiveUp
        refine .over hnew hover.1 hover.2 ?_
        rw [hstep, Outcome.told_andThen, hnone]
        exact hgiveUp
      · rw [if_neg (mt hexpired.1 hover)] at hstep
        refine .going hnew (fun hzero hmillis => hover ⟨hzero, hmillis⟩) hdeadline ?_ ?_
        · exact hstep ▸ hc
        · exact hstep ▸ hnone
    · refine .failed hnew hqueue hfault ?_
      rw [hstep]
      split
      · rw [Outcome.told_andThen, htold, giveUp, if_neg hgone]
        rfl
      · exact htold

end Master

end Modbus
