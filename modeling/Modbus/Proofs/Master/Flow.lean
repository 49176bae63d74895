import Modbus.Proofs.Master.Changes

/-!
# Bytes keep flowing

If the transport accepts whatever it has room for, a call waits in the queue only while the
transport is full (`Master.isFlowing_giveTurns`). The peer can then go on receiving until nobody
waits any more (`Master.receive_drains`).
-/

namespace Modbus

namespace Outlet

@[simp] theorem capacity_flush (o : Outlet) : o.flush.1.capacity = o.capacity := by
  obtain ⟨n, treatments, h, -⟩ := o.flush_inv
  rw [h]
  rfl

/-- If the transport accepts what it has room for, it is full when it stalls. -/
theorem full_of_stalled {o : Outlet} (h : o.treatments = []) :
    o.flush.1.treatments = [] ∧
      (o.flush.2 = .stalled → o.flush.1.capacity ≤ o.flush.1.transit.length) := by
  unfold flush
  split
  · exact ⟨h, nofun⟩
  · split
    · exact ⟨h, nofun⟩
    · rw [h]
      refine ⟨h, fun hstalled => ?_⟩
      dsimp only at hstalled
      split at hstalled
      · cases hstalled
      · simp only [pass, List.length_append, List.length_take, room] at *
        omega

end Outlet

namespace Master

variable {m : Master}

/-- No attempt to write is treated in a special way, and somebody waits to write only if the
transport is full. -/
structure IsFlowing (m : Master) : Prop where
  treatments : m.outlet.treatments = []
  full : m.queue = [] ∨ m.outlet.capacity ≤ m.outlet.transit.length

/-- What a turn leaves behind, if the transport accepts what it has room for. -/
def Turn.Flows : Turn → Prop
  | .stalled _ o =>
    o.master.outlet.treatments = [] ∧
      o.master.outlet.capacity ≤ o.master.outlet.transit.length
  | .over o => o.master.outlet.treatments = []

/-- The outgoing side does not matter for what a call finds. -/
theorem outlet_await (m : Master) (c : Call) : (m.await c).master.outlet = m.outlet := by
  unfold await
  split <;> rfl

/-- A call that stalls while it empties the buffer has found the transport full. -/
theorem flows_flushFrame (h : m.outlet.treatments = []) (c : Call) : (m.flushFrame c).Flows := by
  obtain ⟨htreatments, hfull⟩ := Outlet.full_of_stalled h
  unfold flushFrame
  split <;> rename_i ho <;> rw [ho] at htreatments hfull
  · rw [Turn.Flows, outlet_await]
    exact htreatments
  · exact ⟨htreatments, hfull rfl⟩
  · exact htreatments

/-- So has a call that appends its frame first. -/
theorem flows_sendFrame (h : m.outlet.treatments = []) (c : Call) : (m.sendFrame c).Flows := by
  have hflush := flows_flushFrame (m := (m.writeFrame c).master) h c
  simp only [sendFrame]
  split <;> rename_i ho <;> rw [ho] at hflush <;> exact hflush

/-- So has every call whose turn stalls. -/
theorem flows_turn (h : m.outlet.treatments = []) (c : Call) (isWritten : Bool) :
    (m.turn c isWritten).Flows := by
  obtain ⟨htreatments, hfull⟩ := Outlet.full_of_stalled h
  unfold turn
  split
  · exact flows_flushFrame h c
  · split
    · exact flows_sendFrame h c
    · split <;> rename_i outlet ho <;> rw [ho] at htreatments hfull
      · exact flows_sendFrame (m := { m with outlet }) htreatments c
      · exact ⟨htreatments, hfull rfl⟩
      · exact htreatments

/-- Turns are given until nobody waits or the transport is full. -/
theorem isFlowing_giveTurns (h : m.outlet.treatments = []) (queue : List Waiter) :
    (m.giveTurns queue).master.IsFlowing := by
  induction queue generalizing m with
  | nil => exact ⟨h, .inl rfl⟩
  | cons w rest ih =>
    cases w with
    | disconnect id => exact ih (m := { m with outlet := m.outlet.shut }) h
    | call c isWritten =>
      have hturn := flows_turn h c isWritten
      unfold giveTurns
      split <;> rename_i ho <;> rw [ho] at hturn
      · exact ih hturn
      · exact ⟨hturn.1, .inr hturn.2⟩

/-- The peer receives as much as it wants, or all there is. -/
theorem receive_drains (h : m.IsFlowing) (most : Nat) :
    (m.receive most).master.IsFlowing ∧
      (most ≤ (m.receive most).received.length ∨
        (m.receive most).master.outlet.transit = []) := by
  induction m, most using receive_induct with
  | stop m most hn =>
    rw [receive_of_zero m hn]
    refine ⟨h, ?_⟩
    by_cases hmost : most = 0
    · exact .inl (Nat.le_of_eq hmost)
    · have hempty : m.outlet.transit.length = 0 := by omega
      exact .inr (List.length_eq_zero_iff.1 hempty)
  | goOn m most n hn hpos ih =>
    have hproceed : (m.take n).master.proceed.master.IsFlowing :=
      isFlowing_giveTurns (m := (m.take n).master) h.treatments _
    obtain ⟨hflowing, hdone⟩ := ih _ hproceed
    rw [receive_of_pos m hn hpos]
    refine ⟨hflowing, hdone.imp_left fun hle => ?_⟩
    have htaken : ((m.take n).andThen proceed).received.length = n := by
      rw [Outcome.received_andThen, (proceeds_proceed _).received, List.append_nil]
      show (m.outlet.transit.take n).length = n
      rw [List.length_take]
      omega
    rw [Outcome.received_andThen, List.length_append, htaken]
    exact Nat.sub_le_iff_le_add'.1 hle

/-! ## What stays as it is -/

/-- What has room on the transport does not change. -/
theorem Change.capacity {d : Option Deed} {o : Outcome} (h : Change m d o) :
    o.master.outlet.capacity = m.outlet.capacity := by
  cases h with
  | progress hp =>
    cases hp with
    | flush | letGo | fail => exact Outlet.capacity_flush _
    | write | shut | answer => rfl
  | _ => rfl

/-- The transport keeps its capacity. -/
theorem Changes.capacity {inputs : List Deed} {o : Outcome} (h : Changes m inputs o) :
    o.master.outlet.capacity = m.outlet.capacity := by
  obtain ⟨ds, ht, -⟩ := h
  induction ht with
  | refl => rfl
  | step _ hc ih => exact hc.capacity.trans ih

/-- While nobody waits to write, the outgoing side is left alone. -/
theorem Proceeds.idle {o : Outcome} (h : Proceeds m o) (hq : m.queue = []) :
    o.master.queue = [] ∧ o.master.outlet = m.outlet := by
  induction h with
  | refl => exact ⟨hq, rfl⟩
  | step _ hp ih =>
    cases hp with
    | answer => exact ih
    | write hq' | flush hq' | letGo hq' | fail hq' | shut hq' =>
      rw [ih.1] at hq'
      cases hq'

/-- As long as nobody wants to write, frames that are passed on make nobody write. -/
theorem idle_deliver (hq : m.queue = []) (fs : List Frame) :
    (m.deliver fs).master.queue = [] ∧ (m.deliver fs).master.outlet = m.outlet := by
  induction fs generalizing m with
  | nil => exact ⟨hq, rfl⟩
  | cons f fs ih =>
    obtain ⟨hqueue, houtlet⟩ :=
      (proceeds_collect { m with desk := m.desk.resolve f }).idle hq
    obtain ⟨hqueue', houtlet'⟩ := ih hqueue
    exact ⟨hqueue', houtlet'.trans houtlet⟩

/-- Nor does closing the table. -/
theorem idle_close (hq : m.queue = []) (reason : Fault) :
    (m.close reason).master.queue = [] ∧ (m.close reason).master.outlet = m.outlet :=
  (proceeds_collect { m with
    desk := m.desk.close reason, inlet := { m.inlet with isClosed := true } }).idle hq

/-- Nor is it touched when the peer sends bytes. -/
theorem idle_send (hq : m.queue = []) (bytes : Bytes) :
    (m.send bytes).master.queue = [] ∧ (m.send bytes).master.outlet = m.outlet := by
  unfold send
  split
  · exact ⟨hq, rfl⟩
  · generalize Decoder.frames.drain (m.inlet.buffer ++ bytes) = r
    obtain ⟨hqueue, houtlet⟩ :=
      idle_deliver (m := { m with inlet := { m.inlet with buffer := r.rest } }) hq r.items
    unfold hear
    rw [Outcome.master_andThen]
    split
    · obtain ⟨hqueue', houtlet'⟩ := idle_close hqueue _
      exact ⟨hqueue', houtlet'.trans houtlet⟩
    · exact ⟨hqueue, houtlet⟩

end Master

end Modbus
