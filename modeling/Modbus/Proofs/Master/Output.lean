import Modbus.Proofs.Master.Changes
import Modbus.Proofs.Transaction.Operations

/-!
# What a master sends

The bytes that the transport has accepted, followed by those that are still in the buffer, are the
frames of the calls that have been written, whole and one after another
(`Master.run_sends_frames`). The calls are written in the order in which they have been started,
each at most once, and exactly those are written whose tickets are marked as sent. Calls may end at
any point, with a part of their frame in the buffer.

`Master.SendsFrames` is the invariant. `Master.SendsFrames.change` says that every change of a
master preserves it, so it holds along every run.
-/

namespace Modbus

/-! ## The outgoing side -/

namespace Outlet

/-- The bytes that have been appended and not been received. -/
def carried (o : Outlet) : Bytes := o.lost ++ o.transit ++ o.buffer

/-- Nothing is in transit to a deaf peer, and only a deaf peer makes bytes get lost. -/
structure IsSound (o : Outlet) : Prop where
  deaf : o.isDeaf = true → o.transit = []
  hearing : o.isDeaf = false → o.lost = []

variable {o : Outlet}

/-- Emptying the buffer moves bytes on, and no byte gets lost. -/
theorem IsSound.flush (h : o.IsSound) : o.flush.1.IsSound ∧ o.flush.1.carried = o.carried := by
  obtain ⟨n, treatments, ho, -, hn⟩ := o.flush_inv
  have hcarried : o.flush.1.carried = o.carried := by
    have hlost : o.flush.1.lost = o.lost := by simp [ho, pass]
    rw [carried, carried, List.append_assoc, List.append_assoc, flush_bytes, hlost]
  refine ⟨⟨fun hdeaf => ?_, fun hhears => ?_⟩, hcarried⟩
  · simp only [ho, pass] at hdeaf ⊢
    simp [hn (by simp [hdeaf]), h.deaf hdeaf]
  · simp only [ho, pass] at hhears ⊢
    exact h.hearing hhears

/-- What the peer receives comes first of what is carried. -/
theorem IsSound.receive (h : o.IsSound) (n : Nat) :
    (o.receive n).2.IsSound ∧ (o.receive n).1 ++ (o.receive n).2.carried = o.carried := by
  cases hd : o.isDeaf with
  | true =>
    have ht := h.deaf hd
    exact ⟨⟨fun _ => by simp [Outlet.receive, ht], fun hf => by simp [Outlet.receive, hd] at hf⟩,
      by simp [Outlet.receive, carried, ht]⟩
  | false =>
    have hl := h.hearing hd
    exact ⟨⟨fun ht => by simp [Outlet.receive, hd] at ht, fun _ => hl⟩,
      by simp [Outlet.receive, carried, hl, ← List.append_assoc]⟩

/-- What is in transit to a peer that becomes deaf is lost. -/
theorem isSound_deafen (o : Outlet) : o.deafen.IsSound ∧ o.deafen.carried = o.carried :=
  ⟨⟨fun _ => rfl, nofun⟩, by simp [deafen, carried]⟩

end Outlet

/-! ## The desk -/

namespace Desk

/-- A desk has no tickets but those of another one, and they have the same marks. -/
structure TicketsFrom (d' d : Desk) : Prop where
  nextSerial : d'.table.nextSerial = d.table.nextSerial
  tickets : ∀ {serial : Serial} {ticket : Ticket}, d'.tickets[serial]? = some ticket →
    ∃ ticket', d.tickets[serial]? = some ticket' ∧ ticket'.id = ticket.id ∧
      ticket'.isSent = ticket.isSent

variable (d : Desk)

theorem TicketsFrom.refl : d.TicketsFrom d := ⟨rfl, fun h => ⟨_, h, rfl, rfl⟩⟩

/-- Dropping a ticket adds none and marks none. -/
theorem ticketsFrom_drop (serial : Serial) : (d.drop serial).TicketsFrom d where
  nextSerial := by
    cases h : d.tickets[serial]? with
    | none => rw [drop_of_none h]
    | some ticket => rw [table_drop h, Table.nextSerial_release]
  tickets h := ⟨_, tickets_of_drop h, rfl, rfl⟩

/-- Nor does a frame that is passed on. -/
theorem ticketsFrom_resolve (f : Frame) : (d.resolve f).TicketsFrom d where
  nextSerial := by rw [table_resolve, Table.nextSerial_resolve]
  tickets h := by
    rw [getElem?_resolve] at h
    split at h
    · obtain ⟨ticket, ht, rfl⟩ := Option.map_eq_some_iff.1 h
      exact ⟨ticket, ht, rfl, rfl⟩
    · exact ⟨_, h, rfl, rfl⟩

/-- Nor does closing. -/
theorem ticketsFrom_close (reason : Fault) : (d.close reason).TicketsFrom d where
  nextSerial := by
    rw [table_close]
    rfl
  tickets h := by
    rw [getElem?_close] at h
    split at h
    · obtain ⟨ticket, ht, rfl⟩ := Option.map_eq_some_iff.1 h
      exact ⟨ticket, ht, rfl, rfl⟩
    · exact ⟨_, h, rfl, rfl⟩

end Desk

/-! ## The stream of frames -/

/-- The call whose frame has been appended to the outgoing bytes, if an event tells of one. -/
def Event.written? : Event → Option Call
  | .written c => some c
  | _ => none

/-- The call of a waiter that has not appended its frame. -/
def Waiter.unwritten? : Waiter → Option Call
  | .call c false => some c
  | _ => none

/-- The bytes of the frames of calls, one frame after another. -/
def Call.frames (cs : List Call) : Bytes := cs.flatMap (·.frame.bytes)

namespace Outcome

variable (o : Outcome)

/-- The calls that have been written, in this order. -/
def written : List Call := o.events.filterMap Event.written?

/-- The bytes that the transport has accepted: those that the peer has received, those that it will
never receive, and those that are in transit. -/
def accepted : Bytes := o.received ++ o.master.outlet.lost ++ o.master.outlet.transit

@[simp] theorem written_andThen (next : Master → Outcome) :
    (o.andThen next).written = o.written ++ (next o.master).written := by
  simp [written]

end Outcome

namespace Master

/-- The calls in the queue that have not been written. -/
def unwritten (m : Master) : List Call := m.queue.filterMap Waiter.unwritten?

/-- The queue without its head has no other unwritten calls. -/
theorem unwritten_of_queue {m : Master} {w : Waiter} {rest : List Waiter}
    (hq : m.queue = w :: rest) : (m.withQueue rest).unwritten.Sublist m.unwritten := by
  rw [unwritten, unwritten, hq]
  exact (List.sublist_cons_self w rest).filterMap _

theorem unwritten_remove (m : Master) (p : Waiter → Bool) :
    (m.remove p).unwritten.Sublist m.unwritten := List.filter_sublist.filterMap _

/-- The invariant of what has come of calls that have been started, in this order. -/
structure SendsFrames (started : List Call) (o : Outcome) : Prop where
  /-- What has been sent are the frames of the written calls. -/
  bytes : o.received ++ o.master.outlet.carried = Call.frames o.written
  outlet : o.master.outlet.IsSound
  /-- Calls are written in the order of their starts. -/
  order : (o.written ++ o.master.unwritten).Sublist started
  serials : started.Pairwise (·.serial < ·.serial)
  fresh : ∀ c ∈ started, c.serial < o.master.desk.table.nextSerial
  fits : ∀ c ∈ started, c.request.size ≤ Pdu.maxSize
  /-- A ticket belongs to a call, and is marked if and only if the call has been written. -/
  tickets : ∀ {serial : Serial} {ticket : Ticket},
    o.master.desk.tickets[serial]? = some ticket →
      ∃ c ∈ started, c.serial = serial ∧ c.transaction = ticket.id ∧
        (ticket.isSent = true ↔ c ∈ o.written)

namespace SendsFrames

variable {started : List Call} {o : Outcome}

/-- At first nothing has been sent. -/
theorem attach (policy : UnitPolicy) (capacity : Nat) :
    SendsFrames [] ⟨Master.attach policy capacity, [], []⟩ where
  bytes := rfl
  outlet := ⟨fun _ => rfl, fun _ => rfl⟩
  order := .slnil
  serials := .nil
  fresh := nofun
  fits := nofun
  tickets h := by simp [Master.attach] at h

/-- The serial tells the calls that have been started apart. -/
theorem eq_of_serial (h : SendsFrames started o) {c c' : Call} (hc : c ∈ started)
    (hc' : c' ∈ started) (hs : c.serial = c'.serial) : c = c' := by
  obtain ⟨i, hi, rfl⟩ := List.getElem_of_mem hc
  obtain ⟨j, hj, rfl⟩ := List.getElem_of_mem hc'
  have hpair := List.pairwise_iff_getElem.1 h.serials
  rcases Nat.lt_trichotomy i j with hlt | rfl | hlt
  · exact absurd hs (Nat.ne_of_lt (hpair i j hi hj hlt))
  · rfl
  · exact absurd hs.symm (Nat.ne_of_lt (hpair j i hj hi hlt))

/-- A call that has been written has been started. -/
theorem started_of_written (h : SendsFrames started o) {c : Call} (hc : c ∈ o.written) :
    c ∈ started := h.order.subset (List.mem_append_left _ hc)

/-- A change that writes no call preserves the invariant if it only moves bytes on, leaves the
queue as it is or shortens it, and changes nothing of the tickets but what is delivered. -/
theorem keep (h : SendsFrames started o) {o' : Outcome} (hw : o'.written = [])
    (hsound : o'.master.outlet.IsSound)
    (hbytes : o'.received ++ o'.master.outlet.carried = o.master.outlet.carried)
    (hq : o'.master.unwritten.Sublist o.master.unwritten)
    (hd : o'.master.desk.TicketsFrom o.master.desk) :
    SendsFrames started (o.andThen fun _ => o') where
  bytes := by
    rw [Outcome.written_andThen, hw, List.append_nil, ← h.bytes, ← hbytes, ← List.append_assoc]
    rfl
  outlet := hsound
  order := by
    rw [Outcome.written_andThen, hw, List.append_nil]
    exact (hq.append_left o.written).trans h.order
  serials := h.serials
  fresh c hc := by
    rw [Outcome.master_andThen, hd.nextSerial]
    exact h.fresh c hc
  fits := h.fits
  tickets ht := by
    obtain ⟨ticket, ht, hid, hsent⟩ := hd.tickets ht
    obtain ⟨c, hc, hs, htr, hmark⟩ := h.tickets ht
    rw [Outcome.written_andThen, hw, List.append_nil, ← hid, ← hsent]
    exact ⟨c, hc, hs, htr, hmark⟩

/-- The first in the queue is written. -/
theorem write (h : SendsFrames started o) {c : Call} {rest : List Waiter}
    (hq : o.master.queue = .call c false :: rest) :
    SendsFrames started (o.andThen fun _ =>
      ⟨(o.master.writeFrame c).master.withQueue (.call c true :: rest), [.written c], []⟩) := by
  have hwritten : (o.andThen fun _ =>
      ⟨(o.master.writeFrame c).master.withQueue (.call c true :: rest), [.written c], []⟩).written
        = o.written ++ [c] := by rw [Outcome.written_andThen]; rfl
  have hunwritten : o.master.unwritten = c :: rest.filterMap Waiter.unwritten? := by
    rw [unwritten, hq]
    rfl
  have horder := h.order
  rw [hunwritten] at horder
  have hc : c ∈ started := horder.subset (by simp)
  constructor
  case bytes =>
    rw [hwritten, Call.frames, List.flatMap_append, ← Call.frames, ← h.bytes]
    simp [withQueue, writeFrame, Outlet.append, Outlet.carried]
  case outlet => exact ⟨h.outlet.deaf, h.outlet.hearing⟩
  case order =>
    rw [hwritten, List.append_assoc]
    exact horder
  case serials => exact h.serials
  case fresh =>
    intro c' hc'
    simpa [withQueue, writeFrame] using h.fresh c' hc'
  case fits => exact h.fits
  case tickets =>
    intro serial ticket ht
    rw [hwritten]
    simp only [Outcome.master_andThen, withQueue, writeFrame, Desk.markSent,
      Desk.getElem?_modify] at ht
    split at ht <;> rename_i hs
    · obtain ⟨ticket', ht', rfl⟩ := Option.map_eq_some_iff.1 ht
      obtain ⟨c', hc', hs', htr, -⟩ := h.tickets ht'
      obtain rfl := h.eq_of_serial hc' hc (hs'.trans hs.symm)
      exact ⟨c', hc', hs', htr, by simp⟩
    · obtain ⟨c', hc', hs', htr, hmark⟩ := h.tickets ht
      have hne : c' ≠ c := fun he => hs (by rw [← he, hs'])
      exact ⟨c', hc', hs', htr, by simp [hmark, hne]⟩

/-- A call joins the queue. -/
theorem join (h : SendsFrames started o) {id : CallId} {unit : UnitId} {request : Request}
    {timeout : Option Span} {c : Call} {desk : Desk}
    (hnew : o.master.newCall id unit request timeout = .ok (c, desk)) :
    SendsFrames (started ++ [c]) (o.andThen fun m =>
      ⟨{ m with desk, queue := m.queue ++ [.call c false] }, [], []⟩) := by
  obtain ⟨ticket, hallocate, htr, -, -, hrequest, hsize⟩ := newCall_inv hnew
  obtain ⟨table, htable, hserial, hticket, rfl⟩ := Desk.allocate_inv hallocate
  obtain ⟨next, rfl⟩ := Table.eq_enter_of_allocate htable
  have hlt : ∀ c' ∈ started, c'.serial < c.serial := fun c' hc' => hserial ▸ h.fresh c' hc'
  have hnot : c ∉ o.written := fun hc =>
    Nat.lt_irrefl _ (hlt c (h.started_of_written hc))
  have hwritten : (o.andThen fun m =>
      ⟨{ m with
        desk := ⟨o.master.desk.table.enter ticket.id next,
          o.master.desk.tickets.insert c.serial ticket⟩
        queue := m.queue ++ [.call c false] }, [], []⟩).written = o.written := by
    rw [Outcome.written_andThen]
    exact List.append_nil _
  constructor
  case bytes =>
    rw [hwritten, ← h.bytes, Outcome.received_andThen, List.append_nil]
    rfl
  case outlet => exact h.outlet
  case order =>
    rw [hwritten]
    simpa [unwritten, Waiter.unwritten?] using h.order.append (List.Sublist.refl [c])
  case serials =>
    refine List.pairwise_append.2 ⟨h.serials, List.pairwise_singleton _ _, ?_⟩
    intro c' hc' c'' hc''
    rw [List.mem_singleton.1 hc'']
    exact hlt c' hc'
  case fresh =>
    intro c' hc'
    rw [Outcome.master_andThen, Table.nextSerial_enter, ← hserial]
    rcases List.mem_append.1 hc' with hc' | hc'
    · exact Nat.lt_succ_of_lt (hlt c' hc')
    · rw [List.mem_singleton.1 hc']
      exact Nat.lt_succ_self _
  case fits =>
    intro c' hc'
    rcases List.mem_append.1 hc' with hc' | hc'
    · exact h.fits c' hc'
    · rw [List.mem_singleton.1 hc', hrequest]
      exact hsize
  case tickets =>
    intro serial ticket' ht
    simp only [Outcome.master_andThen, Std.TreeMap.getElem?_insert, Nat.compare_eq_eq] at ht
    rw [hwritten]
    split at ht
    · subst serial
      cases ht
      exact ⟨c, by simp, rfl, htr, by rw [hticket]; simpa using hnot⟩
    · obtain ⟨c', hc', hrest⟩ := h.tickets ht
      exact ⟨c', List.mem_append_left _ hc', hrest⟩

/-- What a master does by itself preserves the invariant. -/
theorem progress (h : SendsFrames started o) {d : Option Deed} {o' : Outcome}
    (hp : Progress o.master d o') :
    SendsFrames started (o.andThen fun _ => o') := by
  have hdesk := Desk.TicketsFrom.refl o.master.desk
  have hqueue := List.Sublist.refl o.master.unwritten
  have hflush := h.outlet.flush
  cases hp with
  | write hq _ => exact h.write hq
  | flush hq => exact h.keep rfl hflush.1 hflush.2 hqueue hdesk
  | letGo hq _ => exact h.keep rfl hflush.1 hflush.2 (unwritten_of_queue hq) hdesk
  | fail hq _ =>
    exact h.keep rfl hflush.1 hflush.2 (unwritten_of_queue hq) (Desk.ticketsFrom_drop _ _)
  | shut hq =>
    exact h.keep rfl ⟨h.outlet.deaf, h.outlet.hearing⟩ rfl (unwritten_of_queue hq) hdesk
  | answer => exact h.keep rfl h.outlet rfl hqueue (Desk.ticketsFrom_drop _ _)

/-- Every change of a master preserves the invariant. -/
theorem change (h : SendsFrames started o) {d : Option Deed} {o' : Outcome}
    (hc : Change o.master d o') :
    SendsFrames (started ++ d.toList.filterMap Deed.started?) (o.andThen fun _ => o') := by
  have hdesk := Desk.TicketsFrom.refl o.master.desk
  have hqueue := List.Sublist.refl o.master.unwritten
  cases hc
  case join hnew => exact h.join hnew
  case progress hp =>
    have hnone : d.toList.filterMap Deed.started? = [] := by cases hp <;> rfl
    rw [hnone, List.append_nil]
    exact h.progress hp
  all_goals rw [show List.filterMap _ _ = [] from rfl, List.append_nil]
  case refuse => exact h.keep rfl h.outlet rfl hqueue hdesk
  case queueUp =>
    exact h.keep rfl h.outlet rfl (by simp [unwritten, withQueue, Waiter.unwritten?]) hdesk
  case expire | abandon =>
    exact h.keep rfl h.outlet rfl (unwritten_remove _ _) (Desk.ticketsFrom_drop _ _)
  case leave => exact h.keep rfl h.outlet rfl (unwritten_remove o.master _) hdesk
  case close => exact h.keep rfl h.outlet rfl hqueue (Desk.ticketsFrom_close _ _)
  case tick => exact h.keep rfl h.outlet rfl hqueue hdesk
  case read => exact h.keep rfl h.outlet rfl hqueue hdesk
  case resolve => exact h.keep rfl h.outlet rfl hqueue (Desk.ticketsFrom_resolve _ _)
  case receive n =>
    exact h.keep rfl (h.outlet.receive n).1 (h.outlet.receive n).2 hqueue hdesk
  case deafen =>
    have hdeafen := o.master.outlet.isSound_deafen
    exact h.keep rfl hdeafen.1 hdeafen.2 hqueue hdesk
  case wake => exact h.keep rfl ⟨h.outlet.deaf, h.outlet.hearing⟩ rfl hqueue hdesk

/-- So do changes one after another. -/
theorem trace {m : Master} (h : SendsFrames [] ⟨m, [], []⟩) {ds : List Deed} {o : Outcome}
    (ht : Trace m ds o) : SendsFrames (ds.filterMap Deed.started?) o := by
  induction ht with
  | refl => exact h
  | step _ hc ih =>
    rw [List.filterMap_append]
    exact ih.change hc

end SendsFrames

/-- In every run of a master the bytes accepted so far and those in the buffer are the whole frames
of the written calls. These calls are written at most once, in the order of their starts, and are
those whose tickets are marked as sent. -/
theorem run_sends_frames (policy : UnitPolicy) (capacity : Nat) (hs : List Happening) :
    let m := attach policy capacity
    let o := m.run hs
    o.accepted ++ o.master.outlet.buffer = Call.frames o.written ∧
      o.received <+: Call.frames o.written ∧
      o.written.Sublist (m.started hs) ∧
      (m.started hs).Pairwise (·.serial < ·.serial) ∧
      (∀ c ∈ m.started hs, c.request.size ≤ Pdu.maxSize) ∧
      ∀ serial ticket, o.master.desk.tickets[serial]? = some ticket →
        ∃ c ∈ m.started hs, c.serial = serial ∧ c.transaction = ticket.id ∧
          (ticket.isSent = true ↔ c ∈ o.written) := by
  intro m o
  have h : SendsFrames (m.started hs) o := by
    obtain ⟨ds, ht, -, hstarted⟩ := m.exists_trace hs
    exact hstarted ▸ (SendsFrames.attach policy capacity).trace ht
  have hbytes : o.accepted ++ o.master.outlet.buffer = Call.frames o.written := by
    rw [← h.bytes]
    simp [Outcome.accepted, Outlet.carried]
  refine ⟨hbytes, ⟨_, h.bytes⟩, (List.sublist_append_left _ _).trans h.order, h.serials, h.fits,
    fun serial ticket => h.tickets⟩

end Master

end Modbus
