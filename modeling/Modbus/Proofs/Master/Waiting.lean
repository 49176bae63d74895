import Modbus.Proofs.Master.Replies

/-!
# Calls that wait

A call that has sent its frame waits, and the first frame with its transaction id is for it,
whoever else waits and whatever comes before this frame (`Master.Waits`). It takes the frame at
once, and its caller is told what the call makes of it (`Master.Waits.send`).
-/

namespace Modbus

/-- The holder of a ticket for an id waits for a reply. -/
structure Desk.Awaits (d : Desk) (serial : Serial) (id : TransactionId) : Prop where
  agrees : d.Agrees
  ticket : ∃ ticket, d.tickets[serial]? = some ticket ∧ ticket.id = id ∧ ticket.delivery = none

namespace Desk.Awaits

variable {d : Desk} {serial : Serial} {id : TransactionId} {f : Frame}

/-- The holder of a ticket that waits finds nothing yet. -/
theorem outlook (h : d.Awaits serial id) : d.outlook? serial = some .waiting := by
  obtain ⟨ticket, ht, -, hd⟩ := h.ticket
  exact h.agrees.outlook?_eq_waiting.2 ⟨ticket, ht, hd⟩

/-- When others drop their tickets, it goes on waiting. -/
theorem drop (h : d.Awaits serial id) {serial' : Serial} (hs : serial' ≠ serial) :
    (d.drop serial').Awaits serial id where
  agrees := h.agrees.drop serial'
  ticket := by
    rw [getElem?_drop, if_neg hs]
    exact h.ticket

/-- So it does when a frame comes that has another id. -/
theorem resolve_other (h : d.Awaits serial id) (hf : f.header.transaction ≠ id) :
    (d.resolve f).Awaits serial id where
  agrees := h.agrees.resolve f
  ticket := by
    obtain ⟨ticket, ht, hid, hd⟩ := h.ticket
    have hnot : d.table.entries[f.header.transaction]? ≠ some (.pending serial) := fun hp => by
      obtain ⟨ticket', ht', hid', -⟩ := h.agrees.pending_iff.1 hp
      obtain rfl := Option.some.inj (ht.symm.trans ht')
      exact hf (hid'.symm.trans hid)
    rw [getElem?_resolve, if_neg hnot]
    exact ⟨ticket, ht, hid, hd⟩

/-- A frame with its id is for it. -/
theorem resolve (h : d.Awaits serial id) (hf : f.header.transaction = id) :
    (d.resolve f).outlook? serial = some (.ready (.ok f)) :=
  h.agrees.ready_resolve (hf ▸ h.agrees.pending_iff.2 h.ticket)

end Desk.Awaits

namespace Master

variable {m : Master} {c : Call} {f : Frame} {fs fs' : List Frame}

/-- A call waits, and no other call that waits has its ticket. -/
structure Waits (m : Master) (c : Call) : Prop where
  mem : c ∈ m.awaiting
  own : ∀ c' ∈ m.awaiting, c'.serial = c.serial → c' = c
  desk : m.desk.Awaits c.serial c.transaction

/-- Calls that wait in a run do so in this way. -/
theorem Tells.waits {ds : List Deed} {o : Outcome} (h : Tells ds o) (hquiet : o.master.IsQuiet)
    (hc : c ∈ o.master.awaiting) : o.master.Waits c := by
  have hcalls {c' : Call} (hc' : c' ∈ o.master.awaiting) : c' ∈ o.master.calls :=
    List.mem_append_right _ hc'
  refine ⟨hc, fun c' hc' => h.eq_of_serial (hcalls hc') (hcalls hc), h.agrees, ?_⟩
  obtain ⟨ticket, ht, hid, -⟩ := h.ticket (hcalls hc)
  exact ⟨ticket, ht, hid, (delivery?_eq_none.1 (hquiet c hc) ticket ht).1⟩

/-- While others look for their deliveries, a call goes on waiting. -/
theorem Waits.await {c' : Call} {cs : List Call}
    (h : (m.withAwaiting (m.awaiting ++ c' :: cs)).Waits c) :
    ((m.await c').master.withAwaiting ((m.await c').master.awaiting ++ cs)).Waits c := by
  obtain ⟨hmem, hown, hdesk⟩ := h
  unfold Master.await
  split <;> rename_i hd
  · have hne : c' ≠ c := by
      rintro rfl
      have hwaits : m.desk.outlook? c'.serial = some .waiting := hdesk.outlook
      rw [deliveryFor?, hwaits] at hd
      cases hd
    have hmem' : c ∈ m.awaiting ++ c' :: cs := hmem
    have hserial : c'.serial ≠ c.serial := fun hs => hne (hown c' (by simp [withAwaiting]) hs)
    refine ⟨?_, fun c'' hc'' => hown c'' ?_, hdesk.drop hserial⟩
    · simpa [withAwaiting, finishCall, hne.symm] using hmem'
    · have hc'' : c'' ∈ m.awaiting ++ cs := hc''
      exact (List.Sublist.append_left (List.sublist_cons_self c' cs) m.awaiting).subset hc''
  · have hsame : m.awaiting ++ [c'] ++ cs = m.awaiting ++ c' :: cs := by simp
    refine ⟨?_, ?_, hdesk⟩
    · exact hsame ▸ hmem
    · exact hsame ▸ hown

/-- A call goes on waiting when others behind it are asked for their deliveries. -/
theorem Waits.settle {cs : List Call} (h : (m.withAwaiting (m.awaiting ++ cs)).Waits c) :
    (m.settle cs).master.Waits c := by
  induction cs generalizing m with
  | nil =>
    rw [List.append_nil] at h
    exact h
  | cons c' cs ih => exact ih h.await

/-- So it does when all others are asked. -/
theorem Waits.collect (h : m.Waits c) : m.collect.master.Waits c :=
  Waits.settle (m := { m with awaiting := [] }) h

/-- A call that has been given a reply finds it when it looks for it. -/
theorem finished_settle {cs : List Call} (hc : c ∈ cs)
    (hown : ∀ c' ∈ cs, c'.serial = c.serial → c' = c) {reply : Delivery}
    (hready : m.desk.outlook? c.serial = some (.ready reply)) :
    .finished c.id (c.verdict m.policy reply) ∈ (m.settle cs).events := by
  have hfound : m.deliveryFor? c = some reply := by
    rw [deliveryFor?, hready]
    rfl
  induction cs generalizing m with
  | nil => cases hc
  | cons c' cs ih =>
    rw [Master.settle, Outcome.events_andThen]
    by_cases heq : c' = c
    · subst heq
      refine List.mem_append_left _ ?_
      rw [Master.await, hfound]
      exact List.mem_cons_self
    · have hmem : c ∈ cs := (List.mem_cons.1 hc).resolve_left (Ne.symm heq)
      have hlater : ∀ c'' ∈ cs, c''.serial = c.serial → c'' = c := fun c'' hc'' =>
        hown c'' (List.mem_cons_of_mem c' hc'')
      have hserial : c'.serial ≠ c.serial := fun hs => heq (hown c' List.mem_cons_self hs)
      refine List.mem_append_right _ ?_
      unfold Master.await
      split
      · have hready' := Desk.ready_drop hready hserial
        exact ih hmem hlater hready' (by rw [deliveryFor?, finishCall, hready']; rfl)
      · exact ih hmem hlater hready hfound

/-- A call that waits takes the first frame with its id, and its caller is told what it makes of
it. -/
theorem Waits.deliver (h : m.Waits c) (hfs : ∀ f' ∈ fs, f'.header.transaction ≠ c.transaction)
    (hf : f.header.transaction = c.transaction) :
    .finished c.id (c.judge m.policy f) ∈ (m.deliver (fs ++ f :: fs')).events := by
  induction fs generalizing m with
  | nil =>
    exact List.mem_append_left _ (finished_settle (m := { m with
      desk := m.desk.resolve f, awaiting := [] }) h.mem h.own (h.desk.resolve hf))
  | cons f' fs ih =>
    obtain ⟨hf', hfs'⟩ := List.forall_mem_cons.1 hfs
    have hpassed : Waits { m with desk := m.desk.resolve f' } c :=
      ⟨h.mem, h.own, h.desk.resolve_other hf'⟩
    have hpolicy : (Master.collect { m with desk := m.desk.resolve f' }).master.policy =
        m.policy := by
      obtain ⟨ds, ht, -⟩ := (proceeds_collect { m with desk := m.desk.resolve f' }).changes
      exact ht.policy
    have hlater := ih hpassed.collect hfs'
    rw [hpolicy] at hlater
    exact List.mem_append_right _ hlater

/-- So it is when the bytes of the frame come, whatever comes with them. -/
theorem Waits.send (h : m.Waits c) (hopen : m.inlet.isClosed = false) {bytes : Bytes}
    (hitems : (Decoder.frames.drain (m.inlet.buffer ++ bytes)).items = fs ++ f :: fs')
    (hfs : ∀ f' ∈ fs, f'.header.transaction ≠ c.transaction)
    (hf : f.header.transaction = c.transaction) :
    .finished c.id (c.judge m.policy f) ∈ (m.step (.send bytes)).events := by
  have hstep : m.step (.send bytes) = m.hear (Decoder.frames.drain (m.inlet.buffer ++ bytes)) := by
    simp [step, Master.send, hopen]
  rw [hstep, hear, Outcome.events_andThen, hitems]
  have hsame : Waits { m with inlet :=
      { m.inlet with buffer := (Decoder.frames.drain (m.inlet.buffer ++ bytes)).rest } } c :=
    ⟨h.mem, h.own, h.desk⟩
  exact List.mem_append_left _ (hsame.deliver hfs hf)

end Master

end Modbus
