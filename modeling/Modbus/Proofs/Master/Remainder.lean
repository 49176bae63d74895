import Mathlib.Data.List.Basic
import Modbus.Proofs.Master.Disconnection

/-!
# What is left in the buffer when the stream ends

A disconnection ends the stream without emptying the buffer. So the peer receives the frames of all
calls that have been written if and only if the buffer is empty at that moment, and otherwise the
last ones of them are cut off (`Master.run_ends_stream`).

Bytes are left in the buffer only by calls that end in the middle of their turns. A call whose turn
is over has emptied the buffer, so what is in the buffer later belongs to calls that have been
written behind it (`Outcome.HasPassed`). `Master.KeepsTurns` is the invariant that tells this of
every call that waits for its delivery or has taken it.
-/

namespace Modbus

variable {d : Option Deed} {ds ds' : List Deed} {o o' : Outcome} {c : Call} {id : CallId}

/-- Whether the transport has accepted the frame of a call and the frames in front of it: nothing is
left in the buffer but bytes of frames that have been written behind it. -/
def Outcome.HasPassed (o : Outcome) (c : Call) : Prop :=
  ∃ before behind, o.written = before ++ c :: behind ∧
    o.master.outlet.buffer <:+ Call.frames behind

/-- What has passed has passed, whatever is written later. -/
theorem Outcome.HasPassed.andThen (h : o.HasPassed c)
    (hbuffer : o'.master.outlet.buffer <:+ o.master.outlet.buffer ++ Call.frames o'.written) :
    (o.andThen fun _ => o').HasPassed c := by
  obtain ⟨before, behind, hwritten, hsuffix⟩ := h
  refine ⟨before, behind ++ o'.written, ?_, ?_⟩
  · simp [hwritten]
  · obtain ⟨sent, hsent⟩ := hsuffix
    refine hbuffer.trans ⟨sent, ?_⟩
    rw [← List.append_assoc, hsent, Call.frames, Call.frames, Call.frames, List.flatMap_append]

namespace Master

variable {m : Master}

/-! ## The turns of calls -/

/-- Where the calls stand that have been written: one of them may have the turn, and it is the last
one that has been written. The frames of those whose turns are over have passed, if they have not
ended before. -/
structure KeepsTurns (ds : List Deed) (o : Outcome) : Prop where
  behind : o.master.queue.Pairwise fun _ w => ∀ c, w ≠ .call c true
  last : ∀ c, .call c true ∈ o.master.queue → ∃ before, o.written = before ++ [c]
  passed : ∀ c, (c ∈ o.master.awaiting ∨ ∃ delivery, .finish c (.taken delivery) ∈ ds) →
    o.HasPassed c

namespace KeepsTurns

/-- On a new master nobody has had a turn. -/
theorem attach (policy : UnitPolicy) (capacity : Nat) :
    KeepsTurns [] ⟨Master.attach policy capacity, [], []⟩ where
  behind := .nil
  last := by simp [Master.attach]
  passed := by simp [Master.attach]

/-- A change that writes no call preserves the invariant if it shortens the buffer and the queue, or
lets somebody join the queue. A call that begins to wait has had the turn, and has emptied the
buffer. -/
theorem keep (h : KeepsTurns ds o) (hw : o'.written = [])
    (hbuffer : o'.master.outlet.buffer <:+ o.master.outlet.buffer)
    (hqueue : o'.master.queue.Sublist o.master.queue ∨
      ∃ w, (∀ c, w ≠ .call c true) ∧ o'.master.queue = o.master.queue ++ [w])
    (hpassed : ∀ c, (c ∈ o'.master.awaiting ∨ ∃ delivery, .finish c (.taken delivery) ∈ ds') →
      c ∈ o.master.awaiting ∨ .call c true ∈ o.master.queue ∧ o'.master.outlet.buffer = []) :
    KeepsTurns (ds ++ ds') (o.andThen fun _ => o') := by
  have hwritten : (o.andThen fun _ => o').written = o.written := by
    rw [Outcome.written_andThen, hw, List.append_nil]
  have hlater {c : Call} (hc : o.HasPassed c) : (o.andThen fun _ => o').HasPassed c :=
    hc.andThen (hbuffer.trans (by simp [hw, Call.frames]))
  constructor
  case behind =>
    rcases hqueue with hsub | ⟨w, hw, heq⟩
    · exact h.behind.sublist hsub
    · rw [Outcome.master_andThen, heq, List.pairwise_append]
      refine ⟨h.behind, List.pairwise_singleton .., fun _ _ w' hw' => ?_⟩
      rw [List.mem_singleton.1 hw']
      exact hw
  case last =>
    intro c hc
    rw [hwritten]
    rcases hqueue with hsub | ⟨w, hw, heq⟩
    · exact h.last c (hsub.subset hc)
    · rw [Outcome.master_andThen, heq] at hc
      refine h.last c ((List.mem_append.1 hc).resolve_right fun hc => ?_)
      exact hw c (List.mem_singleton.1 hc).symm
  case passed =>
    intro c hc
    have hnew : (c ∈ o'.master.awaiting ∨ ∃ delivery, .finish c (.taken delivery) ∈ ds') →
        (o.andThen fun _ => o').HasPassed c := by
      intro hc
      rcases hpassed c hc with hold | ⟨hturn, hempty⟩
      · exact hlater (h.passed c (.inl hold))
      · obtain ⟨before, hlast⟩ := h.last c hturn
        exact ⟨before, [], by rw [hwritten, hlast], by simp [hempty]⟩
    rcases hc with hc | ⟨delivery, hc⟩
    · exact hnew (.inl hc)
    · rcases List.mem_append.1 hc with hold | hnow
      · exact hlater (h.passed c (.inr ⟨delivery, hold⟩))
      · exact hnew (.inr ⟨delivery, hnow⟩)

/-- The first in the queue is written. Nobody behind it has been written before. -/
theorem write (h : KeepsTurns ds o) {rest : List Waiter}
    (hq : o.master.queue = .call c false :: rest) :
    KeepsTurns (ds ++ [.write c]) (o.andThen fun _ =>
      ⟨(o.master.writeFrame c).master.withQueue (.call c true :: rest), [.written c], []⟩) := by
  have hbehind := h.behind
  rw [hq, List.pairwise_cons] at hbehind
  constructor
  case behind => exact List.pairwise_cons.2 hbehind
  case last =>
    intro c' hc'
    rcases List.mem_cons.1 hc' with heq | hrest
    · cases heq
      exact ⟨o.written, by rw [Outcome.written_andThen]; rfl⟩
    · exact absurd rfl (hbehind.1 _ hrest c')
  case passed =>
    intro c' hc'
    have hold : c' ∈ o.master.awaiting ∨ ∃ delivery, .finish c' (.taken delivery) ∈ ds :=
      hc'.imp_right fun ⟨delivery, hd⟩ => ⟨delivery, by simpa using hd⟩
    refine (h.passed c' hold).andThen ?_
    simp [withQueue, writeFrame, Outlet.append, Outcome.written, Event.written?, Call.frames]

/-- Emptying the buffer takes bytes off its front. -/
theorem buffer_flush (outlet : Outlet) : outlet.flush.1.buffer <:+ outlet.buffer := by
  obtain ⟨n, treatments, h, -⟩ := outlet.flush_inv
  rw [h]
  exact List.drop_suffix n _

/-- Every change preserves the invariant. -/
theorem change (h : KeepsTurns ds o) (hc : Change o.master d o') :
    KeepsTurns (ds ++ d.toList) (o.andThen fun _ => o') := by
  have hsame := List.suffix_refl o.master.outlet.buffer
  have hflush := buffer_flush o.master.outlet
  have hqueue := List.Sublist.refl o.master.queue
  cases hc with
  | progress hp =>
    cases hp with
    | write hq _ => exact h.write hq
    | flush hq => exact h.keep rfl hflush (.inl hqueue) (by simp +contextual)
    | @letGo c rest hq hempty =>
      refine h.keep rfl hflush (.inl (by simp [hq])) ?_
      rintro c' (hc' | ⟨delivery, hd⟩)
      · refine (List.mem_append.1 hc').imp_right fun hc' => ?_
        rw [List.mem_singleton.1 hc', hq]
        exact ⟨List.mem_cons_self, Outlet.buffer_of_flushed _ hempty⟩
      · simp at hd
    | fail hq _ => exact h.keep rfl hflush (.inl (by simp [hq])) (by simp +contextual)
    | shut hq => exact h.keep rfl hsame (.inl (by simp [hq])) (by simp +contextual)
    | @answer c before behind delivery ha _ =>
      refine h.keep rfl hsame (.inl hqueue) ?_
      rintro c' (hc' | ⟨delivery', hd⟩)
      · refine .inl (ha ▸ ?_)
        exact (List.Sublist.append_left (List.sublist_cons_self c behind) before).subset hc'
      · obtain ⟨rfl, -⟩ : c' = c ∧ _ := by simpa using hd
        exact .inl (ha ▸ by simp)
  | join | queueUp =>
    exact h.keep rfl hsame (.inr ⟨_, by simp, rfl⟩) (by simp +contextual [withQueue])
  | expire | abandon | leave =>
    refine h.keep rfl hsame (.inl List.filter_sublist) ?_
    rintro c' (hc' | ⟨delivery, hd⟩)
    · exact .inl (List.mem_filter.1 hc').1
    · simp at hd
  | _ => exact h.keep rfl hsame (.inl hqueue) (by simp +contextual)

/-- The invariant holds along every trace from a new master. -/
theorem trace {policy : UnitPolicy} {capacity : Nat}
    (ht : Trace (Master.attach policy capacity) ds o) : KeepsTurns ds o := by
  induction ht with
  | refl => exact attach policy capacity
  | step _ hc ih => exact ih.change hc

end KeepsTurns

/-! ## The end of the stream -/

/-- An attempt to write does not end the stream. -/
theorem isShut_flush (outlet : Outlet) : outlet.flush.1.isShut = outlet.isShut := by
  obtain ⟨n, treatments, h, -⟩ := outlet.flush_inv
  rw [h]
  rfl

/-- A disconnection ends the stream, and it stays so. -/
theorem Change.isShut (h : Change m d o)
    (hshut : m.outlet.isShut = true ∨ .disconnected id ∈ o.events) :
    o.master.outlet.isShut = true := by
  cases h with
  | progress hp =>
    cases hp with
    | shut => rfl
    | flush | letGo | fail => exact (isShut_flush _).trans (hshut.resolve_right (by simp))
    | write | answer => exact hshut.resolve_right (by simp)
  | _ => exact hshut.resolve_right (by simp)

/-- The stream has ended once somebody has been told that it is disconnected. -/
theorem Trace.isShut (h : Trace m ds o) (he : .disconnected id ∈ o.events) :
    o.master.outlet.isShut = true := by
  induction h with
  | refl => cases he
  | step _ hc ih => exact hc.isShut ((List.mem_append.1 he).imp_left ih)

/-- When the stream has ended, the turns of disconnections do nothing to it. -/
theorem giveTurns_disconnections {m : Master} {queue : List Waiter}
    (hshut : m.outlet.isShut = true) (h : ∀ w ∈ queue, w.call? = none) :
    (m.giveTurns queue).written = [] ∧ (m.giveTurns queue).master.outlet = m.outlet := by
  have hsame : m.outlet.shut = m.outlet := by rw [Outlet.shut, ← hshut]
  induction queue generalizing m with
  | nil => exact ⟨rfl, rfl⟩
  | cons w rest ih =>
    obtain ⟨hw, hrest⟩ := List.forall_mem_cons.1 h
    cases w with
    | call => cases hw
    | disconnect id =>
      obtain ⟨hwritten, houtlet⟩ := ih (m := { m with outlet := m.outlet.shut }) rfl hrest rfl
      exact ⟨hwritten, houtlet.trans hsame⟩

/-- When the stream has ended and no call is left, a peer that receives everything receives what is
in transit, and that is all. -/
theorem receive_last (hcalls : m.calls = []) (hshut : m.outlet.isShut = true) :
    let o := m.step (.receive none)
    o.written = [] ∧ o.received = m.outlet.transit ∧ o.master.outlet.isEnded = true := by
  intro o
  have hqueue : ∀ w ∈ m.queue, w.call? = none := by
    have hnone := (List.append_eq_nil_iff.1 hcalls).1
    exact List.filterMap_eq_nil_iff.1 hnone
  have hmost : min m.backlog m.outlet.transit.length = m.outlet.transit.length := by
    simp only [backlog]
    omega
  have ho : o = m.receive m.backlog := rfl
  by_cases htransit : m.outlet.transit = []
  · rw [ho, receive_of_zero m (by rw [hmost, htransit]; rfl)]
    simp [Outcome.written, Outlet.isEnded, hshut, htransit]
  · -- everything in transit is received at once, and nothing follows
    let m₁ := (m.take m.outlet.transit.length).master
    obtain ⟨hwritten, houtlet⟩ : (m₁.giveTurns m₁.queue).written = [] ∧ _ :=
      giveTurns_disconnections hshut hqueue
    have hlast : m₁.proceed.master.outlet.transit = [] := by
      rw [proceed, houtlet]
      exact List.drop_length
    have hpos : m.outlet.transit.length ≠ 0 := by simpa using htransit
    have hend (most : Nat) : m₁.proceed.master.receive most = ⟨m₁.proceed.master, [], []⟩ :=
      receive_of_zero _ (by rw [hlast]; simp)
    have hall : o = (m.take m.outlet.transit.length).andThen proceed := by
      rw [ho, receive_of_pos m hmost hpos]
      refine Eq.trans ?_ (Outcome.andThen_stay _)
      exact congrArg (Outcome.andThen _ fun _ => ·) (hend _)
    rw [hall]
    refine ⟨?_, ?_, ?_⟩
    · rw [Outcome.written_andThen]
      exact hwritten
    · rw [Outcome.received_andThen, (proceeds_proceed _).received, List.append_nil]
      exact List.take_length
    · rw [Outcome.master_andThen, Outlet.isEnded, hlast, proceed, houtlet]
      simp [m₁, take, Outlet.receive, hshut]

/-- What has come of the frames of calls when a disconnection has ended the stream. -/
structure EndsStream (ds : List Deed) (o : Outcome) : Prop where
  calls : o.master.calls = []
  /-- A peer that has not become deaf and goes on receiving comes to the end of the stream. By then
  it has received the frames of the calls that have been written, but for the bytes in the
  buffer. -/
  receives : o.master.outlet.isDeaf = false → let o' := o.andThen fun m => m.step (.receive none)
    o'.master.outlet.isEnded = true ∧ o'.written = o.written ∧
      o'.received ++ o.master.outlet.buffer = Call.frames o.written
  /-- So it has received whole frames, one of each call that has been written, if and only if the
  buffer is empty. -/
  whole : o.master.outlet.isDeaf = false →
    ((o.andThen fun m => m.step (.receive none)).received = Call.frames o.written ↔
      o.master.outlet.buffer = [])
  /-- The frame of a call that has taken its delivery is not cut off, nor is one in front of it. -/
  passed : ∀ c delivery, .finish c (.taken delivery) ∈ ds → o.HasPassed c
  /-- If frames are cut off, the call that has been written last has ended without a delivery. -/
  cutOff : o.master.outlet.buffer ≠ [] → ∃ before c ending, o.written = before ++ [c] ∧
    .finish c ending ∈ ds ∧ ∀ delivery, ending ≠ .taken delivery

/-- Behind the call that has been written last, nothing has been written. -/
theorem Tells.behind_last (h : Tells ds o) {before before' behind : List Call}
    (hlast : o.written = before ++ [c]) (hwritten : o.written = before' ++ c :: behind) :
    behind = [] := by
  have hnodup : o.written.Nodup :=
    h.nodup.sublist ((List.sublist_append_left _ _).trans h.sends.order)
  rcases List.eq_nil_or_concat behind with hnil | ⟨between, c', rfl⟩
  · exact hnil
  · rw [List.concat_eq_append] at hwritten
    have hsame : before ++ [c] = (before' ++ c :: between) ++ [c'] := by
      rw [← hlast, hwritten, List.append_assoc, List.cons_append]
    obtain rfl : c = c' := List.singleton_inj.1 (List.append_inj_right' hsame rfl)
    rw [hwritten, List.nodup_append, List.nodup_cons] at hnodup
    exact absurd (by simp) hnodup.2.1.1

/-- **A disconnection that ends the stream leaves in the buffer what is there**, in every run. The
peer receives whole frames if and only if nothing is left, and if something is left, it is of calls
that have ended in the middle of their turns. -/
theorem run_ends_stream (policy : UnitPolicy) (capacity : Nat) (hs : List Happening) :
    let m := attach policy capacity
    let o := m.run hs
    ∃ ds, Trace m ds o ∧ ds.filter Deed.isInput = m.inputs hs ∧
      ds.filterMap Deed.started? = m.started hs ∧
      ∀ id, .disconnected id ∈ o.events → EndsStream ds o := by
  intro m o
  obtain ⟨ds, ht, hinputs, hstarted⟩ := m.exists_trace hs
  refine ⟨ds, ht, hinputs, hstarted, fun id he => ?_⟩
  have htells : Tells ds o := Tells.of_trace ht
  have hturns : KeepsTurns ds o := KeepsTurns.trace ht
  have hquiet : o.master.IsQuiet := isQuiet_run (m := m) nofun hs
  have hcalls : o.master.calls = [] := htells.calls_of_disconnected hquiet (.of_attach hs) he
  obtain ⟨hwritten, hreceived, hended⟩ := receive_last hcalls (ht.isShut he)
  have hbytes (hhears : o.master.outlet.isDeaf = false) :
      (o.andThen fun m => m.step (.receive none)).received ++ o.master.outlet.buffer =
        Call.frames o.written := by
    rw [← htells.sends.bytes, Outcome.received_andThen, hreceived, Outlet.carried,
      htells.sends.outlet.hearing hhears]
    simp
  constructor
  case calls => exact hcalls
  case receives =>
    intro hhears o'
    exact ⟨hended, by rw [Outcome.written_andThen, hwritten, List.append_nil], hbytes hhears⟩
  case whole =>
    intro hhears
    rw [← hbytes hhears, List.self_eq_append_right]
  case passed => exact fun c delivery hd => hturns.passed c (.inr ⟨delivery, hd⟩)
  case cutOff =>
    intro hleft
    have hne : o.written ≠ [] := by
      intro hnone
      have hnothing := htells.sends.bytes
      rw [hnone, Outlet.carried] at hnothing
      exact hleft (List.append_eq_nil_iff.1 (List.append_eq_nil_iff.1 hnothing).2).2
    obtain ⟨before, c, hlast⟩ := (List.eq_nil_or_concat o.written).resolve_left hne
    rw [List.concat_eq_append] at hlast
    have hc : c ∈ ds.filterMap Deed.started? :=
      htells.sends.started_of_written (by rw [hlast]; simp)
    rw [← htells.calls.mem_iff, hcalls, List.nil_append] at hc
    obtain ⟨ending, hending⟩ := Deed.mem_finished.1 hc
    refine ⟨before, c, ending, hlast, hending, ?_⟩
    rintro delivery rfl
    obtain ⟨before', behind, hwhole, hsuffix⟩ := hturns.passed c (.inr ⟨delivery, hending⟩)
    rw [htells.behind_last hlast hwhole] at hsuffix
    exact hleft (List.suffix_nil.1 hsuffix)

/-- A call is cancelled when two thirds of its frame have been accepted, and the master disconnects.
The rest is never sent. -/
theorem cut_off_by_cancel :
    let hs : List Happening := [.start 0 1 (.readHoldingRegisters 0 1) none, .cancel 0,
      .receive none, .disconnect 1, .receive none]
    let o := (attach .warn 8).run hs
    o.events.getLast? = some (.disconnected 1) ∧ o.master.outlet.isEnded ∧
      o.master.outlet.isDeaf = false ∧ o.written.length = 1 ∧
      o.received = [0, 0, 0, 0, 0, 6, 1, 3] ∧
      Call.frames o.written = o.received ++ [0, 0, 0, 1] := by
  refine ⟨?_, ?_, ?_, ?_, ?_, ?_⟩ <;> cbv

end Master

end Modbus
