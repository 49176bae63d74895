import Modbus.Master.Basic

/-!
# The changes a master goes through

Whatever happens to a master, it goes through a sequence of small changes (`Master.Change`), each of
which does one thing: a call joins the queue, a frame is passed on, a call is given up, and so on.
What a master does by itself afterwards is its progress (`Master.Progress`): the head of the queue
appends its frame, the transport accepts bytes, a call that has its delivery ends.

A change is labelled with its deed (`Deed`), if calls, tickets or the incoming side have to do with
it, and changes one after another are a trace with a list of deeds (`Master.Trace`). Some deeds are
brought about from outside and follow from what happens (`Master.inputs`).
`Master.changes_step` and `Master.changes_run` take happenings and runs apart into such traces. What
every change preserves holds all along a run, so that invariants are proved by cases on a change and
never unfold the functions of a master.

The functions that give turns pass the queue on as an argument and leave the one in the master
behind. They are related to the master whose queue is that argument (`Master.withQueue`).
-/

namespace Modbus

namespace Outcome

@[simp] theorem master_andThen (o : Outcome) (next : Master → Outcome) :
    (o.andThen next).master = (next o.master).master := rfl

@[simp] theorem events_andThen (o : Outcome) (next : Master → Outcome) :
    (o.andThen next).events = o.events ++ (next o.master).events := rfl

@[simp] theorem received_andThen (o : Outcome) (next : Master → Outcome) :
    (o.andThen next).received = o.received ++ (next o.master).received := rfl

/-- Where nothing comes next, everything stays as it is. -/
@[simp] theorem andThen_stay (o : Outcome) : (o.andThen fun m => ⟨m, [], []⟩) = o := by
  simp [andThen]

/-- Outcomes are put together in any order. -/
theorem andThen_assoc (o : Outcome) (next later : Master → Outcome) :
    (o.andThen next).andThen later = o.andThen fun m => (next m).andThen later := by
  simp [andThen]

end Outcome

/-- How a call ends. -/
inductive Ending where
  /-- It takes its delivery. -/
  | taken (delivery : Delivery)
  /-- The transport fails in its turn. -/
  | broken (fault : Fault)
  /-- Its deadline has come. -/
  | expired
  /-- Its caller gives it up. -/
  | cancelled

/-- What is done to calls and to the incoming side. -/
inductive Deed where
  /-- A call is started. -/
  | start (call : Call)
  /-- The frame of a call is appended to the buffer. -/
  | write (call : Call)
  /-- A call ends. -/
  | finish (call : Call) (ending : Ending)
  /-- Bytes are read, and some of them stay in the buffer. -/
  | read (buffer : Bytes)
  /-- A frame is passed on. -/
  | pass (frame : Frame)
  /-- The table and the incoming side are closed. -/
  | close (reason : Fault)

namespace Deed

/-- Whether a deed is brought about from outside. -/
def isInput : Deed → Bool
  | start _ | read _ | pass _ | close _ => true
  | write _ | finish _ _ => false

/-- The call that is started. -/
def started? : Deed → Option Call
  | start c => some c
  | _ => none

end Deed

/-- The incoming side after a deed. -/
def Inlet.after (i : Inlet) : Deed → Inlet
  | .read buffer => { i with buffer }
  | .close _ => { i with isClosed := true }
  | _ => i

/-- A master with another queue. -/
def Master.withQueue (m : Master) (queue : List Waiter) : Master := { m with queue }

/-- A master with other waiting calls. -/
def Master.withAwaiting (m : Master) (awaiting : List Call) : Master := { m with awaiting }

/-- An outcome whose master has another queue. -/
def Outcome.withQueue (o : Outcome) (queue : List Waiter) : Outcome :=
  { o with master := o.master.withQueue queue }

namespace Master

/-- A master whose ticket of a call has been dropped. -/
def dropTicket (m : Master) (c : Call) : Master := { m with desk := m.desk.drop c.serial }

/-- A call is started for a request that fits into a PDU, with a ticket of the desk. -/
theorem newCall_inv {m : Master} {id : CallId} {unit : UnitId} {request : Request}
    {timeout : Option Span} {c : Call} {desk : Desk}
    (h : m.newCall id unit request timeout = .ok (c, desk)) :
    ∃ ticket, m.desk.allocate = .ok (c.serial, ticket, desk) ∧ c.transaction = ticket.id ∧
      c.id = id ∧ c.unit = unit ∧ c.request = request ∧ request.size ≤ Pdu.maxSize := by
  unfold newCall Request.size? at h
  by_cases hsize : request.size ≤ Pdu.maxSize
  · simp only [if_pos hsize] at h
    cases ha : m.desk.allocate with
    | error e => simp [ha] at h
    | ok r =>
      obtain ⟨serial, ticket, desk'⟩ := r
      simp only [ha] at h
      cases h
      exact ⟨ticket, rfl, rfl, rfl, rfl, rfl, hsize⟩
  · simp [if_neg hsize] at h

/-- A call that is refused leaves the master as it is. -/
theorem step_of_refused {m : Master} {id : CallId} {unit : UnitId} {request : Request}
    {timeout : Option Span} {e : Error} (h : m.newCall id unit request timeout = .error e) :
    m.step (.start id unit request timeout) = ⟨m, [.finished id (.error e)], []⟩ := by
  simp only [step, start, h]

/-- What a master does by itself. -/
inductive Progress (m : Master) : Option Deed → Outcome → Prop where
  /-- The first in the queue appends its frame to the buffer. -/
  | write {c : Call} {rest : List Waiter} (hq : m.queue = .call c false :: rest)
    (hroom : m.outlet.buffer.length < Outlet.highWater) :
    Progress m (some (.write c))
      ⟨(m.writeFrame c).master.withQueue (.call c true :: rest), [.written c], []⟩
  /-- The transport accepts bytes in the turn of a call. -/
  | flush {c : Call} {isWritten : Bool} {rest : List Waiter}
    (hq : m.queue = .call c isWritten :: rest) :
    Progress m none ⟨{ m with outlet := m.outlet.flush.1 }, [], []⟩
  /-- The first in the queue has sent its frame and waits for its delivery. -/
  | letGo {c : Call} {rest : List Waiter} (hq : m.queue = .call c true :: rest)
    (hempty : m.outlet.flush.2 = .flushed) :
    Progress m none ⟨{ m with
      outlet := m.outlet.flush.1, queue := rest, awaiting := m.awaiting ++ [c] }, [], []⟩
  /-- The transport fails in the turn of a call. -/
  | fail {c : Call} {isWritten : Bool} {rest : List Waiter} {fault : Fault}
    (hq : m.queue = .call c isWritten :: rest) (hf : m.outlet.flush.2 = .broken fault) :
    Progress m (some (.finish c (.broken fault))) ⟨{ m with
      outlet := m.outlet.flush.1, desk := m.desk.drop c.serial, queue := rest },
      [.finished c.id (.error (.transport fault))], []⟩
  /-- A disconnection has the turn, and ends the stream. -/
  | shut {id : CallId} {rest : List Waiter} (hq : m.queue = .disconnect id :: rest) :
    Progress m none ⟨{ m with outlet := m.outlet.shut, queue := rest }, [.disconnected id], []⟩
  /-- A call that waits for its delivery has it. -/
  | answer {c : Call} {before behind : List Call} {delivery : Delivery}
    (ha : m.awaiting = before ++ c :: behind) (hd : m.deliveryFor? c = some delivery) :
    Progress m (some (.finish c (.taken delivery)))
      ⟨(m.dropTicket c).withAwaiting (before ++ behind),
        [.finished c.id (c.verdict m.policy delivery)], []⟩

/-- Progress any number of times. -/
inductive Proceeds (m : Master) : Outcome → Prop where
  | refl : Proceeds m ⟨m, [], []⟩
  | step {d : Option Deed} {o o' : Outcome} (h : Proceeds m o) (hp : Progress o.master d o') :
    Proceeds m (o.andThen fun _ => o')

/-- One change of a master, with what is done in it and what it leads to. -/
inductive Change (m : Master) : Option Deed → Outcome → Prop where
  /-- The master does something by itself. -/
  | progress {d : Option Deed} {o : Outcome} (h : Progress m d o) : Change m d o
  /-- A call is refused. -/
  | refuse {id : CallId} {unit : UnitId} {request : Request} {timeout : Option Span} {e : Error}
    (h : m.newCall id unit request timeout = .error e) :
    Change m none ⟨m, [.finished id (.error e)], []⟩
  /-- A call joins the queue. -/
  | join {id : CallId} {unit : UnitId} {request : Request} {timeout : Option Span} {c : Call}
    {desk : Desk} (h : m.newCall id unit request timeout = .ok (c, desk)) :
    Change m (some (.start c)) ⟨{ m with desk, queue := m.queue ++ [.call c false] }, [], []⟩
  /-- A disconnection joins the queue. -/
  | queueUp (id : CallId) : Change m none ⟨m.withQueue (m.queue ++ [.disconnect id]), [], []⟩
  /-- The deadline of a call has come. -/
  | expire {c : Call} (hc : c ∈ m.calls) (ht : c.isExpired m.clock) :
    Change m (some (.finish c .expired)) ⟨(m.dropTicket c).remove (·.isCall c),
      [.finished c.id (.error (.timeout (c.timeout.getD 0)))], []⟩
  /-- A call is given up by its caller. -/
  | abandon {c : Call} (hc : c ∈ m.calls) :
    Change m (some (.finish c .cancelled)) ⟨(m.dropTicket c).remove (·.isCall c), [], []⟩
  /-- A disconnection is given up by its caller. -/
  | leave (id : CallId) : Change m none ⟨m.remove (·.isDisconnect id), [], []⟩
  /-- The table and the incoming side are closed. -/
  | close (reason : Fault) : Change m (some (.close reason)) ⟨{ m with
      desk := m.desk.close reason, inlet := { m.inlet with isClosed := true } }, [], []⟩
  /-- Time passes. -/
  | tick (span : Span) : Change m none ⟨{ m with clock := m.clock + span }, [], []⟩
  /-- Bytes are read. -/
  | read (hopen : m.inlet.isClosed = false) (buffer : Bytes) :
    Change m (some (.read buffer)) ⟨{ m with inlet := { m.inlet with buffer } }, [], []⟩
  /-- A frame is passed on. -/
  | resolve (f : Frame) :
    Change m (some (.pass f)) ⟨{ m with desk := m.desk.resolve f }, [], []⟩
  /-- The peer receives bytes. -/
  | receive (n : Nat) :
    Change m none ⟨{ m with outlet := (m.outlet.receive n).2 }, [], (m.outlet.receive n).1⟩
  /-- The peer stops receiving. -/
  | deafen : Change m none ⟨{ m with outlet := m.outlet.deafen }, [], []⟩
  /-- The transport announces how it treats attempts to write. -/
  | wake (treatments : List Treatment) :
    Change m none ⟨{ m with outlet := { m.outlet with treatments } }, [], []⟩

/-- Any number of changes, one after another, with what is done in them. -/
inductive Trace (m : Master) : List Deed → Outcome → Prop where
  | refl : Trace m [] ⟨m, [], []⟩
  | step {ds : List Deed} {d : Option Deed} {o o' : Outcome} (h : Trace m ds o)
    (hc : Change o.master d o') : Trace m (ds ++ d.toList) (o.andThen fun _ => o')

/-- Changes one after another, with what is brought about from outside in them. -/
def Changes (m : Master) (inputs : List Deed) (o : Outcome) : Prop :=
  ∃ ds, Trace m ds o ∧ ds.filter Deed.isInput = inputs

/-- A master proceeds by what it does by itself. -/
theorem Progress.proceeds {m : Master} {d : Option Deed} {o : Outcome} (h : Progress m d o) :
    Proceeds m o := by
  have := Proceeds.step .refl h
  simpa [Outcome.andThen] using this

/-- It proceeds again and again. -/
theorem Proceeds.trans {m : Master} {o o' : Outcome} (h : Proceeds m o)
    (h' : Proceeds o.master o') : Proceeds m (o.andThen fun _ => o') := by
  induction h' with
  | refl => simpa [Outcome.andThen] using h
  | step _ hp ih =>
    have := Proceeds.step ih hp
    simpa [Outcome.andThen, List.append_assoc] using this

/-- One change is a trace with its deed. -/
theorem Change.trace {m : Master} {d : Option Deed} {o : Outcome} (h : Change m d o) :
    Trace m d.toList o := by
  have := Trace.step .refl h
  simpa [Outcome.andThen] using this

/-- Traces follow one another. -/
theorem Trace.trans {m : Master} {ds ds' : List Deed} {o o' : Outcome} (h : Trace m ds o)
    (h' : Trace o.master ds' o') : Trace m (ds ++ ds') (o.andThen fun _ => o') := by
  induction h' with
  | refl => simpa [Outcome.andThen] using h
  | step _ hc ih =>
    have := Trace.step ih hc
    simpa [Outcome.andThen, List.append_assoc] using this

/-- Without a change nothing is brought about. -/
theorem Changes.refl {m : Master} : Changes m [] ⟨m, [], []⟩ := ⟨[], .refl, rfl⟩

/-- One change brings about its deed, if this comes from outside. -/
theorem Change.changes {m : Master} {d : Option Deed} {o : Outcome} (h : Change m d o) :
    Changes m (d.toList.filter Deed.isInput) o := ⟨_, h.trace, rfl⟩

/-- Changes follow one another. -/
theorem Changes.trans {m : Master} {inputs inputs' : List Deed} {o o' : Outcome}
    (h : Changes m inputs o) (h' : Changes o.master inputs' o') :
    Changes m (inputs ++ inputs') (o.andThen fun _ => o') := by
  obtain ⟨ds, ht, rfl⟩ := h
  obtain ⟨ds', ht', rfl⟩ := h'
  exact ⟨ds ++ ds', ht.trans ht', List.filter_append ds ds'⟩

/-- Nothing of what a master does by itself is brought about from outside. -/
theorem Progress.isInput {m : Master} {d : Option Deed} {o : Outcome} (h : Progress m d o) :
    d.toList.filter Deed.isInput = [] := by
  cases h <;> rfl

/-- Progress consists of changes. -/
theorem Proceeds.changes {m : Master} {o : Outcome} (h : Proceeds m o) : Changes m [] o := by
  induction h with
  | refl => exact .refl
  | step _ hp ih => exact hp.isInput ▸ ih.trans (Change.progress hp).changes

/-! ## Deliveries -/

/-- A call that looks for its delivery, in front of others. -/
theorem proceeds_await (m : Master) (c : Call) (behind : List Call) :
    Proceeds (m.withAwaiting (m.awaiting ++ c :: behind))
      { m.await c with
        master := (m.await c).master.withAwaiting ((m.await c).master.awaiting ++ behind) } := by
  unfold await
  split <;> rename_i hd
  · exact (Progress.answer (m := m.withAwaiting (m.awaiting ++ c :: behind)) rfl hd).proceeds
  · have : m.awaiting ++ c :: behind = m.awaiting ++ [c] ++ behind := by simp
    rw [this]
    exact .refl

/-- Calls that look for their deliveries one after another. -/
theorem proceeds_settle (m : Master) (cs : List Call) :
    Proceeds (m.withAwaiting (m.awaiting ++ cs)) (m.settle cs) := by
  induction cs generalizing m with
  | nil =>
    rw [List.append_nil]
    exact .refl
  | cons c cs ih => exact (proceeds_await m c cs).trans (ih (m.await c).master)

/-- So does looking for all of them. -/
theorem proceeds_collect (m : Master) : Proceeds m m.collect :=
  proceeds_settle { m with awaiting := [] } m.awaiting

/-! ## Turns -/

/-- What a turn of a call leads to, seen from the master in which the call is the first in the
queue. -/
def Turn.Leads (m : Master) (c : Call) (rest : List Waiter) : Turn → Prop
  | .stalled isWritten o => Proceeds m (o.withQueue (.call c isWritten :: rest))
  | .over o => Proceeds m (o.withQueue rest)

/-- The queue does not matter for what a call finds. -/
theorem await_withQueue (m : Master) (queue : List Waiter) (c : Call) :
    (m.withQueue queue).await c = (m.await c).withQueue queue := by
  simp only [await, deliveryFor?, withQueue]
  split <;> rfl

/-- Emptying the buffer in the turn of a call is progress of the first in the queue. -/
theorem leads_flushFrame (m : Master) (c : Call) (rest : List Waiter) :
    (m.flushFrame c).Leads (m.withQueue (.call c true :: rest)) c rest := by
  unfold flushFrame
  split <;> rename_i outlet h
  · have hgo := (Progress.letGo (m := m.withQueue (.call c true :: rest)) rfl
      (by rw [withQueue, h])).proceeds
    have hawait := proceeds_await (withQueue { m with outlet } rest) c []
    rw [withQueue, h] at hgo
    rw [await_withQueue, List.append_nil] at hawait
    exact hgo.trans hawait
  · have := (Progress.flush (m := m.withQueue (.call c true :: rest)) rfl).proceeds
    rwa [withQueue, h] at this
  · have := (Progress.fail (m := m.withQueue (.call c true :: rest)) rfl
      (by rw [withQueue, h])).proceeds
    rwa [withQueue, h] at this

/-- So is appending the frame before. -/
theorem leads_sendFrame (m : Master) (c : Call) (rest : List Waiter)
    (hroom : m.outlet.buffer.length < Outlet.highWater) :
    (m.sendFrame c).Leads (m.withQueue (.call c false :: rest)) c rest := by
  have hwrite := (Progress.write (m := m.withQueue (.call c false :: rest)) rfl hroom).proceeds
  have hflush := leads_flushFrame (m.writeFrame c).master c rest
  simp only [sendFrame]
  split <;> rename_i h <;> rw [h] at hflush <;> exact hwrite.trans hflush

/-- So is every turn. -/
theorem leads_turn (m : Master) (c : Call) (isWritten : Bool) (rest : List Waiter) :
    (m.turn c isWritten).Leads (m.withQueue (.call c isWritten :: rest)) c rest := by
  unfold turn
  split <;> rename_i hw
  · subst hw
    exact leads_flushFrame m c rest
  · rw [Bool.not_eq_true] at hw
    subst hw
    split <;> rename_i hroom
    · exact leads_sendFrame m c rest hroom
    · have hflush := (Progress.flush (m := m.withQueue (.call c false :: rest)) rfl).proceeds
      split <;> rename_i outlet h
      · have hempty : outlet.buffer = [] := by
          have := m.outlet.buffer_of_flushed (by rw [h])
          rwa [h] at this
        have hsend := leads_sendFrame { m with outlet } c rest (by rw [hempty]; decide)
        rw [withQueue, h] at hflush
        revert hsend
        cases sendFrame { m with outlet } c <;> exact fun hsend => hflush.trans hsend
      · rwa [withQueue, h] at hflush
      · have := (Progress.fail (m := m.withQueue (.call c false :: rest)) rfl
          (by rw [withQueue, h])).proceeds
        rwa [withQueue, h] at this

/-- Turns given to the waiters of a queue. -/
theorem proceeds_giveTurns (m : Master) (queue : List Waiter) :
    Proceeds (m.withQueue queue) (m.giveTurns queue) := by
  induction queue generalizing m with
  | nil => exact .refl
  | cons w rest ih =>
    cases w with
    | disconnect id =>
      have hshut := (Progress.shut (m := m.withQueue (.disconnect id :: rest)) rfl).proceeds
      exact hshut.trans (ih { m with outlet := m.outlet.shut })
    | call c isWritten =>
      have hturn := leads_turn m c isWritten rest
      unfold giveTurns
      split <;> rename_i o h <;> rw [h] at hturn
      · exact hturn.trans (ih o.master)
      · exact hturn

/-- A master that goes on with its queue proceeds. -/
theorem proceeds_proceed (m : Master) : Proceeds m m.proceed := proceeds_giveTurns m m.queue

/-- A waiter that is put into the queue. -/
theorem proceeds_enqueue (m : Master) (w : Waiter) :
    Proceeds (m.withQueue (m.queue ++ [w])) (m.enqueue w) := by
  unfold enqueue
  split <;> rename_i h
  · rw [List.isEmpty_iff.1 h]
    exact proceeds_giveTurns m [w]
  · exact .refl

/-- The peer receives nothing by what a master does by itself. -/
theorem Proceeds.received {m : Master} {o : Outcome} (h : Proceeds m o) : o.received = [] := by
  induction h with
  | refl => rfl
  | step _ hp ih =>
    rw [Outcome.received_andThen, ih]
    cases hp <;> rfl

/-! ## Endings -/

/-- Whoever is forgotten lets the next one have the turn. -/
theorem changes_withdraw (m : Master) (p : Waiter → Bool) :
    Changes (m.remove p) [] (m.withdraw p) := by
  unfold withdraw
  split
  · exact (proceeds_proceed _).changes
  · exact .refl

/-- A call whose deadline has come ends, if it is in progress. -/
theorem changes_giveUp (m : Master) (c : Call) (ht : c.isExpired m.clock) :
    Changes m [] (m.giveUp c) := by
  unfold giveUp
  split <;> rename_i hc
  · exact (Change.expire hc ht).changes.trans (changes_withdraw (m.dropTicket c) (·.isCall c))
  · exact .refl

/-- A call that is over at a time is over later. -/
theorem isExpired_of_le {c : Call} {t t' : Span} (h : c.isExpired t) (ht : t ≤ t') :
    c.isExpired t' := by
  unfold Call.isExpired at *
  cases hd : c.deadline with
  | none => simp [hd] at h
  | some deadline =>
    simp only [hd, Option.any_some, decide_eq_true_eq] at h ⊢
    exact Nat.le_trans h ht

/-- Time does not run backwards. -/
theorem Change.clock_le {m : Master} {d : Option Deed} {o : Outcome} (h : Change m d o) :
    m.clock ≤ o.master.clock := by
  cases h with
  | progress hp => cases hp <;> exact Nat.le_refl m.clock
  | tick span => exact Nat.le_add_right m.clock span
  | _ => exact Nat.le_refl m.clock

/-- Whatever changes, time does not go back. -/
theorem Changes.clock_le {m : Master} {inputs : List Deed} {o : Outcome}
    (h : Changes m inputs o) : m.clock ≤ o.master.clock := by
  obtain ⟨ds, ht, -⟩ := h
  induction ht with
  | refl => exact Nat.le_refl m.clock
  | step _ hc ih => exact Nat.le_trans ih hc.clock_le

/-- At its deadline a call has its turn a last time and ends. -/
theorem changes_expire (m : Master) (c : Call) (ht : c.isExpired m.clock) :
    Changes m [] (m.expire c) := by
  have hlast : Changes m [] (if m.hasTurn (·.isCall c) then m.proceed else ⟨m, [], []⟩) := by
    split
    · exact (proceeds_proceed m).changes
    · exact .refl
  exact hlast.trans (changes_giveUp _ c (isExpired_of_le ht hlast.clock_le))

/-- Calls at their deadlines end one after another. -/
theorem changes_expireAll (m : Master) (cs : List Call) (ht : ∀ c ∈ cs, c.isExpired m.clock) :
    Changes m [] (m.expireAll cs) := by
  induction cs generalizing m with
  | nil => exact .refl
  | cons c cs ih =>
    have hfirst := changes_expire m c (ht c List.mem_cons_self)
    refine hfirst.trans (ih (m.expire c).master fun c' hc' => ?_)
    exact isExpired_of_le (ht c' (List.mem_cons_of_mem c hc')) hfirst.clock_le

/-- Closing is a deed, after which deliveries are looked for. -/
theorem changes_close (m : Master) (reason : Fault) :
    Changes m [.close reason] (m.close reason) :=
  (Change.close reason).changes.trans (proceeds_collect _).changes

/-! ## Happenings -/

/-- The calls that a happening starts: at most one, and none that is refused. -/
def startedBy (m : Master) : Happening → List Call
  | .start id unit request timeout =>
    match m.newCall id unit request timeout with
    | .ok (c, _) => [c]
    | .error _ => []
  | _ => []

/-- The calls that are started in a sequence of happenings. -/
def started (m : Master) : List Happening → List Call
  | [] => []
  | h :: hs => m.startedBy h ++ (m.step h).master.started hs

/-- What is read: a part of the stream, its frames, and the error that ends it. -/
def heard (r : Reading Frame) : List Deed :=
  .read r.rest :: r.items.map .pass ++ (r.error.map fun e => .close e.fault).toList

/-- What a happening brings about. -/
def inputsBy (m : Master) : Happening → List Deed
  | .disconnect _ => [.close ⟨.notConnected, "disconnected"⟩]
  | .send bytes =>
    if m.inlet.isClosed then [] else heard (Decoder.frames.drain (m.inlet.buffer ++ bytes))
  | .finish =>
    if m.inlet.isClosed then []
    else
      let r := Decoder.frames.drainLast m.inlet.buffer
      heard r ++ if r.error.isSome then []
        else [.close ⟨.unexpectedEof, "connection closed by peer"⟩]
  | h => (m.startedBy h).map .start

/-- What a sequence of happenings brings about. -/
def inputs (m : Master) : List Happening → List Deed
  | [] => []
  | h :: hs => m.inputsBy h ++ (m.step h).master.inputs hs

/-- A start brings about the call that it starts, if there is one. -/
theorem changes_start (m : Master) (id : CallId) (unit : UnitId) (request : Request)
    (timeout : Option Span) :
    Changes m (m.inputsBy (.start id unit request timeout))
      (m.start id unit request timeout) := by
  cases h : m.newCall id unit request timeout with
  | error e =>
    simp only [inputsBy, startedBy, start, h]
    exact (Change.refuse h).changes
  | ok r =>
    obtain ⟨c, desk⟩ := r
    have hjoin := (Change.join h).changes.trans
      (proceeds_enqueue { m with desk } (.call c false)).changes
    simp only [inputsBy, startedBy, start, h]
    split <;> rename_i ht
    · exact hjoin.trans (changes_giveUp _ c (isExpired_of_le ht hjoin.clock_le))
    · exact hjoin

/-- A caller that gives up brings about nothing but the end of its call. -/
theorem changes_cancel (m : Master) (id : CallId) : Changes m [] (m.cancel id) := by
  unfold cancel
  split <;> rename_i h
  · have habandon := (Change.abandon (List.mem_of_find?_eq_some h)).changes
    exact habandon.trans (changes_withdraw _ _)
  · exact (Change.leave id).changes.trans (changes_withdraw m (·.isDisconnect id))

/-- A disconnection closes the table. -/
theorem changes_disconnect (m : Master) (id : CallId) :
    Changes m (m.inputsBy (.disconnect id)) (m.disconnect id) := by
  have hclose := changes_close m ⟨.notConnected, "disconnected"⟩
  have henqueue := (Change.queueUp (m := (m.close ⟨.notConnected, "disconnected"⟩).master) id)
  exact hclose.trans (henqueue.changes.trans (proceeds_enqueue _ (.disconnect id)).changes)

/-- The calls in progress are expired whose deadlines have come. -/
theorem mem_expired {m : Master} {c : Call} :
    c ∈ m.expired ↔ c ∈ m.calls ∧ c.isExpired m.clock := by
  rw [expired, List.mem_mergeSort, List.mem_filter]

/-- As time passes, calls end, and nothing else is brought about. -/
theorem changes_advance (m : Master) (span : Span) : Changes m [] (m.advance span) :=
  (Change.tick span).changes.trans (changes_expireAll _ _ fun _ hc => (mem_expired.1 hc).2)

/-- The peer receives bytes that are in transit. -/
def take (m : Master) (n : Nat) : Outcome :=
  ⟨{ m with outlet := (m.outlet.receive n).2 }, [], (m.outlet.receive n).1⟩

/-- What is in transit is received first, and whenever this has made room, the queue goes on. -/
theorem receive_of_pos (m : Master) {most n : Nat} (hn : min most m.outlet.transit.length = n)
    (hpos : n ≠ 0) :
    m.receive most = ((m.take n).andThen proceed).andThen fun m => m.receive (most - n) := by
  rw [receive, dif_neg (by rwa [hn]), hn]
  simp [Outcome.andThen, take, (proceeds_proceed _).received]

/-- The peer receives nothing when nothing is in transit or when it asks for nothing. -/
theorem receive_of_zero (m : Master) {most : Nat} (hn : min most m.outlet.transit.length = 0) :
    m.receive most = ⟨m, [], []⟩ := by
  rw [receive, dif_pos hn]

/-- What holds of every attempt to receive is shown along what is received at a time. -/
theorem receive_induct {motive : Master → Nat → Prop}
    (stop : ∀ m most, min most m.outlet.transit.length = 0 → motive m most)
    (goOn : ∀ m most n, min most m.outlet.transit.length = n → n ≠ 0 →
      (∀ m', motive m' (most - n)) → motive m most)
    (m : Master) (most : Nat) : motive m most := by
  induction most using Nat.strongRecOn generalizing m with
  | ind most ih =>
    by_cases hn : min most m.outlet.transit.length = 0
    · exact stop m most hn
    · exact goOn m most _ rfl hn fun m' => ih _ (by omega) m'

/-- A peer that receives brings about nothing. -/
theorem changes_receive (m : Master) (most : Nat) : Changes m [] (m.receive most) := by
  induction m, most using receive_induct with
  | stop m most hn =>
    rw [receive_of_zero m hn]
    exact .refl
  | goOn m most n hn hpos ih =>
    rw [receive_of_pos m hn hpos]
    have htake := (Change.receive (m := m) n).changes
    exact (htake.trans (proceeds_proceed _).changes).trans (ih _)

/-- Frames are passed on one after another. -/
theorem changes_deliver (m : Master) (fs : List Frame) :
    Changes m (fs.map .pass) (m.deliver fs) := by
  induction fs generalizing m with
  | nil => exact .refl
  | cons f fs ih =>
    have hpass := (Change.resolve f).changes.trans
      (proceeds_collect { m with desk := m.desk.resolve f }).changes
    exact hpass.trans (ih _)

/-- The peer receives nothing by it. -/
theorem received_deliver (m : Master) (fs : List Frame) : (m.deliver fs).received = [] := by
  induction fs generalizing m with
  | nil => rfl
  | cons f fs ih =>
    rw [deliver, Outcome.received_andThen, ih, (proceeds_collect _).received]
    rfl

/-- What has been read is passed on, and then closes the table if there is an error. -/
theorem changes_hear (m : Master) (r : Reading Frame) (hopen : m.inlet.isClosed = false) :
    Changes m (heard r) (m.hear r) := by
  have hread := (Change.read hopen r.rest).changes
  refine (hread.trans (changes_deliver _ r.items)).trans ?_
  cases r.error with
  | some e => exact changes_close _ e.fault
  | none => exact .refl

/-- The peer brings about what is read of its bytes, while the incoming side is open. -/
theorem changes_send (m : Master) (bytes : Bytes) :
    Changes m (m.inputsBy (.send bytes)) (m.send bytes) := by
  simp only [inputsBy, send]
  split <;> rename_i h
  · exact .refl
  · exact changes_hear m _ (by simpa using h)

/-- The incoming side is told by what is read, and by whether it is closed. -/
theorem Trace.inlet {m : Master} {ds : List Deed} {o : Outcome} (h : Trace m ds o) :
    o.master.inlet = (ds.filter Deed.isInput).foldl Inlet.after m.inlet := by
  induction h with
  | refl => rfl
  | @step ds d o o' _ hc ih =>
    rw [List.filter_append, List.foldl_append, ← ih]
    cases hc with
    | progress hp => rw [hp.isInput]; cases hp <;> rfl
    | _ => rfl

/-- The incoming side is told by what is brought about from outside. -/
theorem Changes.inlet {m : Master} {inputs : List Deed} {o : Outcome} (h : Changes m inputs o) :
    o.master.inlet = inputs.foldl Inlet.after m.inlet := by
  obtain ⟨ds, ht, rfl⟩ := h
  exact ht.inlet

/-- What has been read stays in the buffer, and an error closes the incoming side. -/
theorem inlet_heard (r : Reading Frame) (i : Inlet) :
    (heard r).foldl Inlet.after i = ⟨r.rest, i.isClosed || r.error.isSome⟩ := by
  have hpass (fs : List Frame) (i : Inlet) : (fs.map Deed.pass).foldl Inlet.after i = i := by
    induction fs with
    | nil => rfl
    | cons f fs ih => exact ih
  rw [heard, List.foldl_append, List.foldl_cons, hpass]
  cases r.error <;> simp [Inlet.after]

/-- The end of the stream brings about what is left to read, and closes the table. -/
theorem changes_finish (m : Master) : Changes m (m.inputsBy .finish) m.finish := by
  simp only [inputsBy, finish]
  split <;> rename_i h
  · exact .refl
  · have hhear := changes_hear m (Decoder.frames.drainLast m.inlet.buffer) (by simpa using h)
    have hinlet := hhear.inlet
    rw [inlet_heard] at hinlet
    refine hhear.trans ?_
    rw [hinlet]
    cases (Decoder.frames.drainLast m.inlet.buffer).error with
    | some e => simpa using .refl
    | none => simpa [h] using changes_close _ _

/-- Whatever happens to a master is a sequence of changes. -/
theorem changes_step (m : Master) (h : Happening) : Changes m (m.inputsBy h) (m.step h) := by
  cases h with
  | start id unit request timeout => exact changes_start m id unit request timeout
  | cancel id => exact changes_cancel m id
  | disconnect id => exact changes_disconnect m id
  | advance span => exact changes_advance m span
  | receive most => exact changes_receive m _
  | send bytes => exact changes_send m bytes
  | finish => exact changes_finish m
  | deafen => exact Change.deafen.changes.trans (proceeds_proceed _).changes
  | wake treatments => exact (Change.wake treatments).changes.trans (proceeds_proceed _).changes

/-- So is every run. -/
theorem changes_run (m : Master) (hs : List Happening) : Changes m (m.inputs hs) (m.run hs) := by
  induction hs generalizing m with
  | nil => exact .refl
  | cons h hs ih => exact (changes_step m h).trans (ih (m.step h).master)

/-- The calls that are started are among what is brought about. -/
theorem filterMap_inputsBy (m : Master) (h : Happening) :
    (m.inputsBy h).filterMap Deed.started? = m.startedBy h := by
  have hheard (r : Reading Frame) : (heard r).filterMap Deed.started? = [] := by
    rw [heard, List.filterMap_append, List.filterMap_cons, List.filterMap_map]
    cases r.error <;> simp [Function.comp_def, Deed.started?]
  cases h with
  | send bytes =>
    simp only [inputsBy]
    split
    · rfl
    · exact hheard _
  | finish =>
    simp only [inputsBy]
    split
    · rfl
    · rw [List.filterMap_append, hheard]
      split <;> rfl
  | start id unit request timeout =>
    simp [inputsBy, List.filterMap_map, Function.comp_def, Deed.started?]
  | _ => rfl

/-- The calls that are started in a run are those that its happenings bring about. -/
theorem filterMap_inputs (m : Master) (hs : List Happening) :
    (m.inputs hs).filterMap Deed.started? = m.started hs := by
  induction hs generalizing m with
  | nil => rfl
  | cons h hs ih => rw [inputs, started, List.filterMap_append, filterMap_inputsBy, ih]

/-- A run has a trace in which the calls of the run are started. -/
theorem exists_trace (m : Master) (hs : List Happening) :
    ∃ ds, Trace m ds (m.run hs) ∧ ds.filter Deed.isInput = m.inputs hs ∧
      ds.filterMap Deed.started? = m.started hs := by
  obtain ⟨ds, ht, hinputs⟩ := m.changes_run hs
  refine ⟨ds, ht, hinputs, ?_⟩
  rw [← filterMap_inputs, ← hinputs, List.filterMap_filter]
  congr 1
  funext d
  cases d <;> rfl

end Master

end Modbus
