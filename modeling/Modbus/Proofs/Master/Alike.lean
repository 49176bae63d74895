import Modbus.Proofs.Frame.Layout
import Modbus.Proofs.Master.Changes
import Modbus.Proofs.Transaction.Alike

/-!
# Masters that differ in what others are told

Two masters are alike for one call if they differ only in the frames that other calls have been
given (`Master.Alike`). Nothing that a master does depends on such a frame, except what the caller
is told who takes it. So masters that are alike stay alike whatever happens to both, write the same
bytes, and show the same to somebody who is not told the results of the other calls
(`Outcome.Alike`). This is shown for each of the functions of a master, in the order of their
definitions.
-/

namespace Modbus

/-- What is seen of an event by somebody who is not told the results of the calls with certain
names. -/
def Event.seen (hidden : List CallId) : Event → Event ⊕ CallId
  | finished id result => if id ∈ hidden then .inr id else .inl (.finished id result)
  | e => .inl e

section

variable (own : Serial) (hidden : List CallId)

/-- Two masters are alike for the call with a certain ticket, and the names of the other calls are
hidden. -/
structure Master.Alike (m m' : Master) : Prop where
  policy : m'.policy = m.policy
  clock : m'.clock = m.clock
  desk : m.desk.Alike own m'.desk
  outlet : m'.outlet = m.outlet
  isClosed : m'.inlet.isClosed = m.inlet.isClosed
  queue : m'.queue = m.queue
  awaiting : m'.awaiting = m.awaiting
  known : ∀ c ∈ m.calls, c.serial = own ∨ c.id ∈ hidden

/-- What two masters that are alike have led to. -/
structure Outcome.Alike (o o' : Outcome) : Prop where
  master : Master.Alike own hidden o.master o'.master
  events : o'.events.map (Event.seen hidden) = o.events.map (Event.seen hidden)
  received : o'.received = o.received

/-- How the turns of a call end in two masters that are alike. -/
inductive Master.Turn.Alike : Turn → Turn → Prop where
  | stalled {o o' : Outcome} (isWritten : Bool) (h : o.Alike own hidden o') :
    Alike (.stalled isWritten o) (.stalled isWritten o')
  | done {o o' : Outcome} (h : o.Alike own hidden o') : Alike (.over o) (.over o')

end

variable {own : Serial} {hidden : List CallId} {o o' o₁ o₁' : Outcome} {m m' : Master} {c : Call}

namespace Outcome.Alike

/-- Masters that are alike have shown nothing yet. -/
theorem stay (h : Master.Alike own hidden m m') : Alike own hidden ⟨m, [], []⟩ ⟨m', [], []⟩ :=
  ⟨h, rfl, rfl⟩

/-- They stay alike if what comes next is alike, and all that has been seen is the same. -/
theorem andThen (h : Alike own hidden o o') (h₁ : Alike own hidden o₁ o₁') :
    Alike own hidden (o.andThen fun _ => o₁) (o'.andThen fun _ => o₁') where
  master := h₁.master
  events := by simp [h.events, h₁.events]
  received := by simp [h.received, h₁.received]

end Outcome.Alike

namespace Master.Alike

/-- Masters that are alike have the same calls in progress. -/
theorem calls (h : Master.Alike own hidden m m') : m'.calls = m.calls := by
  rw [Master.calls, Master.calls, h.queue, h.awaiting]

/-! ## Deliveries -/

/-- Both masters drop the ticket of a call. -/
theorem drop (h : Master.Alike own hidden m m') (c : Call) :
    Master.Alike own hidden (m.dropTicket c) (m'.dropTicket c) :=
  { h with desk := h.desk.drop c.serial }

/-- A call ends in both masters, with the same result or under a hidden name. -/
theorem finishCall (h : Master.Alike own hidden m m') (c : Call) {result result' : CallResult}
    (hresult : result' = result ∨ c.id ∈ hidden) :
    Outcome.Alike own hidden (m.finishCall c result) (m'.finishCall c result') where
  master := h.drop c
  events := by
    rcases hresult with rfl | hc
    · rfl
    · simp [Master.finishCall, Event.seen, hc]
  received := rfl

/-- Calls find the same, or another call than one's own finds a frame. -/
theorem deliveryFor? (h : Master.Alike own hidden m m') (c : Call) :
    m'.deliveryFor? c = m.deliveryFor? c ∨ c.serial ≠ own ∧
      ∃ f f', m.deliveryFor? c = some (.ok f) ∧ m'.deliveryFor? c = some (.ok f') := by
  unfold Master.deliveryFor?
  rcases h.desk.outlook? c.serial with heq | ⟨hother, f, f', hf, hf'⟩
  · exact .inl (by rw [heq])
  · exact .inr ⟨hother, f, f', by rw [hf]; rfl, by rw [hf']; rfl⟩

/-- A call that looks for its delivery ends in both masters, or waits in both. -/
theorem await (h : Master.Alike own hidden m m') (hc : c.serial = own ∨ c.id ∈ hidden) :
    Outcome.Alike own hidden (m.await c) (m'.await c) := by
  unfold Master.await
  rcases h.deliveryFor? c with heq | ⟨hother, f, f', hf, hf'⟩
  · rw [heq]
    split
    · exact h.finishCall c (.inl (by rw [h.policy]))
    · refine .stay { h with awaiting := by simp [h.awaiting], known := fun c' hc' => ?_ }
      rw [Master.calls, ← List.append_assoc] at hc'
      rcases List.mem_append.1 hc' with hold | hnew
      · exact h.known c' hold
      · exact List.mem_singleton.1 hnew ▸ hc
  · rw [hf, hf']
    exact h.finishCall c (.inr (hc.resolve_left hother))

/-- The same is true of several calls, one after another. -/
theorem settle (h : Master.Alike own hidden m m') {cs : List Call}
    (hcs : ∀ c ∈ cs, c.serial = own ∨ c.id ∈ hidden) :
    Outcome.Alike own hidden (m.settle cs) (m'.settle cs) := by
  induction cs generalizing m m' with
  | nil => exact .stay h
  | cons c cs ih =>
    obtain ⟨hc, hcs⟩ := List.forall_mem_cons.1 hcs
    have hfirst := h.await hc
    exact hfirst.andThen (ih hfirst.master hcs)

/-- All calls that wait look for their deliveries in both masters. -/
theorem collect (h : Master.Alike own hidden m m') :
    Outcome.Alike own hidden m.collect m'.collect := by
  have hempty : Master.Alike own hidden { m with awaiting := [] } { m' with awaiting := [] } :=
    { h with
      awaiting := rfl
      known := fun c hc => h.known c (List.mem_append_left _ (by simpa [Master.calls] using hc)) }
  unfold Master.collect
  rw [h.awaiting]
  exact hempty.settle fun c hc => h.known c (List.mem_append_right _ hc)

/-! ## Turns -/

/-- The outgoing side of two masters that are alike changes in the same way. -/
theorem withOutlet (h : Master.Alike own hidden m m') (outlet : Outlet) :
    Master.Alike own hidden { m with outlet } { m' with outlet } :=
  { h with outlet := rfl }

/-- Both masters append the frame of a call to their buffers. -/
theorem writeFrame (h : Master.Alike own hidden m m') (c : Call) :
    Outcome.Alike own hidden (m.writeFrame c) (m'.writeFrame c) where
  master :=
    { h with
      desk := h.desk.markSent c.serial
      outlet := congrArg (·.append c.frame.bytes) h.outlet }
  events := rfl
  received := rfl

/-- The turn of a call whose frame is in the buffer ends in the same way in both masters. -/
theorem flushFrame (h : Master.Alike own hidden m m') (hc : c.serial = own ∨ c.id ∈ hidden) :
    Turn.Alike own hidden (m.flushFrame c) (m'.flushFrame c) := by
  unfold Master.flushFrame
  rw [h.outlet]
  split
  · exact .done ((h.withOutlet _).await hc)
  · exact .stalled true (.stay (h.withOutlet _))
  · exact .done ((h.withOutlet _).finishCall c (.inl rfl))

/-- So does that of a call that appends its frame first. -/
theorem sendFrame (h : Master.Alike own hidden m m') (hc : c.serial = own ∨ c.id ∈ hidden) :
    Turn.Alike own hidden (m.sendFrame c) (m'.sendFrame c) := by
  have hwritten := h.writeFrame c
  have hflushed := hwritten.master.flushFrame hc
  simp only [Master.sendFrame]
  generalize (m.writeFrame c).master.flushFrame c = t, (m'.writeFrame c).master.flushFrame c = t'
    at hflushed
  cases hflushed with
  | stalled isWritten ho => exact .stalled isWritten (hwritten.andThen ho)
  | done ho => exact .done (hwritten.andThen ho)

/-- So every turn does. -/
theorem turn (h : Master.Alike own hidden m m') (hc : c.serial = own ∨ c.id ∈ hidden)
    (isWritten : Bool) : Turn.Alike own hidden (m.turn c isWritten) (m'.turn c isWritten) := by
  unfold Master.turn
  rw [h.outlet]
  split
  · exact h.flushFrame hc
  · split
    · exact h.sendFrame hc
    · split
      · exact (h.withOutlet _).sendFrame hc
      · exact .stalled false (.stay (h.withOutlet _))
      · exact .done ((h.withOutlet _).finishCall c (.inl rfl))

/-- The queue of two masters that are alike changes in the same way. -/
theorem withQueue (h : Master.Alike own hidden m m') {queue : List Waiter}
    (hqueue : ∀ c ∈ queue.filterMap Waiter.call?, c.serial = own ∨ c.id ∈ hidden) :
    Master.Alike own hidden (m.withQueue queue) (m'.withQueue queue) :=
  { h with
    queue := rfl
    known := fun c hc => (List.mem_append.1 hc).elim (hqueue c) fun hc =>
      h.known c (List.mem_append_right _ hc) }

/-- Both masters give turns to the same waiters, as long as these are known. -/
theorem giveTurns (h : Master.Alike own hidden m m') {queue : List Waiter}
    (hqueue : ∀ c ∈ queue.filterMap Waiter.call?, c.serial = own ∨ c.id ∈ hidden) :
    Outcome.Alike own hidden (m.giveTurns queue) (m'.giveTurns queue) := by
  induction queue generalizing m m' with
  | nil => exact .stay (h.withQueue hqueue)
  | cons w rest ih =>
    cases w with
    | disconnect id =>
      have hshut : Outcome.Alike own hidden
          ⟨{ m with outlet := m.outlet.shut }, [.disconnected id], []⟩
          ⟨{ m' with outlet := m'.outlet.shut }, [.disconnected id], []⟩ :=
        ⟨h.outlet ▸ h.withOutlet _, rfl, rfl⟩
      exact hshut.andThen (ih hshut.master hqueue)
    | call c isWritten =>
      obtain ⟨hc, hrest⟩ := List.forall_mem_cons.1 hqueue
      have hturn := h.turn hc isWritten
      unfold Master.giveTurns
      generalize m.turn c isWritten = t, m'.turn c isWritten = t' at hturn
      cases hturn with
      | stalled isWritten ho => exact { ho with master := ho.master.withQueue hqueue }
      | done ho => exact ho.andThen (ih ho.master hrest)

/-- Both masters go on with their queues. -/
theorem proceed (h : Master.Alike own hidden m m') :
    Outcome.Alike own hidden m.proceed m'.proceed := by
  unfold Master.proceed
  rw [h.queue]
  exact h.giveTurns fun c hc => h.known c (List.mem_append_left _ hc)

/-- A known waiter joins both queues. -/
theorem enqueue (h : Master.Alike own hidden m m') {w : Waiter}
    (hw : ∀ c, w.call? = some c → c.serial = own ∨ c.id ∈ hidden) :
    Outcome.Alike own hidden (m.enqueue w) (m'.enqueue w) := by
  unfold Master.enqueue
  rw [h.queue]
  split
  · exact h.giveTurns (by simpa using hw)
  · refine .stay (h.withQueue fun c hc => ?_)
    rw [List.filterMap_append] at hc
    rcases List.mem_append.1 hc with hold | hnew
    · exact h.known c (List.mem_append_left _ hold)
    · exact hw c (by simpa using hnew)

/-! ## Endings -/

/-- Both masters forget the same waiters. -/
theorem remove (h : Master.Alike own hidden m m') (p : Waiter → Bool) :
    Master.Alike own hidden (m.remove p) (m'.remove p) :=
  have hcalls : (m.remove p).calls.Sublist m.calls :=
    (List.filter_sublist.filterMap _).append List.filter_sublist
  { h with
    queue := congrArg (List.filter (!p ·)) h.queue
    awaiting := congrArg (List.filter fun c => !p (.call c true)) h.awaiting
    known := fun c hc => h.known c (hcalls.subset hc) }

/-- If one of these had the turn, the same waiter has it next. -/
theorem withdraw (h : Master.Alike own hidden m m') (p : Waiter → Bool) :
    Outcome.Alike own hidden (m.withdraw p) (m'.withdraw p) := by
  unfold Master.withdraw hasTurn
  rw [h.queue]
  split
  · exact (h.remove p).proceed
  · exact .stay (h.remove p)

/-- A call whose time is over ends in both masters, or in neither of them. -/
theorem giveUp (h : Master.Alike own hidden m m') (c : Call) :
    Outcome.Alike own hidden (m.giveUp c) (m'.giveUp c) := by
  unfold Master.giveUp
  rw [h.calls]
  split
  · have hfinished := h.finishCall c (.inl (Eq.refl (.error (.timeout (c.timeout.getD 0)))))
    exact hfinished.andThen (hfinished.master.withdraw _)
  · exact .stay h

/-- At its deadline a call ends in both masters, after a last turn if the turn is its own. -/
theorem expire (h : Master.Alike own hidden m m') (c : Call) :
    Outcome.Alike own hidden (m.expire c) (m'.expire c) := by
  have hlast : Outcome.Alike own hidden
      (if m.hasTurn (·.isCall c) then m.proceed else ⟨m, [], []⟩)
      (if m'.hasTurn (·.isCall c) then m'.proceed else ⟨m', [], []⟩) := by
    unfold hasTurn
    rw [h.queue]
    split
    · exact h.proceed
    · exact .stay h
  exact hlast.andThen (hlast.master.giveUp c)

/-- Several deadlines may come, one after another. -/
theorem expireAll (h : Master.Alike own hidden m m') (cs : List Call) :
    Outcome.Alike own hidden (m.expireAll cs) (m'.expireAll cs) := by
  induction cs generalizing m m' with
  | nil => exact .stay h
  | cons c cs ih =>
    have hfirst := h.expire c
    exact hfirst.andThen (ih hfirst.master)

/-- Both masters close their tables and their incoming sides. -/
theorem close (h : Master.Alike own hidden m m') (reason : Fault) :
    Outcome.Alike own hidden (m.close reason) (m'.close reason) :=
  collect { h with desk := h.desk.close reason, isClosed := rfl }

/-! ## Happenings -/

/-- Both masters start the same call, or refuse it for the same reason. -/
theorem newCall (h : Master.Alike own hidden m m') (id : CallId) (unit : UnitId)
    (request : Request) (timeout : Option Span) :
    (∃ e, m.newCall id unit request timeout = .error e ∧
      m'.newCall id unit request timeout = .error e) ∨
      ∃ c desk desk', m.newCall id unit request timeout = .ok (c, desk) ∧
        m'.newCall id unit request timeout = .ok (c, desk') ∧ desk.Alike own desk' := by
  unfold Master.newCall
  rw [h.clock]
  split
  · exact .inl ⟨_, rfl, rfl⟩
  · rcases h.desk.allocate with ⟨e, he, he'⟩ | ⟨serial, ticket, desk, desk', hd, hd', halike⟩
    · exact .inl ⟨e, by rw [he], by rw [he']⟩
    · exact .inr ⟨_, desk, desk', by rw [hd], by rw [hd'], halike⟩

/-- A happening starts the same calls in both masters. -/
theorem startedBy (h : Master.Alike own hidden m m') (happening : Happening) :
    m'.startedBy happening = m.startedBy happening := by
  cases happening with
  | start id unit request timeout =>
    rcases h.newCall id unit request timeout with ⟨e, he, he'⟩ | ⟨c, desk, desk', hc, hc', -⟩
    · simp only [Master.startedBy, he, he']
    · simp only [Master.startedBy, hc, hc']
  | _ => rfl

/-- A start leads to the same in both masters, if the call that it starts is known. -/
theorem start (h : Master.Alike own hidden m m') (id : CallId) (unit : UnitId) (request : Request)
    (timeout : Option Span) (hstarted : ∀ c ∈ m.startedBy (.start id unit request timeout),
      c.serial = own ∨ c.id ∈ hidden) :
    Outcome.Alike own hidden (m.start id unit request timeout)
      (m'.start id unit request timeout) := by
  rcases h.newCall id unit request timeout with ⟨e, he, he'⟩ | ⟨c, desk, desk', hd, hd', hdesk⟩
  · simp only [Master.start, he, he']
    exact ⟨h, rfl, rfl⟩
  · have hc : c.serial = own ∨ c.id ∈ hidden := hstarted c (by simp [Master.startedBy, hd])
    have hissued : Master.Alike own hidden { m with desk } { m' with desk := desk' } :=
      { h with desk := hdesk }
    have hjoined := hissued.enqueue (w := .call c false) fun c' hc' => Option.some.inj hc' ▸ hc
    simp only [Master.start, hd, hd']
    by_cases ht : c.isExpired m.clock
    · rw [if_pos ht, if_pos (h.clock ▸ ht)]
      exact hjoined.andThen (hjoined.master.giveUp c)
    · rw [if_neg ht, if_neg (h.clock ▸ ht)]
      exact hjoined

/-- A caller that gives up a call or a disconnection gives it up in both masters. -/
theorem cancel (h : Master.Alike own hidden m m') (id : CallId) :
    Outcome.Alike own hidden (m.cancel id) (m'.cancel id) := by
  unfold Master.cancel
  rw [h.calls]
  split
  · exact (h.drop _).withdraw _
  · exact h.withdraw _

/-- A disconnection closes both tables and joins both queues. -/
theorem disconnect (h : Master.Alike own hidden m m') (id : CallId) :
    Outcome.Alike own hidden (m.disconnect id) (m'.disconnect id) := by
  have hclosed := h.close ⟨.notConnected, "disconnected"⟩
  exact hclosed.andThen (hclosed.master.enqueue (w := .disconnect id) nofun)

/-- When time passes, the same deadlines come in both masters. -/
theorem advance (h : Master.Alike own hidden m m') (span : Span) :
    Outcome.Alike own hidden (m.advance span) (m'.advance span) := by
  have hlater : Master.Alike own hidden { m with clock := m.clock + span }
      { m' with clock := m'.clock + span } :=
    { h with clock := congrArg (· + span) h.clock }
  have hexpired : expired { m' with clock := m'.clock + span } =
      expired { m with clock := m.clock + span } := by
    rw [expired, expired, hlater.calls, hlater.clock]
  simp only [Master.advance, hexpired]
  exact hlater.expireAll _

/-- The peers of both masters receive the same. -/
theorem receive (h : Master.Alike own hidden m m') (most : Nat) :
    Outcome.Alike own hidden (m.receive most) (m'.receive most) := by
  induction m, most using receive_induct generalizing m' with
  | stop m most hn =>
    have hn' : min most m'.outlet.transit.length = 0 := by rw [h.outlet, hn]
    rw [receive_of_zero m hn, receive_of_zero m' hn']
    exact .stay h
  | goOn m most n hn hpos ih =>
    have hn' : min most m'.outlet.transit.length = n := by rw [h.outlet, hn]
    rw [receive_of_pos m hn hpos, receive_of_pos m' hn' hpos]
    have htaken : Outcome.Alike own hidden (m.take n) (m'.take n) :=
      ⟨{ h with outlet := congrArg (fun o => (o.receive n).2) h.outlet }, rfl,
        congrArg (fun o => (o.receive n).1) h.outlet⟩
    have hproceeded := htaken.andThen htaken.master.proceed
    exact hproceeded.andThen (ih _ hproceeded.master)

/-- The peers of both masters stop receiving. -/
theorem deafen (h : Master.Alike own hidden m m') :
    Outcome.Alike own hidden m.deafen m'.deafen :=
  proceed { h with outlet := congrArg Outlet.deafen h.outlet }

/-- The transports of both masters can be written to again. -/
theorem wake (h : Master.Alike own hidden m m') (treatments : List Treatment) :
    Outcome.Alike own hidden (m.wake treatments) (m'.wake treatments) :=
  proceed { h with outlet := congrArg (fun o => { o with treatments }) h.outlet }

/-- Both masters treat a happening in the same way, if it is not about what the peer sends. -/
theorem step (h : Master.Alike own hidden m m') {happening : Happening}
    (hstarted : ∀ c ∈ m.startedBy happening, c.serial = own ∨ c.id ∈ hidden)
    (hsend : ∀ bytes, happening ≠ .send bytes) (hfinish : happening ≠ .finish) :
    Outcome.Alike own hidden (m.step happening) (m'.step happening) := by
  cases happening with
  | start id unit request timeout => exact h.start id unit request timeout hstarted
  | cancel id => exact h.cancel id
  | disconnect id => exact h.disconnect id
  | advance span => exact h.advance span
  | receive most =>
    have hbacklog : m'.backlog = m.backlog := by rw [backlog, backlog, h.outlet, h.queue]
    simp only [Master.step, hbacklog]
    exact h.receive _
  | send bytes => exact absurd rfl (hsend bytes)
  | finish => exact absurd rfl hfinish
  | deafen => exact h.deafen
  | wake treatments => exact h.wake treatments

end Master.Alike

/-! ## Frames -/

namespace Master

/-- Frames that are passed on one after another, each with the ticket that it is handed to, if there
is one. -/
def handing (m : Master) : List Frame → List (Frame × Option Serial)
  | [] => []
  | f :: fs =>
    (f, (m.desk.table.resolve f.header.transaction).2) ::
      (collect { m with desk := m.desk.resolve f }).master.handing fs

/-- Every frame that is passed on is handed to somebody or to nobody, once and in order. -/
theorem map_handing (m : Master) (fs : List Frame) : (m.handing fs).map (·.1) = fs := by
  induction fs generalizing m with
  | nil => rfl
  | cons f fs ih => rw [handing, List.map_cons, ih]

theorem length_handing (m : Master) (fs : List Frame) : (m.handing fs).length = fs.length := by
  rw [← List.length_map, map_handing]

/-- What has been read is passed on from here. -/
def withRest (m : Master) (rest : Bytes) : Master :=
  { m with inlet := { m.inlet with buffer := rest } }

end Master

/-- The frames that a ticket is handed are at the same places in a list of frames. -/
def KeepsFrames (own : Serial) (handed : List (Frame × Option Serial)) (fs : List Frame) : Prop :=
  ∀ (k : Nat) (f : Frame), handed[k]? = some (f, some own) → fs[k]? = some f

namespace KeepsFrames

variable {handed later : List (Frame × Option Serial)} {fs : List Frame} {f : Frame}

/-- Nothing has been handed to a ticket yet. -/
theorem nil (fs : List Frame) : KeepsFrames own [] fs := by
  intro k f hf
  cases hf

/-- The first frame is kept if it is handed to the ticket. -/
theorem head {serial : Option Serial} (h : KeepsFrames own ((f, serial) :: handed) fs)
    (hs : serial = some own) : fs[0]? = some f := h 0 f (by rw [hs]; rfl)

/-- The other ones are kept behind it. -/
theorem tail {r : Frame × Option Serial} (h : KeepsFrames own (r :: handed) (f :: fs)) :
    KeepsFrames own handed fs := fun k f hf => h (k + 1) f hf

/-- What is handed first is kept. -/
theorem of_append (h : KeepsFrames own (handed ++ later) fs) : KeepsFrames own handed fs := by
  intro k f hf
  refine h k f ?_
  rw [List.getElem?_append_left (List.getElem?_eq_some_iff.1 hf).1]
  exact hf

/-- It is kept by the first frames of the list. -/
theorem take (h : KeepsFrames own handed fs) : KeepsFrames own handed (fs.take handed.length) := by
  intro k f hf
  rw [List.getElem?_take_of_lt (List.getElem?_eq_some_iff.1 hf).1]
  exact h k f hf

/-- What is handed later is kept by the rest of the list. -/
theorem drop (h : KeepsFrames own (handed ++ later) fs) :
    KeepsFrames own later (fs.drop handed.length) := by
  intro k f hf
  rw [List.getElem?_drop]
  refine h (handed.length + k) f ?_
  rw [List.getElem?_append_right (Nat.le_add_right _ _), Nat.add_sub_cancel_left]
  exact hf

end KeepsFrames

namespace Master.Alike

/-- The frames that are passed on may differ, except for one's own. -/
theorem deliver (h : Master.Alike own hidden m m') {fs fs' : List Frame}
    (hlayout : fs'.map Frame.layout = fs.map Frame.layout)
    (hkept : KeepsFrames own (m.handing fs) fs') :
    Outcome.Alike own hidden (m.deliver fs) (m'.deliver fs') := by
  induction fs generalizing m m' fs' with
  | nil =>
    obtain rfl := List.map_eq_nil_iff.1 hlayout
    exact .stay h
  | cons f fs ih =>
    obtain ⟨f', fs', rfl, hf', hfs'⟩ := List.map_eq_cons_iff.1 hlayout
    have hmine (hself : (m.desk.table.resolve f.header.transaction).2 = some own) : f' = f :=
      Option.some.inj (hkept.head hself)
    have hpassed : Master.Alike own hidden { m with desk := m.desk.resolve f }
        { m' with desk := m'.desk.resolve f' } :=
      { h with desk := h.desk.resolve (Frame.transaction_of_layout hf') hmine }
    have hcollected := hpassed.collect
    exact hcollected.andThen (ih hcollected.master hfs' hkept.tail)

/-- What is read may differ in the same way, if both masters find the same error. -/
theorem hear (h : Master.Alike own hidden m m') {r r' : Reading Frame}
    (hlayout : r'.items.map Frame.layout = r.items.map Frame.layout)
    (herror : r'.error = r.error)
    (hkept : KeepsFrames own ((m.withRest r.rest).handing r.items) r'.items) :
    Outcome.Alike own hidden (m.hear r) (m'.hear r') := by
  have hread : Master.Alike own hidden (m.withRest r.rest) (m'.withRest r'.rest) := { h with }
  have hdelivered := hread.deliver hlayout hkept
  unfold Master.hear
  rw [herror]
  refine hdelivered.andThen ?_
  cases r.error with
  | some e => exact hdelivered.master.close e.fault
  | none => exact .stay hdelivered.master

end Master.Alike

end Modbus
