import Modbus.Proofs.Master.Alike
import Modbus.Proofs.Master.Answers

/-!
# Calls do not influence each other

The same happens to two masters, but their peers send different frames to the other calls than one.
Two runs of this kind go in parallel (`Master.Parallel`): whatever happens next, the masters show
the same, and what is still to come is of this kind again (`Master.GoesOn`, which `Parallel.same`,
`Parallel.send` and `Parallel.finish` show). So a call is told the same in both runs, and at the
same time, and the peer receives the same bytes (`Master.run_isolates_calls`).
-/

namespace Modbus

namespace Happening

variable {hs hs' : List Happening}

/-- The same happens twice, but the peer may send other bytes, as many of them at a time. -/
inductive Alike : List Happening → List Happening → Prop where
  | nil : Alike [] []
  | same (h : Happening) {hs hs' : List Happening} (later : Alike hs hs') :
    Alike (h :: hs) (h :: hs')
  | send {bytes bytes' : Bytes} (hlength : bytes'.length = bytes.length)
    {hs hs' : List Happening} (later : Alike hs hs') :
    Alike (.send bytes :: hs) (.send bytes' :: hs')

/-- The first happenings of sequences that are alike are alike. -/
theorem Alike.take (h : Alike hs hs') (n : Nat) : Alike (hs.take n) (hs'.take n) := by
  induction h generalizing n with
  | nil => rw [List.take_nil]; exact .nil
  | same h _ ih =>
    cases n with
    | zero => exact .nil
    | succ n => exact .same h (ih n)
  | send hlength _ ih =>
    cases n with
    | zero => exact .nil
    | succ n => exact .send hlength (ih n)

/-- What the peer has sent at first begins what it sends in all. -/
theorem stream_take (hs : List Happening) (n : Nat) : stream (hs.take n) <+: stream hs := by
  induction hs generalizing n with
  | nil => simp
  | cons h hs ih =>
    cases n with
    | zero => exact List.nil_prefix
    | succ n =>
      cases h with
      | send bytes => exact (List.prefix_append_right_inj bytes).2 (ih n)
      | finish => exact List.prefix_rfl
      | _ => exact ih n

end Happening

/-- Two incoming sides have read equally much of two streams of frames, and nothing else is coming
than the rest of the streams or a part of it. -/
structure Inlet.Alike (i i' : Inlet) (stream stream' : Bytes) (fs fs' : List Frame) : Prop where
  length : i'.buffer.length = i.buffer.length
  part : Frame.split i.buffer = .ok none
  part' : Frame.split i'.buffer = .ok none
  front : i.buffer ++ stream <+: Frame.listBytes fs
  front' : i'.buffer ++ stream' <+: Frame.listBytes fs'

namespace Master

variable {own : Serial} {hidden : List CallId} {m m' : Master} {hs hs' : List Happening}
  {fs fs' : List Frame}

/-! ## Frames on their way to calls -/

/-- The frames that are passed on when something happens, each with the ticket that it is handed to,
if there is one. -/
def handedBy (m : Master) : Happening → List (Frame × Option Serial)
  | .send bytes =>
    if m.inlet.isClosed then []
    else
      let r := Decoder.frames.drain (m.inlet.buffer ++ bytes)
      (m.withRest r.rest).handing r.items
  | .finish =>
    if m.inlet.isClosed then []
    else
      let r := Decoder.frames.drainLast m.inlet.buffer
      (m.withRest r.rest).handing r.items
  | _ => []

/-- The frames that are passed on in a sequence of happenings, each with the ticket that it is
handed to, if there is one. -/
def handed (m : Master) : List Happening → List (Frame × Option Serial)
  | [] => []
  | h :: hs => m.handedBy h ++ (m.step h).master.handed hs

/-- The calls that are started later are started behind the earlier ones. -/
theorem started_append (hs hs' : List Happening) :
    m.started (hs ++ hs') = m.started hs ++ (m.run hs).master.started hs' := by
  induction hs generalizing m with
  | nil => rfl
  | cons h hs ih => rw [List.cons_append, started, started, ih, List.append_assoc]; rfl

/-- The frames that are passed on later are passed on behind the earlier ones. -/
theorem handed_append (hs hs' : List Happening) :
    m.handed (hs ++ hs') = m.handed hs ++ (m.run hs).master.handed hs' := by
  induction hs generalizing m with
  | nil => rfl
  | cons h hs ih => rw [List.cons_append, handed, handed, ih, List.append_assoc]; rfl

/-- The calls that are started at first begin those that are started in all. -/
theorem started_take (m : Master) (hs : List Happening) (n : Nat) :
    m.started (hs.take n) <+: m.started hs := by
  conv => rhs; rw [← List.take_append_drop n hs]
  rw [started_append]
  exact List.prefix_append _ _

/-- The frames that are passed on at first begin those that are passed on in all. -/
theorem handed_take (m : Master) (hs : List Happening) (n : Nat) :
    m.handed (hs.take n) <+: m.handed hs := by
  conv => rhs; rw [← List.take_append_drop n hs]
  rw [handed_append]
  exact List.prefix_append _ _

/-- What is passed on has been read. -/
theorem map_handed (m : Master) (hs : List Happening) :
    (m.handed hs).map (·.1) = (m.inputs hs).filterMap Deed.passed? := by
  induction hs generalizing m with
  | nil => rfl
  | cons h hs ih =>
    have hfirst : (m.handedBy h).map (·.1) = (m.inputsBy h).filterMap Deed.passed? := by
      cases h with
      | start id unit request timeout => exact (passed_started _).symm
      | send bytes =>
        rw [handedBy, inputsBy]
        split
        · rfl
        · rw [map_handing, passed_heard]
      | finish =>
        rw [handedBy, inputsBy]
        split
        · rfl
        · rw [map_handing, List.filterMap_append, passed_heard]
          split <;> simp [Deed.passed?]
      | _ => rfl
    rw [handed, inputs, List.map_append, List.filterMap_append, hfirst, ih]

/-! ## Two runs in parallel -/

/-- Two masters that are alike for a call, what is still to happen to them, and the frames that are
still to be read. Those that the call is handed are the same. -/
structure Parallel (own : Serial) (hidden : List CallId) (m m' : Master)
    (hs hs' : List Happening) (fs fs' : List Frame) : Prop where
  masters : Master.Alike own hidden m m'
  sendable : ∀ f ∈ fs, f.IsSendable
  layout : fs'.map Frame.layout = fs.map Frame.layout
  inlets : m.inlet.isClosed = false →
    m.inlet.Alike m'.inlet (Happening.stream hs) (Happening.stream hs') fs fs'
  known : ∀ c ∈ m.started hs, c.serial = own ∨ c.id ∈ hidden
  kept : KeepsFrames own (m.handed hs) fs'

/-- Only the peer and a disconnection can change an incoming side, and a disconnection closes it. -/
theorem inlet_step_of_open {h : Happening} (hsend : ∀ bytes, h ≠ .send bytes)
    (hfinish : h ≠ .finish) (hopen : (m.step h).master.inlet.isClosed = false) :
    (m.step h).master.inlet = m.inlet := by
  cases h with
  | send bytes => exact absurd rfl (hsend bytes)
  | finish => exact absurd rfl hfinish
  | disconnect id =>
    rw [(changes_step m (.disconnect id)).inlet] at hopen
    cases hopen
  | _ => exact (inputsBy_started rfl).2

/-- The frames that are whole with the bytes of the peer are passed on. -/
theorem step_send (hopen : m.inlet.isClosed = false) {bytes : Bytes} {r : Reading Frame}
    (hr : Decoder.frames.drain (m.inlet.buffer ++ bytes) = r) :
    m.step (.send bytes) = m.hear r := by
  simp [step, send, hopen, hr]

/-- The frames that are whole with the bytes of the peer are those that are read of the buffer with
these bytes. -/
theorem handedBy_send (hopen : m.inlet.isClosed = false) {bytes : Bytes} {r : Reading Frame}
    (hr : Decoder.frames.drain (m.inlet.buffer ++ bytes) = r) :
    m.handedBy (.send bytes) = (m.withRest r.rest).handing r.items := by
  simp [handedBy, hopen, hr]

/-- What is left of the bytes stays in the buffer if nothing is wrong with them. -/
theorem inlet_send (hopen : m.inlet.isClosed = false) {bytes rest : Bytes}
    (hr : Decoder.frames.drain (m.inlet.buffer ++ bytes) = ⟨fs, none, rest⟩) :
    (m.step (.send bytes)).master.inlet = ⟨rest, false⟩ := by
  rw [(changes_step m (.send bytes)).inlet, inputsBy_send bytes hopen, hr, inlet_heard, hopen]
  rfl

/-- One step of two runs in parallel, in which a number of frames is passed on. -/
structure GoesOn (own : Serial) (hidden : List CallId) (m m' : Master) (h h' : Happening)
    (hs hs' : List Happening) (fs fs' : List Frame) (n : Nat) : Prop where
  shown : Outcome.Alike own hidden (m.step h) (m'.step h')
  passed : (m.handedBy h).map (·.1) = fs.take n
  later : Parallel own hidden (m.step h).master (m'.step h').master hs hs' (fs.drop n) (fs'.drop n)

/-- With the frames that are passed on later, they are the first ones. -/
theorem GoesOn.map_handed {h h' : Happening} {n : Nat}
    (hg : GoesOn own hidden m m' h h' hs hs' fs fs' n)
    (hlater : ((m.step h).master.handed hs).map (·.1) <+: fs.drop n) :
    (m.handed (h :: hs)).map (·.1) <+: fs := by
  rw [handed, List.map_append, hg.passed]
  conv => rhs; rw [← List.take_append_drop n fs]
  exact (List.prefix_append_right_inj _).2 hlater

namespace Parallel

/-- Nothing is read any more when the incoming sides have been closed. -/
theorem closed {h h' : Happening} (hp : Parallel own hidden m m' (h :: hs) (h' :: hs') fs fs')
    (ho : Outcome.Alike own hidden (m.step h) (m'.step h')) (hnone : m.handedBy h = [])
    (hclosed : (m.step h).master.inlet.isClosed = true) :
    GoesOn own hidden m m' h h' hs hs' fs fs' 0 where
  shown := ho
  passed := by rw [hnone]; rfl
  later :=
    { masters := ho.master
      sendable := hp.sendable
      layout := hp.layout
      inlets := fun hopen => by rw [hclosed] at hopen; cases hopen
      known := fun c hc => hp.known c (List.mem_append_right _ hc)
      kept := by
        have hnone : (m.step h).master.handed hs = [] :=
          List.map_eq_nil_iff.1 ((map_handed _ hs).trans (passed_of_closed hclosed))
        exact hnone ▸ .nil _ }

/-- What the peers do is lost on masters whose incoming sides are closed. -/
theorem stay {h h' : Happening} (hp : Parallel own hidden m m' (h :: hs) (h' :: hs') fs fs')
    (hclosed : m.inlet.isClosed = true) (hnone : m.handedBy h = [])
    (hstep : m.step h = ⟨m, [], []⟩) (hstep' : m'.step h' = ⟨m', [], []⟩) :
    GoesOn own hidden m m' h h' hs hs' fs fs' 0 := by
  refine hp.closed ?_ hnone (by rw [hstep, hclosed])
  rw [hstep, hstep']
  exact .stay hp.masters

/-- The same happens to both masters, and nothing is read. -/
theorem same {h : Happening} (hp : Parallel own hidden m m' (h :: hs) (h :: hs') fs fs')
    (hsend : ∀ bytes, h ≠ .send bytes) (hfinish : h ≠ .finish) :
    GoesOn own hidden m m' h h hs hs' fs fs' 0 := by
  have hstep := hp.masters.step (fun c hc => hp.known c (List.mem_append_left _ hc)) hsend hfinish
  have hsilent : m.handedBy h = [] ∧
      ∀ hs, Happening.stream (h :: hs) = Happening.stream hs := by
    cases h with
    | send bytes => exact absurd rfl (hsend bytes)
    | finish => exact absurd rfl hfinish
    | _ => exact ⟨rfl, fun _ => rfl⟩
  obtain ⟨hnone, hstream⟩ := hsilent
  refine ⟨hstep, by rw [hnone]; rfl, { hp with
    masters := hstep.master, inlets := fun hopen => ?inlets, known := ?known, kept := ?kept }⟩
  case inlets =>
    have hsame := inlet_step_of_open hsend hfinish hopen
    have hsame' := inlet_step_of_open hsend hfinish (hstep.master.isClosed.trans hopen)
    rw [hsame, hsame', ← hstream hs, ← hstream hs']
    exact hp.inlets (hsame ▸ hopen)
  case known => exact fun c hc => hp.known c (List.mem_append_right _ hc)
  case kept =>
    have hkept := hp.kept
    rwa [handed, hnone] at hkept

/-- The peers send bytes, and as many frames are whole with them in both runs. -/
theorem send {bytes bytes' : Bytes} (hlength : bytes'.length = bytes.length)
    (hp : Parallel own hidden m m' (.send bytes :: hs) (.send bytes' :: hs') fs fs') :
    ∃ n, GoesOn own hidden m m' (.send bytes) (.send bytes') hs hs' fs fs' n := by
  cases hclosed : m.inlet.isClosed with
  | true =>
    have hclosed' := hp.masters.isClosed.trans hclosed
    exact ⟨0, hp.stay hclosed (if_pos hclosed) (if_pos hclosed) (if_pos hclosed')⟩
  | false =>
    have hclosed' := hp.masters.isClosed.trans hclosed
    have hi := hp.inlets hclosed
    obtain ⟨more, hmore⟩ := hi.front
    obtain ⟨more', hmore'⟩ := hi.front'
    rw [Happening.stream, ← List.append_assoc, List.append_assoc] at hmore hmore'
    obtain ⟨n, rest, rest', hr⟩ := Frame.drain_of_layout hp.sendable hp.layout hmore hmore'
      (by rw [List.length_append, List.length_append, hlength, hi.length])
    have hhanded := handedBy_send hclosed hr.drain
    have hinlet := inlet_send hclosed hr.drain
    have hinlet' := inlet_send hclosed' hr.drain'
    -- the frames that are passed on now, and those that are passed on later
    have hkept := hp.kept
    rw [handed, hhanded] at hkept
    have hfirst := hkept.of_append.take
    have hlater := hkept.drop
    rw [length_handing, List.length_take_of_le hr.le] at hfirst hlater
    have ho : Outcome.Alike own hidden (m.step (.send bytes)) (m'.step (.send bytes')) := by
      rw [step_send hclosed hr.drain, step_send hclosed' hr.drain']
      refine hp.masters.hear ?_ rfl hfirst
      rw [List.map_take, List.map_take, hp.layout]
    refine ⟨n, ho, by rw [hhanded, map_handing], ho.master, ?_, ?_, fun _ => ?_, ?_, hlater⟩
    · exact fun f hf => hp.sendable f (List.mem_of_mem_drop hf)
    · rw [List.map_drop, List.map_drop, hp.layout]
    · rw [hinlet, hinlet']
      have hbehind := hr.behind
      have hbehind' := hr.behind'
      rw [← List.append_assoc] at hbehind hbehind'
      exact ⟨hr.length, hr.part, hr.part', ⟨more, hbehind⟩, ⟨more', hbehind'⟩⟩
    · exact fun c hc => hp.known c (List.mem_append_right _ hc)

/-- The peers end their streams, at the same place of a frame. -/
theorem finish (hp : Parallel own hidden m m' (.finish :: hs) (.finish :: hs') fs fs') :
    GoesOn own hidden m m' .finish .finish hs hs' fs fs' 0 := by
  cases hclosed : m.inlet.isClosed with
  | true =>
    have hclosed' := hp.masters.isClosed.trans hclosed
    exact hp.stay hclosed (if_pos hclosed) (if_pos hclosed) (if_pos hclosed')
  | false =>
    have hclosed' := hp.masters.isClosed.trans hclosed
    have hi := hp.inlets hclosed
    obtain ⟨more, hmore⟩ := hi.front
    obtain ⟨more', hmore'⟩ := hi.front'
    rw [List.append_assoc] at hmore hmore'
    obtain ⟨e, hr, hr'⟩ := Frame.drainLast_of_layout hp.sendable hp.layout hmore hmore' hi.length
      hi.part hi.part'
    have hnone : m.handedBy .finish = [] := by simp [handedBy, hclosed, hr, handing]
    have hheard : Outcome.Alike own hidden (m.hear ⟨[], e, m.inlet.buffer⟩)
        (m'.hear ⟨[], e, m'.inlet.buffer⟩) := hp.masters.hear rfl rfl (.nil _)
    refine hp.closed ?_ hnone (isClosed_finish m)
    simp only [Master.step, Master.finish, hclosed, hclosed', hr, hr', Bool.false_eq_true, if_false]
    refine hheard.andThen ?_
    rw [hheard.master.isClosed]
    split
    · exact .stay hheard.master
    · exact hheard.master.close _

/-- Whatever happens to both masters, they go on in parallel. -/
theorem step {h : Happening} (hp : Parallel own hidden m m' (h :: hs) (h :: hs') fs fs') :
    ∃ n, GoesOn own hidden m m' h h hs hs' fs fs' n := by
  by_cases hfinish : h = .finish
  · subst hfinish
    exact ⟨0, hp.finish⟩
  · by_cases hsend : ∃ bytes, h = .send bytes
    · obtain ⟨bytes, rfl⟩ := hsend
      exact hp.send rfl
    · exact ⟨0, hp.same (fun bytes hb => hsend ⟨bytes, hb⟩) hfinish⟩

/-- Two runs in parallel show the same. The frames that are passed on are the first ones of those
that the peer sends. -/
theorem run (hp : Parallel own hidden m m' hs hs' fs fs') (hhs : Happening.Alike hs hs') :
    Outcome.Alike own hidden (m.run hs) (m'.run hs') ∧ m'.started hs' = m.started hs ∧
      (m.handed hs).map (·.1) <+: fs := by
  induction hhs generalizing m m' fs fs' with
  | nil => exact ⟨.stay hp.masters, rfl, List.nil_prefix⟩
  | same h later ih =>
    obtain ⟨n, hgoes⟩ := hp.step
    obtain ⟨hrun, hstarted, hpassed⟩ := ih hgoes.later
    refine ⟨hgoes.shown.andThen hrun, ?_, hgoes.map_handed hpassed⟩
    rw [started, started, hp.masters.startedBy, hstarted]
  | send hlength later ih =>
    obtain ⟨n, hgoes⟩ := hp.send hlength
    obtain ⟨hrun, hstarted, hpassed⟩ := ih hgoes.later
    exact ⟨hgoes.shown.andThen hrun, hstarted, hgoes.map_handed hpassed⟩

end Parallel

end Master

/-! ## What a call can tell of the others -/

namespace Outcome

variable {own : Serial} {hidden : List CallId} {o o' : Outcome}

/-- Everybody is told the same, unless the results are hidden. -/
theorem Alike.told (h : Outcome.Alike own hidden o o') :
    o'.told.filter (·.1 ∉ hidden) = o.told.filter (·.1 ∉ hidden) := by
  have hseen (events : List Event) : (events.filterMap Event.told?).filter (·.1 ∉ hidden) =
      (events.map (Event.seen hidden)).filterMap (Sum.elim Event.told? fun _ => none) := by
    rw [List.filter_filterMap, List.filterMap_map]
    congr 1
    funext e
    cases e with
    | finished id result => by_cases hid : id ∈ hidden <;> simp [Event.told?, Event.seen, hid]
    | _ => rfl
  rw [Outcome.told, Outcome.told, hseen, hseen, h.events]

/-- Two outcomes show the same, except for the results that other calls than one are told. -/
structure IsolatesCall (c : Call) (others : List CallId) (o o' : Outcome) : Prop where
  /-- The same calls are in progress. -/
  calls : o'.master.calls = o.master.calls
  /-- The call has been given the same reply, if there is one. -/
  outlook : o'.master.desk.outlook? c.serial = o.master.desk.outlook? c.serial
  /-- The same bytes have been written, and the peer has received the same of them. -/
  outlet : o'.master.outlet = o.master.outlet
  received : o'.received = o.received
  /-- Calls have ended in the same order. -/
  events : o'.events.map (Event.seen others) = o.events.map (Event.seen others)
  /-- The caller has been told the same, as long as no other call has the same name. -/
  told : c.id ∉ others → o'.told.filter (·.1 = c.id) = o.told.filter (·.1 = c.id)

/-- Outcomes that are alike for a call show the same, except for what other calls are told. -/
theorem Alike.isolatesCall {c : Call} (h : Outcome.Alike c.serial hidden o o') :
    IsolatesCall c hidden o o' where
  calls := h.master.calls
  outlook := (h.master.desk.outlook? c.serial).resolve_right fun hother => hother.1 rfl
  outlet := h.master.outlet
  received := h.received
  events := h.events
  told hc := by
    have hown (told : List (CallId × CallResult)) :
        (told.filter (·.1 ∉ hidden)).filter (·.1 = c.id) = told.filter (·.1 = c.id) := by
      rw [List.filter_filter]
      congr 1
      funext r
      by_cases hr : r.1 = c.id <;> simp [hr, hc]
    rw [← hown, h.told, hown]

end Outcome

namespace Master

variable {hs hs' : List Happening} {fs fs' : List Frame}

/-- A new master is alike to itself, and the same is coming. -/
theorem parallel_attach (policy : UnitPolicy) (capacity : Nat) {own : Serial} {hidden : List CallId}
    (hsendable : ∀ f ∈ fs, f.IsSendable) (hlayout : fs'.map Frame.layout = fs.map Frame.layout)
    (hfront : Happening.stream hs <+: Frame.listBytes fs)
    (hfront' : Happening.stream hs' <+: Frame.listBytes fs')
    (hknown : ∀ c ∈ (attach policy capacity).started hs, c.serial = own ∨ c.id ∈ hidden)
    (hkept : KeepsFrames own ((attach policy capacity).handed hs) fs') :
    Parallel own hidden (attach policy capacity) (attach policy capacity) hs hs' fs fs' where
  masters := ⟨rfl, rfl, .refl _, rfl, rfl, rfl, rfl, nofun⟩
  sendable := hsendable
  layout := hlayout
  inlets _ := ⟨rfl, rfl, rfl, hfront, hfront'⟩
  known := hknown
  kept := hkept

/-- **Calls do not influence each other.** The same happens in two runs, but the peer sends other
frames, with the same transaction ids and the same lengths, in the place of those that are not
handed to a call; it does not matter of which units they are and whether their PDUs can be read.
Then the frames are passed on one after another, the same calls are started with the same
transaction ids, and after each step the call is in progress in both runs or in none, its caller has
been told the same, and the same bytes have been written to the peer. The runs differ only in what
other callers are told when their calls end. -/
theorem run_isolates_calls (policy : UnitPolicy) (capacity : Nat) {c : Call}
    (hhs : Happening.Alike hs hs') (hsendable : ∀ f ∈ fs, f.IsSendable)
    (hlayout : fs'.map Frame.layout = fs.map Frame.layout)
    (hfront : Happening.stream hs <+: Frame.listBytes fs)
    (hfront' : Happening.stream hs' <+: Frame.listBytes fs')
    (hkept : KeepsFrames c.serial ((attach policy capacity).handed hs) fs') (n : Nat) :
    let m := attach policy capacity
    let others := ((m.started hs).filter (·.serial ≠ c.serial)).map (·.id)
    (m.handed (hs.take n)).map (·.1) <+: fs ∧ m.started (hs'.take n) = m.started (hs.take n) ∧
      (m.run (hs.take n)).IsolatesCall c others (m.run (hs'.take n)) := by
  intro m others
  have hparallel : Parallel c.serial others m m (hs.take n) (hs'.take n) fs fs' := by
    refine parallel_attach policy capacity hsendable hlayout ?_ ?_ (fun c' hc' => ?_) ?_
    · exact (Happening.stream_take hs n).trans hfront
    · exact (Happening.stream_take hs' n).trans hfront'
    · have hstarted := (started_take m hs n).subset hc'
      by_cases hs : c'.serial = c.serial
      · exact .inl hs
      · exact .inr (List.mem_map_of_mem (List.mem_filter.2 ⟨hstarted, by simpa using hs⟩))
    · obtain ⟨later, hlater⟩ := handed_take m hs n
      exact KeepsFrames.of_append (hlater ▸ hkept)
  obtain ⟨hrun, hstarted, hpassed⟩ := hparallel.run (hhs.take n)
  exact ⟨hpassed, hstarted, hrun.isolatesCall⟩

/-- A call is told its answer, whether another one is told an exception by the frame in front of it
or nothing that can be read. The frames come in two parts, with the cut inside the first one. -/
theorem run_isolates_calls_exception :
    let answer : Frame := ⟨⟨1, 1⟩, [3, 2, 0, 7]⟩
    let exception : Frame := ⟨⟨0, 1⟩, [0x83, 2]⟩
    let foreign : Frame := ⟨⟨0, 9⟩, [3, 5]⟩
    let happenings (f : Frame) : List Happening :=
      [.start 0 1 (.readHoldingRegisters 0 1) none, .start 1 1 (.readHoldingRegisters 0 1) none,
        .send (f.bytes.take 7), .receive none, .send (f.bytes.drop 7 ++ answer.bytes)]
    let c : Call := ⟨1, 1, .readHoldingRegisters 0 1, none, none, 1, 1⟩
    let m := attach .reject 64
    let o := m.run (happenings exception)
    let o' := m.run (happenings foreign)
    Happening.Alike (happenings exception) (happenings foreign) ∧
      m.started (happenings foreign) = m.started (happenings exception) ∧
      o.IsolatesCall c [0] o' ∧ o'.told.filter (·.1 = 1) = o.told.filter (·.1 = 1) ∧
      o.told.map (fun r => (r.1, r.2.isOk)) = [(0, true), (1, true)] ∧
      o'.told.map (fun r => (r.1, r.2.isOk)) = [(0, false), (1, true)] := by
  intro answer exception foreign happenings c m o o'
  have hhs : Happening.Alike (happenings exception) (happenings foreign) :=
    .same _ (.same _ (.send (by decide) (.same _ (.send (by decide) .nil))))
  have hsendable : ∀ f ∈ [exception, answer], f.IsSendable := by
    simp only [List.forall_mem_cons]
    exact ⟨⟨by decide, by decide⟩, ⟨by decide, by decide⟩, nofun⟩
  have hlayout : [foreign, answer].map Frame.layout = [exception, answer].map Frame.layout := rfl
  have hhanded : m.handed (happenings exception) = [(exception, some 0), (answer, some 1)] := by
    decide +kernel
  have hkept : KeepsFrames c.serial (m.handed (happenings exception)) [foreign, answer] := by
    intro k f hf
    rw [hhanded] at hf
    match k with
    | 0 => cases hf
    | 1 => cases hf; rfl
    | k + 2 => cases hf
  obtain ⟨-, hstarted, hisolates⟩ := run_isolates_calls .reject 64 hhs hsendable hlayout
    ⟨[], by decide⟩ ⟨[], by decide⟩ hkept 5
  exact ⟨hhs, hstarted, hisolates, hisolates.told (by decide), by decide +kernel,
    by decide +kernel⟩

end Master

end Modbus
