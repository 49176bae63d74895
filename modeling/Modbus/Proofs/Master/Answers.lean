import Modbus.Proofs.Frame.Sequence
import Modbus.Proofs.Master.Reader
import Modbus.Proofs.Master.Verdict
import Modbus.Proofs.Master.Waiting

/-!
# What an answer says about the wire

A caller who is told an answer knows what the peer has sent: a whole frame with the transaction id
of the call, whose PDU is the encoding of the answer. Between the stream of the peer and the caller
stand the splitting into frames, the table of transaction ids and the judgement of the call. Each of
them is described by itself: the frames that are passed on are at the front of the stream
(`Master.passesFront`), a frame that is taken has been handed to the call
(`Master.Trace.handed_of_taken`), and what the caller is told is the judgement of the frame
(`Call.judge_eq_iff`). `Master.run_answers_from_wire` puts them together, for every run.
-/

namespace Modbus

/-- The frame that is passed on. -/
def Deed.passed? : Deed → Option Frame
  | pass f => some f
  | _ => none

/-- Frames whose bytes, one after another, are at the front of a stream. -/
structure AtFront (fs : List Frame) (stream : Bytes) : Prop where
  sendable : ∀ f ∈ fs, f.IsSendable
  bytes : Frame.listBytes fs <+: stream

theorem AtFront.nil (stream : Bytes) : AtFront [] stream := ⟨by simp, List.nil_prefix⟩

/-- Frames that are taken off a stream are in front of those that are behind them. -/
theorem AtFront.of_splitMany {n : Nat} {buffer rest more : Bytes} {fs fs' : List Frame}
    (h : Frame.splitMany n buffer = .ok (some (fs, rest))) (h' : AtFront fs' (rest ++ more)) :
    AtFront (fs ++ fs') (buffer ++ more) := by
  obtain ⟨-, hfs, rfl⟩ := Frame.splitMany_inv h
  constructor
  case sendable =>
    intro f hf
    exact (List.mem_append.1 hf).elim (hfs f) (h'.sendable f)
  case bytes =>
    rw [Frame.listBytes_append, List.append_assoc, List.prefix_append_right_inj]
    exact h'.bytes

namespace Master

variable {m : Master} {hs : List Happening}

/-! ## From the stream to the desk -/

theorem passed_heard (r : Reading Frame) : (heard r).filterMap Deed.passed? = r.items := by
  rw [heard, List.filterMap_append, List.filterMap_cons, List.filterMap_map]
  cases r.error <;> simp [Function.comp_def, Deed.passed?]

theorem passed_started (cs : List Call) : (cs.map Deed.start).filterMap Deed.passed? = [] := by
  simp [List.filterMap_map, Function.comp_def, Deed.passed?]

/-- No deed opens the incoming side again. -/
theorem isClosed_foldl_after {i : Inlet} (h : i.isClosed = true) (ds : List Deed) :
    (ds.foldl Inlet.after i).isClosed = true := by
  induction ds generalizing i with
  | nil => exact h
  | cons d ds ih =>
    refine ih ?_
    cases d with
    | close => rfl
    | _ => exact h

/-- The end of the stream closes the incoming side. -/
theorem isClosed_finish (m : Master) : (m.step .finish).master.inlet.isClosed = true := by
  rw [(changes_step m .finish).inlet]
  cases hclosed : m.inlet.isClosed with
  | true => exact isClosed_foldl_after hclosed _
  | false =>
    rw [inputsBy_finish hclosed, List.foldl_append, inlet_heard]
    split <;> simp_all [Inlet.after]

/-- Nothing is passed on any more when the incoming side has been closed. -/
theorem passed_of_closed (hclosed : m.inlet.isClosed = true) :
    (m.inputs hs).filterMap Deed.passed? = [] := by
  induction hs generalizing m with
  | nil => rfl
  | cons h hs ih =>
    have hnone : (m.inputsBy h).filterMap Deed.passed? = [] := by
      cases h with
      | send bytes | finish => simp [inputsBy, hclosed]
      | start id unit request timeout => exact passed_started _
      | _ => rfl
    have hlater : (m.step h).master.inlet.isClosed = true := by
      rw [(changes_step m h).inlet]
      exact isClosed_foldl_after hclosed _
    rw [inputs, List.filterMap_append, hnone, ih hlater]
    rfl

/-- The frames that are passed on are at the front of what is in the buffer and what the peer
sends. -/
def PassesFront (m : Master) (hs : List Happening) : Prop :=
  AtFront ((m.inputs hs).filterMap Deed.passed?) (m.inlet.buffer ++ Happening.stream hs)

/-- Nothing is passed on by a happening that has nothing to do with the incoming side. -/
theorem PassesFront.other {h : Happening} (hi : m.inputsBy h = (m.startedBy h).map .start)
    (hstream : Happening.stream (h :: hs) = Happening.stream hs)
    (later : (m.step h).master.PassesFront hs) : m.PassesFront (h :: hs) := by
  rw [PassesFront, (inputsBy_started hi).2] at later
  rwa [PassesFront, inputs, List.filterMap_append, hi, passed_started, hstream]

/-- Bytes of the peer come, and the frames that are whole with them are passed on. -/
theorem PassesFront.send (bytes : Bytes) (hopen : m.inlet.isClosed = false)
    (later : (m.step (.send bytes)).master.PassesFront hs) :
    m.PassesFront (.send bytes :: hs) := by
  have hi := inputsBy_send bytes hopen
  rw [PassesFront, (changes_step m (.send bytes)).inlet, hi, inlet_heard] at later
  rw [PassesFront, inputs, List.filterMap_append, hi, passed_heard, Happening.stream,
    ← List.append_assoc]
  exact .of_splitMany (Frame.splitMany_drain _) later

/-- The stream ends. Whether or not there is an error, nothing is passed on behind its end. -/
theorem PassesFront.finish (hopen : m.inlet.isClosed = false) : m.PassesFront (.finish :: hs) := by
  have hpassed : (m.inputsBy .finish).filterMap Deed.passed? =
      (Decoder.frames.drainLast m.inlet.buffer).items := by
    rw [inputsBy_finish hopen, List.filterMap_append, passed_heard]
    split <;> simp [Deed.passed?]
  rw [PassesFront, inputs, List.filterMap_append, hpassed, passed_of_closed (isClosed_finish m)]
  exact .of_splitMany (Frame.splitMany_drainLast _) (.nil _)

/-- A disconnection closes the incoming side. -/
theorem PassesFront.disconnect (id : CallId) : m.PassesFront (.disconnect id :: hs) := by
  have hend : (m.step (.disconnect id)).master.inlet.isClosed = true := by
    rw [(changes_step m (.disconnect id)).inlet]
    rfl
  rw [PassesFront, inputs, List.filterMap_append, passed_of_closed hend]
  exact .nil _

/-- Whatever happens, frames are passed on in this way. -/
theorem passesFront (m : Master) (hs : List Happening) : m.PassesFront hs := by
  induction hs generalizing m with
  | nil => exact .nil _
  | cons h hs ih =>
    cases hclosed : m.inlet.isClosed with
    | true =>
      rw [PassesFront, passed_of_closed hclosed]
      exact .nil _
    | false =>
      have later := ih (m.step h).master
      cases h with
      | send bytes => exact .send bytes hclosed later
      | finish => exact .finish hclosed
      | disconnect id => exact .disconnect id
      | _ => exact .other rfl rfl later

/-- The frames that are passed on are inputs of a run, so they are the first ones that the peer of a
new master sends. -/
theorem atFront_of_inputs {policy : UnitPolicy} {capacity : Nat} {ds : List Deed}
    (hinputs : ds.filter Deed.isInput = (attach policy capacity).inputs hs) :
    AtFront (ds.filterMap Deed.passed?) (Happening.stream hs) := by
  have hpassed : ds.filterMap Deed.passed? = (ds.filter Deed.isInput).filterMap Deed.passed? := by
    rw [List.filterMap_filter]
    congr 1
    funext d
    cases d <;> rfl
  rw [hpassed, hinputs]
  exact passesFront (attach policy capacity) hs

/-! ## From the desk to the caller -/

/-- What becomes of a frame that has been handed to a call at a position of a trace. The call may
wait to write until the end of the trace; otherwise it ends, and if it ends by taking its delivery,
this is the frame, and the caller is told the one result that the frame leads to. -/
structure IsDecidedAt (policy : UnitPolicy) (ds : List Deed) (o : Outcome) (n : Nat) (c : Call)
    (f : Frame) (result : CallResult) : Prop where
  transaction : f.header.transaction = c.transaction
  judged : ∀ result', c.Judgement policy f result' ↔ result' = result
  outcome : (∃ isWritten, .call c isWritten ∈ o.master.queue) ∨
    ∃ ending, .finish c ending ∈ ds.drop (n + 1) ∧ ∀ delivery, ending = .taken delivery →
      delivery = .ok f ∧ .finished c.id result ∈ o.events

/-- What is true of the frames that a peer has sent and of the answers that callers are told. -/
structure AnswersFromWire (policy : UnitPolicy) (stream : Bytes) (ds : List Deed) (o : Outcome) :
    Prop where
  /-- The frames that are passed on are the first ones that the peer has sent. -/
  wire : AtFront (ds.filterMap Deed.passed?) stream
  /-- A caller who is told an answer has a call that has taken a frame with its transaction id,
  which it has been handed before and which says this answer. -/
  answered : ∀ {id : CallId} {answer : Answer}, .finished id (.ok answer) ∈ o.events →
    ∃ c f n k, c.id = id ∧ n < k ∧ HandedAt ds n c f ∧
      ds[k]? = some (.finish c (.taken (.ok f))) ∧ f.header.transaction = c.transaction ∧
        c.Judgement policy f (.ok answer)
  /-- Every frame that is handed to a call leads to one result. -/
  decided : ∀ {n : Nat} {c : Call} {f : Frame}, HandedAt ds n c f →
    ∃ result, IsDecidedAt policy ds o n c f result
  /-- A call that waits ends as soon as a frame with its id comes. -/
  prompt : ∀ {c : Call} {bytes : Bytes} {fs fs' : List Frame} {f : Frame}, c ∈ o.master.awaiting →
    o.master.inlet.isClosed = false →
    (Decoder.frames.drain (o.master.inlet.buffer ++ bytes)).items = fs ++ f :: fs' →
    (∀ f' ∈ fs, f'.header.transaction ≠ c.transaction) → f.header.transaction = c.transaction →
      ∃ result, c.Judgement policy f result ∧
        .finished c.id result ∈ (o.master.step (.send bytes)).events
  /-- A call ends once, and its caller is told so once. -/
  once : ∀ {j k : Nat} {c : Call} {ending ending' : Ending}, ds[j]? = some (.finish c ending) →
    ds[k]? = some (.finish c ending') → j = k
  told : (ds.filterMap (Deed.told? policy)).Sublist o.told
  /-- Nobody else is told an answer. -/
  told_answers : o.told.filter (·.2.isOk) = (ds.filterMap (Deed.told? policy)).filter (·.2.isOk)

variable {policy : UnitPolicy} {capacity : Nat} {ds : List Deed} {o : Outcome} {c : Call}
  {f : Frame} {n : Nat}

/-- A caller is told an answer only if its call has taken a frame that says so. -/
theorem told?_eq_ok {d : Deed} {id : CallId} {answer : Answer}
    (h : d.told? policy = some (id, .ok answer)) :
    ∃ c f, d = .finish c (.taken (.ok f)) ∧ c.id = id ∧ c.judge policy f = .ok answer := by
  cases d with
  | finish c ending =>
    obtain ⟨result, hresult, hid⟩ := Option.map_eq_some_iff.1 h
    cases hid
    cases ending with
    | taken delivery =>
      cases delivery with
      | error e => cases hresult
      | ok f => exact ⟨c, f, rfl, rfl, Option.some.inj hresult⟩
    | broken | expired | cancelled => cases hresult
  | _ => cases h

/-- An answer has been taken from a frame. -/
theorem Trace.taken_of_answered (h : Trace m ds o) {id : CallId} {answer : Answer}
    (he : .finished id (.ok answer) ∈ o.events) :
    ∃ c f, c.id = id ∧ .finish c (.taken (.ok f)) ∈ ds ∧ c.judge m.policy f = .ok answer := by
  have htold : (id, .ok answer) ∈ o.told.filter (·.2.isOk) :=
    List.mem_filter.2 ⟨Outcome.mem_told.2 he, rfl⟩
  rw [h.told.2] at htold
  obtain ⟨d, hd, hanswer⟩ := List.mem_filterMap.1 (List.mem_filter.1 htold).1
  obtain ⟨c, f, rfl, hid, hjudge⟩ := told?_eq_ok hanswer
  exact ⟨c, f, hid, hd, hjudge⟩

/-- The frame that an answer has been taken from has been handed to the call before. -/
theorem Trace.handed_of_answered (h : Trace (attach policy capacity) ds o) {id : CallId}
    {answer : Answer} (he : .finished id (.ok answer) ∈ o.events) :
    ∃ c f n k, c.id = id ∧ n < k ∧ HandedAt ds n c f ∧
      ds[k]? = some (.finish c (.taken (.ok f))) ∧ c.judge policy f = .ok answer := by
  obtain ⟨c, f, hid, hd, hjudge⟩ := h.taken_of_answered he
  obtain ⟨k, hk⟩ := List.mem_iff_getElem?.1 hd
  obtain ⟨n, hn, hc⟩ := h.handed_of_taken hk
  exact ⟨c, f, n, k, hid, hn, hc, hk, hjudge⟩

/-- A frame that is handed to a call is decided by its judgement. -/
theorem Trace.isDecidedAt (h : Trace (attach policy capacity) ds o) (hquiet : o.master.IsQuiet)
    (hc : HandedAt ds n c f) : IsDecidedAt policy ds o n c f (c.judge policy f) := by
  obtain ⟨o₁, o₂, o₃, h₁, hdesk, hchange, h₂, ht, rfl⟩ := h.tells_at hc.passed
  have hpolicy : o₂.master.policy = policy := ht.policy.symm.trans h.policy
  obtain ⟨htransaction, hcalls, hready⟩ := h₁.given hc hdesk hchange
  constructor
  case transaction => exact htransaction
  case judged =>
    intro result
    rw [← Call.judge_eq_iff]
    exact eq_comm
  case outcome =>
    refine (h₂.replied hcalls hready ht hquiet).imp_right ?_
    rintro ⟨ending, hf, htaken⟩
    refine ⟨ending, hf, fun delivery hd => ?_⟩
    obtain ⟨rfl, he⟩ := htaken delivery hd
    exact ⟨rfl, List.mem_append_right _ (hpolicy ▸ he)⟩

/-- **An answer says what is on the wire**, in every run and whatever the peer sends. The call of a
caller who is told an answer has been handed a whole frame with its transaction id, and the PDU of
this frame is the encoding of the answer, for the function of the request; under a strict policy the
frame is of the addressed unit. Conversely, every frame that a call is handed leads to exactly one
result: the answer that the frame says, or the first error among that of the unit, that of the PDU
and that of the function. -/
theorem run_answers_from_wire (policy : UnitPolicy) (capacity : Nat) (hs : List Happening) :
    let m := attach policy capacity
    let o := m.run hs
    ∃ ds, Trace m ds o ∧ ds.filter Deed.isInput = m.inputs hs ∧
      ds.filterMap Deed.started? = m.started hs ∧
      AnswersFromWire policy (Happening.stream hs) ds o := by
  intro m o
  obtain ⟨ds, ht, hinputs, hstarted⟩ := m.exists_trace hs
  have hquiet : o.master.IsQuiet := isQuiet_run (m := m) nofun hs
  refine ⟨ds, ht, hinputs, hstarted, ?_⟩
  constructor
  case wire => exact atFront_of_inputs hinputs
  case answered =>
    intro id answer he
    obtain ⟨c, f, n, k, hid, hn, hc, hk, hjudge⟩ := ht.handed_of_answered he
    exact ⟨c, f, n, k, hid, hn, hc, hk, (ht.isDecidedAt hquiet hc).transaction,
      Call.judge_eq_iff.1 hjudge⟩
  case decided => exact fun hc => ⟨_, ht.isDecidedAt hquiet hc⟩
  case prompt =>
    intro c bytes fs fs' f hc hopen hitems hfs hf
    have htold := ((Tells.of_trace ht).waits hquiet hc).send hopen hitems hfs hf
    rw [ht.policy] at htold
    exact ⟨_, Call.judgement_judge policy c f, htold⟩
  case once => exact ht.ends_once
  case told => exact ht.told.1
  case told_answers => exact ht.told.2

/-- Two calls are answered in the wrong order. The frame for the second one is of another unit, and
its PDU cannot be read either; the first one is told an exception. -/
example :
    let foreign : Frame := ⟨⟨1, 2⟩, [0x83]⟩
    let exception : Frame := ⟨⟨0, 1⟩, [0x83, 2]⟩
    let hs : List Happening := [.start 0 1 (.readHoldingRegisters 0 1) none,
      .start 1 1 (.readHoldingRegisters 0 1) none, .send (foreign.bytes ++ exception.bytes)]
    ((attach .reject 64).run hs).told =
      [(1, .error (.protocol (.unitMismatch 1 2))), (0, .ok (.error .illegalDataAddress))] := by
  cbv

end Master

end Modbus
