import Modbus.Master.Basic
import Modbus.Proofs.Frame.Split
import Modbus.Proofs.Pdu.RoundTrip
import Modbus.Proofs.Slave.Execution

/-!
# What is to be said on a connection

Requests that are started one after another without a deadline make calls with ascending numbers,
and a service that executes them in this order gives each of them an answer. A `Deal` is such a call
with its answer, and the deals of a connection are its agenda (`Deal.agenda`). When the answer of a
deal comes back in its frame, the caller is told just this answer (`Deal.IsSound.verdict`).
-/

namespace Modbus

/-! ## Answers and their replies -/

namespace Answer

/-- The reply to a request says its answer. -/
theorem answer_reply (a : Answer) (function : FunctionCode) : (a.reply function).answer = a := by
  cases a <;> rfl

namespace Suits

variable {a : Answer} {function : FunctionCode}

/-- The reply with an answer that suits a function is one for this function. -/
theorem function_reply (h : a.Suits function) : (a.reply function).function = function := by
  cases a with
  | ok r => exact h.1
  | error e => rfl

/-- It fits into a PDU. -/
theorem length_reply (h : a.Suits function) :
    0 < (a.reply function).bytes.length ∧ (a.reply function).bytes.length ≤ Pdu.maxSize := by
  cases a with
  | ok r =>
    have hlength : (reply function (.ok r)).bytes.length = r.size := r.length_bytes
    rw [hlength]
    refine ⟨?_, h.2⟩
    rw [← r.length_bytes]
    simp [Response.bytes]
  | error e =>
    have hlength : (reply function (.error e)).bytes.length = 2 := rfl
    rw [hlength]
    decide

/-- An answer that suits a request for an ordinary function is read back from its reply. -/
theorem decode_reply (h : a.Suits function) (hf : function.IsOrdinary) :
    Reply.decode (a.reply function).bytes = .ok (a.reply function) := by
  refine Reply.decode_bytes (by rwa [h.function_reply]) ?_ ?_
  · intro response hr
    cases a with
    | ok r =>
      cases hr
      exact h.2
    | error e => cases hr
  · intro exception he
    cases a with
    | ok r => cases he
    | error e =>
      cases he
      exact h

end Suits

end Answer

/-! ## Deals -/

/-- A request, its number in the order of the starts, and the answer it is to get. -/
structure Deal where
  number : Nat
  unit : UnitId
  request : Request
  answer : Answer

namespace Deal

variable (d : Deal)

/-- The call that carries out the request. -/
def call : Call where
  id := d.number
  unit := d.unit
  request := d.request
  timeout := none
  deadline := none
  serial := d.number
  transaction := UInt16.ofNat d.number

/-- The frame of the answer. -/
def response : Frame := d.call.message.responseFrame d.answer

/-- What the caller is to be told. -/
def result : CallId × CallResult := (d.number, .ok d.answer)

/-- Whether the request and the answer can be told to one another's side. -/
structure IsSound : Prop where
  function : d.request.function.IsOrdinary
  size : d.request.size ≤ Pdu.maxSize
  answer : d.answer.Suits d.request.function

variable {d}

/-- The frame of a sound call can be sent. -/
theorem IsSound.sendable_call (h : d.IsSound) : d.call.frame.IsSendable where
  pos := by
    show 0 < d.request.bytes.length
    simp [Request.bytes]
  le := by
    show d.request.bytes.length ≤ _
    rw [Request.length_bytes]
    exact h.size

/-- So can the frame of its answer. -/
theorem IsSound.sendable_response (h : d.IsSound) : d.response.IsSendable :=
  ⟨h.answer.length_reply.1, h.answer.length_reply.2⟩

/-- The slave reads the message of the call from its frame. -/
theorem IsSound.decode_call (h : d.IsSound) : Request.decode d.call.frame.pdu = .ok d.request :=
  Request.decode_bytes h.function h.size

/-- The caller is told the answer when its frame comes back. -/
theorem IsSound.verdict (h : d.IsSound) (policy : UnitPolicy) :
    d.call.verdict policy (.ok d.response) = .ok d.answer := by
  have hdecode : Reply.decode d.response.pdu = .ok (d.answer.reply d.request.function) :=
    h.answer.decode_reply h.function
  have hunit : d.response.header.unit = d.call.unit := rfl
  show d.call.judge policy d.response = _
  rw [Call.judge, if_neg (by simp [hunit]), hdecode]
  simp only [Reply.checked, call, h.answer.function_reply, Answer.answer_reply, if_true]

/-! ## The agenda of a connection -/

variable {σ : Type} (service : Service σ)

/-- The deals for requests that are executed one after another, numbered from a number on. -/
def agendaFrom (number : Nat) (state : σ) : List (UnitId × Request) → List Deal
  | [] => []
  | (unit, request) :: rest =>
    let (answer, state) := service state unit request
    ⟨number, unit, request, answer⟩ :: agendaFrom (number + 1) state rest

/-- The deals for requests that are executed one after another. -/
def agenda (state : σ) (requests : List (UnitId × Request)) : List Deal :=
  agendaFrom service 0 state requests

/-- The unit and the request of a deal. -/
def order (d : Deal) : UnitId × Request := (d.unit, d.request)

/-- An agenda has a deal for each request, in order. -/
theorem map_order_agendaFrom (number : Nat) (state : σ) (requests : List (UnitId × Request)) :
    (agendaFrom service number state requests).map order = requests := by
  induction requests generalizing number state with
  | nil => rfl
  | cons r rest ih => simp only [agendaFrom, List.map_cons, ih, order]

/-- The answers of the first deals of an agenda are those of direct execution. -/
theorem executeAll_of_append {number : Nat} {state : σ} {requests : List (UnitId × Request)}
    {first : List Deal} (h : first <+: agendaFrom service number state requests) :
    (service.executeAll state (first.map order)).1 = first.map (·.answer) := by
  induction requests generalizing number state first with
  | nil =>
    rw [List.prefix_nil.1 h]
    rfl
  | cons r rest ih =>
    cases first with
    | nil => rfl
    | cons d first =>
      obtain ⟨rfl, hrest⟩ := List.cons_prefix_cons.1 h
      simp only [List.map_cons, order, Service.executeAll]
      rw [ih hrest]

/-- The answers of any deals of an agenda are those of direct execution behind the deals before
them. -/
theorem executeAll_of_middle {number : Nat} {state : σ} {requests : List (UnitId × Request)}
    {before first : List Deal} (h : before ++ first <+: agendaFrom service number state requests) :
    (service.executeAll (service.executeAll state (before.map order)).2 (first.map order)).1 =
      first.map (·.answer) := by
  have hwhole := executeAll_of_append service h
  have hbefore := executeAll_of_append service ((List.prefix_append before first).trans h)
  rw [List.map_append, Service.executeAll_append, List.map_append] at hwhole
  dsimp only at hwhole
  rw [hbefore] at hwhole
  exact List.append_cancel_left hwhole

/-- Its deals are numbered one after another. -/
theorem number_agendaFrom {number i : Nat} {state : σ} {requests : List (UnitId × Request)}
    {d : Deal} (h : (agendaFrom service number state requests)[i]? = some d) :
    d.number = number + i := by
  induction requests generalizing number state i with
  | nil => simp [agendaFrom] at h
  | cons r rest ih =>
    cases i with
    | zero =>
      simp only [agendaFrom, List.getElem?_cons_zero] at h
      cases h
      rfl
    | succ i =>
      simp only [agendaFrom, List.getElem?_cons_succ] at h
      rw [ih h]
      omega

/-- The deals of an agenda are sound if the requests can be sent and the answers suit them. -/
theorem isSound_agendaFrom (hsound : service.IsSound) {number : Nat} {state : σ}
    {requests : List (UnitId × Request)}
    (hrequests : ∀ r ∈ requests, r.2.function.IsOrdinary ∧ r.2.size ≤ Pdu.maxSize) {d : Deal}
    (h : d ∈ agendaFrom service number state requests) : d.IsSound := by
  induction requests generalizing number state with
  | nil => cases h
  | cons r rest ih =>
    rcases List.mem_cons.1 h with rfl | h
    · obtain ⟨hfunction, hsize⟩ := hrequests r List.mem_cons_self
      exact ⟨hfunction, hsize, hsound state r.1 r.2⟩
    · exact ih (fun r hr => hrequests r (List.mem_cons_of_mem _ hr)) h

/-- Deals are in order if their numbers are their positions, all of them are sound, and each of them
can have a transaction id of its own. -/
structure InOrder (deals : List Deal) : Prop where
  length_le : deals.length ≤ Table.capacity
  number : ∀ {i : Nat} {d : Deal}, deals[i]? = some d → d.number = i
  sound : ∀ d ∈ deals, d.IsSound

/-- An agenda for requests that can be sent, not more than there are ids, is in order. -/
theorem inOrder_agenda (hsound : service.IsSound) (state : σ) {requests : List (UnitId × Request)}
    (hlength : requests.length ≤ Table.capacity)
    (hrequests : ∀ r ∈ requests, r.2.function.IsOrdinary ∧ r.2.size ≤ Pdu.maxSize) :
    InOrder (agenda service state requests) where
  length_le := by
    have := congrArg List.length (map_order_agendaFrom service 0 state requests)
    rw [List.length_map] at this
    rwa [agenda, this]
  number h := by
    have := number_agendaFrom service h
    rwa [Nat.zero_add] at this
  sound d hd := isSound_agendaFrom service hsound hrequests hd

namespace InOrder

variable {deals deals' : List Deal} {d d' : Deal}

/-- The first deals of an agenda in order are in order. -/
theorem of_initial (h : InOrder deals) (hp : deals' <+: deals) : InOrder deals' where
  length_le := Nat.le_trans hp.length_le h.length_le
  number hd := by
    obtain ⟨rest, rfl⟩ := hp
    exact h.number (List.getElem?_append_left (List.getElem?_eq_some_iff.1 hd).1 ▸ hd)
  sound d hd := h.sound d (hp.subset hd)

/-- A deal is found under its number. -/
theorem getElem?_number (h : InOrder deals) (hd : d ∈ deals) : deals[d.number]? = some d := by
  obtain ⟨i, hi⟩ := List.mem_iff_getElem?.1 hd
  rwa [h.number hi]

/-- Its number is less than that of all deals. -/
theorem number_lt (h : InOrder deals) (hd : d ∈ deals) : d.number < deals.length :=
  (List.getElem?_eq_some_iff.1 (h.getElem?_number hd)).1

/-- The number tells deals apart. -/
theorem eq_of_number (h : InOrder deals) (hd : d ∈ deals) (hd' : d' ∈ deals)
    (hn : d.number = d'.number) : d = d' := by
  have := h.getElem?_number hd
  rw [hn, h.getElem?_number hd'] at this
  exact (Option.some.inj this).symm

/-- No deal comes twice. -/
theorem nodup (h : InOrder deals) : deals.Nodup := by
  rw [List.Nodup, List.pairwise_iff_getElem]
  intro i j hi hj hij heq
  have hni := h.number (List.getElem?_eq_getElem hi)
  have hnj := h.number (List.getElem?_eq_getElem hj)
  rw [heq, hnj] at hni
  exact Nat.ne_of_lt hij hni.symm

end InOrder

end Deal

end Modbus
