import Modbus.Proofs.Frame.Drain
import Modbus.Proofs.Link.Ledger

/-!
# A master and a slave

A link is a connection between a master and a slave that serves it with a service. Requests are
started on it one after another, and bytes move in both directions in chunks of any size; the
transport may also stall in between. What happens next is told by a list of moves (`Link.Move`), and
every interleaving of starts and chunks is such a list.

`Link.Holds` is the invariant of all runs. It says what is on the way: behind what the slave has
served, the frames of the written calls follow, and behind what the master has heard, the frames of
the answers.
-/

namespace Modbus

/-- A master, the slave at the other end of its connection, and what is on the way to the master. -/
structure Link (σ : Type) where
  /-- The master, and what has become of it so far. -/
  course : Outcome
  /-- The connection, as the slave sees it. -/
  connection : Connection := {}
  /-- The state of the service of the slave. -/
  state : σ
  /-- The bytes that the slave has sent and the master has not received. -/
  returning : Bytes := []
  /-- The requests that have not been started. -/
  waiting : List (UnitId × Request)
  /-- The name of the next call. -/
  nextCall : CallId := 0

namespace Link

/-- What can happen on a link. -/
inductive Move where
  /-- The next request is started, without a deadline. -/
  | start
  /-- The slave receives bytes, at most a number of them. -/
  | forward (most : Nat)
  /-- The master receives bytes, at most a number of them. -/
  | back (most : Nat)
  /-- The transport can be written to again, but accepts only some bytes at the next attempts. -/
  | stall (stalls : List Nat)

variable {σ : Type}

/-- A new link, with requests to start. -/
def attach (policy : UnitPolicy) (capacity : Nat) (state : σ)
    (requests : List (UnitId × Request)) : Link σ where
  course := ⟨.attach policy capacity, [], []⟩
  state
  waiting := requests

/-- The link after a move. -/
def step (service : Service σ) (l : Link σ) : Move → Link σ
  | .start =>
    match l.waiting with
    | [] => l
    | (unit, request) :: waiting =>
      { l with
        course := l.course.andThen fun m => m.step (.start l.nextCall unit request none)
        waiting
        nextCall := l.nextCall + 1 }
  | .forward most =>
    let arrived := l.course.master.step (.receive (some most))
    let served := l.connection.receive service l.state arrived.received
    { l with
      course := l.course.andThen fun _ => arrived
      connection := served.connection
      state := served.state
      returning := l.returning ++ served.sent }
  | .back most =>
    { l with
      course := l.course.andThen fun m => m.step (.send (l.returning.take most))
      returning := l.returning.drop most }
  | .stall stalls =>
    { l with course := l.course.andThen fun m => m.step (.wake (stalls.map .stall)) }

/-- The link after moves. -/
def run (service : Service σ) (l : Link σ) (moves : List Move) : Link σ :=
  moves.foldl (step service) l

/-- Everything has been started and nothing is on the way. -/
structure IsSettled (l : Link σ) : Prop where
  waiting : l.waiting = []
  queue : l.course.master.queue = []
  outlet : l.course.master.outlet.carried = []
  returning : l.returning = []

/-! ## The invariant -/

/-- The frames of answers, one after another. -/
def responses (deals : List Deal) : Bytes := deals.flatMap (·.response.bytes)

variable {service : Service σ} {initial : σ} {deals : List Deal}

/-- The state of a link by a ledger of the master and the number of requests that have been
served. -/
structure Holds (service : Service σ) (initial : σ) (deals : List Deal) (ℓ : Ledger)
    (served : Nat) (l : Link σ) : Prop where
  ledger : ℓ.Describes l.course
  quiet : l.course.master.IsQuiet
  started : ℓ.started = deals.take l.nextCall
  waiting : l.waiting = (deals.drop l.nextCall).map Deal.order
  /-- Only what has been sent is served, and only what has been served is answered. -/
  bounds : ℓ.heard ≤ served ∧ served ≤ ℓ.sent.length
  ended : l.connection.ended = none
  state : l.state = (service.executeAll initial ((deals.take served).map Deal.order)).2
  /-- The slave has received the frames that it has served, and its buffer. -/
  forth : l.course.received = Ledger.frames (deals.take served) ++ l.connection.buffer
  forthRest : Decoder.requests.next l.connection.buffer = .incomplete
  /-- What the master has not heard is in its buffer and on the way to it. -/
  back : ℓ.inbox ++ l.returning = responses ((deals.take served).drop ℓ.heard)
  backRest : Decoder.frames.next ℓ.inbox = .incomplete

namespace Holds

variable {ℓ : Ledger} {served : Nat} {l : Link σ}

/-- On a new link nothing has happened. -/
theorem attach (policy : UnitPolicy) (capacity : Nat) (requests : List (UnitId × Request)) :
    Holds service initial (Deal.agenda service initial requests) {} 0
      (Link.attach policy capacity initial requests) where
  ledger := .attach policy capacity
  quiet := nofun
  started := rfl
  waiting := (Deal.map_order_agendaFrom service 0 initial requests).symm
  bounds := ⟨Nat.le_refl 0, Nat.le_refl 0⟩
  ended := rfl
  state := rfl
  forth := rfl
  forthRest := rfl
  back := rfl
  backRest := rfl

/-- What has been started are the first deals. -/
theorem started_le (h : Holds service initial deals ℓ served l) : ℓ.started <+: deals :=
  ⟨deals.drop l.nextCall, by rw [h.started, List.take_append_drop]⟩

/-- What has been sent are the first deals. -/
theorem sent_le (h : Holds service initial deals ℓ served l) : ℓ.sent <+: deals :=
  (List.prefix_append _ _).trans h.started_le

/-- What has been served are the first deals that have been sent. -/
theorem take_of_le {sent : List Deal} (hsub : sent <+: deals) (hbound : served ≤ sent.length) :
    sent.take served = deals.take served := by
  obtain ⟨rest, rfl⟩ := hsub
  exact (List.take_append_of_le_length hbound).symm

/-- A move of the transport alone. -/
theorem follow (h : Holds service initial deals ℓ served l) {ℓ' : Ledger} {o : Outcome}
    (hfollows : ℓ'.Follows ℓ) (hledger : ℓ'.Describes (l.course.andThen fun _ => o))
    (hquiet : o.master.IsQuiet) (hreceived : o.received = []) :
    Holds service initial deals ℓ' served
      { l with course := l.course.andThen fun _ => o } where
  ledger := hledger
  quiet := hquiet
  started := hfollows.started.trans h.started
  waiting := h.waiting
  bounds := ⟨hfollows.heard ▸ h.bounds.1, Nat.le_trans h.bounds.2 hfollows.sent.length_le⟩
  ended := h.ended
  state := h.state
  forth := by rw [Outcome.received_andThen, hreceived, List.append_nil, h.forth]
  forthRest := h.forthRest
  back := by rw [hfollows.inbox, hfollows.heard, h.back]
  backRest := hfollows.inbox ▸ h.backRest

/-- The transport stalls. -/
theorem step_stall (h : Holds service initial deals ℓ served l) (stalls : List Nat) :
    ∃ ℓ', Holds service initial deals ℓ' served (l.step service (.stall stalls)) := by
  obtain ⟨ℓ', hfollows, hledger⟩ := h.ledger.wake stalls
  have hquiet := Master.isQuiet_giveTurns (Master.isQuiet_withOutlet h.quiet
    { l.course.master.outlet with treatments := stalls.map .stall }) l.course.master.queue
  exact ⟨ℓ', h.follow hfollows hledger hquiet (Master.proceeds_proceed _).received⟩

/-- The next request is started. -/
theorem step_start (ho : Deal.InOrder deals) (h : Holds service initial deals ℓ served l) :
    ∃ ℓ', Holds service initial deals ℓ' served (l.step service .start) := by
  cases hd : deals[l.nextCall]? with
  | none =>
    have hwaiting : l.waiting = [] := by
      rw [h.waiting, List.drop_eq_nil_of_le (List.getElem?_eq_none_iff.1 hd)]
      rfl
    exact ⟨ℓ, by simpa [step, hwaiting] using h⟩
  | some x =>
    obtain ⟨hlt, hx⟩ := List.getElem?_eq_some_iff.1 hd
    have hdrop : deals.drop l.nextCall = x :: deals.drop (l.nextCall + 1) := by
      rw [List.drop_eq_getElem_cons hlt, hx]
    have htake : deals.take (l.nextCall + 1) = ℓ.started ++ [x] := by
      rw [List.take_add_one, hd, h.started]
      rfl
    have hnumber : x.number = l.nextCall := ho.number hd
    have hlength : x.number = ℓ.started.length := by
      rw [h.started, List.length_take, hnumber]
      omega
    have hwaiting : l.waiting =
        (x.unit, x.request) :: (deals.drop (l.nextCall + 1)).map Deal.order := by
      rw [h.waiting, hdrop]
      rfl
    have hinitial : ℓ.started ++ [x] <+: deals :=
      ⟨deals.drop (l.nextCall + 1), by rw [← htake, List.take_append_drop]⟩
    obtain ⟨hreceived, hquiet, ℓ', hfollows, hledger⟩ :=
      h.ledger.start h.quiet hlength (ho.of_initial hinitial)
    rw [hnumber] at hreceived hquiet hledger
    refine ⟨ℓ', ?_⟩
    simp only [step, hwaiting]
    constructor
    case ledger => exact hledger
    case quiet => exact hquiet
    case started =>
      rw [hfollows.started, htake]
      exact (List.append_assoc ..).symm
    case waiting => rfl
    case bounds =>
      exact ⟨hfollows.heard ▸ h.bounds.1, Nat.le_trans h.bounds.2 hfollows.sent.length_le⟩
    case ended => exact h.ended
    case state => exact h.state
    case forth =>
      rw [Outcome.received_andThen, h.forth]
      exact (congrArg _ hreceived).trans (List.append_nil _)
    case forthRest => exact h.forthRest
    case back => rw [hfollows.inbox, hfollows.heard]; exact h.back
    case backRest => rw [hfollows.inbox]; exact h.backRest

/-- The frames of calls give the slave their messages. -/
theorem drain_calls {ds : List Deal} (hds : ∀ d ∈ ds, d.IsSound) {buffer more : Bytes}
    (h : buffer ++ more = Ledger.frames ds) :
    ∃ first later rest, ds = first ++ later ∧
      Decoder.requests.drain buffer = ⟨first.map fun d => d.call.message, none, rest⟩ ∧
      rest ++ more = Ledger.frames later ∧ Decoder.requests.next rest = .incomplete := by
  refine Decoder.drain_of_frames (fun d : Deal => d.call.message)
    (fun d hd => (hds d hd).sendable_call) (fun d hd => ?_) h
  rw [(hds d hd).decode_call]
  rfl

/-- Frames of calls in front of which there is no whole frame are none. -/
theorem eq_nil_of_calls {ds : List Deal} (hds : ∀ d ∈ ds, d.IsSound)
    (h : Decoder.requests.next (Ledger.frames ds) = .incomplete) : ds = [] := by
  refine Decoder.eq_nil_of_incomplete (fun d : Deal => d.call.message)
    (fun d hd => (hds d hd).sendable_call) (fun d hd => ?_) h
  rw [(hds d hd).decode_call]
  rfl

/-- The slave serves requests of an agenda. -/
theorem serve_calls (hsound : service.IsSound) {requests : List (UnitId × Request)}
    {before first : List Deal} (hp : before ++ first <+: Deal.agenda service initial requests)
    {rest : Bytes} :
    let state := (service.executeAll initial (before.map Deal.order)).2
    Connection.serve service state ⟨first.map fun d => d.call.message, none, rest⟩ false =
      ⟨⟨rest, none⟩, (service.executeAll initial ((before ++ first).map Deal.order)).2,
        responses first⟩ := by
  intro state
  have horder : (first.map fun d => d.call.message).map Connection.order =
      first.map Deal.order := by
    rw [List.map_map]
    rfl
  have hanswers := Deal.executeAll_of_middle service hp
  simp only [Connection.serve, Connection.answerAll_eq state hsound, horder, state, hanswers,
    List.map_append, Service.executeAll_append]
  simp [responses, List.zipWith_map, List.flatMap_map, Deal.response]

/-- A slave that has served the first deals of an agenda and receives a part of the frames that
follow serves the deals whose frames are whole. -/
theorem receive_calls (hsound : service.IsSound) {requests : List (UnitId × Request)}
    {before unserved : List Deal} (hds : ∀ d ∈ unserved, d.IsSound)
    (hp : before ++ unserved <+: Deal.agenda service initial requests) {c : Connection}
    (hc : c.ended = none) {arrived more : Bytes}
    (h : c.buffer ++ arrived ++ more = Ledger.frames unserved) :
    ∃ first later rest, unserved = first ++ later ∧
      c.receive service (service.executeAll initial (before.map Deal.order)).2 arrived =
        ⟨⟨rest, none⟩, (service.executeAll initial ((before ++ first).map Deal.order)).2,
          responses first⟩ ∧
      c.buffer ++ arrived = Ledger.frames first ++ rest ∧
      Decoder.requests.next rest = .incomplete := by
  obtain ⟨first, later, rest, rfl, hdrain, hrest, hnext⟩ := drain_calls hds h
  have hfirst : before ++ first <+: Deal.agenda service initial requests := by
    rw [← List.append_assoc] at hp
    exact (List.prefix_append _ later).trans hp
  refine ⟨first, later, rest, rfl, ?_, ?_, hnext⟩
  · rw [Connection.receive, hc, hdrain]
    exact serve_calls hsound hfirst
  · rw [Ledger.frames_append, ← hrest, ← List.append_assoc] at h
    exact List.append_cancel_right h

/-- The slave receives bytes. -/
theorem step_forward (hsound : service.IsSound) {requests : List (UnitId × Request)}
    (hdeals : deals = Deal.agenda service initial requests) (ho : Deal.InOrder deals)
    (h : Holds service initial deals ℓ served l) (most : Nat) :
    ∃ ℓ' served', Holds service initial deals ℓ' served' (l.step service (.forward most)) := by
  obtain ⟨ℓ', hfollows, hledger⟩ := h.ledger.receive most
  have hquiet := Master.isQuiet_receive h.quiet most
  have hbound : served ≤ ℓ'.sent.length := Nat.le_trans h.bounds.2 hfollows.sent.length_le
  have hsub : ℓ'.sent <+: deals :=
    (List.prefix_append _ _).trans (hfollows.started ▸ h.started_le)
  have htake := take_of_le hsub hbound
  have hlength : (deals.take served).length = served := by
    rw [← htake, List.length_take, Nat.min_eq_left hbound]
  have hsent : deals.take served ++ ℓ'.sent.drop served = ℓ'.sent := by
    rw [← htake, List.take_append_drop]
  -- What the slave has and what is on the way to it are the frames that it has not served.
  have hstream : (l.connection.buffer ++ (l.course.master.receive most).received) ++
      (l.course.master.receive most).master.outlet.carried =
        Ledger.frames (ℓ'.sent.drop served) := by
    have hbytes := hledger.bytes
    rw [Outcome.received_andThen, h.forth, ← hsent, Ledger.frames_append, List.append_assoc,
      List.append_assoc] at hbytes
    rw [List.append_assoc]
    exact List.append_cancel_left hbytes
  obtain ⟨first, later, rest, hsplit, hreceive, hfirst, hnext⟩ := receive_calls hsound
    (fun d hd => ho.sound d (hsub.subset (List.drop_subset _ _ hd)))
    (hsent ▸ hdeals ▸ hsub) h.ended hstream
  have htake' : deals.take (served + first.length) = deals.take served ++ first := by
    have hserved : deals.take served ++ first <+: deals := by
      rw [hsplit, ← List.append_assoc] at hsent
      exact (hsent ▸ List.prefix_append _ later).trans hsub
    have := List.prefix_iff_eq_take.1 hserved
    rw [List.length_append, hlength] at this
    exact this.symm
  have hstep : l.step service (.forward most) = { l with
      course := l.course.andThen fun m => m.receive most
      connection := ⟨rest, none⟩
      state := (service.executeAll initial ((deals.take served ++ first).map Deal.order)).2
      returning := l.returning ++ responses first } := by
    rw [← h.state] at hreceive
    simp only [step, Master.step, Option.getD_some, hreceive]
    rfl
  refine ⟨ℓ', served + first.length, ?_⟩
  rw [hstep]
  constructor
  case ledger => exact hledger
  case quiet => exact hquiet
  case started => exact hfollows.started.trans h.started
  case waiting => exact h.waiting
  case bounds =>
    refine ⟨hfollows.heard ▸ Nat.le_add_right_of_le h.bounds.1, ?_⟩
    have := congrArg List.length hsplit
    rw [List.length_drop, List.length_append] at this
    omega
  case ended => rfl
  case state => rw [htake']
  case forth =>
    rw [Outcome.received_andThen, h.forth, htake', List.append_assoc, hfirst,
      Ledger.frames_append, List.append_assoc]
  case forthRest => exact hnext
  case back =>
    rw [hfollows.inbox, hfollows.heard, ← List.append_assoc, h.back, htake',
      List.drop_append_of_le_length (hlength.symm ▸ h.bounds.1)]
    exact List.flatMap_append.symm
  case backRest => exact hfollows.inbox ▸ h.backRest

/-- The frames of answers are what the master reads. -/
theorem drain_responses {ds : List Deal} (hds : ∀ d ∈ ds, d.IsSound) {buffer more : Bytes}
    (h : buffer ++ more = responses ds) :
    ∃ first later rest, ds = first ++ later ∧
      Decoder.frames.drain buffer = ⟨first.map Deal.response, none, rest⟩ ∧
      rest ++ more = responses later ∧ Decoder.frames.next rest = .incomplete :=
  Decoder.drain_of_frames Deal.response (fun d hd => (hds d hd).sendable_response)
    (fun _ _ => rfl) h

/-- Frames of answers in front of which there is no whole frame are none. -/
theorem eq_nil_of_responses {ds : List Deal} (hds : ∀ d ∈ ds, d.IsSound)
    (h : Decoder.frames.next (responses ds) = .incomplete) : ds = [] :=
  Decoder.eq_nil_of_incomplete Deal.response
    (fun d hd => (hds d hd).sendable_response) (fun _ _ => rfl) h

/-- The master receives bytes. -/
theorem step_back (ho : Deal.InOrder deals) (h : Holds service initial deals ℓ served l)
    (most : Nat) :
    ∃ ℓ', Holds service initial deals ℓ' served (l.step service (.back most)) := by
  have htake := take_of_le h.sent_le h.bounds.2
  have hlength : (deals.take served).length = served := by
    rw [← htake, List.length_take, Nat.min_eq_left h.bounds.2]
  have hstream : (ℓ.inbox ++ l.returning.take most) ++ l.returning.drop most =
      responses ((deals.take served).drop ℓ.heard) := by
    rw [List.append_assoc, List.take_append_drop, h.back]
  obtain ⟨first, later, rest, hsplit, hdrain, hrest, hnext⟩ := drain_responses
    (fun d hd => ho.sound d (List.take_subset _ _ (List.drop_subset _ _ hd))) hstream
  have hfirst : first <+: ℓ.sent.drop ℓ.heard := by
    have hserved : (deals.take served).drop ℓ.heard <+: ℓ.sent.drop ℓ.heard := by
      rw [← List.take_append_drop served ℓ.sent, htake,
        List.drop_append_of_le_length (hlength.symm ▸ h.bounds.1)]
      exact List.prefix_append _ _
    rw [hsplit] at hserved
    exact (List.prefix_append first later).trans hserved
  obtain ⟨hreceived, hquiet, ℓ', hfollows, hledger⟩ := h.ledger.send h.quiet hdrain hfirst
  refine ⟨ℓ', ?_⟩
  constructor
  case ledger => exact hledger
  case quiet => exact hquiet
  case started => exact hfollows.started.trans h.started
  case waiting => exact h.waiting
  case bounds =>
    have hheard : ℓ'.heard = ℓ.heard + first.length := hfollows.heard
    have hcount := congrArg List.length hsplit
    rw [List.length_drop, hlength, List.length_append] at hcount
    have := h.bounds.1
    exact ⟨by omega, Nat.le_trans h.bounds.2 hfollows.sent.length_le⟩
  case ended => exact h.ended
  case state => exact h.state
  case forth =>
    rw [step, Outcome.received_andThen, h.forth]
    exact (congrArg _ hreceived).trans (List.append_nil _)
  case forthRest => exact h.forthRest
  case back =>
    have hdrop : (deals.take served).drop (ℓ.heard + first.length) = later := by
      rw [← List.drop_drop, hsplit, List.drop_left]
    rw [hfollows.inbox, hfollows.heard, hdrop]
    exact hrest
  case backRest => rw [hfollows.inbox]; exact hnext

/-- Every run of a link preserves the invariant. -/
theorem run (hsound : service.IsSound) {requests : List (UnitId × Request)}
    (hdeals : deals = Deal.agenda service initial requests) (ho : Deal.InOrder deals)
    (h : Holds service initial deals ℓ served l) (moves : List Move) :
    ∃ ℓ' served', Holds service initial deals ℓ' served' (l.run service moves) := by
  induction moves generalizing l ℓ served with
  | nil => exact ⟨ℓ, served, h⟩
  | cons move moves ih =>
    cases move with
    | start =>
      obtain ⟨ℓ', h'⟩ := h.step_start ho
      exact ih h'
    | forward most =>
      obtain ⟨ℓ', served', h'⟩ := h.step_forward hsound hdeals ho most
      exact ih h'
    | back most =>
      obtain ⟨ℓ', h'⟩ := h.step_back ho most
      exact ih h'
    | stall stalls =>
      obtain ⟨ℓ', h'⟩ := h.step_stall stalls
      exact ih h'

end Holds

end Link

end Modbus
