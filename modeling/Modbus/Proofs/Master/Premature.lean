import Modbus.Proofs.Master.Answers
import Modbus.Proofs.Master.Remainder

/-!
# Frames that come before the request

The table of transaction ids knows an id from the moment it is handed out, and the request may wait
for its turn to be written for a long time after that. A frame with the id that comes in between is
taken for the response: the table does not ask whether the ticket has been marked as sent
(`Desk.GivesUnsent`), and the call keeps the frame until it has written its request and returns what
the frame says (`Master.ReturnsUnwritten`).

So tickets and calls are given only what comes behind their requests if and only if the peer sends
no frame with the id of a request that has not been sent (`Master.run_returns_unwritten`).
-/

namespace Modbus

namespace Desk

variable {actions : List DeskAction} {k n : Nat} {serial : Serial} {f : Frame}

/-- At a position of a run, a frame is received with the id of a ticket that waits for a response
and has not been marked as sent. -/
structure ComesUnsent (actions : List DeskAction) (k : Nat) (serial : Serial) (f : Frame) :
    Prop where
  received : actions[k]? = some (.resolve f)
  live : IsLive actions k serial f.header.transaction
  waiting : ¬ IsReplied actions k serial
  unsent : ¬ ∃ j < k, MarksAt actions j serial

/-- A frame is a reply for the ticket that waits with its id. -/
theorem repliesAt_ok_iff : RepliesAt actions k serial (.ok f) ↔
    actions[k]? = some (.resolve f) ∧ IsLive actions k serial f.header.transaction ∧
      ¬ IsReplied actions k serial := by
  constructor
  · intro h
    cases h with
    | answer ha hs => exact ⟨ha, pending_iff.1 (Table.resolve_snd_eq_some.1 hs)⟩
  · rintro ⟨ha, hp⟩
    exact .answer ha (Table.resolve_snd_eq_some.2 (pending_iff.2 hp))

/-- What is received with the id of a ticket is on the ticket right after it. -/
theorem RepliesAt.ready (h : RepliesAt actions k serial (.ok f)) :
    (after actions (k + 1)).outlook? serial = some (.ready (.ok f)) := by
  cases h with
  | answer ha hs =>
    rw [after_succ ha, act]
    exact (agrees actions k).ready_resolve (Table.resolve_snd_eq_some.1 hs)

/-- What tickets are given in a run. -/
structure GivesUnsent (actions : List DeskAction) : Prop where
  /-- Whoever finds a frame on a ticket has been given it when it came. Before that the ticket has
  been marked, or the frame came for a ticket without a mark. -/
  given : ∀ {n : Nat} {serial : Serial} {f : Frame},
    (after actions n).outlook? serial = some (.ready (.ok f)) →
      ∃ k < n, RepliesAt actions k serial (.ok f) ∧
        ((∃ j < k, MarksAt actions j serial) ∨ ComesUnsent actions k serial f)
  /-- A frame that comes for such a ticket stays on it as long as the ticket is held, also when it
  has been marked in the meantime. -/
  kept : ∀ {k n : Nat} {serial : Serial} {f : Frame}, ComesUnsent actions k serial f → k < n →
    IsLive actions n serial f.header.transaction →
      (after actions n).outlook? serial = some (.ready (.ok f))
  /-- So tickets give only frames that came after the mark if and only if no frame comes for a
  ticket without one. -/
  behind_marks_iff :
    (∀ n serial f, (after actions n).outlook? serial = some (.ready (.ok f)) →
      ∀ k, RepliesAt actions k serial (.ok f) → ∃ j < k, MarksAt actions j serial) ↔
    ∀ k serial f, ¬ ComesUnsent actions k serial f

theorem givesUnsent (actions : List DeskAction) : GivesUnsent actions := by
  have hreply {k : Nat} {serial : Serial} {f : Frame} (h : ComesUnsent actions k serial f) :
      RepliesAt actions k serial (.ok f) :=
    repliesAt_ok_iff.2 ⟨h.received, h.live, h.waiting⟩
  have hcomes {k : Nat} {serial : Serial} {f : Frame} (h : RepliesAt actions k serial (.ok f)) :
      (∃ j < k, MarksAt actions j serial) ∨ ComesUnsent actions k serial f := by
    obtain ⟨ha, hlive, hwaiting⟩ := repliesAt_ok_iff.1 h
    exact Classical.or_iff_not_imp_left.2 fun hunsent => ⟨ha, hlive, hwaiting, hunsent⟩
  constructor
  case given =>
    intro n serial f hready
    obtain ⟨-, k, hk, h⟩ := outlook?_ready_iff.1 hready
    exact ⟨k, hk, h, hcomes h⟩
  case kept =>
    intro k n serial f h hk hlive
    exact outlook?_ready_iff.2 ⟨⟨_, hlive⟩, k, hk, hreply h⟩
  case behind_marks_iff =>
    constructor
    · intro hbehind k serial f h
      exact h.unsent (hbehind (k + 1) serial f (hreply h).ready k (hreply h))
    · intro hnone n serial f _ k h
      exact (hcomes h).resolve_right (hnone k serial f)

end Desk

/-- At a position of a trace, a frame is handed to a call whose own frame has not been appended to
the buffer. -/
structure HandedUnwritten (ds : List Deed) (n : Nat) (c : Call) (f : Frame) : Prop extends
    HandedAt ds n c f where
  unwritten : .write c ∉ ds.take n

namespace Master

variable {policy : UnitPolicy} {capacity : Nat} {ds : List Deed} {o : Outcome} {c : Call}
  {f : Frame} {k n : Nat}

/-- An error is found on a ticket only after the table has been closed. -/
theorem Tells.closed_of_error (h : Tells ds o) {serial : Serial} {e : Error}
    (hready : o.master.desk.outlook? serial = some (.ready (.error e))) :
    ∃ reason, .close reason ∈ ds := by
  rw [h.desk, ← Desk.after_length] at hready
  obtain ⟨-, j, -, hreply⟩ := Desk.outlook?_ready_iff.1 hready
  cases hreply with
  | @refuse reason ha _ =>
    obtain ⟨d, hd, hclose⟩ := List.mem_filterMap.1 (List.mem_of_getElem? ha)
    cases d <;> cases hclose
    exact ⟨reason, hd⟩

/-- A frame is handed to the call in progress whose transaction id it has, if it is the first one
and the table has not been closed. -/
theorem Trace.handed_of_passed (h : Trace (attach policy capacity) ds o)
    (hpassed : ds[n]? = some (.pass f)) (hid : f.header.transaction = c.transaction)
    (hstarted : .start c ∈ ds.take n) (hongoing : ∀ ending, .finish c ending ∉ ds.take n)
    (hfirst : ∀ j < n, ∀ f', ¬ HandedAt ds j c f') (hopen : ∀ reason, .close reason ∉ ds.take n) :
    HandedAt ds n c f := by
  obtain ⟨o₁, _, _, h₁, hdesk, -⟩ := h.tells_at hpassed
  have hunanswered : UnansweredAt ds n c := by
    refine ⟨hstarted, hongoing, fun reply hready => ?_⟩
    rw [← hdesk] at hready
    cases reply with
    | error e =>
      obtain ⟨reason, hclose⟩ := h₁.closed_of_error hready
      exact hopen reason hclose
    | ok f' =>
      have hc := (h₁.mem_calls_or_finished hstarted).resolve_right
        fun ⟨ending, hf⟩ => hongoing ending hf
      obtain ⟨j, hj⟩ := h₁.handed hc hready
      exact hfirst j hj.of_take.1 f' hj.of_take.2
  refine ⟨hpassed, hstarted, ?_⟩
  rw [hid, ← hdesk]
  exact hunanswered.waiting h₁ hdesk

/-- A call that takes its delivery has been written before. -/
theorem Trace.written_of_taken {delivery : Delivery} (h : Trace (attach policy capacity) ds o)
    (hk : ds[k]? = some (.finish c (.taken delivery))) : .write c ∈ ds.take k := by
  obtain ⟨o₁, o₂, o₃, h₁, hchange, -, -⟩ := h.cut hk
  have hawaiting : c ∈ o₁.master.awaiting := by
    cases hchange with
    | progress hp =>
      cases hp with
      | answer ha _ => simp [ha]
  obtain ⟨before, behind, hwritten, -⟩ := (KeepsTurns.trace h₁).passed c (.inl hawaiting)
  rw [← (Tells.of_trace h₁).mem_written, hwritten]
  simp

/-- A call that has been handed a frame takes no other delivery, and takes it later. -/
theorem Trace.taken_of_handed {delivery : Delivery} (h : Trace (attach policy capacity) ds o)
    (hquiet : o.master.IsQuiet) (hc : HandedAt ds n c f)
    (hk : ds[k]? = some (.finish c (.taken delivery))) :
    n < k ∧ delivery = .ok f ∧ .finished c.id (c.judge policy f) ∈ o.events := by
  rcases (h.isDecidedAt hquiet hc).outcome with ⟨isWritten, hqueue⟩ | ⟨ending, hlater, htaken⟩
  · have hmem : c ∈ o.master.calls :=
      List.mem_append_left _ (List.mem_filterMap.2 ⟨.call c isWritten, hqueue, rfl⟩)
    exact absurd hmem ((Tells.of_trace h).not_mem_of_finished (List.mem_of_getElem? hk))
  · obtain ⟨i, hi⟩ := List.mem_iff_getElem?.1 hlater
    rw [List.getElem?_drop] at hi
    obtain rfl := h.ends_once hk hi
    rw [hk] at hi
    cases hi
    exact ⟨Nat.lt_of_lt_of_le (Nat.lt_succ_self n) (Nat.le_add_right _ i), htaken delivery rfl⟩

/-- What calls return in the course of a run. -/
structure ReturnsUnwritten (policy : UnitPolicy) (ds : List Deed) (o : Outcome) : Prop where
  /-- Whatever frame comes first with the transaction id of a call in progress is handed to the
  call, also if the call has not been written. -/
  handed : ∀ {c : Call} {f : Frame} {n : Nat}, ds[n]? = some (.pass f) →
    f.header.transaction = c.transaction → .start c ∈ ds.take n →
      (∀ ending, .finish c ending ∉ ds.take n) → (∀ j < n, ∀ f', ¬ HandedAt ds j c f') →
        (∀ reason, .close reason ∉ ds.take n) → .write c ∉ ds.take n → HandedUnwritten ds n c f
  /-- A caller who is told an answer has a call that has been written and has taken a frame that it
  had been handed. Before that the call had been written, or the frame was handed to a call that was
  not. -/
  answered : ∀ {id : CallId} {answer : Answer}, .finished id (.ok answer) ∈ o.events →
    ∃ c f n k, c.id = id ∧ n < k ∧ HandedAt ds n c f ∧ .write c ∈ ds.take k ∧
      ds[k]? = some (.finish c (.taken (.ok f))) ∧ c.Judgement policy f (.ok answer) ∧
        (.write c ∈ ds.take n ∨ HandedUnwritten ds n c f)
  /-- A call that has been handed a frame before it is written keeps it. If it comes to take its
  delivery, it has been written in between, and its caller is told what the frame says. -/
  kept : ∀ {c : Call} {f : Frame} {n k : Nat} {delivery : Delivery}, HandedUnwritten ds n c f →
    ds[k]? = some (.finish c (.taken delivery)) →
      delivery = .ok f ∧ .write c ∈ (ds.take k).drop n ∧
        .finished c.id (c.judge policy f) ∈ o.events
  /-- So calls return only what came behind their requests if and only if those that are handed
  something before end in other ways. -/
  behind_requests_iff :
    (∀ c f n, HandedAt ds n c f → .finish c (.taken (.ok f)) ∈ ds → .write c ∈ ds.take n) ↔
    ∀ c f n, HandedUnwritten ds n c f → ∀ delivery, .finish c (.taken delivery) ∉ ds

theorem Trace.returnsUnwritten (h : Trace (attach policy capacity) ds o)
    (hquiet : o.master.IsQuiet) : ReturnsUnwritten policy ds o := by
  have hkept {c : Call} {f : Frame} {n k : Nat} {delivery : Delivery}
      (hc : HandedUnwritten ds n c f) (hk : ds[k]? = some (.finish c (.taken delivery))) :
      delivery = .ok f ∧ .write c ∈ (ds.take k).drop n ∧
        .finished c.id (c.judge policy f) ∈ o.events := by
    obtain ⟨hnk, hdelivery, htold⟩ := h.taken_of_handed hquiet hc.toHandedAt hk
    have hwritten := h.written_of_taken hk
    rw [take_eq_append ds (Nat.le_of_lt hnk)] at hwritten
    exact ⟨hdelivery, (List.mem_append.1 hwritten).resolve_left hc.unwritten, htold⟩
  constructor
  case handed =>
    intro c f n hpassed hid hstarted hongoing hfirst hopen hunwritten
    exact ⟨h.handed_of_passed hpassed hid hstarted hongoing hfirst hopen, hunwritten⟩
  case answered =>
    intro id answer he
    obtain ⟨c, f, n, k, hid, hn, hc, hk, hjudge⟩ := h.handed_of_answered he
    refine ⟨c, f, n, k, hid, hn, hc, h.written_of_taken hk, hk, Call.judge_eq_iff.1 hjudge, ?_⟩
    exact Classical.or_iff_not_imp_left.2 fun hunwritten => ⟨hc, hunwritten⟩
  case kept => exact hkept
  case behind_requests_iff =>
    constructor
    · intro hbehind c f n hc delivery hd
      obtain ⟨k, hk⟩ := List.mem_iff_getElem?.1 hd
      obtain ⟨rfl, -⟩ := hkept hc hk
      exact hc.unwritten (hbehind c f n hc.toHandedAt hd)
    · intro hnone c f n hc hd
      exact Classical.byContradiction fun hunwritten => hnone c f n ⟨hc, hunwritten⟩ (.ok f) hd

/-- **A frame may come before the request that it is taken to answer**, in every run of a desk and
of a master, and whatever the peer sends. Tickets and calls give only what came behind the mark or
the request if and only if nothing comes before it with their ids, or nothing is made of it. -/
theorem run_returns_unwritten (actions : List DeskAction) (policy : UnitPolicy) (capacity : Nat)
    (hs : List Happening) :
    Desk.GivesUnsent actions ∧
      let m := attach policy capacity
      let o := m.run hs
      ∃ ds, Trace m ds o ∧ ds.filter Deed.isInput = m.inputs hs ∧
        ds.filterMap Deed.started? = m.started hs ∧ ReturnsUnwritten policy ds o := by
  refine ⟨Desk.givesUnsent actions, ?_⟩
  intro m o
  obtain ⟨ds, ht, hinputs, hstarted⟩ := m.exists_trace hs
  have hquiet : o.master.IsQuiet := isQuiet_run (m := m) nofun hs
  exact ⟨ds, ht, hinputs, hstarted, ht.returnsUnwritten hquiet⟩

/-- A ticket gives a frame that came before it was marked. And of two calls, the second one has to
wait, because the transport accepts only a part of the frame of the first one. The peer sends a
frame with the id of the second one before this has been written, and when it has had its turn, it
is told what this frame says. -/
theorem answered_before_written :
    let first : Frame := ⟨⟨0, 1⟩, [3, 2, 0, 42]⟩
    let second : Frame := ⟨⟨1, 1⟩, [3, 2, 0, 42]⟩
    let d := Desk.run {} [.allocate, .resolve first]
    let hs : List Happening := [.start 0 1 (.readHoldingRegisters 0 1) none,
      .start 1 1 (.readHoldingRegisters 0 1) none, .send second.bytes]
    let o := (attach .warn 8).run hs
    let o' := o.andThen fun m => m.step (.receive none)
    (d.outlook? 0).bind Desk.Outlook.delivery? = some (.ok first) ∧
      o.written.map (·.id) = [0] ∧ o.told = [] ∧ o'.written.map (·.id) = [0, 1] ∧
      o'.told = [(1, .ok (.ok (.readHoldingRegisters [42])))] := by
  refine ⟨?_, ?_, ?_, ?_, ?_⟩ <;> cbv

end Master

end Modbus
