import Modbus.Proofs.Master.Deeds
import Modbus.Proofs.Master.Quiet

/-!
# What becomes of replies

A call is given its reply at the desk, keeps it until it ends, and if it ends by taking it, its
caller is told what the call makes of it (`Master.Tells.replied`). A reply that is a frame has been
handed to the call (`HandedAt`): when the frame was passed on, the call had been started and had its
transaction id in the table, still pending (`Master.Trace.handed_of_taken`, `Master.Tells.given`).

Callers are told by events. Every call that ends tells its caller, unless it is the caller who gives
it up, and apart from that callers are only told that their calls have been refused
(`Master.Trace.told`).
-/

namespace Modbus

/-- What a caller is told when a call ends. -/
def Ending.result? (policy : UnitPolicy) (c : Call) : Ending → Option CallResult
  | taken delivery => some (c.verdict policy delivery)
  | broken fault => some (.error (.transport fault))
  | expired => some (.error (.timeout (c.timeout.getD 0)))
  | cancelled => none

/-- Which caller is told what by a deed. -/
def Deed.told? (policy : UnitPolicy) : Deed → Option (CallId × CallResult)
  | finish c ending => (ending.result? policy c).map (c.id, ·)
  | _ => none

/-- Which caller is told what by an event. -/
def Event.told? : Event → Option (CallId × CallResult)
  | finished id result => some (id, result)
  | _ => none

namespace Outcome

/-- Which callers have been told what, in this order. -/
def told (o : Outcome) : List (CallId × CallResult) := o.events.filterMap Event.told?

/-- What callers are told later comes behind what they have been told before. -/
@[simp] theorem told_andThen (o : Outcome) (next : Master → Outcome) :
    (o.andThen next).told = o.told ++ (next o.master).told := by
  simp [told]

/-- A caller has been told a result if and only if there is an event of it. -/
theorem mem_told {o : Outcome} {id : CallId} {result : CallResult} :
    (id, result) ∈ o.told ↔ .finished id result ∈ o.events := by
  rw [told, List.mem_filterMap]
  constructor
  · rintro ⟨e, he, h⟩
    cases e <;> cases h
    exact he
  · exact fun he => ⟨_, he, rfl⟩

end Outcome

/-- At a position of a trace, a frame is handed to a call: it is passed on, and the table says that
it is the call that waits for a response with this id. -/
structure HandedAt (ds : List Deed) (n : Nat) (c : Call) (f : Frame) : Prop where
  passed : ds[n]? = some (.pass f)
  started : .start c ∈ ds.take n
  pending : (deskAt ds n).table.entries[f.header.transaction]? = some (.pending c.serial)

namespace HandedAt

variable {ds : List Deed} {n k : Nat} {c : Call} {f : Frame}

/-- What has been handed stays handed when there are more deeds. -/
theorem of_take (h : HandedAt (ds.take k) n c f) : n < k ∧ HandedAt ds n c f := by
  obtain ⟨hpassed, hstarted, hpending⟩ := h
  have hlt : n < k := by
    obtain ⟨hlt, -⟩ := List.getElem?_eq_some_iff.1 hpassed
    exact Nat.lt_of_lt_of_le hlt (List.length_take_le k ds)
  have htake : (ds.take k).take n = ds.take n := by
    rw [List.take_take, Nat.min_eq_left (Nat.le_of_lt hlt)]
  rw [deskAt, htake] at hpending
  rw [htake] at hstarted
  rw [List.getElem?_take_of_lt hlt] at hpassed
  exact ⟨hlt, hpassed, hstarted, hpending⟩

/-- What has been handed stays handed when more deeds come behind. -/
theorem append (h : HandedAt ds n c f) (ds' : List Deed) : HandedAt (ds ++ ds') n c f := by
  have htake : (ds ++ ds').take ds.length = ds := List.take_left
  exact (of_take (k := ds.length) (htake.symm ▸ h)).2

end HandedAt

namespace Master

variable {m : Master} {d : Option Deed} {ds ds' : List Deed} {o o' : Outcome} {c : Call}
  {f : Frame}

/-! ## What callers are told -/

/-- No change touches what is settled about foreign units. -/
theorem Change.policy (h : Change m d o) : o.master.policy = m.policy := by
  cases h with
  | progress hp => cases hp <;> rfl
  | _ => rfl

/-- Hence no trace does. -/
theorem Trace.policy (h : Trace m ds o) : o.master.policy = m.policy := by
  induction h with
  | refl => rfl
  | step _ hc ih => exact hc.policy.trans ih

/-- By a change, a caller is told how its call has ended, or that it is refused. -/
theorem Change.told (h : Change m d o) : o.told = d.toList.filterMap (Deed.told? m.policy) ∨
    d = none ∧ ∃ id e, o.told = [(id, .error e)] := by
  cases h with
  | progress hp => cases hp <;> exact .inl rfl
  | @refuse id _ _ _ e _ => exact .inr ⟨rfl, id, e, rfl⟩
  | _ => exact .inl rfl

/-- Every caller whose call has ended has been told so, one after another, and no other one has been
told an answer. -/
theorem Trace.told (h : Trace m ds o) :
    (ds.filterMap (Deed.told? m.policy)).Sublist o.told ∧
      o.told.filter (·.2.isOk) = (ds.filterMap (Deed.told? m.policy)).filter (·.2.isOk) := by
  induction h with
  | refl => exact ⟨.slnil, rfl⟩
  | @step ds d o o' ht hc ih =>
    rw [List.filterMap_append, Outcome.told_andThen, List.filter_append, List.filter_append]
    rcases hc.told with htold | ⟨rfl, id, e, htold⟩
    · rw [htold, ht.policy]
      exact ⟨ih.1.append (.refl _), congrArg (· ++ _) ih.2⟩
    · rw [htold]
      exact ⟨ih.1.append (List.nil_sublist _), congrArg (· ++ []) ih.2⟩

/-- A caller whose call has taken its delivery has been told what the call makes of it. -/
theorem Trace.finished_of_taken (h : Trace m ds o) {delivery : Delivery}
    (hf : .finish c (.taken delivery) ∈ ds) :
    .finished c.id (c.verdict m.policy delivery) ∈ o.events :=
  Outcome.mem_told.1 (h.told.1.subset (List.mem_filterMap.2 ⟨_, hf, rfl⟩))

/-- No call ends twice. -/
theorem Trace.ends_once {policy : UnitPolicy} {capacity j k : Nat} {ending ending' : Ending}
    (h : Trace (attach policy capacity) ds o) (hj : ds[j]? = some (.finish c ending))
    (hk : ds[k]? = some (.finish c ending')) : j = k := by
  have hnot {j k : Nat} {ending ending' : Ending} (hj : ds[j]? = some (.finish c ending))
      (hk : ds[k]? = some (.finish c ending')) : ¬ j < k := fun hlt => by
    obtain ⟨o₁, _, _, h₁, -, hchange, -⟩ := h.tells_at hk
    have hended : .finish c ending ∈ ds.take k :=
      List.mem_of_getElem? ((List.getElem?_take_of_lt hlt).trans hj)
    exact h₁.not_mem_of_finished hended hchange.mem_calls_of_finish
  exact Nat.le_antisymm (Nat.le_of_not_lt (hnot hk hj)) (Nat.le_of_not_lt (hnot hj hk))

/-! ## Replies that are kept -/

/-- What a call in progress has been given stays there while it is in progress. -/
theorem Tells.ready_change (h : Tells ds o) {d : Option Deed} {o' : Outcome}
    (hchange : Change o.master d o') (hc : c ∈ o.master.calls) (hc' : c ∈ o'.master.calls)
    {reply : Delivery} (hready : o.master.desk.outlook? c.serial = some (.ready reply)) :
    o'.master.desk.outlook? c.serial = some (.ready reply) := by
  rcases hchange.desk_cases with ⟨-, hdesk⟩ | ⟨a, ha, hdesk⟩
  · exact hdesk ▸ hready
  · obtain ⟨d, rfl, ha⟩ := Option.bind_eq_some_iff.1 ha
    refine hdesk ▸ h.agrees.ready_act h.nextSerial_not_held hready ?_ ?_
    · rintro rfl
      -- whoever drops the ticket of the call is the call itself
      obtain ⟨c', ending, rfl, hs⟩ : ∃ c' ending, d = .finish c' ending ∧ c'.serial = c.serial := by
        cases d <;> simp [Deed.action?] at ha ⊢
        exact ha
      obtain rfl := h.eq_of_serial hchange.mem_calls_of_finish hc hs
      have hfinished : .finish c' ending ∈ ds ++ (some (Deed.finish c' ending)).toList := by simp
      exact (h.change hchange).not_mem_of_finished hfinished hc'
    · rintro rfl
      cases d <;> cases ha

/-- A call that has been given a reply keeps it until it ends, and takes no other one. -/
theorem Tells.keeps (h : Tells ds o) (hc : c ∈ o.master.calls) {reply : Delivery}
    (hready : o.master.desk.outlook? c.serial = some (.ready reply)) (ht : Trace o.master ds' o') :
    (c ∈ o'.master.calls ∧ o'.master.desk.outlook? c.serial = some (.ready reply)) ∨
      ∃ ending, .finish c ending ∈ ds' ∧ ∀ delivery, ending = .taken delivery →
        delivery = reply := by
  induction ht with
  | refl => exact .inl ⟨hc, hready⟩
  | @step ds₁ d o₁ o₂ ht hchange ih =>
    have h₁ := h.extend ht
    rcases ih with ⟨hc₁, hready₁⟩ | ⟨ending, hf, htaken⟩
    · rcases hchange.mem_calls h₁.nodup_calls hc₁ with hc₂ | ⟨ending, rfl⟩
      · exact .inl ⟨hc₂, h₁.ready_change hchange hc₁ hc₂ hready₁⟩
      · refine .inr ⟨ending, by simp, ?_⟩
        rintro delivery rfl
        obtain ⟨hdelivery, -⟩ := hchange.taken
        rw [deliveryFor?, hready₁] at hdelivery
        cases hdelivery
        rfl
    · exact .inr ⟨ending, List.mem_append_left _ hf, htaken⟩

/-- In a quiet master, a call in progress that has been given a reply waits to write. -/
theorem IsQuiet.queued (h : m.IsQuiet) (hc : c ∈ m.calls) {reply : Delivery}
    (hready : m.desk.outlook? c.serial = some (.ready reply)) :
    ∃ isWritten, .call c isWritten ∈ m.queue := by
  rcases List.mem_append.1 hc with hqueue | hawaiting
  · obtain ⟨w, hw, hcall⟩ := List.mem_filterMap.1 hqueue
    cases w with
    | call c' isWritten => cases hcall; exact ⟨isWritten, hw⟩
    | disconnect => cases hcall
  · -- nobody waits for what has come
    have hnone : (m.desk.outlook? c.serial).bind Desk.Outlook.delivery? = none := h c hawaiting
    rw [hready] at hnone
    cases hnone

/-- A call that has been given a reply waits to write or ends, and if it ends by taking its
delivery, this is the reply, and its caller is told what the call makes of it. -/
theorem Tells.replied (h : Tells ds o) (hc : c ∈ o.master.calls) {reply : Delivery}
    (hready : o.master.desk.outlook? c.serial = some (.ready reply)) (ht : Trace o.master ds' o')
    (hquiet : o'.master.IsQuiet) :
    (∃ isWritten, .call c isWritten ∈ o'.master.queue) ∨
      ∃ ending, .finish c ending ∈ ds' ∧ ∀ delivery, ending = .taken delivery →
        delivery = reply ∧ .finished c.id (c.verdict o.master.policy reply) ∈ o'.events := by
  rcases h.keeps hc hready ht with ⟨hc', hready'⟩ | ⟨ending, hf, htaken⟩
  · exact .inl (hquiet.queued hc' hready')
  · refine .inr ⟨ending, hf, ?_⟩
    rintro delivery rfl
    obtain rfl := htaken delivery rfl
    exact ⟨rfl, ht.finished_of_taken hf⟩

/-! ## Frames that are handed -/

/-- A call whose ticket is held is in progress. -/
theorem Tells.mem_calls_of_held (h : Tells ds o) (hstarted : .start c ∈ ds)
    (hheld : c.serial ∈ o.master.desk.tickets) : c ∈ o.master.calls := by
  obtain ⟨c', hc', hs⟩ := h.held.1 hheld
  obtain rfl := h.sends.eq_of_serial (h.started_of_mem hc') (Deed.mem_started.2 hstarted) hs
  exact hc'

/-- Before a change, too, a call is in progress if its ticket is held then. -/
theorem Tells.mem_calls_before (h : Tells ds o) (hchange : Change o.master d o')
    (hc : c ∈ o'.master.calls) (hheld : c.serial ∈ o.master.desk.tickets) :
    c ∈ o.master.calls := by
  have h' := h.change hchange
  obtain ⟨c', hc', hs⟩ := h.held.1 hheld
  have hstarted' : c' ∈ (ds ++ d.toList).filterMap Deed.started? := by
    rw [List.filterMap_append]
    exact List.mem_append_left _ (h.started_of_mem hc')
  obtain rfl := h'.sends.eq_of_serial hstarted' (h'.started_of_mem hc) hs
  exact hc'

/-- A call in progress that has been given a frame has been handed it. -/
theorem Tells.handed (h : Tells ds o) (hc : c ∈ o.master.calls)
    (hready : o.master.desk.outlook? c.serial = some (.ready (.ok f))) :
    ∃ n, HandedAt ds n c f := by
  obtain ⟨policy, capacity, ht⟩ := h.trace
  clear h
  induction ht with
  | refl =>
    obtain ⟨ticket, ht, -⟩ := Desk.outlook?_eq_ready.1 hready
    simp [Master.attach] at ht
  | @step ds d o o' ht hchange ih =>
    have h := Tells.of_trace ht
    -- what is on the ticket already has been handed before
    have hbefore {ticket : Ticket} (ht : o.master.desk.tickets[c.serial]? = some ticket)
        (hd : ticket.delivery = some (.ok f)) : ∃ n, HandedAt (ds ++ d.toList) n c f := by
      have hc₁ := h.mem_calls_before hchange hc (Desk.held_iff.2 ⟨ticket, ht⟩)
      obtain ⟨n, hn⟩ := ih hc₁ (Desk.outlook?_eq_ready.2 ⟨ticket, ht, hd⟩)
      exact ⟨n, hn.append _⟩
    obtain ⟨ticket, ht, hd⟩ := Desk.outlook?_eq_ready.1 hready
    rw [Outcome.master_andThen] at ht
    rcases hchange.desk_cases with ⟨-, hdesk⟩ | ⟨a, ha, hdesk⟩
    · exact hbefore (hdesk ▸ ht) hd
    · obtain ⟨d, rfl, ha⟩ := Option.bind_eq_some_iff.1 ha
      have hstep := Desk.ticketStep (hdesk ▸ ht)
      clear ht
      cases hstep with
      | issued hok =>
        obtain ⟨-, -, -, hticket, -⟩ := Desk.allocate_inv hok
        rw [hticket] at hd
        cases hd
      | kept ht | marked ht => exact hbefore ht hd
      | @answered f' _ ht he =>
        cases hd
        obtain rfl : d = .pass f := by
          cases d <;> cases ha
          rfl
        have hc₁ := h.mem_calls_before hchange hc (Desk.held_iff.2 ⟨_, ht⟩)
        refine ⟨ds.length, by simp, ?_, ?_⟩
        · rw [List.take_left]
          exact Deed.mem_started.1 (h.started_of_mem hc₁)
        · rwa [deskAt, List.take_left, ← h.desk]
      | refused => cases hd

/-- A call that takes a frame has been handed it. -/
theorem Trace.handed_of_taken {policy : UnitPolicy} {capacity k : Nat}
    (h : Trace (attach policy capacity) ds o)
    (hk : ds[k]? = some (.finish c (.taken (.ok f)))) : ∃ n < k, HandedAt ds n c f := by
  obtain ⟨o₁, _, _, h₁, -, hchange, -⟩ := h.tells_at hk
  obtain ⟨hdelivery, -⟩ := hchange.taken
  have hready : o₁.master.desk.outlook? c.serial = some (.ready (.ok f)) := by
    obtain ⟨outlook, houtlook, hd⟩ := Option.bind_eq_some_iff.1 hdelivery
    cases outlook <;> cases hd
    exact houtlook
  obtain ⟨n, hn⟩ := h₁.handed hchange.mem_calls_of_finish hready
  exact ⟨n, hn.of_take⟩

/-- A frame that is handed to a call has the id of the call, which is given it. -/
theorem Tells.given {n : Nat} (h₁ : Tells (ds.take n) o) (h : HandedAt ds n c f)
    (hdesk : o.master.desk = deskAt ds n) (hchange : Change o.master (some (.pass f)) o') :
    f.header.transaction = c.transaction ∧ c ∈ o'.master.calls ∧
      o'.master.desk.outlook? c.serial = some (.ready (.ok f)) := by
  have hpending := hdesk ▸ h.pending
  obtain ⟨ticket, ht, hid, -⟩ := h₁.agrees.pending_iff.1 hpending
  have hc := h₁.mem_calls_of_held h.started (Desk.held_iff.2 ⟨ticket, ht⟩)
  obtain ⟨ticket', ht', hid', -⟩ := h₁.ticket hc
  obtain rfl := Option.some.inj (ht.symm.trans ht')
  refine ⟨hid.symm.trans hid', (hchange.mem_calls h₁.nodup_calls hc).resolve_right nofun, ?_⟩
  have hresolve : o'.master.desk = o.master.desk.resolve f := hchange.desk
  rw [hresolve]
  exact h₁.agrees.ready_resolve hpending

end Master

end Modbus
