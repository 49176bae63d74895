import Modbus.Proofs.Link.Desk
import Modbus.Proofs.Master.Replies

/-!
# A master without failures

While the transport neither fails nor loses anything and the peer answers one call after another, a
master is told by a `Ledger` of its deals: which have ended, which wait for their answers, which are
in the queue, and how many have been answered (`Ledger.Describes`). Whatever the master does by
itself moves deals forward in the ledger (`Ledger.Describes.proceeds`), and so do the happenings on
such a connection: a call is started (`start`), the peer receives (`receive`) or sends (`deliver`),
the transport stalls for a while (`wake`).
-/

namespace Modbus

/-! ## Transports that do not fail -/

namespace Outlet

/-- The transport is in order: it is open, nothing has been lost, and no attempt to write will
fail. -/
structure IsFaithful (o : Outlet) : Prop where
  shut : o.isShut = false
  deaf : o.isDeaf = false
  lost : o.lost = []
  treatments : ∀ t ∈ o.treatments, ∃ most, t = .stall most

variable {o : Outlet}

/-- A transport that does not fail is sound. -/
theorem IsFaithful.isSound (h : o.IsFaithful) : o.IsSound :=
  ⟨fun hd => by simp [h.deaf] at hd, fun _ => h.lost⟩

/-- Emptying the buffer does not break a faithful transport. -/
theorem IsFaithful.flush (h : o.IsFaithful) :
    o.flush.1.IsFaithful ∧ ∀ fault, o.flush.2 ≠ .broken fault := by
  have hfaithful {n : Nat} {treatments : List Treatment}
      (ht : ∀ t ∈ treatments, ∃ most, t = .stall most) :
      ({ o.pass n with treatments } : Outlet).IsFaithful := ⟨h.shut, h.deaf, h.lost, ht⟩
  unfold Outlet.flush
  split
  · exact ⟨h, nofun⟩
  · rw [if_neg (by simp [h.shut, h.deaf])]
    split <;> rename_i ht
    · refine ⟨⟨h.shut, h.deaf, h.lost, h.treatments⟩, fun fault => ?_⟩
      dsimp only
      split <;> simp
    · rename_i t treatments
      have hall := h.treatments
      rw [ht] at hall
      obtain ⟨most, rfl⟩ := hall t List.mem_cons_self
      exact ⟨hfaithful fun t ht => hall t (List.mem_cons_of_mem _ ht), nofun⟩

/-- The peer receives from a faithful transport what has been sent first. -/
theorem IsFaithful.receive (h : o.IsFaithful) (n : Nat) : (o.receive n).2.IsFaithful :=
  ⟨h.shut, h.deaf, h.lost, h.treatments⟩

end Outlet

/-! ## Ledgers -/

/-- How far deals have come. -/
structure Ledger where
  /-- Those whose callers have been told the answers. -/
  ended : List Deal := []
  /-- Those that wait for their answers. -/
  awaiting : List Deal := []
  /-- Those that have left the queue, in the order of their starts. -/
  gone : List Deal := []
  /-- Those in the queue whose frames have been appended. -/
  written : List Deal := []
  /-- Those in the queue whose frames have not been appended. -/
  unwritten : List Deal := []
  /-- How many have been answered. -/
  heard : Nat := 0
  /-- The bytes in front of the next whole answer. -/
  inbox : Bytes := []

namespace Ledger

variable (ℓ : Ledger)

/-- The deals whose frames have been appended. -/
def sent : List Deal := ℓ.gone ++ ℓ.written

/-- The deals that have been started. -/
def started : List Deal := ℓ.sent ++ ℓ.unwritten

/-- The queue of a master. -/
def queue : List Waiter :=
  ℓ.written.map (fun d => .call d.call true) ++ ℓ.unwritten.map (fun d => .call d.call false)

/-- The frames of the calls of deals, one after another. -/
def frames (deals : List Deal) : Bytes := deals.flatMap (·.call.frame.bytes)

theorem frames_append (deals deals' : List Deal) :
    frames (deals ++ deals') = frames deals ++ frames deals' := List.flatMap_append

/-- The state of a master, and what has come of it, by a ledger. -/
structure Describes (ℓ : Ledger) (o : Outcome) : Prop where
  inOrder : Deal.InOrder ℓ.started
  gone : (ℓ.ended ++ ℓ.awaiting).Perm ℓ.gone
  ended : ∀ d ∈ ℓ.ended, d.number < ℓ.heard
  heard : ℓ.heard ≤ ℓ.sent.length
  queue : o.master.queue = ℓ.queue
  awaiting : o.master.awaiting = ℓ.awaiting.map Deal.call
  desk : o.master.desk.Serves ℓ.started ℓ.ended ℓ.heard
  outlet : o.master.outlet.IsFaithful
  inlet : o.master.inlet = ⟨ℓ.inbox, false⟩
  /-- What has been sent are the frames of the calls. -/
  bytes : o.received ++ o.master.outlet.carried = frames ℓ.sent
  /-- Nobody leaves bytes in the buffer behind. -/
  buffer : ℓ.written = [] → o.master.outlet.buffer = []
  /-- The callers have been told the answers. -/
  told : o.told = ℓ.ended.map Deal.result

/-- A ledger follows another one without a happening if only deals in it have moved forward. -/
structure Follows (ℓ' ℓ : Ledger) : Prop where
  started : ℓ'.started = ℓ.started
  sent : ℓ.sent <+: ℓ'.sent
  heard : ℓ'.heard = ℓ.heard
  inbox : ℓ'.inbox = ℓ.inbox

theorem Follows.refl : ℓ.Follows ℓ := ⟨rfl, List.prefix_refl _, rfl, rfl⟩

theorem Follows.trans {ℓ ℓ' ℓ'' : Ledger} (h : ℓ''.Follows ℓ') (h' : ℓ'.Follows ℓ) :
    ℓ''.Follows ℓ where
  started := h.started.trans h'.started
  sent := h'.sent.trans h.sent
  heard := h.heard.trans h'.heard
  inbox := h.inbox.trans h'.inbox

namespace Describes

variable {ℓ} {o : Outcome}

/-- At first there are no deals. -/
theorem attach (policy : UnitPolicy) (capacity : Nat) :
    Describes {} ⟨Master.attach policy capacity, [], []⟩ where
  inOrder := ⟨Nat.zero_le _, nofun, nofun⟩
  gone := .nil
  ended := nofun
  heard := Nat.le_refl 0
  queue := rfl
  awaiting := rfl
  desk := .initial
  outlet := ⟨rfl, rfl, rfl, nofun⟩
  inlet := rfl
  bytes := rfl
  buffer _ := rfl
  told := rfl

/-- While the transport rests, what has been sent stays as it is. -/
theorem bytes_of_rest (h : ℓ.Describes o) {next : Master → Outcome}
    (hreceived : (next o.master).received = [])
    (houtlet : (next o.master).master.outlet = o.master.outlet) :
    (o.andThen next).received ++ (o.andThen next).master.outlet.carried = frames ℓ.sent := by
  rw [Outcome.received_andThen, Outcome.master_andThen, hreceived, houtlet, List.append_nil]
  exact h.bytes

/-- While no caller is told anything, what callers have been told stays as it is. -/
theorem told_of_rest (h : ℓ.Describes o) {next : Master → Outcome}
    (htold : (next o.master).told = []) :
    (o.andThen next).told = ℓ.ended.map Deal.result := by
  rw [Outcome.told_andThen, htold, List.append_nil]
  exact h.told

/-- The transport moves bytes on, and nothing else happens. -/
theorem keep (h : ℓ.Describes o) {outlet : Outlet} {received : Bytes}
    (hfaithful : outlet.IsFaithful) (hbytes : received ++ outlet.carried = o.master.outlet.carried)
    (hbuffer : o.master.outlet.buffer = [] → outlet.buffer = []) :
    ℓ.Describes (o.andThen fun m => ⟨{ m with outlet }, [], received⟩) where
  inOrder := h.inOrder
  gone := h.gone
  ended := h.ended
  heard := h.heard
  queue := h.queue
  awaiting := h.awaiting
  desk := h.desk
  outlet := hfaithful
  inlet := h.inlet
  bytes := by
    rw [← h.bytes, ← hbytes, ← List.append_assoc]
    rfl
  buffer hw := hbuffer (h.buffer hw)
  told := h.told_of_rest rfl

/-- The transport takes bytes from the buffer. -/
theorem flush (h : ℓ.Describes o) :
    ℓ.Describes (o.andThen fun m => ⟨{ m with outlet := m.outlet.flush.1 }, [], []⟩) := by
  refine h.keep h.outlet.flush.1 h.outlet.isSound.flush.2 fun hbuffer => ?_
  obtain ⟨n, treatments, ho, -, -⟩ := o.master.outlet.flush_inv
  simp [ho, Outlet.pass, hbuffer]

/-! ### Progress -/

/-- Whoever is first in the queue without having appended its frame is the first who has not. -/
theorem queue_eq_unwritten {c : Call} {rest : List Waiter} (h : ℓ.queue = .call c false :: rest) :
    ∃ d unwritten, ℓ.written = [] ∧ ℓ.unwritten = d :: unwritten ∧ c = d.call ∧
      rest = unwritten.map (fun d => .call d.call false) := by
  unfold Ledger.queue at h
  cases hw : ℓ.written with
  | cons d written => simp [hw] at h
  | nil =>
    cases hu : ℓ.unwritten with
    | nil => simp [hw, hu] at h
    | cons d unwritten =>
      rw [hw, hu] at h
      cases h
      exact ⟨d, unwritten, rfl, rfl, rfl, rfl⟩

/-- Whoever is first in the queue and has appended its frame is the first who has. -/
theorem queue_eq_written {c : Call} {rest : List Waiter} (h : ℓ.queue = .call c true :: rest) :
    ∃ d written, ℓ.written = d :: written ∧ c = d.call ∧
      rest = written.map (fun d => .call d.call true) ++
        ℓ.unwritten.map (fun d => .call d.call false) := by
  unfold Ledger.queue at h
  cases hw : ℓ.written with
  | cons d written =>
    rw [hw] at h
    cases h
    exact ⟨d, written, rfl, rfl, rfl⟩
  | nil =>
    cases hu : ℓ.unwritten with
    | nil => simp [hw, hu] at h
    | cons d unwritten => simp [hw, hu] at h

/-- The first in the queue is written. -/
theorem write (h : ℓ.Describes o) {c : Call} {rest : List Waiter}
    (hq : o.master.queue = .call c false :: rest) :
    ∃ ℓ' : Ledger, ℓ'.Follows ℓ ∧ ℓ'.Describes (o.andThen fun _ =>
      ⟨(o.master.writeFrame c).master.withQueue (.call c true :: rest), [.written c], []⟩) := by
  obtain ⟨d, unwritten, hw, hu, rfl, rfl⟩ := queue_eq_unwritten (h.queue.symm.trans hq)
  have hstarted : ({ ℓ with written := [d], unwritten } : Ledger).started = ℓ.started := by
    simp [started, sent, hw, hu]
  have hsent : ({ ℓ with written := [d], unwritten } : Ledger).sent = ℓ.sent ++ [d] := by
    simp [sent, hw]
  refine ⟨{ ℓ with written := [d], unwritten },
    ⟨hstarted, hsent ▸ List.prefix_append _ _, rfl, rfl⟩, ?_⟩
  constructor
  case inOrder => rw [hstarted]; exact h.inOrder
  case gone => exact h.gone
  case ended => exact h.ended
  case heard => rw [hsent, List.length_append]; exact Nat.le_add_right_of_le h.heard
  case queue => rfl
  case awaiting => exact h.awaiting
  case desk => rw [hstarted]; exact h.desk.markSent _
  case outlet => exact ⟨h.outlet.shut, h.outlet.deaf, h.outlet.lost, h.outlet.treatments⟩
  case inlet => exact h.inlet
  case bytes =>
    rw [hsent, frames_append, ← h.bytes]
    simp [frames, Master.withQueue, Master.writeFrame, Outlet.append, Outlet.carried]
  case buffer => intro hempty; cases hempty
  case told => exact h.told_of_rest rfl

/-- The first in the queue has sent its frame. -/
theorem letGo (h : ℓ.Describes o) {c : Call} {rest : List Waiter}
    (hq : o.master.queue = .call c true :: rest) (hempty : o.master.outlet.flush.2 = .flushed) :
    ∃ ℓ' : Ledger, ℓ'.Follows ℓ ∧ ℓ'.Describes (o.andThen fun m =>
      ⟨{ m with
        outlet := m.outlet.flush.1, queue := rest, awaiting := m.awaiting ++ [c] }, [], []⟩) := by
  obtain ⟨d, written, hw, rfl, rfl⟩ := queue_eq_written (h.queue.symm.trans hq)
  let ℓ' : Ledger := { ℓ with
    awaiting := ℓ.awaiting ++ [d], gone := ℓ.gone ++ [d], written }
  have hsent : ℓ'.sent = ℓ.sent := by simp [ℓ', sent, hw]
  have hstarted : ℓ'.started = ℓ.started := by rw [started, started, hsent]
  refine ⟨ℓ', ⟨hstarted, hsent ▸ List.prefix_refl _, rfl, rfl⟩, ?_⟩
  have hflush := h.flush
  constructor
  case inOrder => rw [hstarted]; exact h.inOrder
  case gone =>
    have := h.gone.append_right [d]
    rwa [List.append_assoc] at this
  case ended => exact h.ended
  case heard => rw [hsent]; exact h.heard
  case queue => rfl
  case awaiting =>
    rw [List.map_append, ← h.awaiting]
    rfl
  case desk => rw [hstarted]; exact h.desk
  case outlet => exact hflush.outlet
  case inlet => exact h.inlet
  case bytes => rw [hsent]; exact hflush.bytes
  case buffer => exact fun _ => o.master.outlet.buffer_of_flushed hempty
  case told => exact hflush.told

/-- A deal that waits for its answer has been started and not ended. -/
theorem of_awaiting (h : ℓ.Describes o) {d : Deal} (hd : d ∈ ℓ.awaiting) :
    d ∈ ℓ.started ∧ d ∉ ℓ.ended := by
  have hgone := h.gone.subset (List.mem_append_right ℓ.ended hd)
  have hstarted : ℓ.gone.Sublist ℓ.started :=
    (List.sublist_append_left ℓ.gone ℓ.written).trans (List.sublist_append_left _ _)
  have hnodup := h.gone.nodup_iff.2 (h.inOrder.nodup.sublist hstarted)
  exact ⟨hstarted.subset hgone, fun hmem => (List.nodup_append.1 hnodup).2.2 d hmem d hd rfl⟩

/-- The delivery of a call that waits is the answer, if it has come. -/
theorem deliveryFor? (h : ℓ.Describes o) {d : Deal} (hd : d ∈ ℓ.awaiting) :
    o.master.deliveryFor? d.call = if d.number < ℓ.heard then some (.ok d.response) else none := by
  obtain ⟨hstarted, hended⟩ := h.of_awaiting hd
  exact h.desk.delivery h.inOrder hstarted hended

/-- A call that waits for its answer has it. -/
theorem answer (h : ℓ.Describes o) {c : Call} {before behind : List Call} {delivery : Delivery}
    (ha : o.master.awaiting = before ++ c :: behind)
    (hd : o.master.deliveryFor? c = some delivery) :
    ∃ ℓ' : Ledger, ℓ'.Follows ℓ ∧ ℓ'.Describes (o.andThen fun m =>
      ⟨(m.dropTicket c).withAwaiting (before ++ behind),
        [.finished c.id (c.verdict m.policy delivery)], []⟩) := by
  have hsplit := h.awaiting.symm.trans ha
  obtain ⟨before, tail, hawaiting, rfl, htail⟩ := List.map_eq_append_iff.1 hsplit
  obtain ⟨d, behind, rfl, rfl, rfl⟩ := List.map_eq_cons_iff.1 htail
  have hmem : d ∈ ℓ.awaiting := by simp [hawaiting]
  obtain ⟨hstarted, hended⟩ := h.of_awaiting hmem
  rw [h.deliveryFor? hmem] at hd
  have hlt : d.number < ℓ.heard := by
    by_cases hlt : d.number < ℓ.heard
    · exact hlt
    · rw [if_neg hlt] at hd
      cases hd
  rw [if_pos hlt] at hd
  cases hd
  refine ⟨{ ℓ with ended := ℓ.ended ++ [d], awaiting := before ++ behind },
    ⟨rfl, List.prefix_refl _, rfl, rfl⟩, ?_⟩
  constructor
  case inOrder => exact h.inOrder
  case gone =>
    have hperm : (d :: (before ++ behind)).Perm ℓ.awaiting := hawaiting ▸ List.perm_middle.symm
    have := (hperm.append_left ℓ.ended).trans h.gone
    rwa [List.append_cons] at this
  case ended =>
    intro e he
    rcases List.mem_append.1 he with he | he
    · exact h.ended e he
    · rwa [List.mem_singleton.1 he]
  case heard => exact h.heard
  case queue => exact h.queue
  case awaiting => exact (List.map_append ..).symm
  case desk => exact h.desk.drop h.inOrder hstarted hended hlt
  case outlet => exact h.outlet
  case inlet => exact h.inlet
  case bytes => exact h.bytes_of_rest rfl rfl
  case buffer => exact h.buffer
  case told =>
    have hverdict := (h.inOrder.sound d hstarted).verdict o.master.policy
    rw [Outcome.told_andThen, h.told, List.map_append, hverdict]
    rfl

/-- What a master does by itself moves deals forward. -/
theorem progress (h : ℓ.Describes o) {d : Option Deed} {o' : Outcome}
    (hp : o.master.Progress d o') :
    ∃ ℓ' : Ledger, ℓ'.Follows ℓ ∧ ℓ'.Describes (o.andThen fun _ => o') := by
  cases hp with
  | write hq _ => exact h.write hq
  | flush _ => exact ⟨ℓ, .refl ℓ, h.flush⟩
  | letGo hq hempty => exact h.letGo hq hempty
  | fail _ hf => exact absurd hf (h.outlet.flush.2 _)
  | shut hq =>
    have hqueue := h.queue.symm.trans hq
    unfold Ledger.queue at hqueue
    cases hw : ℓ.written <;> cases hu : ℓ.unwritten <;> simp [hw, hu] at hqueue
  | answer ha hd => exact h.answer ha hd

/-- So does any progress. -/
theorem proceeds (h : ℓ.Describes o) {o' : Outcome} (hp : o.master.Proceeds o') :
    ∃ ℓ' : Ledger, ℓ'.Follows ℓ ∧ ℓ'.Describes (o.andThen fun _ => o') := by
  induction hp with
  | refl => exact ⟨ℓ, .refl ℓ, (Outcome.andThen_stay o).symm ▸ h⟩
  | @step _ o₁ o₂ _ hp ih =>
    obtain ⟨ℓ₁, hfollows₁, h₁⟩ := ih
    obtain ⟨ℓ₂, hfollows₂, h₂⟩ := h₁.progress hp
    exact ⟨ℓ₂, hfollows₂.trans hfollows₁, by rwa [Outcome.andThen_assoc] at h₂⟩

/-! ### Happenings -/

/-- The transport stalls at the next attempts to write. -/
theorem wake (h : ℓ.Describes o) (stalls : List Nat) :
    ∃ ℓ' : Ledger, ℓ'.Follows ℓ ∧
      ℓ'.Describes (o.andThen fun m => m.wake (stalls.map .stall)) := by
  have hfaithful : ({ o.master.outlet with treatments := stalls.map .stall } : Outlet).IsFaithful :=
    ⟨h.outlet.shut, h.outlet.deaf, h.outlet.lost, fun t ht => by
      obtain ⟨most, -, rfl⟩ := List.mem_map.1 ht
      exact ⟨most, rfl⟩⟩
  have hkeep := h.keep hfaithful (List.nil_append _) id
  obtain ⟨ℓ', hfollows, h'⟩ := hkeep.proceeds (Master.proceeds_proceed _)
  refine ⟨ℓ', hfollows, ?_⟩
  rwa [Outcome.andThen_assoc] at h'

/-- The peer receives bytes that are on the way, and the master does nothing. -/
theorem take (h : ℓ.Describes o) (n : Nat) : ℓ.Describes (o.andThen fun m => m.take n) :=
  h.keep (h.outlet.receive n) (h.outlet.isSound.receive n).2 id

/-- The peer receives what has been sent. -/
theorem receive (h : ℓ.Describes o) (most : Nat) :
    ∃ ℓ' : Ledger, ℓ'.Follows ℓ ∧ ℓ'.Describes (o.andThen fun m => m.receive most) := by
  induction most using Nat.strongRecOn generalizing ℓ o with
  | ind most ih =>
    generalize hn : min most o.master.outlet.transit.length = n
    by_cases hpos : n = 0
    · rw [hpos] at hn
      exact ⟨ℓ, .refl ℓ, by simpa [Outcome.andThen, Master.receive_of_zero _ hn] using h⟩
    · obtain ⟨ℓ₁, hfollows₁, h₁⟩ := (h.take n).proceeds (Master.proceeds_proceed _)
      obtain ⟨ℓ₂, hfollows₂, h₂⟩ := ih (most - n) (by omega) h₁
      refine ⟨ℓ₂, hfollows₂.trans hfollows₁, ?_⟩
      simp only [Outcome.andThen, Master.receive_of_pos _ hn hpos, List.append_assoc] at h₂ ⊢
      exact h₂

/-- A call joins the queue. -/
theorem join (h : ℓ.Describes o) {x : Deal} (hx : x.number = ℓ.started.length)
    (ho : Deal.InOrder (ℓ.started ++ [x])) :
    ∃ desk, o.master.newCall x.number x.unit x.request none = .ok (x.call, desk) ∧
      { ℓ with unwritten := ℓ.unwritten ++ [x] }.Describes (o.andThen fun m =>
        ⟨{ m with desk, queue := m.queue ++ [Waiter.call x.call false] }, [], []⟩) := by
  have hheard : ℓ.heard ≤ ℓ.started.length := by
    rw [started, List.length_append]
    exact Nat.le_add_right_of_le h.heard
  obtain ⟨desk, hallocate, hserves⟩ := h.desk.allocate hheard hx ho
  have hsize := (ho.sound x (List.mem_append_right _ (List.mem_singleton_self x))).size
  have hstarted : ({ ℓ with unwritten := ℓ.unwritten ++ [x] } : Ledger).started =
      ℓ.started ++ [x] := (List.append_assoc ..).symm
  refine ⟨desk, ?_, ?_⟩
  · simp only [Master.newCall, Request.size?, if_pos hsize, hallocate]
    rfl
  · constructor
    case inOrder => rw [hstarted]; exact ho
    case gone => exact h.gone
    case ended => exact h.ended
    case heard => exact h.heard
    case queue =>
      rw [Outcome.master_andThen, h.queue]
      simp [Ledger.queue]
    case awaiting => exact h.awaiting
    case desk => rw [hstarted]; exact hserves
    case outlet => exact h.outlet
    case inlet => exact h.inlet
    case bytes => exact h.bytes_of_rest rfl rfl
    case buffer => exact h.buffer
    case told => exact h.told_of_rest rfl

/-- The next deal is started. -/
theorem start (h : ℓ.Describes o) (hq : o.master.IsQuiet) {x : Deal}
    (hx : x.number = ℓ.started.length) (ho : Deal.InOrder (ℓ.started ++ [x])) :
    let o' := o.master.start x.number x.unit x.request none
    o'.received = [] ∧ o'.master.IsQuiet ∧
      ∃ ℓ' : Ledger, ℓ'.Follows { ℓ with unwritten := ℓ.unwritten ++ [x] } ∧
        ℓ'.Describes (o.andThen fun _ => o') := by
  obtain ⟨desk, hnew, hjoin⟩ := h.join hx ho
  have hstart : o.master.start x.number x.unit x.request none =
      Master.enqueue { o.master with desk } (.call x.call false) := by
    simp only [Master.start, hnew]
    rfl
  have hproceeds := Master.proceeds_enqueue { o.master with desk } (.call x.call false)
  rw [hstart]
  refine ⟨hproceeds.received, Master.isQuiet_enqueue (fun c hc => ?_) _, ?_⟩
  · rw [h.awaiting] at hc
    obtain ⟨d, hd, rfl⟩ := List.mem_map.1 hc
    have hnone := hq d.call (by rw [h.awaiting]; exact List.mem_map_of_mem hd)
    rw [h.deliveryFor? hd] at hnone
    exact (hjoin.deliveryFor? hd).trans hnone
  · obtain ⟨ℓ', hfollows, h'⟩ := hjoin.proceeds hproceeds
    refine ⟨ℓ', hfollows, ?_⟩
    simpa [Outcome.andThen] using h'

/-- The frame of the next answer is passed on. -/
theorem resolve (h : ℓ.Describes o) {x : Deal} (hx : ℓ.sent[ℓ.heard]? = some x) :
    { ℓ with heard := ℓ.heard + 1 }.Describes (o.andThen fun m =>
      ⟨{ m with desk := m.desk.resolve x.response }, [], []⟩) where
  inOrder := h.inOrder
  gone := h.gone
  ended d hd := Nat.lt_succ_of_lt (h.ended d hd)
  heard := (List.getElem?_eq_some_iff.1 hx).1
  queue := h.queue
  awaiting := h.awaiting
  desk := h.desk.resolve h.inOrder (by
    rw [started, List.getElem?_append_left (List.getElem?_eq_some_iff.1 hx).1, hx])
  outlet := h.outlet
  inlet := h.inlet
  bytes := h.bytes_of_rest rfl rfl
  buffer := h.buffer
  told := h.told_of_rest rfl

/-- The frames of the next answers are passed on. -/
theorem deliver (h : ℓ.Describes o) {xs : List Deal} (hxs : xs <+: ℓ.sent.drop ℓ.heard) :
    ∃ ℓ' : Ledger, ℓ'.Follows { ℓ with heard := ℓ.heard + xs.length } ∧
      ℓ'.Describes (o.andThen fun m => m.deliver (xs.map Deal.response)) := by
  induction xs generalizing ℓ o with
  | nil => exact ⟨ℓ, .refl ℓ, (Outcome.andThen_stay o).symm ▸ h⟩
  | cons x xs ih =>
    obtain ⟨rest, hrest⟩ := hxs
    have hx : ℓ.sent[ℓ.heard]? = some x := by
      have := congrArg (·[0]?) hrest
      simpa using this.symm
    obtain ⟨ℓ₁, hfollows₁, h₁⟩ := (h.resolve hx).proceeds (Master.proceeds_collect _)
    have hxs₁ : xs <+: ℓ₁.sent.drop ℓ₁.heard := by
      have htail : xs <+: ℓ.sent.drop (ℓ.heard + 1) := by
        rw [← List.tail_drop, ← hrest]
        exact List.prefix_append _ _
      rw [hfollows₁.heard]
      obtain ⟨later, hlater⟩ := hfollows₁.sent
      have hbound : ℓ.heard + 1 ≤ ℓ.sent.length := (List.getElem?_eq_some_iff.1 hx).1
      rw [← hlater]
      exact htail.trans ⟨later, (List.drop_append_of_le_length hbound).symm⟩
    obtain ⟨ℓ₂, hfollows₂, h₂⟩ := ih h₁ hxs₁
    refine ⟨ℓ₂, ?_, ?_⟩
    · constructor
      case started => exact hfollows₂.started.trans hfollows₁.started
      case sent => exact hfollows₁.sent.trans hfollows₂.sent
      case heard =>
        rw [hfollows₂.heard, List.length_cons]
        show ℓ₁.heard + xs.length = ℓ.heard + (xs.length + 1)
        rw [hfollows₁.heard, Nat.add_right_comm, Nat.add_assoc]
      case inbox => exact hfollows₂.inbox.trans hfollows₁.inbox
    · simpa [Outcome.andThen, Master.deliver, List.append_assoc] using h₂

/-- The peer sends bytes that complete answers. -/
theorem send (h : ℓ.Describes o) (hq : o.master.IsQuiet) {bytes rest : Bytes} {xs : List Deal}
    (hdrain : Decoder.frames.drain (ℓ.inbox ++ bytes) = ⟨xs.map Deal.response, none, rest⟩)
    (hxs : xs <+: ℓ.sent.drop ℓ.heard) :
    let o' := o.master.send bytes
    o'.received = [] ∧ o'.master.IsQuiet ∧
      ∃ ℓ' : Ledger, ℓ'.Follows { ℓ with heard := ℓ.heard + xs.length, inbox := rest } ∧
        ℓ'.Describes (o.andThen fun _ => o') := by
  let m := { o.master with inlet := { o.master.inlet with buffer := rest } }
  have hread : { ℓ with inbox := rest }.Describes (o.andThen fun _ => ⟨m, [], []⟩) := by
    constructor
    case inOrder => exact h.inOrder
    case gone => exact h.gone
    case ended => exact h.ended
    case heard => exact h.heard
    case queue => exact h.queue
    case awaiting => exact h.awaiting
    case desk => exact h.desk
    case outlet => exact h.outlet
    case inlet => simp [m, h.inlet]
    case bytes => exact h.bytes_of_rest rfl rfl
    case buffer => exact h.buffer
    case told => exact h.told_of_rest rfl
  have hsend : o.master.send bytes = m.deliver (xs.map Deal.response) := by
    simp only [Master.send, h.inlet, hdrain, Master.hear, m]
    simp
  have hquiet : m.IsQuiet := hq
  rw [hsend]
  refine ⟨Master.received_deliver m _, Master.isQuiet_deliver hquiet _, ?_⟩
  obtain ⟨ℓ', hfollows, h'⟩ := hread.deliver hxs
  refine ⟨ℓ', hfollows, ?_⟩
  simpa [Outcome.andThen] using h'

end Describes

end Ledger

end Modbus
