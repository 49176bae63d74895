import Modbus.Proofs.Link.Basic
import Modbus.Proofs.Master.Flow

/-!
# A link refines direct execution

Whatever the chunks in which bytes move on a link between a master and a slave, every call that ends
is told just what direct execution of the requests, in the order of their starts, answers to it.
When everything has been started and nothing is on the way any more, all calls have ended, and the
registers of the slave are as direct execution leaves them. And whatever has happened so far, the
link can get there (`ProcessImage.link_refines_handle`).
-/

namespace Modbus

namespace Link

variable {σ : Type} {service : Service σ} {initial : σ} {deals : List Deal}

namespace Holds

variable {ℓ : Ledger} {served : Nat} {l : Link σ}

/-- Whoever has been told something is one of the deals, and has been told its answer. -/
theorem result_eq (ho : Deal.InOrder deals) (h : Holds service initial deals ℓ served l)
    {r : CallId × CallResult} (hr : r ∈ l.course.told) :
    ∃ d, deals[r.1]? = some d ∧ r.2 = .ok d.answer := by
  rw [h.ledger.told] at hr
  obtain ⟨d, hd, rfl⟩ := List.mem_map.1 hr
  have hgone := h.ledger.gone.subset (List.mem_append_left _ hd)
  have hdeals := h.sent_le.subset (List.mem_append_left _ hgone)
  exact ⟨d, ho.getElem?_number hdeals, rfl⟩

/-- Nobody is told something twice. -/
theorem nodup_told (ho : Deal.InOrder deals) (h : Holds service initial deals ℓ served l) :
    (l.course.told.map (·.1)).Nodup := by
  have hgone : ℓ.gone.Sublist deals :=
    (List.sublist_append_left _ _).trans h.sent_le.sublist
  have hended : ℓ.ended.Nodup :=
    (h.ledger.gone.nodup_iff.2 (ho.nodup.sublist hgone)).sublist (List.sublist_append_left _ _)
  rw [h.ledger.told, List.map_map, List.Nodup, List.pairwise_map]
  refine List.Pairwise.imp_of_mem (fun {d d'} hd hd' hne heq => hne ?_) hended
  have hdeals {d : Deal} (hd : d ∈ ℓ.ended) : d ∈ deals :=
    hgone.subset (h.ledger.gone.subset (List.mem_append_left _ hd))
  exact ho.eq_of_number (hdeals hd) (hdeals hd') heq

/-- On a settled link everything has been answered. -/
theorem of_settled (ho : Deal.InOrder deals) (h : Holds service initial deals ℓ served l)
    (hl : l.IsSettled) :
    ℓ.ended.Perm deals ∧ l.state = (service.executeAll initial (deals.map Deal.order)).2 := by
  have hqueue := h.ledger.queue.symm.trans hl.queue
  obtain ⟨hwritten, hunwritten⟩ := List.append_eq_nil_iff.1 hqueue
  have hgone : ℓ.gone = deals := by
    have hstarted : ℓ.started = ℓ.gone := by
      simp [Ledger.started, Ledger.sent, List.map_eq_nil_iff.1 hwritten,
        List.map_eq_nil_iff.1 hunwritten]
    have hwaiting := List.map_eq_nil_iff.1 (h.waiting.symm.trans hl.waiting)
    have hall := List.take_append_drop l.nextCall deals
    rwa [hwaiting, List.append_nil, ← h.started, hstarted] at hall
  have hsent : ℓ.sent = deals := by
    rw [Ledger.sent, List.map_eq_nil_iff.1 hwritten, List.append_nil, hgone]
  have hserved : deals.drop served = [] := by
    have hbytes := h.ledger.bytes
    have hsplit := Ledger.frames_append (deals.take served) (deals.drop served)
    rw [List.take_append_drop] at hsplit
    rw [hl.outlet, List.append_nil, h.forth, hsent, hsplit] at hbytes
    refine eq_nil_of_calls (fun d hd => ho.sound d (List.drop_subset _ _ hd)) ?_
    rw [← List.append_cancel_left hbytes]
    exact h.forthRest
  have hheard : deals.drop ℓ.heard = [] := by
    have hback := h.back
    have htake := List.take_append_drop served deals
    rw [hserved, List.append_nil] at htake
    rw [hl.returning, List.append_nil, htake] at hback
    refine eq_nil_of_responses (fun d hd => ho.sound d (List.drop_subset _ _ hd)) ?_
    rw [← hback]
    exact h.backRest
  have hawaiting : ℓ.awaiting = [] := by
    rw [List.eq_nil_iff_forall_not_mem]
    intro d hd
    have hdeals : d ∈ deals := hgone ▸ h.ledger.gone.subset (List.mem_append_right _ hd)
    have hlt := Nat.lt_of_lt_of_le (ho.number_lt hdeals) (List.drop_eq_nil_iff.1 hheard)
    have hnone := h.quiet d.call (by rw [h.ledger.awaiting]; exact List.mem_map_of_mem hd)
    rw [h.ledger.deliveryFor? hd, if_pos hlt] at hnone
    cases hnone
  constructor
  · have := h.ledger.gone
    rwa [hawaiting, List.append_nil, hgone] at this
  · rw [h.state, List.take_of_length_le (List.drop_eq_nil_iff.1 hserved)]

end Holds

/-! ## Settling -/

theorem run_append (l : Link σ) (moves moves' : List Move) :
    l.run service (moves ++ moves') = (l.run service moves).run service moves' :=
  List.foldl_append

/-- All requests can be started. -/
theorem exists_started (service : Service σ) (l : Link σ) :
    ∃ moves, (l.run service moves).waiting = [] := by
  generalize hn : l.waiting.length = n
  induction n generalizing l with
  | zero => exact ⟨[], List.length_eq_zero_iff.1 hn⟩
  | succ n ih =>
    obtain ⟨r, waiting, hwaiting⟩ := List.exists_cons_of_length_eq_add_one hn
    obtain ⟨moves, hmoves⟩ := ih (l.step service .start) (by
      simp only [step, hwaiting]
      rw [hwaiting, List.length_cons] at hn
      omega)
    exact ⟨.start :: moves, hmoves⟩

/-- What the transport can carry does not change. -/
theorem capacity_step (l : Link σ) (move : Move) :
    (l.step service move).course.master.outlet.capacity =
      l.course.master.outlet.capacity := by
  cases move with
  | start =>
    simp only [step]
    split
    · rfl
    · exact (Master.changes_step _ _).capacity
  | forward most => exact (Master.changes_step _ (.receive (some most))).capacity
  | back most => exact (Master.changes_step _ (.send _)).capacity
  | stall stalls => exact (Master.changes_step _ (.wake _)).capacity

theorem capacity_run (l : Link σ) (moves : List Move) :
    (l.run service moves).course.master.outlet.capacity =
      l.course.master.outlet.capacity := by
  induction moves generalizing l with
  | nil => rfl
  | cons move moves ih => exact (ih _).trans (capacity_step l move)

/-- When no attempt to write is treated in a special way, bytes flow. -/
theorem isFlowing_stall (l : Link σ) :
    (l.step service (.stall [])).course.master.IsFlowing :=
  Master.isFlowing_giveTurns
    (m := { l.course.master with outlet := { l.course.master.outlet with treatments := [] } }) rfl _

/-- When bytes flow, the slave can receive all of them, and then nobody waits to write. -/
theorem Holds.drained (hsound : service.IsSound) {requests : List (UnitId × Request)}
    (hdeals : deals = Deal.agenda service initial requests) (ho : Deal.InOrder deals)
    {ℓ : Ledger} {served : Nat} {l : Link σ} (h : Holds service initial deals ℓ served l)
    (hflowing : l.course.master.IsFlowing) (hcapacity : 0 < l.course.master.outlet.capacity) :
    let l' := l.step service (.forward ((Ledger.frames deals).length + 1))
    l'.course.master.queue = [] ∧ l'.course.master.outlet.carried = [] := by
  intro l'
  obtain ⟨ℓ', served', h'⟩ := h.step_forward hsound hdeals ho ((Ledger.frames deals).length + 1)
  have hcapacity' : l'.course.master.outlet.capacity = l.course.master.outlet.capacity :=
    capacity_step l _
  obtain ⟨hflowing', hall⟩ :=
    Master.receive_drains hflowing ((Ledger.frames deals).length + 1)
  -- The slave cannot receive more than the frames of all deals.
  have hreceived : (l.course.master.receive ((Ledger.frames deals).length + 1)).received.length
      ≤ (Ledger.frames deals).length := by
    obtain ⟨later, hlater⟩ := h'.sent_le
    have hbytes := congrArg List.length h'.ledger.bytes
    have hdeals := congrArg (fun ds => (Ledger.frames ds).length) hlater
    simp only [Ledger.frames_append, List.length_append] at hdeals
    have hcourse : l'.course.received = l.course.received ++
      (l.course.master.receive ((Ledger.frames deals).length + 1)).received := rfl
    rw [List.length_append, hcourse, List.length_append] at hbytes
    omega
  have htransit : l'.course.master.outlet.transit = [] :=
    hall.resolve_left (Nat.not_le.2 (Nat.lt_succ_of_le hreceived))
  have hqueue : l'.course.master.queue = [] := by
    refine hflowing'.full.resolve_right fun hfull => ?_
    have hfull : l'.course.master.outlet.capacity ≤ l'.course.master.outlet.transit.length := hfull
    rw [htransit, hcapacity'] at hfull
    exact Nat.not_le.2 hcapacity hfull
  have hwritten : ℓ'.written = [] :=
    List.map_eq_nil_iff.1 (List.append_eq_nil_iff.1 (h'.ledger.queue.symm.trans hqueue)).1
  refine ⟨hqueue, ?_⟩
  rw [Outlet.carried, h'.ledger.outlet.lost, htransit, h'.ledger.buffer hwritten]
  rfl

/-- Whatever has happened, a link can settle. -/
theorem Holds.exists_settled (hsound : service.IsSound) {requests : List (UnitId × Request)}
    (hdeals : deals = Deal.agenda service initial requests) (ho : Deal.InOrder deals)
    {ℓ : Ledger} {served : Nat} {l : Link σ} (h : Holds service initial deals ℓ served l)
    (hcapacity : 0 < l.course.master.outlet.capacity) :
    ∃ moves, (l.run service moves).IsSettled := by
  obtain ⟨starts, hstarts⟩ := exists_started service l
  obtain ⟨ℓ₁, served₁, h₁⟩ := h.run hsound hdeals ho (starts ++ [.stall []])
  let l₁ := l.run service (starts ++ [.stall []])
  have hl₁ : l₁ = (l.run service starts).step service (.stall []) := run_append l starts _
  have hcapacity₁ : 0 < l₁.course.master.outlet.capacity :=
    (capacity_run l (starts ++ [.stall []])).symm ▸ hcapacity
  have hwaiting₁ : l₁.waiting = [] := hl₁ ▸ hstarts
  have hflowing₁ : l₁.course.master.IsFlowing := hl₁ ▸ isFlowing_stall _
  obtain ⟨hqueue, hcarried⟩ := h₁.drained hsound hdeals ho hflowing₁ hcapacity₁
  let l₂ := l₁.step service (.forward ((Ledger.frames deals).length + 1))
  obtain ⟨hqueue', houtlet⟩ :=
    Master.idle_send hqueue (l₂.returning.take l₂.returning.length)
  refine ⟨starts ++ [.stall []] ++
    [.forward ((Ledger.frames deals).length + 1), .back l₂.returning.length], ?_⟩
  rw [run_append]
  show (l₂.step service (.back l₂.returning.length)).IsSettled
  constructor
  case waiting => exact hwaiting₁
  case queue => exact hqueue'
  case outlet => exact (congrArg Outlet.carried houtlet).trans hcarried
  case returning => exact List.drop_length

end Link

/-- A master carries out requests over one connection, and the slave at the other end serves them
from the registers of an image. In every run, whatever a call has been told is what direct execution
of the requests, in the order of their starts, answers to it, and no call is told something twice.
When everything has been started and nothing is on the way, every call has been told its answer, and
the registers are as direct execution leaves them. Every run can be continued to that point if the
transport carries anything at all. -/
theorem ProcessImage.link_refines_handle (image : ProcessImage) (memory : Memory)
    (requests : List (UnitId × Request)) (hlength : requests.length ≤ Table.capacity)
    (hrequests : ∀ r ∈ requests, r.2.function.IsOrdinary ∧ r.2.size ≤ Pdu.maxSize)
    (policy : UnitPolicy) (capacity : Nat) (moves : List Link.Move) :
    let direct := Service.executeAll image.handle memory requests
    let l := (Link.attach policy capacity memory requests).run image.handle moves
    (∀ i result, (i, result) ∈ l.course.told →
      ∃ answer, direct.1[i]? = some answer ∧ result = .ok answer) ∧
      (l.course.told.map (·.1)).Nodup ∧
      (l.IsSettled →
        (∀ i answer, direct.1[i]? = some answer → (i, .ok answer) ∈ l.course.told) ∧
          l.state = direct.2) ∧
      (0 < capacity → ∃ moves', (l.run image.handle moves').IsSettled) := by
  intro direct l
  let deals := Deal.agenda image.handle memory requests
  have hsound := image.isSound_handle
  have ho : Deal.InOrder deals := Deal.inOrder_agenda image.handle hsound memory hlength hrequests
  have horders : deals.map Deal.order = requests :=
    Deal.map_order_agendaFrom image.handle 0 memory requests
  have hanswers : direct.1 = deals.map (·.answer) := by
    have := Deal.executeAll_of_append image.handle (List.prefix_refl deals)
    rwa [horders] at this
  obtain ⟨ℓ, served, h⟩ :=
    (Link.Holds.attach policy capacity requests).run hsound rfl ho moves
  refine ⟨fun i result hr => ?_, h.nodup_told ho, fun hl => ?_, fun hcapacity => ?_⟩
  · obtain ⟨d, hd, hresult⟩ := h.result_eq ho hr
    exact ⟨d.answer, by rw [hanswers, List.getElem?_map, hd]; rfl, hresult⟩
  · obtain ⟨hended, hstate⟩ := h.of_settled ho hl
    refine ⟨fun i answer ha => ?_, by rw [hstate, horders]⟩
    rw [hanswers, List.getElem?_map] at ha
    obtain ⟨d, hd, rfl⟩ := Option.map_eq_some_iff.1 ha
    rw [h.ledger.told, ← ho.number hd]
    exact List.mem_map_of_mem (hended.mem_iff.2 (List.mem_of_getElem? hd))
  · refine h.exists_settled hsound rfl ho ?_
    rw [Link.capacity_run]
    exact hcapacity

/-- A register is written and read back, and a function that the slave does not know is refused,
over a transport that carries five bytes at a time. -/
theorem ProcessImage.link_refines_handle_readBack :
    let image : ProcessImage := ⟨(∅ : Std.TreeMap UnitId Nat).insert 1 0⟩
    let memory : Memory := ⟨[⟨⟨[0, 0]⟩, false⟩]⟩
    let requests : List (UnitId × Request) := [(1, .writeSingleRegister 1 7),
      (1, .readHoldingRegisters 0 2), (2, .custom 0x41 [])]
    (requests.length ≤ Table.capacity ∧
      ∀ r ∈ requests, r.2.function.IsOrdinary ∧ r.2.size ≤ Pdu.maxSize) ∧
    ∃ moves, let l := (Link.attach .warn 5 memory requests).run image.handle moves
      l.IsSettled ∧ l.state = ⟨[⟨⟨[0, 7]⟩, false⟩]⟩ ∧
        (1, .ok (.ok (.readHoldingRegisters [0, 7]))) ∈ l.course.told ∧
        (2, .ok (.error .illegalFunction)) ∈ l.course.told := by
  intro image memory requests
  have hlength : requests.length ≤ Table.capacity := by decide
  have hrequests : ∀ r ∈ requests, r.2.function.IsOrdinary ∧ r.2.size ≤ Pdu.maxSize := by decide
  obtain ⟨-, -, -, hsettles⟩ :=
    image.link_refines_handle memory requests hlength hrequests .warn 5 []
  obtain ⟨moves, hsettled⟩ := hsettles (by decide)
  obtain ⟨-, -, hall, -⟩ :=
    image.link_refines_handle memory requests hlength hrequests .warn 5 moves
  obtain ⟨htold, hstate⟩ := hall hsettled
  exact ⟨⟨hlength, hrequests⟩, moves, hsettled, hstate.trans rfl, htold 1 _ rfl, htold 2 _ rfl⟩

end Modbus
