import Modbus.Proofs.Master.Changes
import Modbus.Proofs.Transaction.Agreement

/-!
# Nobody waits for what has come

A master is quiet if no call that waits could be given its delivery (`Master.IsQuiet`). Frames are
passed on one after another, and after each of them the master is quiet (`Master.isQuiet_collect`).
Giving turns keeps it quiet, because a call that leaves the queue looks for its delivery at once
(`Master.isQuiet_giveTurns`).
-/

namespace Modbus.Master

variable {m : Master}

/-- No call that waits could be given its delivery. -/
def IsQuiet (m : Master) : Prop := ∀ c ∈ m.awaiting, m.deliveryFor? c = none

/-- There is nothing for somebody who holds a ticket if nothing has been delivered and the table
knows the ticket. -/
theorem delivery?_eq_none {desk : Desk} {serial : Serial} :
    (desk.outlook? serial).bind Desk.Outlook.delivery? = none ↔
      ∀ ticket, desk.tickets[serial]? = some ticket → ticket.delivery = none ∧
        desk.table.entries[ticket.id]? = some (.pending serial) := by
  unfold Desk.outlook?
  cases ht : desk.tickets[serial]? with
  | none => simp
  | some ticket =>
    cases hd : ticket.delivery with
    | some => simp [hd, Desk.Outlook.delivery?]
    | none =>
      by_cases hp : desk.table.entries[ticket.id]? = some (.pending serial) <;>
        simp [hd, hp, Desk.Outlook.delivery?]

/-- Dropping a ticket brings nobody a delivery. -/
theorem deliveryFor?_drop {desk : Desk} {serial serial' : Serial}
    (h : (desk.outlook? serial').bind Desk.Outlook.delivery? = none) :
    ((desk.drop serial).outlook? serial').bind Desk.Outlook.delivery? = none := by
  rw [delivery?_eq_none] at *
  intro ticket ht
  have hne : serial ≠ serial' := by
    rintro rfl
    rw [Desk.getElem?_drop, if_pos rfl] at ht
    cases ht
  obtain ⟨hd, hpending⟩ := h ticket (Desk.tickets_of_drop ht)
  refine ⟨hd, ?_⟩
  rcases desk.entries_drop serial ticket.id with hk | ⟨_, -, -, hp, -⟩
  · rw [hk, hpending]
  · rw [hpending] at hp
    cases hp
    exact absurd rfl hne

/-- Nor does the issue of a ticket. -/
theorem deliveryFor?_allocate {desk desk' : Desk} {serial serial' : Serial} {ticket : Ticket}
    (hok : desk.allocate = .ok (serial, ticket, desk'))
    (h : (desk.outlook? serial').bind Desk.Outlook.delivery? = none) :
    (desk'.outlook? serial').bind Desk.Outlook.delivery? = none := by
  obtain ⟨table, htable, rfl, hticket, rfl⟩ := Desk.allocate_inv hok
  have hnew := Table.not_pending_of_allocate htable
  obtain ⟨next, rfl⟩ := Table.eq_enter_of_allocate htable
  rw [delivery?_eq_none] at *
  intro ticket' ht
  simp only [Std.TreeMap.getElem?_insert, Nat.compare_eq_eq] at ht
  rw [Table.getElem?_enter]
  split at ht <;> rename_i hs
  · cases ht
    rw [if_pos rfl, hs]
    exact ⟨by rw [hticket], rfl⟩
  · obtain ⟨hd, hpending⟩ := h ticket' ht
    have hne : ticket.id ≠ ticket'.id := fun heq => hnew serial' (heq ▸ hpending)
    rw [if_neg hne]
    exact ⟨hd, hpending⟩

/-- To mark a ticket as sent makes no difference for anybody. -/
theorem deliveryFor?_markSent (desk : Desk) (serial serial' : Serial) :
    ((desk.markSent serial).outlook? serial').bind Desk.Outlook.delivery? =
      (desk.outlook? serial').bind Desk.Outlook.delivery? := by
  unfold Desk.outlook?
  rw [Desk.table_markSent, Desk.markSent, Desk.getElem?_modify]
  split <;> rename_i hs
  · subst hs
    cases desk.tickets[serial]? <;> rfl
  · rfl

/-- The end of a call brings nobody else a delivery. -/
theorem isQuiet_finishCall (h : m.IsQuiet) (c : Call) (result : CallResult) :
    (m.finishCall c result).master.IsQuiet := fun c' hc' => deliveryFor?_drop (h c' hc')

/-- A call waits only if there is no delivery for it. -/
theorem isQuiet_await (h : m.IsQuiet) (c : Call) : (m.await c).master.IsQuiet := by
  unfold await
  split <;> rename_i hd
  · exact isQuiet_finishCall h c _
  · intro c' hc'
    rcases List.mem_append.1 hc' with hc' | hc'
    · exact h c' hc'
    · rw [List.mem_singleton.1 hc']
      exact hd

/-- Calls that look for their deliveries one after another keep a master quiet. -/
theorem isQuiet_settle (h : m.IsQuiet) (cs : List Call) : (m.settle cs).master.IsQuiet := by
  induction cs generalizing m with
  | nil => exact h
  | cons c cs ih => exact ih (isQuiet_await h c)

/-- When deliveries have been looked for, nobody waits for what has come. -/
theorem isQuiet_collect (m : Master) : m.collect.master.IsQuiet :=
  isQuiet_settle (m := { m with awaiting := [] }) nofun m.awaiting

/-! ## Turns -/

theorem isQuiet_withOutlet (h : m.IsQuiet) (outlet : Outlet) :
    IsQuiet { m with outlet } := h

/-- What a turn leads to, however it ends. -/
def Turn.outcome : Turn → Outcome
  | .stalled _ o | .over o => o

/-- A call whose frame has been sent looks for its delivery before it waits. -/
theorem isQuiet_flushFrame (h : m.IsQuiet) (c : Call) :
    (m.flushFrame c).outcome.master.IsQuiet := by
  unfold flushFrame
  split
  · exact isQuiet_await (isQuiet_withOutlet h _) c
  · exact h
  · exact isQuiet_finishCall (isQuiet_withOutlet h _) c _

/-- So does a call that appends its frame first. -/
theorem isQuiet_sendFrame (h : m.IsQuiet) (c : Call) :
    (m.sendFrame c).outcome.master.IsQuiet := by
  have hwritten : (m.writeFrame c).master.IsQuiet := fun c' hc' => by
    rw [deliveryFor?, writeFrame, deliveryFor?_markSent]
    exact h c' hc'
  have hflush := isQuiet_flushFrame hwritten c
  simp only [sendFrame]
  split <;> rename_i ho <;> rw [ho] at hflush <;> exact hflush

/-- A turn keeps a master quiet. -/
theorem isQuiet_turn (h : m.IsQuiet) (c : Call) (isWritten : Bool) :
    (m.turn c isWritten).outcome.master.IsQuiet := by
  unfold turn
  split
  · exact isQuiet_flushFrame h c
  · split
    · exact isQuiet_sendFrame h c
    · split
      · exact isQuiet_sendFrame (isQuiet_withOutlet h _) c
      · exact h
      · exact isQuiet_finishCall (isQuiet_withOutlet h _) c _

/-- Giving turns keeps a master quiet. -/
theorem isQuiet_giveTurns (h : m.IsQuiet) (queue : List Waiter) :
    (m.giveTurns queue).master.IsQuiet := by
  induction queue generalizing m with
  | nil => exact h
  | cons w rest ih =>
    cases w with
    | disconnect id => exact ih (isQuiet_withOutlet h _)
    | call c isWritten =>
      have hturn := isQuiet_turn h c isWritten
      unfold giveTurns
      split <;> rename_i ho <;> rw [ho] at hturn
      · exact ih hturn
      · exact hturn

/-- A master stays quiet when a waiter joins its queue. -/
theorem isQuiet_enqueue (h : m.IsQuiet) (w : Waiter) : (m.enqueue w).master.IsQuiet := by
  unfold enqueue
  split
  · exact isQuiet_giveTurns h [w]
  · exact h

/-- It stays quiet when its peer receives bytes. -/
theorem isQuiet_receive (h : m.IsQuiet) (most : Nat) : (m.receive most).master.IsQuiet := by
  induction m, most using receive_induct with
  | stop m most hn =>
    rw [receive_of_zero m hn]
    exact h
  | goOn m most n hn hpos ih =>
    rw [receive_of_pos m hn hpos]
    exact ih _ (isQuiet_giveTurns (m := (m.take n).master) h _)

/-- After each frame that is passed on, deliveries are looked for. -/
theorem isQuiet_deliver (h : m.IsQuiet) (fs : List Frame) : (m.deliver fs).master.IsQuiet := by
  induction fs generalizing m with
  | nil => exact h
  | cons f fs ih => exact ih (isQuiet_collect _)

/-! ## Happenings -/

/-- Nobody has to wait for more when others are forgotten. -/
theorem isQuiet_remove (h : m.IsQuiet) (p : Waiter → Bool) : (m.remove p).IsQuiet :=
  fun c hc => h c (List.mem_filter.1 hc).1

/-- A master stays quiet when the turn passes to the next waiter. -/
theorem isQuiet_withdraw (h : m.IsQuiet) (p : Waiter → Bool) : (m.withdraw p).master.IsQuiet := by
  unfold withdraw
  split
  · exact isQuiet_giveTurns (isQuiet_remove h p) _
  · exact isQuiet_remove h p

/-- It stays quiet when a call is given up. -/
theorem isQuiet_giveUp (h : m.IsQuiet) (c : Call) : (m.giveUp c).master.IsQuiet := by
  unfold giveUp
  split
  · exact isQuiet_withdraw (isQuiet_finishCall h c _) _
  · exact h

/-- It stays quiet at the deadline of a call. -/
theorem isQuiet_expire (h : m.IsQuiet) (c : Call) : (m.expire c).master.IsQuiet := by
  unfold expire
  split
  · exact isQuiet_giveUp (isQuiet_giveTurns h _) c
  · exact isQuiet_giveUp h c

/-- It stays quiet at several deadlines, one after another. -/
theorem isQuiet_expireAll (h : m.IsQuiet) (cs : List Call) : (m.expireAll cs).master.IsQuiet := by
  induction cs generalizing m with
  | nil => exact h
  | cons c cs ih => exact ih (isQuiet_expire h c)

/-- A call that is started finds no delivery under its new ticket. -/
theorem isQuiet_start (h : m.IsQuiet) (id : CallId) (unit : UnitId) (request : Request)
    (timeout : Option Span) : (m.start id unit request timeout).master.IsQuiet := by
  unfold start
  split
  · exact h
  · rename_i c desk hnew
    obtain ⟨ticket, hok, -⟩ := newCall_inv hnew
    have hissued : IsQuiet { m with desk } := fun c' hc' => deliveryFor?_allocate hok (h c' hc')
    have henqueue := isQuiet_enqueue hissued (.call c false)
    dsimp only
    split
    · exact isQuiet_giveUp henqueue c
    · exact henqueue

/-- A caller that gives up its call brings nobody else a delivery. -/
theorem isQuiet_cancel (h : m.IsQuiet) (id : CallId) : (m.cancel id).master.IsQuiet := by
  unfold cancel
  split
  · exact isQuiet_withdraw (isQuiet_finishCall h _ (.error (.timeout 0))) _
  · exact isQuiet_withdraw h _

/-- After everything that has been read, deliveries are looked for. -/
theorem isQuiet_hear (h : m.IsQuiet) (r : Reading Frame) : (m.hear r).master.IsQuiet := by
  have hdeliver := isQuiet_deliver
    (m := { m with inlet := { m.inlet with buffer := r.rest } }) h r.items
  unfold hear
  rw [Outcome.master_andThen]
  split
  · exact isQuiet_collect _
  · exact hdeliver

/-- Whatever happens, nobody waits for what has come. -/
theorem isQuiet_step (h : m.IsQuiet) (happening : Happening) :
    (m.step happening).master.IsQuiet := by
  cases happening with
  | start id unit request timeout => exact isQuiet_start h id unit request timeout
  | cancel id => exact isQuiet_cancel h id
  | disconnect id => exact isQuiet_enqueue (isQuiet_collect _) _
  | advance span => exact isQuiet_expireAll (m := { m with clock := m.clock + span }) h _
  | receive most => exact isQuiet_receive h _
  | send bytes =>
    simp only [step, send]
    split
    · exact h
    · exact isQuiet_hear h _
  | finish =>
    simp only [step, finish]
    split
    · exact h
    · rw [Outcome.master_andThen]
      split
      · exact isQuiet_hear h _
      · exact isQuiet_collect _
  | deafen => exact isQuiet_giveTurns (isQuiet_withOutlet h _) _
  | wake treatments => exact isQuiet_giveTurns (isQuiet_withOutlet h _) _

/-- So a master that has been quiet is quiet after every run. -/
theorem isQuiet_run (h : m.IsQuiet) (hs : List Happening) : (m.run hs).master.IsQuiet := by
  induction hs generalizing m with
  | nil => exact h
  | cons happening hs ih => exact ih (isQuiet_step h happening)

end Modbus.Master
