import Modbus.Proofs.Slave.Reception

/-!
# The slots of a listener

`Reception.SlotChange` says what becomes of the slots by an event: at most one of them is taken or
given back, unless all are given back by an abort. `Reception.IsProper` is the invariant that
follows from it: each slot is free or has one holder (`Reception.IsProper.step`,
`Reception.IsProper.run`). Numbers are given to connections once, so a connection that has given its
slot back does not get another one (`Reception.IsProper.mem_holders_run`) and ends only once
(`Reception.IsProper.nodup_departures`).
-/

namespace Modbus.Reception

variable {κ σ : Type} {service : κ → Service σ} {s s' : Reception κ σ} {e : ListenerEvent κ}
  {g : Guest κ} {served : Served σ} {limit : Option Nat} {m : Nat} {cause : Option Error}

/-! ## Slots -/

/-- What becomes of the slots and of those who hold them. -/
inductive SlotChange (s s' : Reception κ σ) : Prop where
  | kept (hholders : s'.listener.holders = s.listener.holders)
    (hfree : s'.listener.free = s.listener.free) (haccepted : s.accepted ≤ s'.accepted)
  /-- The next connection takes a free slot. -/
  | taken (hopen : s.listener.isAborted = false) (hroom : s.listener.hasRoom)
    (hholders : s'.listener.holders = s.listener.holders ++ [s.accepted])
    (hfree : s'.listener.free = s.listener.free.map (· - 1))
    (haccepted : s'.accepted = s.accepted + 1)
  /-- A holder gives its slot back. -/
  | given {m : Nat} (hm : m ∈ s.listener.holders)
    (hholders : s'.listener.holders = s.listener.holders.erase m)
    (hfree : s'.listener.free = s.listener.free.map (· + 1)) (haccepted : s'.accepted = s.accepted)
  /-- All holders give their slots back. -/
  | emptied (hholders : s'.listener.holders = [])
    (hfree : s'.listener.free = s.listener.free.map (· + s.listener.holders.length))
    (haccepted : s'.accepted = s.accepted)

/-- Each slot is free, or one connection holds it. -/
structure IsProper (limit : Option Nat) (s : Reception κ σ) : Prop where
  slots : s.listener.free.map (· + s.listener.holders.length) = limit
  nodup : s.listener.holders.Nodup
  /-- The number of the next connection is new. -/
  lt_accepted : ∀ m ∈ s.listener.holders, m < s.accepted
  /-- The connections that are being served wait for the rest of a request. -/
  waiting : ∀ g ∈ s.listener.guests, g.connection.ended = none ∧
    Decoder.requests.next g.connection.buffer = .incomplete
  /-- Nobody holds a slot after an abort. -/
  closed : s.listener.isAborted → s.listener.holders = []

/-- An event moves at most one slot, unless it is an abort. -/
theorem Change.slots (h : Change service s e s') (hnodup : s.listener.holders.Nodup) :
    SlotChange s s' := by
  cases h with
  | idle => exact .kept rfl rfl (Nat.le_refl _)
  | dropped => exact .kept rfl rfl (Nat.le_succ _)
  | greeted hl hr =>
    simp only [Listener.isListening, Bool.and_eq_true, Bool.not_eq_true',
      Option.isNone_iff_eq_none] at hl
    refine .taken hl.1 hr ?_ rfl rfl
    simp [Listener.holders, Listener.takeSlot, hl.2]
  | joined hn => exact .kept (by simp [Listener.holders, hn]) rfl (Nat.le_refl _)
  | @refused number _ hn =>
    have hholders : s.listener.holders = s.listener.guests.map (·.number) ++ [number] := by
      rw [Listener.holders, hn]
      rfl
    have hnew : number ∉ s.listener.guests.map (·.number) := fun hmem =>
      (List.nodup_append.1 (hholders ▸ hnodup)).2.2 _ hmem _ (List.mem_singleton_self _) rfl
    refine .given (Listener.mem_holders.2 (.inr hn)) ?_ rfl rfl
    rw [hholders, List.erase_append_right _ hnew]
    simp [Listener.holders, Listener.freeSlot]
  | stayed hv hended =>
    refine .kept (Listener.holders_update hended _) ?_ (Nat.le_refl _)
    simp only [Listener.update, hended]
  | left hv =>
    have hserves := serves_of_visited hv
    exact .given (Listener.mem_holders.2 (.inl hserves))
      (Listener.holders_leave hnodup hserves _) rfl rfl
  | aborted => exact .emptied rfl rfl rfl

/-- Connections that have been accepted stay accepted. -/
theorem SlotChange.accepted_le (h : SlotChange s s') : s.accepted ≤ s'.accepted := by
  cases h with
  | kept _ _ haccepted => exact haccepted
  | taken _ _ _ _ haccepted => exact haccepted ▸ Nat.le_succ _
  | given _ _ _ haccepted | emptied _ _ haccepted => exact Nat.le_of_eq haccepted.symm

/-- Whoever holds a slot has held it before, or is the next connection. -/
theorem SlotChange.mem_holders (h : SlotChange s s') (hm : m ∈ s'.listener.holders) :
    m ∈ s.listener.holders ∨ m = s.accepted ∧ s'.accepted = s.accepted + 1 := by
  cases h with
  | kept hholders => exact .inl (hholders ▸ hm)
  | taken _ _ hholders _ haccepted =>
    rw [hholders, List.mem_append, List.mem_singleton] at hm
    exact hm.imp_right fun heq => ⟨heq, haccepted⟩
  | given _ hholders => exact .inl (List.mem_of_mem_erase (hholders ▸ hm))
  | emptied hholders => rw [hholders] at hm; cases hm

namespace IsProper

/-- The next connection may have a later number. -/
theorem of_le {accepted : Nat} (hp : s.IsProper limit) (h : s.accepted ≤ accepted) :
    ({ s with accepted } : Reception κ σ).IsProper limit :=
  { hp with lt_accepted := fun m hm => Nat.lt_of_lt_of_le (hp.lt_accepted m hm) h }

/-- The connection of a guest that goes on waits for the rest of a request. -/
theorem waiting_of_visited (hp : s.IsProper limit)
    (hv : visited? service s e = some (g, served)) (hended : served.connection.ended = none) :
    Decoder.requests.next served.connection.buffer = .incomplete := by
  obtain ⟨hg, hhappens⟩ := visited?_inv hv
  obtain ⟨hnone, hbuffer⟩ := hp.waiting g (Listener.guest?_inv hg).1
  rcases hhappens with ⟨chunk, -, rfl⟩ | ⟨-, rfl⟩
  · exact Connection.next_buffer_receive _ _ hnone hended
  · obtain ⟨cause, hcause, -⟩ := Connection.ended_finish (service g.key) s.state hnone hbuffer
    rw [hended] at hcause
    cases hcause

/-- Every event leaves a proper reception proper. -/
theorem step (hp : s.IsProper limit) (service : κ → Service σ) (e : ListenerEvent κ) :
    (s.step service e).IsProper limit := by
  have hchange := s.change service e
  generalize s.step service e = s' at hchange
  have hslots := hchange.slots hp.nodup
  constructor
  case slots =>
    have hlimit := hp.slots
    cases hslots with
    | kept hholders hfree => rw [hholders, hfree, hlimit]
    | taken _ hroom hholders hfree =>
      rw [hholders, hfree, ← hlimit]
      cases hf : s.listener.free with
      | none => rfl
      | some free =>
        -- there is room, so the subtraction cuts nothing off
        have hpos : 0 < free := by simpa [Listener.hasRoom, hf] using hroom
        simp only [Option.map_some, List.length_append, List.length_singleton, Option.some.injEq]
        omega
    | given hm hholders hfree =>
      have hlength := List.length_erase_of_mem hm
      have hpos := List.length_pos_of_mem hm
      rw [hholders, hfree, ← hlimit, hlength]
      cases s.listener.free with
      | none => rfl
      | some free =>
        simp only [Option.map_some, Option.some.injEq]
        omega
    | emptied hholders hfree =>
      rw [hholders, hfree, ← hlimit]
      cases s.listener.free <;> rfl
  case nodup =>
    cases hslots with
    | kept hholders => exact hholders ▸ hp.nodup
    | taken _ _ hholders =>
      have hnew : s.accepted ∉ s.listener.holders := fun hm =>
        Nat.lt_irrefl _ (hp.lt_accepted _ hm)
      rw [hholders, List.nodup_append]
      refine ⟨hp.nodup, by simp, fun m hm m' hm' heq => hnew ?_⟩
      rwa [← List.mem_singleton.1 hm', ← heq]
    | given _ hholders => exact hholders ▸ hp.nodup.erase _
    | emptied hholders => exact hholders ▸ List.nodup_nil
  case lt_accepted =>
    intro m hm
    rcases hslots.mem_holders hm with hbefore | ⟨rfl, haccepted⟩
    · exact Nat.lt_of_lt_of_le (hp.lt_accepted m hbefore) hslots.accepted_le
    · exact haccepted ▸ Nat.lt_succ_self _
  case waiting =>
    cases hchange with
    | idle | dropped | greeted | refused => exact hp.waiting
    | joined =>
      intro g hg
      rcases List.mem_append.1 hg with hbefore | hnew
      · exact hp.waiting g hbefore
      · cases List.mem_singleton.1 hnew
        exact ⟨rfl, rfl⟩
    | stayed hv hended =>
      intro g' hg'
      simp only [Listener.update, hended, List.mem_map] at hg'
      obtain ⟨g'', hg'', rfl⟩ := hg'
      split
      · exact ⟨hended, hp.waiting_of_visited hv hended⟩
      · exact hp.waiting g'' hg''
    | left => exact fun g hg => hp.waiting g (List.mem_filter.1 hg).1
    | aborted => exact fun g hg => by cases hg
  case closed =>
    intro haborted
    rcases hchange.isAborted.1 haborted with hbefore | rfl
    · have hnil := hp.closed hbefore
      cases hslots with
      | kept hholders => rw [hholders, hnil]
      | taken hopen => rw [hbefore] at hopen; cases hopen
      | given hm => rw [hnil] at hm; cases hm
      | emptied hholders => exact hholders
    · cases hchange with
      | idle ha => exact absurd rfl ha
      | stayed hv | left hv => cases hv
      | aborted => rfl

end IsProper

/-! ## Runs -/

section
variable (service : κ → Service σ)

/-- The reception after events. -/
def run (s : Reception κ σ) (events : List (ListenerEvent κ)) : Reception κ σ :=
  events.foldl (step service) s

/-- The connections that end, each with the error with which it ends, if there is one. -/
def departures (s : Reception κ σ) : List (ListenerEvent κ) → List (Nat × Option Error)
  | [] => []
  | e :: events => (departure? service s e).toList ++ departures (s.step service e) events

variable (s : Reception κ σ) (e : ListenerEvent κ) (events more : List (ListenerEvent κ))

theorem run_cons : s.run service (e :: events) = (s.step service e).run service events := rfl

/-- Later events go on from where earlier ones have led. -/
theorem run_append : s.run service (events ++ more) = (s.run service events).run service more :=
  List.foldl_append

end

variable {events : List (ListenerEvent κ)}

/-- Hence a proper reception stays proper in every run. -/
theorem IsProper.run (hp : s.IsProper limit) (service : κ → Service σ)
    (events : List (ListenerEvent κ)) : (s.run service events).IsProper limit := by
  induction events generalizing s with
  | nil => exact hp
  | cons e events ih => exact ih (hp.step service e)

/-- Whoever holds a slot later holds it already, or is a connection that comes later. -/
theorem IsProper.mem_holders_run (hp : s.IsProper limit)
    (hm : m ∈ (s.run service events).listener.holders) :
    m ∈ s.listener.holders ∨ s.accepted ≤ m := by
  induction events generalizing s with
  | nil => exact .inl hm
  | cons e events ih =>
    have hslots := (s.change service e).slots hp.nodup
    rcases ih (hp.step service e) hm with hnext | hlater
    · exact (hslots.mem_holders hnext).imp_right fun heq => Nat.le_of_eq heq.1.symm
    · exact .inr (Nat.le_trans hslots.accepted_le hlater)

/-- A connection that ends has been served, and is not served afterwards. -/
theorem IsProper.departed (hp : s.IsProper limit)
    (h : departure? service s e = some (m, cause)) :
    s.listener.serves m ∧ m ∉ (s.step service e).listener.holders ∧
      (s.step service e).accepted = s.accepted := by
  obtain ⟨hserves, hleave, haccepted⟩ := step_of_departure h
  refine ⟨hserves, ?_, haccepted⟩
  rw [hleave, Listener.holders_leave hp.nodup hserves]
  exact hp.nodup.not_mem_erase

/-- A connection that ends during a run has held a slot before, or comes during the run. -/
theorem IsProper.mem_departures (hp : s.IsProper limit)
    (hm : m ∈ (departures service s events).map (·.1)) :
    m ∈ s.listener.holders ∨ s.accepted ≤ m := by
  induction events generalizing s with
  | nil => cases hm
  | cons e events ih =>
    have hslots := (s.change service e).slots hp.nodup
    rw [departures, List.map_append, List.mem_append] at hm
    rcases hm with hnow | hlater
    · obtain ⟨⟨_, cause⟩, hd, rfl⟩ := List.mem_map.1 hnow
      exact .inl (Listener.mem_holders.2 (.inl (hp.departed (Option.mem_toList.1 hd)).1))
    · rcases ih (hp.step service e) hlater with hnext | hle
      · exact (hslots.mem_holders hnext).imp_right fun heq => Nat.le_of_eq heq.1.symm
      · exact .inr (Nat.le_trans hslots.accepted_le hle)

/-- No connection ends twice. -/
theorem IsProper.nodup_departures (hp : s.IsProper limit) (service : κ → Service σ)
    (events : List (ListenerEvent κ)) : ((departures service s events).map (·.1)).Nodup := by
  induction events generalizing s with
  | nil => exact List.nodup_nil
  | cons e events ih =>
    rw [departures, List.map_append]
    cases hd : departure? service s e with
    | none => exact ih (hp.step service e)
    | some d =>
      obtain ⟨m, cause⟩ := d
      obtain ⟨hserves, hgone, haccepted⟩ := hp.departed hd
      refine List.nodup_cons.2 ⟨fun hagain => ?_, ih (hp.step service e)⟩
      -- it has no slot any more, and later connections have other numbers
      have hlt := hp.lt_accepted m (Listener.mem_holders.2 (.inl hserves))
      rcases (hp.step service e).mem_departures hagain with hnext | hle
      · exact hgone hnext
      · exact absurd (haccepted ▸ hle) (Nat.not_le.2 hlt)

end Modbus.Reception
