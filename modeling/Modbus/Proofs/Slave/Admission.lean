import Modbus.Proofs.Slave.Slots

/-!
# Who is served

A listener serves as many connections as its limit allows, whatever happens around it and in
whatever order (`Reception.admits_to_limit`). At every moment (`Reception.IsExact`) each slot is
free, or a connection has it that is being served or set up; so a connection is taken if and only if
fewer connections are being served than the limit allows. Whoever has had a slot gives it back once,
and the others are served on. Only the connections that end with an error are reported, each once.
Without a limit every connection is taken.
-/

namespace Modbus.Reception

variable {κ σ : Type} {service : κ → Service σ} {s s' : Reception κ σ} {e : ListenerEvent κ}
  {g : Guest κ} {served : Served σ} {limit : Option Nat} {k m : Nat} {cause : Option Error}

/-! ## At a moment -/

/-- Between set-ups there is room if and only if fewer connections are served than are allowed. -/
theorem IsProper.hasRoom_iff (hp : s.IsProper limit) (hl : s.listener.isListening) :
    s.listener.hasRoom ↔ ∀ n, limit = some n → s.listener.guests.length < n := by
  have hslots := hp.slots
  simp only [Listener.holders, Listener.newcomer_of_isListening hl, Option.toList_none,
    List.append_nil, List.length_map] at hslots
  rw [Listener.hasRoom, ← hslots]
  cases s.listener.free with
  | none => simp
  | some free => simp

/-- A newcomer remains one until its set-up ends or the listener is aborted. -/
theorem Change.newcomer (h : Change service s e s') (hn : s.listener.newcomer = some k)
    (ha : e ≠ .abort) (hs : ∀ outcome, e ≠ .setUp outcome) : s'.listener.newcomer = some k := by
  cases h with
  | idle => exact hn
  | dropped hl | greeted hl => simp [Listener.isListening, hn] at hl
  | joined | refused => exact absurd rfl (hs _)
  | stayed _ hended => simpa only [Listener.update, hended] using hn
  | left => exact hn
  | aborted => exact absurd rfl ha

/-- A connection ends without an error if and only if its stream ends behind a request. -/
theorem IsProper.departure?_eq_none_iff (hp : s.IsProper limit) :
    departure? service s e = some (k, none) ↔
      e = .finish k ∧ ∃ g ∈ s.listener.guests, g.number = k ∧ g.connection.buffer = [] := by
  constructor
  · intro h
    obtain ⟨g, served, hv, rfl, hended⟩ := departure?_inv h
    obtain ⟨hg, hhappens⟩ := visited?_inv hv
    obtain ⟨hmem, -⟩ := Listener.guest?_inv hg
    obtain ⟨hnone, hbuffer⟩ := hp.waiting g hmem
    rcases hhappens with ⟨chunk, -, rfl⟩ | ⟨rfl, rfl⟩
    · exact absurd hended (Connection.ended_receive_ne _ _ hnone chunk)
    · obtain ⟨cause, hcause, hempty⟩ :=
        Connection.ended_finish (service g.key) s.state hnone hbuffer
      exact ⟨rfl, g, hmem, rfl, hempty.1 (Option.some.inj (hcause.symm.trans hended))⟩
  · rintro ⟨rfl, g, hmem, rfl, hempty⟩
    obtain ⟨hnone, hbuffer⟩ := hp.waiting g hmem
    obtain ⟨cause, hcause, hnothing⟩ :=
      Connection.ended_finish (service g.key) s.state hnone hbuffer
    have hv : visited? service s (.finish g.number) =
        some (g, g.connection.finish (service g.key) s.state) := by
      rw [visited?, Listener.guest?_of_mem hp.nodup hmem]
      rfl
    rw [departure?_of_visited hv, hcause, hnothing.2 hempty]
    rfl

/-- Whoever is not concerned is served on, from where it is. -/
theorem Change.guest_stays (h : Change service s e s') (ha : e ≠ .abort)
    (hg : g ∈ s.listener.guests)
    (hother : ∀ visited, visited? service s e = some visited → visited.1.number ≠ g.number) :
    g ∈ s'.listener.guests := by
  cases h with
  | idle | dropped | greeted | refused => exact hg
  | joined => exact List.mem_append_left _ hg
  | stayed hv hended =>
    simp only [Listener.update, hended, List.mem_map]
    exact ⟨g, hg, if_neg (Ne.symm (hother _ hv))⟩
  | left hv =>
    simp only [Listener.leave, List.mem_filter, decide_eq_true_eq]
    exact ⟨hg, Ne.symm (hother _ hv)⟩
  | aborted => exact absurd rfl ha

/-- A connection is served on until it ends. -/
theorem Change.serves_stays (h : Change service s e s') (hnodup : s.listener.holders.Nodup)
    (ha : e ≠ .abort) (hserves : s.listener.serves k)
    (hstays : ∀ cause, departure? service s e ≠ some (k, cause)) : s'.listener.serves k := by
  rw [Listener.serves_iff] at hserves ⊢
  cases h with
  | idle | dropped | greeted | refused => exact hserves
  | joined =>
    rw [List.map_append]
    exact List.mem_append_left _ hserves
  | stayed hv hended =>
    have hsame := Listener.numbers_update (l := s.listener) hended
    rwa [hsame]
  | @left _ g _ cause hv hended =>
    have hne : k ≠ g.number := by
      rintro rfl
      exact hstays cause (by rw [departure?_of_visited hv, hended]; rfl)
    rw [Listener.numbers_leave hnodup]
    exact (List.mem_erase_of_ne hne).2 hserves
  | aborted => exact absurd rfl ha

/-- A connection that ends leaves one guest less. -/
theorem IsProper.length_guests_of_departure (hp : s.IsProper limit)
    (hd : departure? service s e = some (k, cause)) :
    (s.step service e).listener.guests.length + 1 = s.listener.guests.length := by
  obtain ⟨hserves, hleave, -⟩ := step_of_departure hd
  have hmem := Listener.serves_iff.1 hserves
  have hpos := List.length_pos_of_mem hmem
  have hnumbers := congrArg List.length (Listener.numbers_leave hp.nodup k cause)
  rw [List.length_erase_of_mem hmem, ← hleave] at hnumbers
  simp only [List.length_map] at hnumbers hpos
  omega

/-- What is reported are the errors of the connections that end. -/
theorem reports_step (service : κ → Service σ) (s : Reception κ σ) (e : ListenerEvent κ) :
    (s.step service e).listener.reports =
      s.listener.reports ++ (departure? service s e).toList.filterMap (·.2) := by
  have hchange := s.change service e
  generalize s.step service e = s' at hchange
  cases hchange with
  | idle _ _ _ hv => simp [departure?, hv]
  | dropped | greeted | joined | refused | aborted =>
    simp [departure?, visited?, Listener.takeSlot, Listener.freeSlot, Listener.abort]
  | stayed hv hended => simp [departure?_of_visited hv, hended, Listener.update]
  | @left _ _ _ cause hv hended =>
    cases cause <;> simp [departure?_of_visited hv, hended, Listener.leave]

/-- What a listener does at a moment. -/
structure IsExact (service : κ → Service σ) (limit : Option Nat) (s : Reception κ σ) : Prop where
  /-- Each slot is free, or a connection has it that is being served or set up. -/
  slots : ∀ n, limit = some n → ∃ free, s.listener.free = some free ∧
    s.listener.guests.length + s.listener.newcomer.toList.length + free = n
  /-- Between set-ups the connections that are being served have all slots that are not free. -/
  settled : ∀ n, limit = some n → s.listener.newcomer = none →
    ∃ free, s.listener.free = some free ∧ s.listener.guests.length + free = n
  /-- If fewer are being served than are allowed, the service of a new connection is asked for. -/
  greeted : s.listener.isListening → (∀ n, limit = some n → s.listener.guests.length < n) →
    (s.step service .connect).listener.newcomer = some s.accepted ∧
      (s.step service .connect).listener.setups = s.listener.setups + 1
  /-- Otherwise the connection is dropped, and its service is not asked for. -/
  dropped : s.listener.isListening → ∀ n, limit = some n → s.listener.guests.length = n →
    (s.step service .connect).listener = s.listener
  /-- A newcomer with a service becomes a guest. -/
  joined : ∀ number key, s.listener.newcomer = some number →
    (s.step service (.setUp (.service key))).listener = { s.listener with
      newcomer := none, guests := s.listener.guests ++ [⟨number, key, {}⟩] }
  /-- A newcomer without a service gives its slot back, and nothing else changes. -/
  refused : ∀ number outcome, s.listener.newcomer = some number →
    (∀ key, outcome ≠ .service key) →
      (s.step service (.setUp outcome)).listener = { s.listener with
        newcomer := none, free := s.listener.free.map (· + 1) }
  /-- Whoever is not concerned is served on, from where it is. -/
  others : ∀ e, e ≠ .abort → ∀ g ∈ s.listener.guests,
    (∀ visited, visited? service s e = some visited → visited.1.number ≠ g.number) →
      g ∈ (s.step service e).listener.guests
  /-- A connection that is being served is served on until it ends. -/
  stays : ∀ e, e ≠ .abort → ∀ number, s.listener.serves number →
    (∀ cause, departure? service s e ≠ some (number, cause)) →
      (s.step service e).listener.serves number
  /-- A connection that ends has been served and gives its slot back; it is reported if it ends with
  an error. -/
  left : ∀ e number cause, departure? service s e = some (number, cause) →
    let l := (s.step service e).listener
    s.listener.serves number ∧ ¬ l.serves number ∧
      l.guests.length + 1 = s.listener.guests.length ∧
      l.free = s.listener.free.map (· + 1) ∧ l.newcomer = s.listener.newcomer ∧
      l.reports = s.listener.reports ++ cause.toList
  /-- If no connection ends, none is reported. -/
  silent : ∀ e, departure? service s e = none →
    (s.step service e).listener.reports = s.listener.reports
  /-- A connection ends without an error if and only if its stream ends behind a request. -/
  boundary : ∀ e number, departure? service s e = some (number, none) ↔
    e = .finish number ∧ ∃ g ∈ s.listener.guests, g.number = number ∧ g.connection.buffer = []

/-- A listener whose slots are in order does so. -/
theorem IsProper.isExact (hp : s.IsProper limit) (service : κ → Service σ) :
    IsExact service limit s := by
  have hslots : ∀ n, limit = some n → ∃ free, s.listener.free = some free ∧
      s.listener.guests.length + s.listener.newcomer.toList.length + free = n := by
    rintro n rfl
    obtain ⟨free, hfree, hn⟩ := Option.map_eq_some_iff.1 hp.slots
    simp only [Listener.holders, List.length_append, List.length_map] at hn
    exact ⟨free, hfree, by omega⟩
  constructor
  case slots => exact hslots
  case settled =>
    intro n hn hnone
    obtain ⟨free, hfree, hall⟩ := hslots n hn
    simp only [hnone, Option.toList_none, List.length_nil, Nat.add_zero] at hall
    exact ⟨free, hfree, hall⟩
  case greeted =>
    intro hl hfewer
    have hr := (hp.hasRoom_iff hl).2 hfewer
    simp [Reception.step, Listener.greet, hl, hr]
  case dropped =>
    intro hl n hn hfull
    have hr : ¬ s.listener.hasRoom := fun hr =>
      Nat.lt_irrefl n (hfull ▸ (hp.hasRoom_iff hl).1 hr n hn)
    simp [Reception.step, Listener.greet, hl, hr]
  case joined =>
    intro number key hn
    simp [Reception.step, Listener.settle, hn]
  case refused =>
    intro number outcome hn hnot
    cases outcome with
    | service key => exact absurd rfl (hnot key)
    | nothing | failed fault => simp [Reception.step, Listener.settle, Listener.freeSlot, hn]
  case others => exact fun e ha g hg hother => (s.change service e).guest_stays ha hg hother
  case stays =>
    exact fun e ha number hserves hstays =>
      (s.change service e).serves_stays hp.nodup ha hserves hstays
  case left =>
    intro e number cause hd
    obtain ⟨hserves, hleave, -⟩ := step_of_departure hd
    obtain ⟨-, hgone, -⟩ := hp.departed hd
    refine ⟨hserves, fun hagain => hgone (Listener.mem_holders.2 (.inl hagain)),
      hp.length_guests_of_departure hd, ?_⟩
    rw [hleave]
    exact ⟨rfl, rfl, rfl⟩
  case silent =>
    intro e hd
    simp [reports_step, hd]
  case boundary => exact fun e number => hp.departure?_eq_none_iff

/-! ## Throughout -/

/-- A listener that has just been opened. -/
def opened (limit : Option Nat) (state : σ) : Reception κ σ :=
  { listener := { free := limit }, state }

/-- A listener that has just been opened has all of its slots. -/
theorem isProper_opened (limit : Option Nat) (state : σ) :
    (opened limit state : Reception κ σ).IsProper limit where
  slots := by cases limit <;> rfl
  nodup := List.nodup_nil
  lt_accepted := fun _ hm => by cases hm
  waiting := fun _ hg => by cases hg
  closed := fun _ => rfl

section
variable (service : κ → Service σ) (s : Reception κ σ) (events : List (ListenerEvent κ))

/-- What is reported in a run are the errors of the connections that end in it. -/
theorem reports_run : (s.run service events).listener.reports =
    s.listener.reports ++ (departures service s events).filterMap (·.2) := by
  induction events generalizing s with
  | nil => simp [departures, run]
  | cons e events ih =>
    rw [run_cons, ih, reports_step, departures, List.filterMap_append, List.append_assoc]

/-- A listener has been aborted once somebody has aborted it. -/
theorem isAborted_run :
    (s.run service events).listener.isAborted ↔ s.listener.isAborted ∨ .abort ∈ events := by
  induction events generalizing s with
  | nil => simp [run]
  | cons e events ih =>
    rw [run_cons, ih, (s.change service e).isAborted, List.mem_cons, or_assoc, eq_comm (a := e)]

end

variable {events : List (ListenerEvent κ)}

/-- Whatever happens around it, a newcomer waits for the end of its set-up. -/
theorem newcomer_run (service : κ → Service σ) (hn : s.listener.newcomer = some k)
    (hquiet : ∀ e ∈ events, e ≠ .abort ∧ ∀ outcome, e ≠ .setUp outcome) :
    (s.run service events).listener.newcomer = some k := by
  induction events generalizing s with
  | nil => exact hn
  | cons e events ih =>
    obtain ⟨⟨ha, hs⟩, hquiet⟩ := List.forall_mem_cons.1 hquiet
    exact ih ((s.change service e).newcomer hn ha hs) hquiet

/-- A connection whose set-up ends is served if and only if it has got a service. -/
theorem IsProper.serves_setUp (hp : s.IsProper limit) (hn : s.listener.newcomer = some k)
    (service : κ → Service σ) (outcome : Setup κ) :
    (s.step service (.setUp outcome)).listener.serves k ↔ ∃ key, outcome = .service key := by
  have hnew : ¬ s.listener.serves k := fun hserves => by
    have hnodup := hp.nodup
    rw [Listener.holders, hn, List.nodup_append] at hnodup
    exact hnodup.2.2 k (Listener.serves_iff.1 hserves) k (List.mem_singleton_self k) rfl
  have hexact := hp.isExact service
  cases outcome with
  | service key =>
    rw [hexact.joined k key hn, Listener.serves_iff]
    simp
  | nothing | failed fault =>
    rw [hexact.refused k _ hn (by simp)]
    exact iff_of_false hnew (by simp)

/-- A connection that has been dropped or has given its slot back is never served again. -/
theorem IsProper.not_serves_run (hp : s.IsProper limit) (hk : k < s.accepted)
    (hgone : k ∉ s.listener.holders) : ¬ (s.run service events).listener.serves k := by
  intro hserves
  rcases hp.mem_holders_run (Listener.mem_holders.2 (.inl hserves)) with hm | hle
  · exact hgone hm
  · omega

/-- A listener admits connections up to its limit, and loses no slot. -/
structure AdmitsToLimit (service : κ → Service σ) (limit : Option Nat) (state : σ) : Prop where
  /-- So it is after any events. -/
  moment : ∀ events, IsExact service limit ((opened limit state).run service events)
  /-- A connection that is accepted is served if and only if fewer are being served at this moment
  than are allowed and its set-up, whatever happens meanwhile, gives a service. -/
  served : ∀ events between outcome, let s := (opened limit state).run service events
    s.listener.isListening → (∀ e ∈ between, e ≠ .abort ∧ ∀ outcome', e ≠ .setUp outcome') →
      ((s.run service (.connect :: between ++ [.setUp outcome])).listener.serves s.accepted ↔
        (∀ n, limit = some n → s.listener.guests.length < n) ∧ ∃ key, outcome = .service key)
  /-- Without a limit every connection is taken. -/
  unlimited : limit = none → ∀ events, let s := (opened limit state).run service events
    s.listener.isListening → (s.step service .connect).listener.newcomer = some s.accepted
  /-- A connection that has been dropped, has got no service or has ended is never served again. -/
  gone : ∀ events later number, let s := (opened limit state).run service events
    number < s.accepted → ¬ s.listener.serves number → s.listener.newcomer ≠ some number →
      ¬ (s.run service later).listener.serves number
  /-- The errors of the connections that have ended with one have been reported, in their order. -/
  reported : ∀ events, ((opened limit state).run service events).listener.reports =
    (departures service (opened limit state) events).filterMap (·.2)
  /-- No connection has ended twice. -/
  once : ∀ events, ((departures service (opened limit state) events).map (·.1)).Nodup
  /-- After an abort no connection is served or set up, all slots are free, and listening has come
  to its end. -/
  aborted : ∀ events, .abort ∈ events → let l := ((opened limit state).run service events).listener
    l.guests = [] ∧ l.newcomer = none ∧ l.free = limit ∧ l.terminated = some .aborted
  /-- Nothing else ends it. -/
  lasts : ∀ events, .abort ∉ events →
    ((opened limit state).run service events).listener.terminated = none

/-- **The limit is exact, and no slot is lost.** Whatever the limit, the services and the events,
and in whatever order these come: as many connections are served as have slots, a connection is
taken whenever there is a free slot, and every slot that is given back is given back once. -/
theorem admits_to_limit (service : κ → Service σ) (limit : Option Nat) (state : σ) :
    AdmitsToLimit service limit state := by
  have hproper : ∀ events, ((opened limit state).run service events).IsProper limit := fun events =>
    (isProper_opened limit state).run service events
  constructor
  case moment => exact fun events => (hproper events).isExact service
  case served =>
    intro events between outcome s hl hquiet
    have hp : s.IsProper limit := hproper events
    have hexact := hp.isExact service
    by_cases hfewer : ∀ n, limit = some n → s.listener.guests.length < n
    · -- it takes a slot, and waits until its set-up ends
      obtain ⟨hn, -⟩ := hexact.greeted hl hfewer
      have hwaits := newcomer_run service hn hquiet
      have hnext := ((hp.step service .connect).run service between).serves_setUp hwaits service
        outcome
      rw [and_iff_right hfewer, run_append]
      exact hnext
    · -- it is dropped, and its number is not given again
      have hr : s.listener.hasRoom = false :=
        Bool.eq_false_iff.2 fun hr => hfewer ((hp.hasRoom_iff hl).1 hr)
      have hstep : s.step service .connect = { s with accepted := s.accepted + 1 } := by
        simp [step, Listener.greet, hl, hr]
      have hdropped : (s.step service .connect).IsProper limit := hp.step service .connect
      refine iff_of_false ?_ fun h => hfewer h.1
      rw [List.cons_append, run_cons]
      rw [hstep] at hdropped ⊢
      exact hdropped.not_serves_run (Nat.lt_succ_self _) fun hm =>
        Nat.lt_irrefl _ (hp.lt_accepted _ hm)
  case unlimited =>
    intro hnone events s hl
    exact (((hproper events).isExact service).greeted hl (by simp [hnone])).1
  case gone =>
    intro events later number s hlt hserves hnewcomer
    refine (hproper events).not_serves_run hlt fun hm => ?_
    exact (Listener.mem_holders.1 hm).elim hserves hnewcomer
  case reported =>
    intro events
    rw [reports_run]
    rfl
  case once => exact fun events => (isProper_opened limit state).nodup_departures service events
  case aborted =>
    intro events ha l
    have haborted : l.isAborted := (isAborted_run service _ events).2 (.inr ha)
    have hnil := (hproper events).closed haborted
    obtain ⟨hguests, hnewcomer⟩ := List.append_eq_nil_iff.1 hnil
    have hslots := (hproper events).slots
    rw [hnil] at hslots
    refine ⟨List.map_eq_nil_iff.1 hguests, by simpa using hnewcomer, by simpa using hslots, ?_⟩
    rw [Listener.terminated, if_pos haborted]
  case lasts =>
    intro events ha
    have hlasts : ¬ ((opened limit state).run service events).listener.isAborted := fun h =>
      ((isAborted_run service _ events).1 h).elim (by simp [opened]) ha
    rw [Listener.terminated, if_neg hlasts]

/-- With one slot, a connection that gets no service leaves it to the next one, and a third
connection is dropped. -/
example : ((opened (some 1) ()).run (fun (_ : Unit) state _ _ => (.error .illegalFunction, state))
    [.connect, .setUp .nothing, .connect, .setUp (.service ()), .connect]).listener.holders = [1] :=
  rfl

end Modbus.Reception
