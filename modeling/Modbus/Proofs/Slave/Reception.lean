import Modbus.Proofs.Frame.Drain
import Modbus.Slave.Listener

/-!
# Runs of a listener

What happens around a listener is a list of events in any order: connections come, services are set
up, bytes come from guests, the streams of guests end, and the listener is aborted. A `Reception` is
a listener with the state of its services; it numbers connections in the order in which they are
accepted. `Reception.Change` says once what an event can do (`Reception.change`).

Whether a connection ends by an event, and with which error, is told from what becomes of the
connection itself (`Reception.departure?`), whatever the listener makes of it.
-/

namespace Modbus

/-! ## Connections -/

namespace Connection

variable {σ : Type} (service : Service σ) {c : Connection} (state : σ)

/-- A connection is not ended by bytes without an error. -/
theorem ended_receive_ne (h : c.ended = none) (chunk : Bytes) :
    (c.receive service state chunk).connection.ended ≠ some none := by
  simp only [receive, h, Option.isSome_none, Bool.false_eq_true, if_false, serve]
  split <;> simp

/-- As long as a connection goes on, there is no whole request in its buffer. -/
theorem next_buffer_receive (h : c.ended = none) {chunk : Bytes}
    (hgoes : (c.receive service state chunk).connection.ended = none) :
    Decoder.requests.next (c.receive service state chunk).connection.buffer = .incomplete := by
  simp only [receive, h, Option.isSome_none, Bool.false_eq_true, if_false, serve] at hgoes ⊢
  split at hgoes
  · cases hgoes
  · rename_i hnone
    exact Decoder.next_rest_of_drain (Option.or_eq_none_iff.1 hnone).2

/-- A connection whose stream ends has no error if and only if nothing is left in its buffer. -/
theorem ended_finish (h : c.ended = none) (hb : Decoder.requests.next c.buffer = .incomplete) :
    ∃ cause, (c.finish service state).connection.ended = some cause ∧
      (cause = none ↔ c.buffer = []) := by
  have hs := Decoder.next_incomplete_inv hb
  simp only [finish, h, Option.isSome_none, Bool.false_eq_true, if_false, serve]
  by_cases hne : c.buffer = []
  · have hlast : Decoder.requests.last c.buffer = .incomplete := by
      rw [hne]
      rfl
    rw [Decoder.drainLast_of_incomplete hlast]
    exact ⟨none, rfl, by simp [hne]⟩
  · have hlast : Decoder.requests.last c.buffer = _ := Decoder.last_of_incomplete hs hne
    rw [Decoder.drainLast_of_failed hlast]
    exact ⟨_, rfl, by simp [hne]⟩

end Connection

/-! ## Guests -/

namespace Listener

variable {κ : Type} {l : Listener κ} {m : Nat} {g : Guest κ}

/-- What is found under a number is a guest with this number. -/
theorem guest?_inv (h : l.guest? m = some g) : g ∈ l.guests ∧ g.number = m :=
  ⟨List.mem_of_find?_eq_some h, by simpa using List.find?_some h⟩

/-- A connection is served if and only if there is a guest with its number. -/
theorem serves_iff : l.serves m ↔ m ∈ l.guests.map (·.number) := by
  simp [serves, guest?]

/-- Slots are held by those who are served and by the newcomer. -/
theorem mem_holders : m ∈ l.holders ↔ l.serves m ∨ l.newcomer = some m := by
  rw [serves_iff, holders, List.mem_append, Option.mem_toList]

/-- The guest with a number is the only one with this number. -/
theorem guest?_of_mem (hnodup : l.holders.Nodup) (hg : g ∈ l.guests) :
    l.guest? g.number = some g := by
  have hnumbers := (List.nodup_append.1 hnodup).1
  rw [guest?]
  generalize l.guests = guests at hg hnumbers ⊢
  induction guests with
  | nil => cases hg
  | cons first rest ih =>
    rw [List.map_cons, List.nodup_cons] at hnumbers
    rcases List.mem_cons.1 hg with rfl | hrest
    · simp
    · have hne : first.number ≠ g.number := fun heq =>
        hnumbers.1 (heq ▸ List.mem_map_of_mem hrest)
      rw [List.find?_cons_of_neg (by simpa using hne)]
      exact ih hrest hnumbers.2

/-- A guest that leaves is no longer served, and all others are. -/
theorem numbers_leave (hnodup : l.holders.Nodup) (m : Nat) (cause : Option Error) :
    (l.leave m cause).guests.map (·.number) = (l.guests.map (·.number)).erase m := by
  have hother : (fun g : Guest κ => decide (g.number ≠ m)) = (· != m) ∘ (·.number) := by
    funext g
    rw [Bool.eq_iff_iff]
    simp
  rw [(List.nodup_append.1 hnodup).1.erase_eq_filter, List.filter_map, ← hother]
  rfl

/-- It gives up its slot, and nobody else does. -/
theorem holders_leave (hnodup : l.holders.Nodup) (hm : l.serves m) (cause : Option Error) :
    (l.leave m cause).holders = l.holders.erase m := by
  have hnumbers := numbers_leave hnodup m cause
  rw [holders, hnumbers, holders, List.erase_append_left _ (serves_iff.1 hm)]
  rfl

/-- The same connections are served while they go on. -/
theorem numbers_update {c : Connection} (h : c.ended = none) (m : Nat) :
    (l.update m c).guests.map (·.number) = l.guests.map (·.number) := by
  simp only [update, h, List.map_map]
  congr 1
  funext g
  simp only [Function.comp]
  split <;> rfl

/-- A guest that goes on keeps its slot, and so do all others. -/
theorem holders_update {c : Connection} (h : c.ended = none) (m : Nat) :
    (l.update m c).holders = l.holders := by
  rw [holders, numbers_update h, holders]
  simp only [update, h]

/-! ## Accepting -/

/-- While a listener accepts connections, it sets none up. -/
theorem newcomer_of_isListening (hl : l.isListening) : l.newcomer = none := by
  simp only [isListening, Bool.and_eq_true, Option.isNone_iff_eq_none] at hl
  exact hl.2

/-- A connection whose set-up gives a service at once becomes a guest if there is room for it. -/
theorem accept_of_hasRoom {key : κ} (hl : l.isListening) (hr : l.hasRoom) :
    l.accept m (.service key) =
      { l.takeSlot with guests := l.guests ++ [⟨m, key, {}⟩], setups := l.setups + 1 } := by
  simp [accept, greet, settle, hl, hr, takeSlot, newcomer_of_isListening hl]

/-- If there is no room, it is dropped. -/
theorem accept_of_full {key : κ} (hl : l.isListening) (hr : l.hasRoom = false) :
    l.accept m (.service key) = l := by
  simp [accept, greet, settle, hr, newcomer_of_isListening hl]

/-- Whether it is taken or dropped, others are accepted afterwards. -/
theorem isListening_accept {key : κ} (hl : l.isListening) :
    (l.accept m (.service key)).isListening := by
  cases hr : l.hasRoom with
  | true => rw [accept_of_hasRoom hl hr]; exact hl
  | false => rwa [accept_of_full hl hr]

/-- They are accepted as well when a guest goes on or leaves. -/
theorem isListening_update (l : Listener κ) (m : Nat) (c : Connection) :
    (l.update m c).isListening = l.isListening := by
  unfold update
  split <;> rfl

end Listener

/-! ## Events -/

/-- Something that happens around a listener. -/
inductive ListenerEvent (κ : Type) where
  /-- A connection comes. -/
  | connect
  /-- Setting up the service of the newcomer ends. -/
  | setUp (outcome : Setup κ)
  /-- Bytes come from a connection. -/
  | receive (number : Nat) (chunk : Bytes)
  /-- The stream of a connection ends. -/
  | finish (number : Nat)
  | abort

/-- A listener with the state of its services. -/
structure Reception (κ σ : Type) where
  listener : Listener κ
  state : σ
  /-- How many connections have been accepted; this is the number of the next one. -/
  accepted : Nat := 0

namespace Reception

variable {κ σ : Type}

section
variable (service : κ → Service σ) (s : Reception κ σ)

/-- The reception after an event. -/
def step : ListenerEvent κ → Reception κ σ
  | .connect =>
    if s.listener.isListening then
      { s with listener := s.listener.greet s.accepted, accepted := s.accepted + 1 }
    else s
  | .setUp outcome => { s with listener := s.listener.settle outcome }
  | .receive number chunk =>
    let (listener, state, _) := s.listener.receive service number s.state chunk
    { s with listener, state }
  | .finish number =>
    let (listener, state, _) := s.listener.finish service number s.state
    { s with listener, state }
  | .abort => { s with listener := s.listener.abort }

/-- The guest to whose connection something happens, and what becomes of it. -/
def visited? : ListenerEvent κ → Option (Guest κ × Served σ)
  | .receive number chunk =>
    (s.listener.guest? number).map fun g =>
      (g, g.connection.receive (service g.key) s.state chunk)
  | .finish number =>
    (s.listener.guest? number).map fun g => (g, g.connection.finish (service g.key) s.state)
  | .connect | .setUp _ | .abort => none

/-- The connection that ends, and the error with which it ends, if there is one. -/
def departure? (e : ListenerEvent κ) : Option (Nat × Option Error) :=
  (visited? service s e).bind fun (g, served) => served.connection.ended.map (g.number, ·)

/-- What an event does. -/
inductive Change : ListenerEvent κ → Reception κ σ → Prop where
  /-- It concerns nobody. -/
  | idle {e : ListenerEvent κ} (ha : e ≠ .abort)
    (hc : e = .connect → s.listener.isListening = false)
    (hs : ∀ outcome, e = .setUp outcome → s.listener.newcomer = none)
    (hv : visited? service s e = none) : Change e s
  /-- A connection is dropped. -/
  | dropped (hl : s.listener.isListening) (hr : s.listener.hasRoom = false) :
    Change .connect { s with accepted := s.accepted + 1 }
  /-- A connection takes a slot, and its service is asked for. -/
  | greeted (hl : s.listener.isListening) (hr : s.listener.hasRoom) :
    Change .connect
      { s with
        listener := { s.listener.takeSlot with
          newcomer := some s.accepted, setups := s.listener.setups + 1 }
        accepted := s.accepted + 1 }
  /-- The newcomer becomes a guest. -/
  | joined {number : Nat} {key : κ} (hn : s.listener.newcomer = some number) :
    Change (.setUp (.service key))
      { s with listener := { s.listener with
          newcomer := none, guests := s.listener.guests ++ [⟨number, key, {}⟩] } }
  /-- The newcomer gets no service and gives its slot back. -/
  | refused {number : Nat} {outcome : Setup κ} (hn : s.listener.newcomer = some number)
    (ho : ∀ key, outcome ≠ .service key) :
    Change (.setUp outcome) { s with listener := { s.listener.freeSlot with newcomer := none } }
  /-- The connection of a guest goes on. -/
  | stayed {e : ListenerEvent κ} {g : Guest κ} {served : Served σ}
    (hv : visited? service s e = some (g, served)) (hended : served.connection.ended = none) :
    Change e
      { s with listener := s.listener.update g.number served.connection, state := served.state }
  /-- The connection of a guest ends. -/
  | left {e : ListenerEvent κ} {g : Guest κ} {served : Served σ} {cause : Option Error}
    (hv : visited? service s e = some (g, served))
    (hended : served.connection.ended = some cause) :
    Change e { s with listener := s.listener.leave g.number cause, state := served.state }
  /-- All connections are dropped. -/
  | aborted : Change .abort { s with listener := s.listener.abort }

end

variable {service : κ → Service σ} {s s' : Reception κ σ} {e : ListenerEvent κ} {g : Guest κ}
  {served : Served σ} {limit : Option Nat} {m : Nat} {cause : Option Error}

/-- What becomes of the connection of a guest is either that it goes on or that it ends. -/
theorem change_of_visited (hv : visited? service s e = some (g, served)) :
    Change service s e { s with
      listener := s.listener.update g.number served.connection, state := served.state } := by
  cases hended : served.connection.ended with
  | none => exact .stayed hv hended
  | some cause =>
    have hchange := Change.left hv hended
    rwa [Listener.update, hended]

/-- Nothing happens to a connection that is not being served. -/
theorem change_onGuest (number : Nat) (act : κ → Connection → Served σ)
    (hv : visited? service s e =
      (s.listener.guest? number).map fun g => (g, act g.key g.connection))
    (ha : e ≠ .abort) (hc : e ≠ .connect) (hs : ∀ outcome, e ≠ .setUp outcome) :
    Change service s e { s with
      listener := (s.listener.onGuest number s.state act).1
      state := (s.listener.onGuest number s.state act).2.1 } := by
  rw [Listener.onGuest]
  cases hg : s.listener.guest? number with
  | none =>
    exact .idle ha (fun h => absurd h hc) (fun _ h => absurd h (hs _)) (by rw [hv, hg]; rfl)
  | some g =>
    obtain ⟨-, rfl⟩ := Listener.guest?_inv hg
    exact change_of_visited (by rw [hv, hg]; rfl)

/-- Whatever happens, it is one of the changes. -/
theorem change (service : κ → Service σ) (s : Reception κ σ) (e : ListenerEvent κ) :
    Change service s e (s.step service e) := by
  cases e with
  | connect =>
    simp only [step]
    by_cases hl : s.listener.isListening
    · cases hr : s.listener.hasRoom with
      | false =>
        simp only [Listener.greet, hl, hr, Bool.and_false, Bool.false_eq_true, if_true, if_false]
        exact .dropped hl hr
      | true =>
        simp only [Listener.greet, hl, hr, Bool.and_true, if_true]
        exact .greeted hl hr
    · rw [if_neg hl]
      exact .idle (by simp) (fun _ => Bool.eq_false_iff.2 hl) (by simp) rfl
  | setUp outcome =>
    simp only [step, Listener.settle]
    cases hn : s.listener.newcomer with
    | none => exact .idle (by simp) (by simp) (fun _ _ => hn) rfl
    | some number =>
      cases outcome with
      | service key => exact .joined hn
      | nothing | failed fault => exact .refused hn (by simp)
  | receive number chunk =>
    exact change_onGuest (e := .receive number chunk) number
      (fun key c => c.receive (service key) s.state chunk) rfl (by simp) (by simp) (by simp)
  | finish number =>
    exact change_onGuest (e := .finish number) number
      (fun key c => c.finish (service key) s.state) rfl (by simp) (by simp) (by simp)
  | abort => exact .aborted

/-- A connection whose set-up ends at once is accepted. -/
theorem step_setUp_connect (service : κ → Service σ) (hl : s.listener.isListening)
    (outcome : Setup κ) :
    (s.step service .connect).step service (.setUp outcome) =
      { s with
        listener := s.listener.accept s.accepted outcome, accepted := s.accepted + 1 } := by
  simp only [step, hl, if_true]
  rfl

/-- What happens to a connection happens to one that is being served. -/
theorem visited?_inv (hv : visited? service s e = some (g, served)) :
    s.listener.guest? g.number = some g ∧
      ((∃ chunk, e = .receive g.number chunk ∧
          served = g.connection.receive (service g.key) s.state chunk) ∨
        e = .finish g.number ∧ served = g.connection.finish (service g.key) s.state) := by
  cases e with
  | receive number chunk =>
    obtain ⟨g, hg, heq⟩ := Option.map_eq_some_iff.1 hv
    cases heq
    obtain ⟨-, rfl⟩ := Listener.guest?_inv hg
    exact ⟨hg, .inl ⟨chunk, rfl, rfl⟩⟩
  | finish number =>
    obtain ⟨g, hg, heq⟩ := Option.map_eq_some_iff.1 hv
    cases heq
    obtain ⟨-, rfl⟩ := Listener.guest?_inv hg
    exact ⟨hg, .inr ⟨rfl, rfl⟩⟩
  | connect | setUp | abort => cases hv

/-- What is visited is served. -/
theorem serves_of_visited (hv : visited? service s e = some (g, served)) :
    s.listener.serves g.number := by
  rw [Listener.serves, (visited?_inv hv).1]
  rfl

/-- A departure is that of a connection which has ended when it was visited. -/
theorem departure?_inv (h : departure? service s e = some (m, cause)) :
    ∃ g served, visited? service s e = some (g, served) ∧ g.number = m ∧
      served.connection.ended = some cause := by
  obtain ⟨⟨g, served⟩, hv, hended⟩ := Option.bind_eq_some_iff.1 h
  obtain ⟨_, hcause, heq⟩ := Option.map_eq_some_iff.1 hended
  cases heq
  exact ⟨g, served, hv, rfl, hcause⟩

/-- Whether a visited connection departs is told by whether it has ended. -/
theorem departure?_of_visited (hv : visited? service s e = some (g, served)) :
    departure? service s e = served.connection.ended.map (g.number, ·) := by
  rw [departure?, hv]
  rfl

/-- A connection that ends has been served, and leaves. -/
theorem step_of_departure (h : departure? service s e = some (m, cause)) :
    s.listener.serves m ∧ (s.step service e).listener = s.listener.leave m cause ∧
      (s.step service e).accepted = s.accepted := by
  obtain ⟨g, served, hv, rfl, hended⟩ := departure?_inv h
  refine ⟨serves_of_visited hv, ?_⟩
  have hchange := s.change service e
  generalize s.step service e = s' at hchange
  cases hchange with
  | idle _ _ _ hnone => rw [hv] at hnone; cases hnone
  | stayed hv' hgoes =>
    cases hv.symm.trans hv'
    rw [hended] at hgoes
    cases hgoes
  | left hv' hended' =>
    cases hv.symm.trans hv'
    cases hended.symm.trans hended'
    exact ⟨rfl, rfl⟩
  | dropped | greeted | joined | refused | aborted => cases hv

/-- A listener is aborted by the event that says so, and for ever. -/
theorem Change.isAborted (h : Change service s e s') :
    s'.listener.isAborted ↔ s.listener.isAborted ∨ e = .abort := by
  cases h with
  | idle ha => simp [ha]
  | dropped | greeted | joined | refused => simp [Listener.takeSlot, Listener.freeSlot]
  | @stayed _ g served hv hended =>
    have ha : e ≠ .abort := by rintro rfl; cases hv
    simp [ha, Listener.update, hended]
  | left hv =>
    have ha : e ≠ .abort := by rintro rfl; cases hv
    simp [ha, Listener.leave, Listener.freeSlot]
  | aborted => simp [Listener.abort]

end Reception

end Modbus
