import Modbus.Proofs.Register.History
import Modbus.Proofs.Slave.Admission
import Modbus.Slave.Basic

/-!
# The life of a slave

Whatever happens to a slave is a list of events in any order: units are added, the slave is opened
and closed, clients connect, send bytes and go. What the events do to the registers is the history
of the slave (`Slave.history`), banks that have been bound and requests that have been answered.
`Slave.Keeps` is what a slave keeps of all this, over every event (`Slave.Keeps.change`): in
particular the image of the slave and those from which clients are served are the same while the
slave is open, and its registers hold what the history has made of them. The listener of an open
slave is a reception (`Slave.step_of_open`), so it admits clients as every reception does, if they
are numbered in the order in which they connect. `Slave.Lives` says what this comes to, and
`Slave.lives_on` that it holds of every slave.
-/

namespace Modbus

/-! ## What connections read -/

namespace Connection

variable (c : Connection)

/-- The requests that a connection reads when bytes come. -/
def requestsIn (chunk : Bytes) : List RequestMessage :=
  if c.ended.isSome then [] else (Decoder.requests.drain (c.buffer ++ chunk)).items

/-- The requests that a connection reads when its stream ends. -/
def requestsAtEnd : List RequestMessage :=
  if c.ended.isSome then [] else (Decoder.requests.drainLast c.buffer).items

/-- What has become of a connection that has read messages: they are executed directly, and the
answers are sent. -/
structure Executes {σ : Type} (service : Service σ) (state : σ) (ms : List RequestMessage)
    (served : Served σ) : Prop where
  leaves : served.state = (service.executeAll state (ms.map order)).2
  tells : served.sent = (List.zipWith RequestMessage.responseFrame ms
    (service.executeAll state (ms.map order)).1).flatMap Frame.bytes

variable {σ : Type} {service : Service σ} (hsound : service.IsSound) (state : σ)
include hsound

/-- Serving what has been read is executing its requests. -/
theorem executes_serve (r : Reading RequestMessage) (isLast : Bool) :
    Executes service state r.items (serve service state r isLast) := by
  constructor <;> simp only [serve, answerAll_eq state hsound]

/-- So is receiving a chunk. -/
theorem executes_receive (chunk : Bytes) :
    Executes service state (c.requestsIn chunk) (c.receive service state chunk) := by
  unfold requestsIn receive
  split
  · exact ⟨rfl, rfl⟩
  · exact executes_serve hsound state _ _

/-- The end of a stream is served in the same way. -/
theorem executes_finish : Executes service state c.requestsAtEnd (c.finish service state) := by
  unfold requestsAtEnd finish
  split
  · exact ⟨rfl, rfl⟩
  · exact executes_serve hsound state _ _

end Connection

/-! ## Events -/

/-- Something that happens to a slave. -/
inductive SlaveEvent where
  | add (unit : UnitId) (bank : Bank)
  /-- The slave is to be opened; the host can bind an address. -/
  | openUp (bound : SocketAddress)
  | close
  /-- A client connects. -/
  | connect (number : Nat)
  /-- Bytes come from a client. -/
  | receive (number : Nat) (chunk : Bytes)
  /-- The stream of a client ends. -/
  | finish (number : Nat)

/-- The address at which a slave listens after an event, if it listened at one before. -/
def SlaveEvent.listening (address : Option SocketAddress) : SlaveEvent → Option SocketAddress
  | openUp bound => some (address.getD bound)
  | close => none
  | add .. | connect _ | receive .. | finish _ => address

/-- The number of the client that connects. -/
def SlaveEvent.client? : SlaveEvent → Option Nat
  | connect number => some number
  | add .. | openUp _ | close | receive .. | finish _ => none

/-- What happens around a listener when something happens to its slave. Clients are served from an
image, and their services are set up at once. -/
def SlaveEvent.around (image : ProcessImage) : SlaveEvent → List (ListenerEvent ProcessImage)
  | connect _ => [.connect, .setUp (.service image)]
  | receive number chunk => [.receive number chunk]
  | finish number => [.finish number]
  | add .. | openUp _ | close => []

/-- The listener of an open slave, with its registers and the number of the next client. -/
def Running.reception (r : Running) (memory : Memory) (accepted : Nat) :
    Reception ProcessImage Memory := { listener := r.listener, state := memory, accepted }

namespace Slave

section
variable (s : Slave)

/-- The slave after an event, and what it sends. What fails leaves it as it is. -/
def act : SlaveEvent → Slave × Bytes
  | .add unit bank =>
    match s.add unit bank with
    | .ok s => (s, [])
    | .error _ => (s, [])
  | .openUp bound =>
    match s.openAt fun _ => .ok bound with
    | .ok (_, s) => (s, [])
    | .error _ => (s, [])
  | .close => (s.close, [])
  | .connect number => (s.accept number, [])
  | .receive number chunk => s.receive number chunk
  | .finish number => s.finish number

/-- The slave after an event. -/
def step (e : SlaveEvent) : Slave := (s.act e).1

/-- The slave after events. -/
def run (events : List SlaveEvent) : Slave := events.foldl step s

/-- The client to whom something happens, and the requests that are read from it. -/
def visited? : SlaveEvent → Option (Guest ProcessImage × List RequestMessage)
  | .receive number chunk => (s.guest? number).map fun g => (g, g.connection.requestsIn chunk)
  | .finish number => (s.guest? number).map fun g => (g, g.connection.requestsAtEnd)
  | .add .. | .openUp _ | .close | .connect _ => none

/-- The requests that are read in an event. -/
def asked (e : SlaveEvent) : List RequestMessage := ((s.visited? e).map (·.2)).getD []

/-- The answers to the requests that are read in an event, from the image from which the client is
served. -/
def answers (e : SlaveEvent) : List Answer :=
  match s.visited? e with
  | none => []
  | some (g, ms) => (Service.executeAll g.key.handle s.memory (ms.map Connection.order)).1

/-- What an event does to the registers. -/
def deeds (e : SlaveEvent) : List RegisterDeed :=
  match e with
  | .add unit bank =>
    match s.add unit bank with
    | .ok _ => [.bind unit bank]
    | .error _ => []
  | e => RegisterDeed.answering ((s.asked e).map Connection.order) (s.answers e)

/-- What events do to the registers, in order. -/
def history (s : Slave) : List SlaveEvent → List RegisterDeed
  | [] => []
  | e :: events => s.deeds e ++ history (s.step e) events

/-! ## What an event can do -/

/-- What an event does to a slave, with the deeds that it comes to and the bytes that are sent. -/
inductive Change : SlaveEvent → Slave → List RegisterDeed → Bytes → Prop where
  /-- A unit is not added. -/
  | refused {unit : UnitId} {bank : Bank} {e : RegisterError} (h : s.add unit bank = .error e) :
    Change (.add unit bank) s [] []
  | added {unit : UnitId} {bank : Bank} {image : ProcessImage} {memory : Memory}
    (hr : s.running = none) (h : s.image.insert unit bank s.memory = .ok (image, memory)) :
    Change (.add unit bank) { s with image, memory } [.bind unit bank] []
  /-- The slave has been open. -/
  | wasOpen {bound : SocketAddress} {r : Running} (hr : s.running = some r) :
    Change (.openUp bound) s [] []
  | opened {bound : SocketAddress} (hr : s.running = none) :
    Change (.openUp bound)
      { s with running := some ⟨bound, s.image, .limitedTo s.maxConnections⟩ } [] []
  | closed : Change .close s.close [] []
  | accepted {number : Nat} : Change (.connect number) (s.accept number) [] []
  /-- It concerns a connection that is not being served. -/
  | nobody {e : SlaveEvent} (hl : ∀ address, e.listening address = address)
    (hv : s.visited? e = none) : Change e s [] []
  /-- Requests of a client are executed, and the answers are sent. -/
  | served {e : SlaveEvent} {r : Running} {g : Guest ProcessImage} {ms : List RequestMessage}
    {served : Served Memory} (hl : ∀ address, e.listening address = address)
    (hr : s.running = some r) (hg : g ∈ r.listener.guests) (hv : s.visited? e = some (g, ms))
    (hs : Connection.Executes g.key.handle s.memory ms served) :
    Change e
      { s with
        running := some { r with listener := r.listener.update g.number served.connection }
        memory := served.state }
      (RegisterDeed.answering (ms.map Connection.order) (s.answers e)) served.sent

end

variable {s s' : Slave} {e : SlaveEvent} {ds ds' : List RegisterDeed} {sent : Bytes}

/-- A slave that is closed adds units to its image. -/
theorem add_of_closed (hr : s.running = none) (unit : UnitId) (bank : Bank) :
    s.add unit bank = (s.image.insert unit bank s.memory).map fun made =>
      { s with image := made.1, memory := made.2 } := by
  simp only [add, isOpen, hr, Option.isSome_none, Bool.false_eq_true, if_false, bind, Except.bind]
  cases s.image.insert unit bank s.memory <;> rfl

/-- A slave that is open adds none. -/
theorem add_of_open {r : Running} (hr : s.running = some r) (unit : UnitId) (bank : Bank) :
    s.add unit bank = .error .inUse := by
  simp only [add, isOpen, hr, Option.isSome_some, if_true]

/-- A slave that is closed binds its address, and listens at the one it has got. -/
theorem openAt_of_closed (hr : s.running = none)
    (bind : SocketAddress → Except Fault SocketAddress) :
    s.openAt bind = (bind s.address).map fun bound =>
      (bound, { s with running := some ⟨bound, s.image, .limitedTo s.maxConnections⟩ }) := by
  simp only [openAt, hr, Bind.bind, Except.bind]
  cases bind s.address <;> rfl

/-- A slave that is open tells where it listens, and nothing else happens. -/
theorem openAt_of_open {r : Running} (hr : s.running = some r)
    (bind : SocketAddress → Except Fault SocketAddress) : s.openAt bind = .ok (r.address, s) := by
  simp only [openAt, hr]

/-- Nothing happens to a connection that is not being served. -/
theorem onListener_of_nobody {number : Nat} (h : s.guest? number = none)
    (act : ProcessImage → Connection → Memory → Served Memory) :
    (s.onListener fun l memory => l.onGuest number memory fun key c => act key c memory) =
      (s, []) := by
  obtain ⟨address, maxConnections, image, memory, running⟩ := s
  cases running with
  | none => rfl
  | some r =>
    have hnone : r.listener.guest? number = none := h
    simp only [onListener, Listener.onGuest, hnone]

/-- What happens to the connection of a guest, if there is one. -/
theorem change_onListener (number : Nat)
    (act : ProcessImage → Connection → Memory → Served Memory)
    (reads : Connection → List RequestMessage)
    (hexecutes : ∀ key c memory, Connection.Executes key.handle memory (reads c) (act key c memory))
    (hl : ∀ address, e.listening address = address)
    (hv : s.visited? e = (s.guest? number).map fun g => (g, reads g.connection))
    (hd : s.deeds e = RegisterDeed.answering ((s.asked e).map Connection.order) (s.answers e)) :
    let made := s.onListener fun l memory =>
      l.onGuest number memory fun key c => act key c memory
    Change s e made.1 (s.deeds e) made.2 := by
  intro made
  cases hguest : s.guest? number with
  | none =>
    have hnobody : s.visited? e = none := by rw [hv, hguest]; rfl
    have hasked : s.asked e = [] := by rw [asked, hnobody]; rfl
    simp only [made, onListener_of_nobody hguest, hd, hasked]
    exact .nobody hl hnobody
  | some g =>
    obtain ⟨r, hr, hg⟩ := Option.bind_eq_some_iff.1 hguest
    obtain ⟨hmem, rfl⟩ := Listener.guest?_inv hg
    have hvisited : s.visited? e = some (g, reads g.connection) := by rw [hv, hguest]; rfl
    have hasked : s.asked e = reads g.connection := by rw [asked, hvisited]; rfl
    simp only [made, onListener, hr, Listener.onGuest, hg, hd, hasked]
    exact .served hl hr hmem hvisited (hexecutes _ _ _)

/-- Whatever happens, it is one of the changes. -/
theorem change (s : Slave) (e : SlaveEvent) : Change s e (s.step e) (s.deeds e) (s.act e).2 := by
  cases e with
  | add unit bank =>
    simp only [step, act, deeds]
    cases hadd : s.add unit bank with
    | error e => exact .refused hadd
    | ok made =>
      cases hr : s.running with
      | some r => rw [add_of_open hr] at hadd; cases hadd
      | none =>
        rw [add_of_closed hr] at hadd
        cases hinsert : s.image.insert unit bank s.memory with
        | error e => rw [hinsert] at hadd; cases hadd
        | ok pair =>
          rw [hinsert] at hadd
          cases hadd
          exact .added hr hinsert
  | openUp bound =>
    simp only [step, act]
    cases hr : s.running with
    | none => rw [openAt_of_closed hr]; exact .opened hr
    | some r => rw [openAt_of_open hr]; exact .wasOpen hr
  | close => exact .closed
  | connect number => exact .accepted
  | receive number chunk =>
    exact change_onListener number (fun key c memory => c.receive key.handle memory chunk)
      (·.requestsIn chunk) (fun key c memory => c.executes_receive key.isSound_handle memory chunk)
      (fun _ => rfl) rfl rfl
  | finish number =>
    exact change_onListener number (fun key c memory => c.finish key.handle memory)
      (·.requestsAtEnd) (fun key c memory => c.executes_finish key.isSound_handle memory)
      (fun _ => rfl) rfl rfl

/-! ## What is kept -/

/-- What a slave that has been new keeps, over all that happens to it. -/
structure Keeps (new s : Slave) (ds : List RegisterDeed) : Prop where
  address : s.address = new.address
  maxConnections : s.maxConnections = new.maxConnections
  isProper : s.image.IsProper
  isWithin : s.image.IsWithin s.memory
  recorded : Recorded s.image s.memory ds
  units : ∀ unit, unit ∈ s.image.cellOf ↔ ∃ bank, .bind unit bank ∈ ds
  /-- An open slave accepts clients. -/
  accepts : ∀ r, s.running = some r → r.listener.isListening
  /-- It serves the image that it has. -/
  serves : ∀ r, s.running = some r → r.image = s.image ∧ ∀ g ∈ r.listener.guests, g.key = s.image

/-- Nothing has happened to a new slave. -/
theorem keeps_new (address : SocketAddress) (maxConnections : Nat) :
    Keeps { address, maxConnections } { address, maxConnections } [] where
  address := rfl
  maxConnections := rfl
  isProper := by intro _ _ _ h; simp at h
  isWithin := by intro _ _ h; simp at h
  recorded := by
    constructor
    case contents =>
      funext unit
      simp [ProcessImage.contents, ProcessImage.cell?, RegisterMachine.registers]
    case areFaithful => intro _ _ _ _ h; simp at h
  units := by simp
  accepts := by intro _ h; cases h
  serves := by intro _ h; cases h

/-- No unit is bound by answering requests. -/
theorem bind_not_mem_answering (unit : UnitId) (bank : Bank) (orders : List (UnitId × Request))
    (answers : List Answer) : .bind unit bank ∉ RegisterDeed.answering orders answers := by
  intro h
  obtain ⟨n, hn⟩ := List.getElem?_of_mem h
  simp only [RegisterDeed.answering, List.getElem?_zipWith] at hn
  split at hn <;> cases hn

/-- A client that is accepted is served from the image of the listener. -/
theorem key_accept {l : Listener ProcessImage} {image : ProcessImage} (hl : l.isListening)
    (h : ∀ g ∈ l.guests, g.key = image) (number : Nat) :
    ∀ g ∈ (l.accept number (.service image)).guests, g.key = image := by
  intro g hg
  cases hr : l.hasRoom with
  | false =>
    rw [Listener.accept_of_full hl hr] at hg
    exact h g hg
  | true =>
    rw [Listener.accept_of_hasRoom hl hr] at hg
    rcases List.mem_append.1 hg with hg | hg
    · exact h g hg
    · cases List.mem_singleton.1 hg
      rfl

/-- Whatever becomes of its connection, a client is served from the same image. -/
theorem key_update {l : Listener ProcessImage} {image : ProcessImage}
    (h : ∀ g ∈ l.guests, g.key = image) (number : Nat) (c : Connection) :
    ∀ g ∈ (l.update number c).guests, g.key = image := by
  intro g hg
  rw [Listener.update] at hg
  split at hg
  · exact h g (List.mem_filter.1 hg).1
  · obtain ⟨before, hbefore, rfl⟩ := List.mem_map.1 hg
    split <;> exact h before hbefore

/-- What happens next is kept as well. -/
theorem Keeps.change {new : Slave} (h : Keeps new s ds) (hc : Change s e s' ds' sent) :
    Keeps new s' (ds ++ ds') := by
  cases hc with
  | refused | wasOpen | nobody => rwa [List.append_nil]
  | @added unit bank image memory hr hinsert =>
    refine { h with isProper := ?isProper, isWithin := ?isWithin, recorded := ?recorded,
                    units := ?units, accepts := ?accepts, serves := ?serves }
    case isProper => exact ProcessImage.IsProper.insert hinsert h.isWithin h.isProper
    case isWithin => exact ProcessImage.IsWithin.insert hinsert h.isWithin
    case recorded => exact h.recorded.insert hinsert h.isWithin
    case units =>
      intro other
      rw [ProcessImage.mem_insert hinsert, h.units, or_comm]
      simp only [List.mem_append, List.mem_singleton, RegisterDeed.bind.injEq, exists_or,
        exists_and_left, exists_eq, and_true]
    case accepts => intro r hr'; rw [hr] at hr'; cases hr'
    case serves => intro r hr'; rw [hr] at hr'; cases hr'
  | opened hr =>
    rw [List.append_nil]
    refine { h with accepts := ?accepts, serves := ?serves }
    case accepts => rintro r ⟨rfl⟩; rfl
    case serves => rintro r ⟨rfl⟩; exact ⟨rfl, by simp [Listener.limitedTo]⟩
  | closed =>
    rw [List.append_nil]
    exact { h with accepts := nofun, serves := nofun }
  | @accepted number =>
    rw [List.append_nil]
    refine { h with accepts := ?accepts, serves := ?serves }
    all_goals
      intro r' hr'
      obtain ⟨r, hr, rfl⟩ := Option.map_eq_some_iff.1 hr'
    case accepts => exact Listener.isListening_accept (h.accepts r hr)
    case serves =>
      obtain ⟨himage, hkeys⟩ := h.serves r hr
      exact ⟨himage, himage ▸ key_accept (h.accepts r hr) (himage ▸ hkeys) number⟩
  | @served _ r g ms served hl hr hg hv hs =>
    obtain ⟨himage, hkeys⟩ := h.serves r hr
    have hanswers : s.answers e =
        (Service.executeAll s.image.handle s.memory (ms.map Connection.order)).1 := by
      simp only [answers, hv, hkeys g hg]
    have hmemory : served.state =
        (Service.executeAll s.image.handle s.memory (ms.map Connection.order)).2 := by
      rw [hs.leaves, hkeys g hg]
    refine { h with isWithin := ?isWithin, recorded := ?recorded, units := ?units,
                    accepts := ?accepts, serves := ?serves }
    case isWithin =>
      intro unit n hn
      rw [hmemory, ProcessImage.length_cells_executeAll]
      exact h.isWithin unit n hn
    case recorded =>
      rw [hmemory, hanswers]
      exact h.recorded.executeAll h.isProper _
    case units =>
      intro unit
      simp only [List.mem_append, bind_not_mem_answering, or_false]
      exact h.units unit
    case accepts =>
      rintro _ ⟨rfl⟩
      exact (r.listener.isListening_update g.number served.connection).trans (h.accepts r hr)
    case serves =>
      rintro _ ⟨rfl⟩
      exact ⟨himage, key_update hkeys g.number served.connection⟩

/-- So is whatever happens. -/
theorem Keeps.run {new : Slave} (h : Keeps new s ds) (events : List SlaveEvent) :
    Keeps new (s.run events) (ds ++ s.history events) := by
  induction events generalizing s ds with
  | nil => simpa [history, Slave.run] using h
  | cons e events ih =>
    have hrest := ih (h.change (s.change e))
    rwa [List.append_assoc] at hrest

/-- The address at which a slave listens is settled by the events that open and close it. -/
theorem Change.localAddress (hc : Change s e s' ds sent) :
    s'.localAddress = e.listening s.localAddress := by
  cases hc with
  | refused | added | closed => rfl
  | wasOpen hr => simp [Slave.localAddress, SlaveEvent.listening, hr]
  | opened hr => simp [Slave.localAddress, SlaveEvent.listening, hr]
  | accepted =>
    simp only [Slave.localAddress, accept, SlaveEvent.listening, Option.map_map]
    rfl
  | nobody hl => exact (hl _).symm
  | served hl hr =>
    rw [hl, Slave.localAddress, Slave.localAddress, hr]
    rfl

/-- The address after a run is told by the events that open and close the slave. -/
theorem localAddress_run (s : Slave) (events : List SlaveEvent) :
    (s.run events).localAddress = events.foldl SlaveEvent.listening s.localAddress := by
  induction events generalizing s with
  | nil => rfl
  | cons e events ih =>
    rw [List.foldl_cons, ← (s.change e).localAddress]
    exact ih (s.step e)

/-- A unit keeps its cell, whatever is added later. -/
theorem Change.cellOf (hc : Change s e s' ds sent) {unit : UnitId} (h : unit ∈ s.image.cellOf) :
    s'.image.cellOf[unit]? = s.image.cellOf[unit]? := by
  cases hc with
  | refused | wasOpen | opened | closed | accepted | nobody | served => rfl
  | @added new bank image memory hr hinsert =>
    obtain ⟨hfree, -⟩ := ProcessImage.insert_inv hinsert
    have hne : unit ≠ new := fun heq => hfree (heq ▸ h)
    exact (ProcessImage.cellOf_insert hinsert unit).trans (if_neg hne)

/-- A unit keeps its cell throughout a run. -/
theorem cellOf_run (s : Slave) (events : List SlaveEvent) {unit : UnitId}
    (h : unit ∈ s.image.cellOf) :
    (s.run events).image.cellOf[unit]? = s.image.cellOf[unit]? := by
  induction events generalizing s with
  | nil => rfl
  | cons e events ih =>
    have hstep := (s.change e).cellOf h
    have hmem : unit ∈ (s.step e).image.cellOf := by
      rw [Std.TreeMap.mem_iff_isSome_getElem?, hstep]
      exact Std.TreeMap.mem_iff_isSome_getElem?.1 h
    exact (ih (s.step e) hmem).trans hstep

/-! ## Who is served -/

/-- While a slave is open, what happens to it happens to a reception. -/
theorem step_of_open {r : Running} (hr : s.running = some r) (hl : r.listener.isListening)
    (hopen : e ≠ .close) (accepted : Nat) :
    let reception := (r.reception s.memory (e.client?.getD accepted)).run ProcessImage.handle
      (e.around r.image)
    s.step e = { s with
      running := some { r with listener := reception.listener }, memory := reception.state } ∧
        reception.accepted = (e.client?.map (· + 1)).getD accepted := by
  obtain ⟨address, maxConnections, image, memory, running⟩ := s
  cases hr
  cases e with
  | add unit bank =>
    rw [step, act, add_of_open rfl]
    exact ⟨rfl, rfl⟩
  | openUp | receive | finish => exact ⟨rfl, rfl⟩
  | close => exact absurd rfl hopen
  | connect number =>
    have haccept := Reception.step_setUp_connect (s := r.reception memory number)
      ProcessImage.handle hl (.service r.image)
    simp only [Reception.run, SlaveEvent.around, List.foldl, SlaveEvent.client?, Option.getD_some,
      haccept]
    exact ⟨rfl, rfl⟩

/-- The slots of an open slave are in order, and the next client may have a certain number. -/
def HasSlots (s : Slave) (accepted : Nat) : Prop :=
  ∀ r, s.running = some r → (r.reception s.memory accepted).IsProper (some s.maxConnections)

/-- They stay so if clients are numbered in the order in which they connect. -/
theorem HasSlots.step {accepted : Nat} (h : s.HasSlots accepted)
    (haccepts : ∀ r, s.running = some r → r.listener.isListening)
    (hnew : ∀ number, e.client? = some number → accepted ≤ number) :
    (s.step e).HasSlots ((e.client?.map (· + 1)).getD accepted) := by
  intro r' hr'
  cases hr : s.running with
  | none =>
    obtain ⟨ds, sent, hc⟩ : ∃ ds sent, Change s e (s.step e) ds sent := ⟨_, _, s.change e⟩
    generalize s.step e = s' at hc hr'
    cases hc with
    | opened =>
      cases hr'
      exact (Reception.isProper_opened _ _).of_le (Nat.zero_le _)
    | refused | added | wasOpen | nobody => rw [hr] at hr'; cases hr'
    | closed => cases hr'
    | accepted => simp [accept, hr] at hr'
    | served _ hr'' => rw [hr] at hr''; cases hr''
  | some r =>
    have hopen : e ≠ .close := by rintro rfl; cases hr'
    obtain ⟨hstep, haccepted⟩ := step_of_open hr (haccepts r hr) hopen accepted
    have hle : accepted ≤ e.client?.getD accepted := by
      cases he : e.client? with
      | none => exact Nat.le_refl _
      | some number => exact hnew number he
    have hproper := ((h r hr).of_le hle).run ProcessImage.handle (e.around r.image)
    rw [hstep] at hr' ⊢
    cases hr'
    rwa [← haccepted]

/-- So they are throughout a life in which clients are numbered like this. -/
theorem Keeps.hasSlots_run {new : Slave} {accepted : Nat} (hkeeps : Keeps new s ds)
    (h : s.HasSlots accepted) {events : List SlaveEvent}
    (hnew : ∀ number ∈ events.filterMap SlaveEvent.client?, accepted ≤ number)
    (hordered : (events.filterMap SlaveEvent.client?).Pairwise (· < ·)) :
    ∃ accepted, (s.run events).HasSlots accepted := by
  induction events generalizing s ds accepted with
  | nil => exact ⟨accepted, h⟩
  | cons e events ih =>
    have hkeeps' := hkeeps.change (s.change e)
    cases he : e.client? with
    | none =>
      rw [List.filterMap_cons_none he] at hnew hordered
      have hstep := h.step hkeeps.accepts (e := e) (by simp [he])
      rw [he] at hstep
      exact ih hkeeps' hstep hnew hordered
    | some number =>
      rw [List.filterMap_cons_some he] at hnew hordered
      obtain ⟨hnow, -⟩ := List.forall_mem_cons.1 hnew
      obtain ⟨hlater, hordered⟩ := List.pairwise_cons.1 hordered
      have hstep := h.step hkeeps.accepts (e := e) (by simpa [he] using hnow)
      rw [he] at hstep
      exact ih hkeeps' hstep hlater hordered

/-- A client for whom there is room is served, from the image with which the slave is open. -/
theorem guest?_connect {r : Running} {number : Nat} (hr : s.running = some r)
    (hl : r.listener.isListening) (hroom : r.listener.hasRoom) (hnew : s.serves number = false) :
    (s.step (.connect number)).guest? number = some ⟨number, r.image, {}⟩ := by
  have hnone : r.listener.guests.find? (·.number = number) = none := by
    rwa [serves, guest?, hr, Option.isSome_eq_false_iff, Option.isNone_iff_eq_none] at hnew
  have hstep : (s.step (.connect number)).running =
      some { r with listener := r.listener.accept number (.service r.image) } := by
    simp only [step, act, accept, hr, Option.map_some]
  rw [guest?, hstep]
  simp [Listener.accept_of_hasRoom hl hroom, Listener.guest?, List.find?_append, hnone]

/-! ## The life of a slave -/

/-- What holds of a slave `s` that has been `new`, after events that have done `ds` to the
registers. -/
structure Lives (new s : Slave) (events : List SlaveEvent) (ds : List RegisterDeed) : Prop where
  /-- Adding a unit fails because the slave is in use as long as it is open, -/
  inUse : ∀ unit bank, s.add unit bank = .error .inUse ↔ s.isOpen
  /-- and otherwise because the unit is registered already, if it has been added before. -/
  isRegistered : ∀ unit unit' bank, s.add unit bank = .error (.unitAlreadyRegistered unit') ↔
    s.isOpen = false ∧ unit' = unit ∧ ∃ bank', .bind unit bank' ∈ ds
  /-- It succeeds in all other cases. -/
  adds : ∀ unit bank, s.isOpen = false → (∀ bank', .bind unit bank' ∉ ds) →
    ∃ s', s.add unit bank = .ok s' ∧ s.step (.add unit bank) = s' ∧
      s.deeds (.add unit bank) = [.bind unit bank]
  /-- Failing to add a unit changes nothing and is nothing that has been done. -/
  fails : ∀ unit bank e, s.add unit bank = .error e →
    s.step (.add unit bank) = s ∧ s.deeds (.add unit bank) = []
  /-- The units are those that have been added, -/
  units : ∀ unit, unit ∈ s.image.units ↔ ∃ bank, .bind unit bank ∈ ds
  /-- each once, in ascending order. -/
  ascending : s.image.units.Pairwise (· < ·)
  /-- The slave is open at the address that has been bound since it was last closed. -/
  listens : s.localAddress = events.foldl SlaveEvent.listening none
  isOpen : s.isOpen = s.localAddress.isSome
  /-- Opening an open slave gives this address, binds nothing and has no effect. -/
  opensAgain : ∀ address bind, s.localAddress = some address → s.openAt bind = .ok (address, s)
  /-- Opening a closed slave succeeds if the address of the slave can be bound. Nobody is served at
  first, and the units and their registers stay. -/
  opens : ∀ bind bound, s.localAddress = none → bind new.address = .ok bound →
    ∃ s', s.openAt bind = .ok (bound, s') ∧ s'.localAddress = some bound ∧ s'.image = s.image ∧
      s'.memory = s.memory ∧ ∀ number, s'.serves number = false
  /-- Closing a slave drops all connections. The units and their registers stay. -/
  closes : s.close.localAddress = none ∧ s.close.image = s.image ∧ s.close.memory = s.memory ∧
    ∀ number, s.close.serves number = false
  /-- Closing a closed slave has no effect. -/
  closesAgain : s.isOpen = false → s.close = s
  /-- A client that connects to an open slave is served if a slot is free. What it asks for is
  answered from the units of the slave and from their registers. -/
  admits : ∀ r number, s.running = some r → r.listener.hasRoom → s.serves number = false →
    let s' := s.step (.connect number)
    s'.serves number ∧ s'.image = s.image ∧ s'.memory = s.memory ∧ ∀ chunk,
      let ms := (Decoder.requests.drain chunk).items
      s'.asked (.receive number chunk) = ms ∧ s'.answers (.receive number chunk) =
        (Service.executeAll s.image.handle s.memory (ms.map Connection.order)).1
  /-- If none is free, it is dropped. -/
  drops : ∀ r number, s.running = some r → r.listener.hasRoom = false →
    s.step (.connect number) = s
  /-- If clients are numbered in the order in which they connect, a slot is free as long as fewer of
  them are being served than the slave may serve at the same time. -/
  hasRoom : (events.filterMap SlaveEvent.client?).Pairwise (· < ·) → ∀ r, s.running = some r →
    (r.listener.hasRoom ↔ r.listener.guests.length < new.maxConnections)
  /-- The registers hold the banks as they were added, with all writes that have been answered by a
  response. -/
  contents : s.image.contents s.memory = RegisterMachine.registers ds
  /-- Every request, in whatever open period, has been answered from the registers as those before
  it have left them. -/
  areFaithful : AreFaithful ds
  /-- In particular, the words that a client has read are those of the unit at that time. -/
  reads : ∀ j unit address quantity r,
    ds[j]? = some (.answer unit (.readHoldingRegisters address quantity) (.ok r)) →
    ∃ row, RegisterMachine.registers (ds.take j) unit = some row ∧
      address.toNat + quantity.toNat ≤ row.words.length ∧
      r = .readHoldingRegisters ((row.words.drop address.toNat).take quantity.toNat)
  /-- Answers are sent to the clients that have asked, and nothing else is sent. -/
  sends : ∀ e, (s.act e).2 =
    (List.zipWith RequestMessage.responseFrame (s.asked e) (s.answers e)).flatMap Frame.bytes
  /-- A closed slave reads no requests. -/
  isSilent : s.isOpen = false → ∀ e, s.asked e = []
  /-- An image that the slave has had before answers for its units as the present one does. -/
  earlier : ∀ n unit request, let s' := new.run (events.take n)
    unit ∈ s'.image.units → s'.image.handle s.memory unit request =
      s.image.handle s.memory unit request

/-- The units of an image are those that are bound to a cell. -/
theorem mem_units {image : ProcessImage} {unit : UnitId} :
    unit ∈ image.units ↔ unit ∈ image.cellOf := Std.TreeMap.mem_keys

/-- Nothing runs in a slave that is closed. -/
theorem running_of_closed (h : s.isOpen = false) : s.running = none :=
  Option.isSome_eq_false_iff.1 h |> Option.isNone_iff_eq_none.1

/-- What an image makes of a request is settled by the cell of the unit. -/
theorem handle_congr {image image' : ProcessImage} {unit : UnitId}
    (h : image.cellOf[unit]? = image'.cellOf[unit]?) (memory : Memory) (request : Request) :
    image.handle memory unit request = image'.handle memory unit request := by
  have hlock : image.lock unit memory = image'.lock unit memory := by
    simp only [ProcessImage.lock, ProcessImage.resolve, h]
  cases request with
  | readHoldingRegisters | writeSingleRegister | writeMultipleRegisters | custom =>
    simp only [ProcessImage.handle, ProcessImage.execute, ProcessImage.read, ProcessImage.write,
      hlock]

/-- A slave that is closed serves nobody. -/
theorem serves_of_closed (h : s.running = none) (number : Nat) : s.serves number = false := by
  rw [serves, guest?, h]
  rfl

/-- Why adding a unit fails. -/
theorem Keeps.add_eq_error_iff {new : Slave} (h : Keeps new s ds) (unit : UnitId) (bank : Bank)
    (e : RegisterError) : s.add unit bank = .error e ↔
      s.isOpen ∧ e = .inUse ∨
      s.isOpen = false ∧ e = .unitAlreadyRegistered unit ∧ ∃ bank', .bind unit bank' ∈ ds := by
  cases hr : s.running with
  | some r => simp [add_of_open hr, isOpen, hr, eq_comm]
  | none =>
    have hinsert : s.image.insert unit bank s.memory = .error e ↔ _ :=
      ProcessImage.insert_eq_error_iff bank
    rw [h.units] at hinsert
    have hmap : s.add unit bank = .error e ↔ s.image.insert unit bank s.memory = .error e := by
      rw [add_of_closed hr]
      cases s.image.insert unit bank s.memory <;> simp [Except.map]
    simp [hmap, hinsert, isOpen, hr]

/-- Events that come later go on with what earlier ones have made. -/
theorem run_take (new : Slave) (events : List SlaveEvent) (n : Nat) :
    new.run events = (new.run (events.take n)).run (events.drop n) := by
  simp only [run, ← List.foldl_append, List.take_append_drop]

/-- Where no connection is concerned, nothing is asked. -/
theorem asked_of_nobody (h : s.visited? e = none) : s.asked e = [] := by rw [asked, h]; rfl

/-- The bytes that are sent in an event are the answers to the requests that are read in it. -/
theorem Change.sends (hc : Change s e s' ds sent) : sent =
    (List.zipWith RequestMessage.responseFrame (s.asked e) (s.answers e)).flatMap Frame.bytes := by
  cases hc with
  | refused | added | wasOpen | opened | closed | accepted => rfl
  | nobody _ hv => rw [asked_of_nobody hv]; rfl
  | served _ _ _ hv hs =>
    simp only [hs.tells, asked, answers, hv, Option.map_some, Option.getD_some]

/-- **Units and registers survive any order of opening, closing and adding.** -/
theorem lives_on (address : SocketAddress) (maxConnections : Nat) (events : List SlaveEvent) :
    let new : Slave := { address, maxConnections }
    Lives new (new.run events) events (new.history events) := by
  intro new
  have hkeeps : Keeps new (new.run events) (new.history events) :=
    (keeps_new address maxConnections).run events
  have hlistens : (new.run events).localAddress = events.foldl SlaveEvent.listening none :=
    localAddress_run new events
  have hinitial : new.HasSlots 0 := nofun
  have hslots : (events.filterMap SlaveEvent.client?).Pairwise (· < ·) →
      ∃ accepted, (new.run events).HasSlots accepted := fun hordered =>
    (keeps_new address maxConnections).hasSlots_run hinitial (fun _ _ => Nat.zero_le _) hordered
  generalize hs : new.run events = s, new.history events = ds at hkeeps hlistens hslots
  constructor
  case inUse =>
    intro unit bank
    simp [hkeeps.add_eq_error_iff]
  case isRegistered =>
    intro unit unit' bank
    simp [hkeeps.add_eq_error_iff]
  case adds =>
    intro unit bank hclosed hfree
    cases hadd : s.add unit bank with
    | error e =>
      rcases (hkeeps.add_eq_error_iff unit bank e).1 hadd with ⟨hopen, -⟩ | ⟨-, -, bank', hbank'⟩
      · rw [hclosed] at hopen
        cases hopen
      · exact absurd hbank' (hfree bank')
    | ok s' => exact ⟨s', rfl, by simp only [step, act, hadd], by simp only [deeds, hadd]⟩
  case fails =>
    intro unit bank e he
    exact ⟨by simp only [step, act, he], by simp only [deeds, he]⟩
  case units =>
    intro unit
    rw [mem_units, hkeeps.units]
  case ascending =>
    refine Std.TreeMap.ordered_keys.imp fun hlt => ?_
    exact Std.compare_eq_lt.1 hlt
  case listens => exact hlistens
  case isOpen => simp [isOpen, localAddress]
  case opensAgain =>
    intro address bind haddress
    obtain ⟨r, hr, rfl⟩ := Option.map_eq_some_iff.1 haddress
    exact openAt_of_open hr bind
  case opens =>
    intro bind bound hclosed hbind
    have hr : s.running = none := Option.map_eq_none_iff.1 hclosed
    rw [openAt_of_closed hr, hkeeps.address, hbind]
    exact ⟨_, rfl, rfl, rfl, rfl, fun _ => rfl⟩
  case closes => exact ⟨rfl, rfl, rfl, serves_of_closed rfl⟩
  case closesAgain =>
    intro hclosed
    have hr := running_of_closed hclosed
    rw [close, ← hr]
  case admits =>
    intro r number hr hroom hnew s'
    obtain ⟨himage, -⟩ := hkeeps.serves r hr
    have hguest : s'.guest? number = some ⟨number, s.image, {}⟩ :=
      himage ▸ guest?_connect hr (hkeeps.accepts r hr) hroom hnew
    refine ⟨by rw [serves, hguest]; rfl, rfl, rfl, fun chunk => ?_⟩
    simp only [asked, answers, visited?, hguest]
    exact ⟨rfl, rfl⟩
  case drops =>
    intro r number hr hfull
    have hl := hkeeps.accepts r hr
    obtain ⟨address, maxConnections, image, memory, running⟩ := s
    cases hr
    simp only [step, act, accept, Option.map_some, Listener.accept_of_full hl hfull]
  case hasRoom =>
    intro hordered r hr
    obtain ⟨accepted, hproper⟩ := hslots hordered
    have hroom := (hproper r hr).hasRoom_iff (hkeeps.accepts r hr)
    simpa [Running.reception, hkeeps.maxConnections] using hroom
  case contents => exact hkeeps.recorded.contents
  case areFaithful => exact hkeeps.recorded.areFaithful
  case reads =>
    intro j unit address quantity r hj
    exact RegisterMachine.answer_read (hkeeps.recorded.areFaithful j _ _ _ hj).symm
  case sends => exact fun e => (s.change e).sends
  case isSilent =>
    intro hclosed e
    refine asked_of_nobody ?_
    cases e <;> simp [visited?, guest?, running_of_closed hclosed]
  case earlier =>
    intro n unit request s' hunit
    have hcell := s'.cellOf_run (events.drop n) (mem_units.1 hunit)
    rw [← run_take, hs] at hcell
    exact handle_congr hcell.symm s.memory request

/-- A client of the second open period reads what one of the first has written, though a unit has
been added in between. -/
example :
    let loopback : SocketAddress := ⟨"127.0.0.1", 1502⟩
    let write : Frame := ⟨⟨0, 1⟩, (Request.writeSingleRegister 1 9).bytes⟩
    let read : Frame := ⟨⟨8, 1⟩, (Request.readHoldingRegisters 0 2).bytes⟩
    let s := ({} : Slave).run [.add 1 ⟨[5, 6]⟩, .openUp loopback, .add 2 ⟨[7]⟩, .connect 0,
      .receive 0 write.bytes, .close, .add 2 ⟨[7]⟩, .openUp loopback, .connect 1]
    (s.act (.receive 1 read.bytes)).2 = Frame.bytes ⟨⟨8, 1⟩, [3, 4, 0, 5, 0, 9]⟩ := by
  decide +kernel

end Slave

end Modbus
