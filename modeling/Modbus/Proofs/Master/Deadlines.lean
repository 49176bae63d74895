import Mathlib.Data.List.Basic
import Modbus.Proofs.Master.Starts
import Modbus.Proofs.Master.Verdict

/-!
# Deadlines

A call that is started with a timeout has one deadline, at the first full millisecond that is not
before the timeout has run out. Whether the call waits to write, for the transport or for its
response, it is not in progress any more when the clock has reached this deadline
(`Master.Tells.isTimely_run`), and only then its caller is told that its time is over, with the
timeout of the call (`Master.Trace.told_timeout`). `Master.run_keeps_deadlines` puts this together
with the accounts of names (`Master.Tells.names_run`) and with what comes of a start at once
(`Master.Tells.starts`): no call ends twice, and a call that has been given up never ends.

A call with no time at all has a deadline as well, so its time is over at once only if it is started
at a full millisecond. Between two of them it waits for the second one
(`Master.zero_timeout_waits`).
-/

namespace Modbus

namespace Master

variable {m : Master} {d : Option Deed} {ds ds' : List Deed} {o o' : Outcome} {c : Call}
  {hs : List Happening} {id : CallId} {span : Span}

/-! ## Starts -/

/-- The calls that are started in a sequence of happenings, with the times of their starts. -/
def startTimes (m : Master) : List Happening → List (Call × Span)
  | [] => []
  | h :: hs => (m.startedBy h).map (·, m.clock) ++ (m.step h).master.startTimes hs

/-- These are the calls that are started. -/
theorem map_startTimes (m : Master) (hs : List Happening) :
    (m.startTimes hs).map (·.1) = m.started hs := by
  induction hs generalizing m with
  | nil => rfl
  | cons h hs ih =>
    rw [startTimes, started, List.map_append, ih, List.map_map]
    exact congrArg (· ++ _) (List.map_id _)

/-- A happening that starts a call is a start. -/
theorem startedBy_inv {h : Happening} (hc : c ∈ m.startedBy h) :
    ∃ id unit request timeout desk, h = .start id unit request timeout ∧
      m.newCall id unit request timeout = .ok (c, desk) := by
  cases h with
  | start id unit request timeout =>
    cases hnew : m.newCall id unit request timeout with
    | error e => simp [startedBy, hnew] at hc
    | ok r =>
      obtain ⟨c', desk⟩ := r
      obtain rfl : c = c' := by simpa [startedBy, hnew] using hc
      exact ⟨id, unit, request, timeout, desk, rfl, hnew⟩
  | _ => cases hc

/-- The deadline of a call is told by its timeout and by the time of its start. -/
theorem deadline_of_started {t : Span} (h : (c, t) ∈ m.startTimes hs) :
    c.deadline = c.timeout.map fun span => Span.ceilMillis (t + span) := by
  induction hs generalizing m with
  | nil => cases h
  | cons happening hs ih =>
    rcases List.mem_append.1 h with hnow | hlater
    · obtain ⟨c', hc', heq⟩ := List.mem_map.1 hnow
      cases heq
      obtain ⟨id, unit, request, timeout, desk, -, hnew⟩ := startedBy_inv hc'
      obtain ⟨htimeout, hdeadline⟩ := deadline_of_newCall hnew
      rw [hdeadline, htimeout]
    · exact ih hlater

/-- The deadline of a call with a timeout has come when the clock says so. -/
theorem isExpired_of_started {t now : Span} (h : (c, t) ∈ m.startTimes hs) :
    c.isExpired now = true ↔ ∃ span, c.timeout = some span ∧ Span.ceilMillis (t + span) ≤ now := by
  rw [Call.isExpired, deadline_of_started h]
  cases c.timeout <;> simp

/-! ## The clock -/

/-- No call is in progress when its deadline has come. -/
def IsTimely (m : Master) : Prop := ∀ c ∈ m.calls, ¬ c.isExpired m.clock

/-- In every happening the time passes that it takes. -/
theorem Tells.clock_step (h : Tells ds o) (happening : Happening) :
    (o.master.step happening).master.clock = o.master.clock + happening.span := by
  rcases h.stepEnds happening with ⟨_, _, _, _, _, rfl, hnew⟩ | ⟨ended, hended⟩
  · rw [step_of_refused hnew]
    rfl
  · exact hended.clock

/-- So it does in every run. -/
theorem Tells.clock_run (h : Tells ds o) (hs : List Happening) :
    (o.master.run hs).master.clock = o.master.clock + Happening.spanOf hs := by
  induction hs generalizing ds o with
  | nil => rfl
  | cons happening hs ih =>
    obtain ⟨ds', h'⟩ := h.step happening
    have hlater := ih h'
    rw [Outcome.master_andThen] at hlater
    rw [run, Outcome.master_andThen, hlater, h.clock_step, Nat.add_assoc]
    rfl

/-- Whatever happens, the calls end whose deadlines come. -/
theorem Tells.isTimely_step (h : Tells ds o) (htimely : o.master.IsTimely)
    (happening : Happening) : (o.master.step happening).master.IsTimely := by
  rcases h.stepEnds happening with ⟨_, _, _, _, _, rfl, hnew⟩ | ⟨ended, hended⟩
  · rw [step_of_refused hnew]
    exact htimely
  · intro c hc ht
    obtain ⟨hold, ht⟩ := hended.expired c hc ht
    exact htimely c hold ht

/-- Hence no run leaves a call in progress whose deadline has come. -/
theorem Tells.isTimely_run (h : Tells ds o) (htimely : o.master.IsTimely) (hs : List Happening) :
    (o.master.run hs).master.IsTimely := by
  induction hs generalizing ds o with
  | nil => exact htimely
  | cons happening hs ih =>
    obtain ⟨ds', h'⟩ := h.step happening
    exact ih (o := o.andThen fun m => m.step happening) h' (h.isTimely_step htimely happening)

/-! ## Timeouts -/

/-- A delivery that is an error is a fault of the transport. -/
theorem Tells.transport_of_delivery (h : Tells ds o) {e : Error}
    (hd : o.master.deliveryFor? c = some (.error e)) : ∃ fault, e = .transport fault := by
  obtain ⟨outlook, houtlook, hdelivery⟩ := Option.bind_eq_some_iff.1 hd
  cases outlook with
  | waiting => cases hdelivery
  | severed =>
    cases hdelivery
    exact ⟨_, rfl⟩
  | ready reply =>
    cases hdelivery
    obtain ⟨ticket, ht, hreply⟩ := Desk.outlook?_eq_ready.1 houtlook
    rw [h.desk, ← Desk.after_length] at ht
    obtain ⟨j, -, hr⟩ := (Desk.delivery_iff ht).1 hreply
    cases hr
    exact ⟨_, rfl⟩

/-- What a call makes of its delivery has nothing to do with time. -/
theorem Tells.verdict_ne_timeout (h : Tells ds o) {delivery : Delivery}
    (hd : o.master.deliveryFor? c = some delivery) (policy : UnitPolicy) (span : Span) :
    c.verdict policy delivery ≠ .error (.timeout span) := by
  cases delivery with
  | error e =>
    obtain ⟨fault, rfl⟩ := h.transport_of_delivery hd
    nofun
  | ok f =>
    intro heq
    have hjudged : c.judge policy f = .error (.timeout span) := heq
    cases Call.judge_eq_iff.1 hjudged

/-- Nor has the refusal of a call. -/
theorem ne_timeout_of_refused {unit : UnitId} {request : Request} {timeout : Option Span}
    {e : Error} (h : m.newCall id unit request timeout = .error e) (span : Span) :
    e ≠ .timeout span := by
  unfold newCall at h
  split at h
  · cases h
    nofun
  · split at h <;> rename_i ha
    · cases h
      rcases Desk.allocate_error_inv ha with ⟨reason, -, rfl⟩ | rfl <;> nofun
    · cases h

/-- A caller is told that the time of its call is over when the deadline of the call has come. -/
theorem Tells.told_timeout_change (h : Tells ds o) (hchange : Change o.master d o')
    (htold : (id, .error (.timeout span)) ∈ o'.told) :
    ∃ c, d = some (.finish c .expired) ∧ c.id = id ∧ c.timeout.getD 0 = span ∧
      c.isExpired o'.master.clock := by
  have hevent := Outcome.mem_told.1 htold
  cases hchange with
  | progress hp =>
    cases hp with
    | answer _ hd =>
      obtain ⟨-, hresult⟩ := Event.finished.inj (List.mem_singleton.1 hevent)
      exact absurd hresult.symm (h.verdict_ne_timeout hd o.master.policy span)
    | _ => simp at hevent
  | refuse hnew =>
    obtain ⟨-, hresult⟩ := Event.finished.inj (List.mem_singleton.1 hevent)
    exact absurd (Except.error.inj hresult).symm (ne_timeout_of_refused hnew span)
  | @expire c hc ht =>
    obtain ⟨hid, hresult⟩ := Event.finished.inj (List.mem_singleton.1 hevent)
    cases hresult
    exact ⟨c, rfl, hid.symm, rfl, ht⟩
  | _ => simp at hevent

/-- A call in progress at the end of a trace has been so before, or it is started in between. -/
theorem Trace.mem_calls (h : Tells ds o) (ht : Trace o.master ds' o')
    (hc : c ∈ o'.master.calls) : c ∈ o.master.calls ∨ .start c ∈ ds' := by
  induction ht with
  | refl => exact .inl hc
  | @step ds₁ d o₁ o₂ ht hchange ih =>
    have hcalls := hchange.calls (h.extend ht).nodup_calls
    rcases List.mem_append.1 (hcalls.subset (List.mem_append_left _ hc)) with hold | hnew
    · exact (ih hold).imp_right (List.mem_append_left _)
    · exact .inr (List.mem_append_right _ (Deed.mem_started.1 hnew))

/-- So it is all along a trace: the call has been in progress when its deadline came. -/
theorem Trace.told_timeout (h : Tells ds o) (ht : Trace o.master ds' o')
    (htold : (id, .error (.timeout span)) ∈ o'.told) :
    ∃ c, (c ∈ o.master.calls ∨ .start c ∈ ds') ∧ c.id = id ∧ c.timeout.getD 0 = span ∧
      c.isExpired o'.master.clock := by
  induction ht with
  | refl => cases htold
  | @step ds₁ d o₁ o₂ ht hchange ih =>
    rw [Outcome.told_andThen] at htold
    rcases List.mem_append.1 htold with hbefore | hnow
    · obtain ⟨c, hc, hid, hspan, hexpired⟩ := ih hbefore
      exact ⟨c, hc.imp_right (List.mem_append_left _), hid, hspan,
        isExpired_of_le hexpired hchange.clock_le⟩
    · obtain ⟨c, rfl, hid, hspan, hexpired⟩ := (h.extend ht).told_timeout_change hchange hnow
      have hc := ht.mem_calls h hchange.mem_calls_of_finish
      exact ⟨c, hc.imp_right (List.mem_append_left _), hid, hspan, hexpired⟩

/-- A caller is told that its time is over in the happening by which the deadline comes. -/
theorem Tells.told_timeout (h : Tells ds o) {happening : Happening}
    (he : .finished id (.error (.timeout span)) ∈ (o.master.step happening).events) :
    ∃ c, (c ∈ o.master.calls ∨ c ∈ o.master.startedBy happening) ∧ c.id = id ∧
      c.timeout.getD 0 = span ∧ c.isExpired (o.master.step happening).master.clock := by
  obtain ⟨ds', ht, hinputs⟩ := changes_step o.master happening
  obtain ⟨c, hc, hcall⟩ := ht.told_timeout h (Outcome.mem_told.2 he)
  refine ⟨c, hc.imp_right fun hstart => ?_, hcall⟩
  have hinput : .start c ∈ ds'.filter Deed.isInput := List.mem_filter.2 ⟨hstart, rfl⟩
  rw [hinputs] at hinput
  rw [← filterMap_inputsBy]
  exact Deed.mem_started.2 hinput

/-- A call has its deadline from the change that starts it. -/
theorem Change.deadline (h : Change m (some (.start c)) o) :
    c.deadline = c.timeout.map fun span => (m.clock + span).ceilMillis := by
  cases h with
  | progress hp => cases hp
  | join hnew =>
    obtain ⟨htimeout, hdeadline⟩ := deadline_of_newCall hnew
    rw [hdeadline, htimeout]

/-- The deadline has come when the call ends because of it. -/
theorem Change.isExpired (h : Change m (some (.finish c .expired)) o) : c.isExpired m.clock := by
  cases h with
  | progress hp => cases hp
  | expire _ ht => exact ht

/-- Only a call with a timeout ends because its deadline has come. -/
theorem Tells.timeout_of_expired (h : Tells ds o) (hf : .finish c .expired ∈ ds) :
    ∃ span, c.timeout = some span := by
  obtain ⟨policy, capacity, ht⟩ := h.trace
  have hstarted := h.calls.subset (List.mem_append_right _ (Deed.mem_finished.2 ⟨_, hf⟩))
  obtain ⟨j, hj⟩ := List.mem_iff_getElem?.1 (Deed.mem_started.1 hstarted)
  obtain ⟨k, hk⟩ := List.mem_iff_getElem?.1 hf
  obtain ⟨_, _, _, -, hstart, -⟩ := ht.cut hj
  obtain ⟨_, _, _, -, hexpire, -⟩ := ht.cut hk
  have hexpired := hexpire.isExpired
  cases htimeout : c.timeout with
  | some span => exact ⟨span, rfl⟩
  | none => simp [Call.isExpired, hstart.deadline, htimeout] at hexpired

/-! ## Runs -/

/-- One more happening comes after a run. -/
theorem startTimes_concat (m : Master) (hs : List Happening) (h : Happening) :
    m.startTimes (hs ++ [h]) = m.startTimes hs ++
      ((m.run hs).master.startedBy h).map (·, (m.run hs).master.clock) := by
  induction hs generalizing m with
  | nil => simp [startTimes, run]
  | cons h' hs ih =>
    rw [List.cons_append, startTimes, startTimes, ih, List.append_assoc]
    rfl

/-- What is true of the calls of a run, of the times at which they are started and end, and of what
their callers are told. -/
structure KeepsTime (m : Master) (hs : List Happening) (o : Outcome) : Prop where
  /-- Time passes only when it is let pass. -/
  clock : o.master.clock = m.clock + Happening.spanOf hs
  /-- Every call that is started has a time of its start. -/
  started : (m.startTimes hs).map (·.1) = m.started hs
  /-- Whatever a call in progress waits for, its timeout has not run out since its start. -/
  waits : ∀ c ∈ o.master.calls, ∃ t, (c, t) ∈ m.startTimes hs ∧
    ∀ span, c.timeout = some span → o.master.clock < Span.ceilMillis (t + span)
  /-- The caller of a call that has been in progress is told its timeout when this has run out. -/
  timeouts : ∀ h id span, .finished id (.error (.timeout span)) ∈ (o.master.step h).events →
    ∃ c t, (c, t) ∈ m.startTimes (hs ++ [h]) ∧
      (c ∈ o.master.calls ∨ c ∈ o.master.startedBy h) ∧ c.id = id ∧ c.timeout = some span ∧
      Span.ceilMillis (t + span) ≤ (o.master.step h).master.clock
  /-- Unless a call is refused or the transport fails in its turn, its caller is told the timeout at
  once if there is no time at all and a full millisecond has come, and otherwise the call is in
  progress. -/
  starts : ∀ id unit request timeout, o.master.Starts id unit request timeout
  /-- As often as calls have been started under a name, its caller has been told something, or has a
  call in progress, or has given up a call in progress. -/
  names : (hs.filterMap Happening.name?).Perm
    (o.told.map (·.1) ++ o.master.calls.map (·.id) ++ (m.givenUp hs).map (·.id))
  /-- If a name is used once, its caller is told something at most once, and nothing if it has given
  up the call. -/
  once : ∀ id, (hs.filterMap Happening.name?).count id ≤ 1 → (o.told.map (·.1)).count id ≤ 1 ∧
    (id ∈ (m.givenUp hs).map (·.id) → ∀ result, .finished id result ∉ o.events)

/-- **Every call keeps its deadline and ends at most once**, in every run. A run may stop anywhere,
so this is true after every happening of it. -/
theorem run_keeps_deadlines (policy : UnitPolicy) (capacity : Nat) (hs : List Happening) :
    let m := attach policy capacity
    KeepsTime m hs (m.run hs) := by
  intro m
  have hnew : Tells [] ⟨m, [], []⟩ := .attach policy capacity
  obtain ⟨ds, ht, -, hstarted⟩ := m.exists_trace hs
  have htells := Tells.of_trace ht
  have hquiet : (m.run hs).master.IsQuiet := isQuiet_run (m := m) nofun hs
  have hstart {c : Call} (hc : c ∈ (m.run hs).master.calls) : ∃ t, (c, t) ∈ m.startTimes hs := by
    have hmem := htells.started_of_mem hc
    rw [hstarted, ← map_startTimes] at hmem
    obtain ⟨⟨_, t⟩, hp, rfl⟩ := List.mem_map.1 hmem
    exact ⟨t, hp⟩
  have hnames : (hs.filterMap Happening.name?).Perm
      ((m.run hs).told.map (·.1) ++ (m.run hs).master.calls.map (·.id) ++
        (m.givenUp hs).map (·.id)) := hnew.names_run hs
  constructor
  case clock => exact hnew.clock_run hs
  case started => exact m.map_startTimes hs
  case waits =>
    intro c hc
    obtain ⟨t, ht⟩ := hstart hc
    refine ⟨t, ht, fun span hspan => Nat.lt_of_not_le fun hle => ?_⟩
    have htimely : (m.run hs).master.IsTimely := hnew.isTimely_run nofun hs
    exact htimely c hc ((isExpired_of_started ht).2 ⟨span, hspan, hle⟩)
  case timeouts =>
    intro h id span he
    obtain ⟨c, hc, hid, hspan, hexpired⟩ := htells.told_timeout he
    obtain ⟨t, ht⟩ : ∃ t, (c, t) ∈ m.startTimes (hs ++ [h]) := by
      rw [startTimes_concat]
      rcases hc with hc | hc
      · exact (hstart hc).imp fun t => List.mem_append_left _
      · exact ⟨_, List.mem_append_right _ (List.mem_map_of_mem hc)⟩
    obtain ⟨span', htimeout, hle⟩ := (isExpired_of_started ht).1 hexpired
    rw [htimeout] at hspan
    exact ⟨c, t, ht, hc, hid, hspan ▸ htimeout, hspan ▸ hle⟩
  case starts => exact fun id unit request timeout => htells.starts hquiet id unit request timeout
  case names => exact hnames
  case once =>
    intro id hid
    have hcount := hnames.count_eq id
    rw [List.count_append, List.count_append] at hcount
    refine ⟨by omega, fun hgiven result he => ?_⟩
    have hgone := List.count_pos_iff.2 hgiven
    have htold : id ∈ (m.run hs).told.map (·.1) := List.mem_map_of_mem (Outcome.mem_told.2 he)
    have honce := List.count_pos_iff.2 htold
    omega

/-- A call with no time at all that is started between two full milliseconds is told nothing at
once, and its time is over at the second of them. At a full millisecond, too, such a call is told
something else if it is refused or if the transport fails. -/
theorem zero_timeout_waits :
    let start : Happening := .start 0 1 (.readHoldingRegisters 0 1) (some 0)
    let o := (attach .warn 64).run [.advance 500, start]
    o.told = [] ∧ o.master.calls.map (·.id) = [0] ∧
      (o.master.step (.advance 500)).told = [(0, .error (.timeout 0))] ∧
      ((attach .warn 64).run [.finish, start]).told =
        [(0, .error (.transport ⟨.unexpectedEof, "connection closed by peer"⟩))] ∧
      ((attach .warn 64).run [.deafen, start]).told = [(0, .error (.transport .brokenPipe))] := by
  refine ⟨?_, ?_, ?_, ?_, ?_⟩ <;> cbv

/-- Two calls that cannot write end in the same millisecond, although one of them has been given
less time. The turn passes from the first one to the second one in between. -/
example :
    let hs : List Happening := [.start 0 1 (.readHoldingRegisters 0 1) (some 1001),
      .start 1 1 (.readHoldingRegisters 0 1) (some 2000), .advance 1000, .advance 1000]
    ((attach .warn 0).run hs).told =
      [(0, .error (.timeout 1001)), (1, .error (.timeout 2000))] := by
  cbv

end Master

end Modbus
