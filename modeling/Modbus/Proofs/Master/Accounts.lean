import Modbus.Proofs.Master.Replies

/-!
# Every call that is started is accounted for

A call that is started is in progress until it ends, and when it ends, its caller is told so, unless
it is the caller who has given it up. So at any time the names under which calls have been started
are those of the callers who have been told something, of the calls in progress and of the calls
that have been given up, each as often as it has been used (`Master.Tells.names_run`).

Apart from a start, a withdrawal and the passing of time, whatever happens to a master does nothing
else to its calls than to end some of them (`Master.Attends`). This is shown for each of the
functions of a master, in the order in which `Changes.lean` takes them apart.
-/

namespace Modbus

namespace Happening

/-- The time that passes by a happening. -/
def span : Happening → Span
  | advance span => span
  | _ => 0

/-- The time that passes in a sequence of happenings. -/
def spanOf : List Happening → Span
  | [] => 0
  | h :: hs => h.span + spanOf hs

/-- The name under which a call is started. -/
def name? : Happening → Option CallId
  | start id _ _ _ => some id
  | _ => none

end Happening

namespace Master

variable {m : Master} {d : Option Deed} {o o' : Outcome} {c : Call}

/-- The calls in the queue, with nothing in the place of a disconnection. -/
def lineup (m : Master) : List (Option Call) := m.queue.map Waiter.call?

/-- A change by which calls only end, and their callers are told so. No time passes, and nobody
joins the queue but a disconnection, when the table has been closed. -/
structure Attention (m : Master) (d : Option Deed) (o : Outcome) : Prop where
  change : Change m d o
  clock : o.master.clock = m.clock := by rfl
  started : d.toList.filterMap Deed.started? = [] := by rfl
  told : o.told.map (·.1) = (d.toList.filterMap Deed.finished?).map (·.id) := by rfl
  lineup : none ∈ o.master.lineup → none ∈ m.lineup ∨ m.desk.table.closed.isSome := by exact .inl

/-- A master attends to its calls by such changes. -/
inductive Attends (m : Master) : Outcome → Prop where
  | refl : Attends m ⟨m, [], []⟩
  | step {d : Option Deed} {o o' : Outcome} (h : Attends m o) (ha : Attention o.master d o') :
    Attends m (o.andThen fun _ => o')

/-- One such change is enough to attend to calls. -/
theorem Attention.attends (h : Attention m d o) : Attends m o := by
  have := Attends.step .refl h
  simpa [Outcome.andThen] using this

/-- A master may attend to its calls again and again. -/
theorem Attends.trans (h : Attends m o) (h' : Attends o.master o') :
    Attends m (o.andThen fun _ => o') := by
  induction h' with
  | refl => simpa [Outcome.andThen] using h
  | step _ ha ih =>
    have := Attends.step ih ha
    simpa [Outcome.andThen, List.append_assoc] using this

/-- What a master does by itself is to attend to its calls. -/
theorem Progress.attention (h : Progress m d o) : Attention m d o := by
  refine ⟨.progress h, ?_, ?_, ?_, fun hnone => .inl ?_⟩
  case refine_4 =>
    cases h with
    | write hq | letGo hq | fail hq =>
      simpa [Master.lineup, hq, withQueue, Waiter.call?] using hnone
    | shut hq => simp [Master.lineup, hq, Waiter.call?]
    | flush | answer => exact hnone
  all_goals cases h <;> rfl

/-- What a master does by itself is nothing else. -/
theorem Proceeds.attends (h : Proceeds m o) : Attends m o := by
  induction h with
  | refl => exact .refl
  | step _ hp ih => exact .step ih hp.attention

/-- Certain calls end, their callers are told so in this order, and no time passes. -/
structure EndsCalls (m : Master) (ended : List Call) (o : Outcome) : Prop where
  clock : o.master.clock = m.clock
  told : o.told.map (·.1) = ended.map (·.id)
  calls : (ended ++ o.master.calls).Perm m.calls

/-- No call comes to be in progress. -/
theorem EndsCalls.mem_calls {ended : List Call} (h : EndsCalls m ended o)
    (hc : c ∈ o.master.calls) : c ∈ m.calls := h.calls.subset (List.mem_append_right ended hc)

/-- When some calls end, the others stay different from each other. -/
theorem EndsCalls.nodup {ended : List Call} (h : EndsCalls m ended o) (hnodup : m.calls.Nodup) :
    o.master.calls.Nodup := (List.nodup_append.1 (h.calls.nodup_iff.2 hnodup)).2.1

/-- When a master attends to its calls, those end whose callers are told so. -/
theorem Attends.endsCalls (h : Attends m o) (hnodup : m.calls.Nodup) :
    ∃ ended, EndsCalls m ended o := by
  induction h with
  | refl => exact ⟨[], rfl, rfl, .refl _⟩
  | @step d o o' _ ha ih =>
    obtain ⟨ended, hended⟩ := ih
    refine ⟨ended ++ d.toList.filterMap Deed.finished?, ha.clock.trans hended.clock, ?_, ?_⟩
    · rw [Outcome.told_andThen, List.map_append, List.map_append, hended.told, ha.told]
    · have hcalls := ha.change.calls (hended.nodup hnodup)
      rw [ha.started, List.append_nil] at hcalls
      rw [List.append_assoc]
      exact ((List.perm_append_comm.trans hcalls).append_left ended).trans hended.calls

/-! ## Endings -/

/-- Nobody joins the queue when somebody is forgotten. -/
theorem mem_lineup_of_remove {p : Waiter → Bool} {w : Option Call} (h : w ∈ (m.remove p).lineup) :
    w ∈ m.lineup := ((List.filter_sublist).map Waiter.call?).subset h

/-- When waiters are forgotten, the next one may have the turn. -/
theorem attends_withdraw (m : Master) (p : Waiter → Bool) :
    Attends (m.remove p) (m.withdraw p) := by
  unfold withdraw
  split
  · exact (proceeds_proceed _).attends
  · exact .refl

/-- A call whose deadline has come ends if it is in progress. -/
theorem attends_giveUp (m : Master) (c : Call) (ht : c.isExpired m.clock) :
    Attends m (m.giveUp c) := by
  unfold giveUp
  split <;> rename_i hc
  · have hexpire : Attention m (some (.finish c .expired)) _ :=
      { change := .expire hc ht, lineup := fun hnone => .inl (mem_lineup_of_remove hnone) }
    exact hexpire.attends.trans (attends_withdraw (m.dropTicket c) (·.isCall c))
  · exact .refl

/-- A call that is given up is not in progress any more. -/
theorem not_mem_giveUp (m : Master) (c : Call) (hnodup : m.calls.Nodup) :
    c ∉ (m.giveUp c).master.calls := by
  unfold giveUp
  split <;> rename_i hc
  · intro hmem
    have hremoved : c ∉ ((m.dropTicket c).remove (·.isCall c)).calls := by
      simp [calls_remove_isCall]
    have hnodup' : ((m.dropTicket c).remove (·.isCall c)).calls.Nodup := by
      rw [calls_remove_isCall]
      exact hnodup.filter _
    obtain ⟨ended, hended⟩ := (attends_withdraw (m.dropTicket c) (·.isCall c)).endsCalls hnodup'
    exact hremoved (hended.mem_calls hmem)
  · exact hc

/-- At a deadline, the one whose turn it is goes on with it a last time. -/
theorem proceeds_lastTurn (m : Master) (c : Call) :
    Proceeds m (if m.hasTurn (·.isCall c) then m.proceed else ⟨m, [], []⟩) := by
  split
  · exact proceeds_proceed m
  · exact .refl

/-- Before that it may go on with its turn a last time. -/
theorem attends_expire (m : Master) (c : Call) (ht : c.isExpired m.clock) :
    Attends m (m.expire c) := by
  have hlast := proceeds_lastTurn m c
  exact hlast.attends.trans (attends_giveUp _ c (isExpired_of_le ht hlast.changes.clock_le))

/-- A call whose deadline has come is not in progress any more. -/
theorem not_mem_expire (m : Master) (c : Call) (hnodup : m.calls.Nodup) :
    c ∉ (m.expire c).master.calls := by
  obtain ⟨ended, hended⟩ := (proceeds_lastTurn m c).attends.endsCalls hnodup
  exact not_mem_giveUp _ c (hended.nodup hnodup)

/-- Any number of deadlines may come. -/
theorem attends_expireAll (m : Master) (cs : List Call) (ht : ∀ c ∈ cs, c.isExpired m.clock) :
    Attends m (m.expireAll cs) := by
  induction cs generalizing m with
  | nil => exact .refl
  | cons c cs ih =>
    have hfirst := attends_expire m c (ht c List.mem_cons_self)
    refine hfirst.trans (ih (m.expire c).master fun c' hc' => ?_)
    have hle := (changes_expire m c (ht c List.mem_cons_self)).clock_le
    exact isExpired_of_le (ht c' (List.mem_cons_of_mem c hc')) hle

/-- None of the calls whose deadlines have come is in progress any more. -/
theorem not_mem_expireAll (m : Master) {cs : List Call} (ht : ∀ c ∈ cs, c.isExpired m.clock)
    (hnodup : m.calls.Nodup) : ∀ c ∈ cs, c ∉ (m.expireAll cs).master.calls := by
  induction cs generalizing m with
  | nil => nofun
  | cons c cs ih =>
    intro c' hc'
    obtain ⟨ended, hfirst⟩ :=
      (attends_expire m c (ht c List.mem_cons_self)).endsCalls hnodup
    have ht' : ∀ c' ∈ cs, c'.isExpired (m.expire c).master.clock := fun c' hc' =>
      hfirst.clock ▸ ht c' (List.mem_cons_of_mem c hc')
    have hnodup' := hfirst.nodup hnodup
    rcases List.mem_cons.1 hc' with rfl | hc'
    · obtain ⟨ended', hlater⟩ := (attends_expireAll (m.expire c').master cs ht').endsCalls hnodup'
      exact fun hmem => not_mem_expire m c' hnodup (hlater.mem_calls hmem)
    · exact ih (m.expire c).master ht' hnodup' c' hc'

/-- A table that is closed ends the calls that wait. -/
theorem attends_close (m : Master) (reason : Fault) : Attends m (m.close reason) :=
  Attention.attends { change := .close reason } |>.trans (proceeds_collect _).attends

/-! ## Happenings -/

/-- A disconnection closes the table and joins the queue. -/
theorem attends_disconnect (m : Master) (id : CallId) : Attends m (m.disconnect id) := by
  have hclosed : (m.close ⟨.notConnected, "disconnected"⟩).master.desk.table.closed.isSome := by
    rw [(changes_close m _).closed]
    cases m.desk.table.closed <;> rfl
  have hqueueUp : Attention (m.close ⟨.notConnected, "disconnected"⟩).master none _ :=
    { change := .queueUp id, lineup := fun _ => .inr hclosed }
  exact (attends_close m _).trans (hqueueUp.attends.trans (proceeds_enqueue _ _).attends)

/-- When the peer makes room, the queue goes on. -/
theorem attends_receive (m : Master) (most : Nat) : Attends m (m.receive most) := by
  induction m, most using receive_induct with
  | stop m most hn =>
    rw [receive_of_zero m hn]
    exact .refl
  | goOn m most n hn hpos ih =>
    rw [receive_of_pos m hn hpos]
    have htake : Attention m none (m.take n) := { change := .receive n }
    exact (htake.attends.trans (proceeds_proceed _).attends).trans (ih _)

/-- Frames that are passed on end the calls that wait for them. -/
theorem attends_deliver (m : Master) (fs : List Frame) : Attends m (m.deliver fs) := by
  induction fs generalizing m with
  | nil => exact .refl
  | cons f fs ih =>
    have hpass : Attention m (some (.pass f)) _ := { change := .resolve f }
    exact (hpass.attends.trans (proceeds_collect _).attends).trans (ih _)

/-- What is read ends calls by its frames, or by its error. -/
theorem attends_hear (m : Master) (r : Reading Frame) (hopen : m.inlet.isClosed = false) :
    Attends m (m.hear r) := by
  have hread : Attention m (some (.read r.rest)) _ := { change := .read hopen r.rest }
  refine (hread.attends.trans (attends_deliver _ r.items)).trans ?_
  cases r.error with
  | some e => exact attends_close _ e.fault
  | none => exact .refl

/-- Bytes of the peer are read while the incoming side is open. -/
theorem attends_send (m : Master) (bytes : Bytes) : Attends m (m.send bytes) := by
  unfold send
  split <;> rename_i h
  · exact .refl
  · exact attends_hear m _ (by simpa using h)

/-- The end of its stream closes the table at the latest. -/
theorem attends_finish (m : Master) : Attends m m.finish := by
  unfold finish
  split <;> rename_i h
  · exact .refl
  · refine (attends_hear m _ (by simpa using h)).trans ?_
    split
    · exact .refl
    · exact attends_close _ _

/-- The calls that are given up by a happening: at most one. -/
def givenUpBy (m : Master) : Happening → List Call
  | .cancel id => (m.calls.find? (·.id = id)).toList
  | _ => []

/-- What a happening that does not lead to a refusal does to the calls: those in progress before it
and the one that is started by it end, or are given up, or are in progress. -/
structure StepEnds (m : Master) (h : Happening) (ended : List Call) : Prop where
  clock : (m.step h).master.clock = m.clock + h.span
  told : (m.step h).told.map (·.1) = ended.map (·.id)
  calls : (ended ++ (m.step h).master.calls ++ m.givenUpBy h).Perm (m.calls ++ m.startedBy h)
  names : (m.startedBy h).map (·.id) = h.name?.toList
  /-- No call comes to be in progress after its deadline. -/
  expired : ∀ c ∈ (m.step h).master.calls, c.isExpired (m.step h).master.clock →
    c ∈ m.calls ∧ c.isExpired m.clock

/-- Most happenings do nothing to the calls but what a master does when it attends to them. -/
theorem Attends.stepEnds {h : Happening} (ha : Attends m (m.step h)) (hspan : h.span = 0)
    (hname : h.name? = none) (hstarted : m.startedBy h = []) (hgivenUp : m.givenUpBy h = [])
    (hnodup : m.calls.Nodup) : ∃ ended, m.StepEnds h ended := by
  obtain ⟨ended, hended⟩ := ha.endsCalls hnodup
  refine ⟨ended, ?_, hended.told, ?_, by rw [hstarted, hname]; rfl,
    fun c hc ht => ⟨hended.mem_calls hc, hended.clock ▸ ht⟩⟩
  · rw [hended.clock, hspan, Nat.add_zero]
  · rw [hstarted, hgivenUp, List.append_nil, List.append_nil]
    exact hended.calls

/-- A master in which a call has joined the queue. -/
def join (m : Master) (c : Call) (desk : Desk) : Master :=
  { m with desk, queue := m.queue ++ [.call c false] }

variable {id : CallId} {unit : UnitId} {request : Request} {timeout : Option Span} {desk : Desk}

/-- A call that is not refused joins the queue, and may end at once. -/
theorem attends_start (hnew : m.newCall id unit request timeout = .ok (c, desk)) :
    Attends (m.join c desk) (m.step (.start id unit request timeout)) := by
  have hqueue : Proceeds (m.join c desk) (enqueue { m with desk } (.call c false)) :=
    proceeds_enqueue { m with desk } (.call c false)
  simp only [step, start, hnew]
  split <;> rename_i ht
  · exact hqueue.attends.trans (attends_giveUp _ c (isExpired_of_le ht hqueue.changes.clock_le))
  · exact hqueue.attends

/-- If its deadline has come, it does. -/
theorem not_mem_start (hnew : m.newCall id unit request timeout = .ok (c, desk))
    (ht : c.isExpired m.clock) (hnodup : (m.join c desk).calls.Nodup) :
    c ∉ (m.step (.start id unit request timeout)).master.calls := by
  have hqueue : Proceeds (m.join c desk) (enqueue { m with desk } (.call c false)) :=
    proceeds_enqueue { m with desk } (.call c false)
  obtain ⟨ended, hended⟩ := hqueue.attends.endsCalls hnodup
  simp only [step, start, hnew, if_pos ht]
  exact not_mem_giveUp _ c (hended.nodup hnodup)

/-- A start that is not refused adds one call, which may end at once with others. -/
theorem stepEnds_start (hnew : m.newCall id unit request timeout = .ok (c, desk))
    (hnodup : m.calls.Nodup) (hjoined : (m.join c desk).calls.Nodup) :
    ∃ ended, m.StepEnds (.start id unit request timeout) ended := by
  have hcalls : (m.join c desk).calls.Perm (m.calls ++ [c]) := by
    have hjoin := (Change.join hnew).calls hnodup
    simpa [join, List.filterMap_cons, Deed.started?, Deed.finished?] using hjoin
  have hstarted : m.startedBy (.start id unit request timeout) = [c] := by
    simp only [startedBy, hnew]
  have hgivenUp : m.givenUpBy (.start id unit request timeout) = [] := rfl
  obtain ⟨ended, hended⟩ := (attends_start hnew).endsCalls hjoined
  refine ⟨ended, hended.clock, hended.told, ?_, ?_, fun c' hc' ht => ?_⟩
  · rw [hstarted, hgivenUp, List.append_nil]
    exact hended.calls.trans hcalls
  · obtain ⟨_, -, -, hid, -⟩ := newCall_inv hnew
    rw [hstarted]
    exact congrArg (fun id => [id]) hid
  · rw [hended.clock] at ht
    rcases List.mem_append.1 (hcalls.subset (hended.mem_calls hc')) with hold | hself
    · exact ⟨hold, ht⟩
    · obtain rfl := List.mem_singleton.1 hself
      exact absurd hc' (not_mem_start hnew ht hjoined)

/-- A call that is given up by its caller leaves the queue. -/
theorem attends_cancel_call (hfind : m.calls.find? (·.id = id) = some c) :
    Attends ((m.dropTicket c).remove (·.isCall c)) (m.step (.cancel id)) := by
  simp only [step, cancel, hfind]
  exact attends_withdraw (m.dropTicket c) (·.isCall c)

/-- So does a disconnection. -/
theorem attends_cancel_disconnection (hfind : m.calls.find? (·.id = id) = none) :
    Attends (m.remove (·.isDisconnect id)) (m.step (.cancel id)) := by
  simp only [step, cancel, hfind]
  exact attends_withdraw m (·.isDisconnect id)

/-- A caller gives up the first call with its name, if there is one. -/
theorem stepEnds_cancel (id : CallId) (hnodup : m.calls.Nodup) :
    ∃ ended, m.StepEnds (.cancel id) ended := by
  have hstarted : m.startedBy (.cancel id) = [] := rfl
  cases hfind : m.calls.find? (·.id = id) with
  | some c =>
    have hgone : (((m.dropTicket c).remove (·.isCall c)).calls ++ [c]).Perm m.calls := by
      have hcalls := (Change.abandon (List.mem_of_find?_eq_some hfind)).calls hnodup
      simpa [List.filterMap_cons, Deed.started?, Deed.finished?] using hcalls
    have hnodup' := (List.nodup_append.1 (hgone.nodup_iff.2 hnodup)).1
    obtain ⟨ended, hended⟩ := (attends_cancel_call hfind).endsCalls hnodup'
    have hold {c' : Call} (hc' : c' ∈ (m.step (.cancel id)).master.calls) : c' ∈ m.calls :=
      hgone.subset (List.mem_append_left _ (hended.mem_calls hc'))
    refine ⟨ended, hended.clock, hended.told, ?_, rfl,
      fun c' hc' ht => ⟨hold hc', hended.clock ▸ ht⟩⟩
    rw [givenUpBy, hfind, hstarted, List.append_nil]
    exact (hended.calls.append_right [c]).trans hgone
  | none =>
    have hcalls := m.calls_remove_isDisconnect id
    obtain ⟨ended, hended⟩ := (attends_cancel_disconnection hfind).endsCalls (hcalls ▸ hnodup)
    refine ⟨ended, hended.clock, hended.told, ?_, rfl,
      fun c' hc' ht => ⟨hcalls ▸ hended.mem_calls hc', hended.clock ▸ ht⟩⟩
    rw [givenUpBy, hfind, hstarted, Option.toList_none, List.append_nil, List.append_nil, ← hcalls]
    exact hended.calls

/-- When time passes, the calls end whose deadlines come. -/
theorem attends_advance (m : Master) (span : Span) :
    Attends { m with clock := m.clock + span } (m.step (.advance span)) :=
  attends_expireAll _ _ fun _ hc => (mem_expired.1 hc).2

/-- When time passes, no call is left in progress whose deadline has come. -/
theorem stepEnds_advance (span : Span) (hnodup : m.calls.Nodup) :
    ∃ ended, m.StepEnds (.advance span) ended := by
  obtain ⟨ended, hended⟩ := (attends_advance m span).endsCalls hnodup
  refine ⟨ended, hended.clock, hended.told, ?_, rfl, fun c hc ht => ?_⟩
  · have hcalls : (ended ++ (m.step (.advance span)).master.calls).Perm m.calls := hended.calls
    simpa [givenUpBy, startedBy] using hcalls
  · have hexpired : c ∈ expired { m with clock := m.clock + span } :=
      mem_expired.2 ⟨hended.mem_calls hc, hended.clock ▸ ht⟩
    have hover := not_mem_expireAll { m with clock := m.clock + span }
      (fun _ hc => (mem_expired.1 hc).2) hnodup
    exact absurd hc (hover c hexpired)

/-- In every run a happening leads to a refusal or does this to the calls. -/
theorem Tells.stepEnds {ds : List Deed} (h : Tells ds o) (happening : Happening) :
    (∃ id unit request timeout e, happening = .start id unit request timeout ∧
      o.master.newCall id unit request timeout = .error e) ∨
    ∃ ended, o.master.StepEnds happening ended := by
  have hnodup := h.nodup_calls
  cases happening with
  | start id unit request timeout =>
    cases hnew : o.master.newCall id unit request timeout with
    | error e => exact .inl ⟨id, unit, request, timeout, e, rfl, hnew⟩
    | ok r =>
      obtain ⟨c, desk⟩ := r
      exact .inr (stepEnds_start hnew hnodup (h.change (.join hnew)).nodup_calls)
  | cancel id => exact .inr (stepEnds_cancel id hnodup)
  | advance span => exact .inr (stepEnds_advance span hnodup)
  | disconnect id => exact .inr ((attends_disconnect _ id).stepEnds rfl rfl rfl rfl hnodup)
  | receive most => exact .inr ((attends_receive _ _).stepEnds rfl rfl rfl rfl hnodup)
  | send bytes => exact .inr ((attends_send _ bytes).stepEnds rfl rfl rfl rfl hnodup)
  | finish => exact .inr ((attends_finish _).stepEnds rfl rfl rfl rfl hnodup)
  | deafen =>
    have hdeafen : Attention o.master none _ := { change := .deafen }
    have ha := hdeafen.attends.trans (proceeds_proceed _).attends
    exact .inr (ha.stepEnds rfl rfl rfl rfl hnodup)
  | wake treatments =>
    have hwake : Attention o.master none _ := { change := .wake treatments }
    have ha := hwake.attends.trans (proceeds_proceed _).attends
    exact .inr (ha.stepEnds rfl rfl rfl rfl hnodup)

/-! ## Names -/

/-- The calls that are given up in a sequence of happenings. -/
def givenUp (m : Master) : List Happening → List Call
  | [] => []
  | h :: hs => m.givenUpBy h ++ (m.step h).master.givenUp hs

/-- What the deeds tell goes on with every happening. -/
theorem Tells.step {ds : List Deed} (h : Tells ds o) (happening : Happening) :
    ∃ ds', Tells ds' (o.andThen fun m => m.step happening) := by
  obtain ⟨ds', ht, -⟩ := changes_step o.master happening
  exact ⟨ds ++ ds', h.extend ht⟩

/-- By a happening a name comes to be accounted for, and none is lost. -/
theorem Tells.names_step {ds : List Deed} (h : Tells ds o) (happening : Happening) :
    (o.master.calls.map (·.id) ++ happening.name?.toList).Perm
      ((o.master.step happening).told.map (·.1) ++
        (o.master.step happening).master.calls.map (·.id) ++
        (o.master.givenUpBy happening).map (·.id)) := by
  rcases h.stepEnds happening with ⟨id, unit, request, timeout, e, rfl, hnew⟩ | ⟨ended, hended⟩
  · rw [step_of_refused hnew]
    simp [Happening.name?, givenUpBy, Outcome.told, Event.told?, List.perm_append_singleton]
  · have hcalls := (hended.calls.map (·.id)).symm
    rwa [List.map_append, List.map_append, List.map_append, hended.names, ← hended.told] at hcalls

/-- **Names are accounted for** in every run: as often as calls have been started under a name, a
caller of this name has been told something, or has a call in progress, or has given up a call. -/
theorem Tells.names_run {ds : List Deed} (h : Tells ds o) (hs : List Happening) :
    (o.master.calls.map (·.id) ++ hs.filterMap Happening.name?).Perm
      ((o.master.run hs).told.map (·.1) ++ (o.master.run hs).master.calls.map (·.id) ++
        (o.master.givenUp hs).map (·.id)) := by
  induction hs generalizing ds o with
  | nil => simp [run, givenUp, Outcome.told]
  | cons happening hs ih =>
    obtain ⟨ds', h'⟩ := h.step happening
    have hnow := h.names_step happening
    have hlater := ih h'
    have hnames : (happening :: hs).filterMap Happening.name? =
        happening.name?.toList ++ hs.filterMap Happening.name? := by
      cases hname : happening.name? <;> simp [hname]
    -- a name counts for the first happening, or for those after it
    simp only [Outcome.master_andThen, List.perm_iff_count, List.count_append] at hnow hlater
    rw [hnames, List.perm_iff_count]
    intro id
    simp only [run, givenUp, Outcome.master_andThen, Outcome.told_andThen, List.map_append,
      List.count_append]
    have := hnow id
    have := hlater id
    omega

end Master

end Modbus
