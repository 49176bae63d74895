import Modbus.Proofs.Slave.Execution

/-!
# Interleaved clients

Several clients ask one service, each of them for one thing after another, and what they ask for is
carried out in some order that keeps the order of each client. If the errands of different clients
commute (`Service.Commutes`), this order does not matter: every client is answered as if it were
alone (`Service.answersTo_eq_alone`), and the service ends in the same state
(`Service.state_eq_of_interleaved`).

Both rest on one fact: what commutes with all errands of a list may be carried out before them or
behind them (`Service.executeAll_after`). The second one moves the first errand to the front of the
other list and goes on with the remaining ones.
-/

namespace Modbus

/-- What a client asks for. -/
structure Errand where
  client : Nat
  unit : UnitId
  request : Request

namespace Errand

/-- The unit and the request of an errand. -/
def order (e : Errand) : UnitId × Request := (e.unit, e.request)

/-- The errands of a client among those of others. -/
def ofClient (client : Nat) (es : List Errand) : List Errand := es.filter (·.client = client)

/-- Whether two lists have the same errands, in the same order for each client. -/
def Interleaved (es es' : List Errand) : Prop := ∀ client, ofClient client es = ofClient client es'

/-- Whether the orders of different clients are in a relation. -/
def ApartBy (R : UnitId × Request → UnitId × Request → Prop) (es : List Errand) : Prop :=
  ∀ e ∈ es, ∀ e' ∈ es, e.client ≠ e'.client → R e.order e'.order

variable {R R' : UnitId × Request → UnitId × Request → Prop} {e : Errand} {es es' : List Errand}

/-- The errands of a client are those that name it. -/
theorem mem_ofClient {client : Nat} : e ∈ ofClient client es ↔ e ∈ es ∧ e.client = client := by
  simp [ofClient]

/-- Lists that are interleavings of the same errands have the same errands. -/
theorem Interleaved.mem_iff (h : Interleaved es es') : e ∈ es ↔ e ∈ es' := by
  have hclient (es : List Errand) : e ∈ es ↔ e ∈ ofClient e.client es := by simp [mem_ofClient]
  rw [hclient es, hclient es', h e.client]

/-- Errands that are kept apart are so without the first one. -/
theorem ApartBy.of_cons (h : ApartBy R (e :: es)) : ApartBy R es :=
  fun _ hd _ hd' => h _ (List.mem_cons_of_mem _ hd) _ (List.mem_cons_of_mem _ hd')

/-- What keeps the orders of different clients apart may be replaced by what it implies. -/
theorem ApartBy.imp (h : ApartBy R es) (himp : ∀ {o o'}, R o o' → R' o o') : ApartBy R' es :=
  fun e he e' he' hne => himp (h e he e' he' hne)

/-- The orders of different clients are kept apart in every interleaving of them. -/
theorem Interleaved.apartBy (hsame : Interleaved es es') (h : ApartBy R es) : ApartBy R es' :=
  fun e he e' he' => h e (hsame.mem_iff.2 he) e' (hsame.mem_iff.2 he')

/-- The first errand of a list stands in the other one, behind errands of other clients only. -/
theorem Interleaved.exists_of_cons (h : Interleaved (e :: es) es') :
    ∃ before behind, es' = before ++ e :: behind ∧ (∀ e' ∈ before, e'.client ≠ e.client) ∧
      Interleaved es (before ++ behind) := by
  have hfirst : ofClient e.client es' = e :: ofClient e.client es := by
    rw [← h e.client]
    simp [ofClient]
  obtain ⟨before, behind, rfl, hbefore, -, hbehind⟩ := List.filter_eq_cons_iff.1 hfirst
  have hothers : ∀ e' ∈ before, e'.client ≠ e.client := by simpa using hbefore
  refine ⟨before, behind, rfl, hothers, fun client => ?_⟩
  by_cases hclient : client = e.client
  · subst hclient
    have hnone : before.filter (·.client = e.client) = [] := by simpa using hbefore
    simp only [ofClient, List.filter_append, hnone, List.nil_append] at hbehind ⊢
    exact hbehind.symm
  · have hall := h client
    simpa [ofClient, List.filter_cons, Ne.symm hclient] using hall

end Errand

namespace Service

variable {σ : Type} (service : Service σ)

/-- What a client is told when its errands are carried out among those of others. -/
def answersTo (client : Nat) (state : σ) (es : List Errand) : List Answer :=
  ((es.zip (service.executeAll state (es.map Errand.order)).1).filter (·.1.client = client)).map
    (·.2)

/-- The state behind errands. -/
def stateBehind (state : σ) (es : List Errand) : σ :=
  (service.executeAll state (es.map Errand.order)).2

/-- Whether two orders commute: each of them is answered as if the other one had not been carried
out before it, and the state behind both is the same. -/
structure Commutes (o o' : UnitId × Request) : Prop where
  first : ∀ state, (service (service state o'.1 o'.2).2 o.1 o.2).1 = (service state o.1 o.2).1
  second : ∀ state, (service (service state o.1 o.2).2 o'.1 o'.2).1 = (service state o'.1 o'.2).1
  state : ∀ state, (service (service state o.1 o.2).2 o'.1 o'.2).2 =
    (service (service state o'.1 o'.2).2 o.1 o.2).2

variable {service} {o : UnitId × Request} {state : σ}

/-- What commutes with all orders of a list does not matter for their answers, and may as well be
carried out behind them. -/
theorem executeAll_after {orders : List (UnitId × Request)}
    (h : ∀ o' ∈ orders, service.Commutes o o') (state : σ) :
    service.executeAll (service state o.1 o.2).2 orders =
      ((service.executeAll state orders).1,
        (service (service.executeAll state orders).2 o.1 o.2).2) := by
  induction orders generalizing state with
  | nil => rfl
  | cons o' orders ih =>
    have hcommutes := h o' List.mem_cons_self
    have hrest := ih (fun o' ho' => h o' (List.mem_cons_of_mem _ ho')) (service state o'.1 o'.2).2
    simp only [executeAll, hcommutes.second, hcommutes.state, hrest]

variable {es es' : List Errand}

/-- The first errand is answered, and the others go on with the state that it has left. -/
theorem answersTo_cons (client : Nat) (state : σ) (e : Errand) (es : List Errand) :
    service.answersTo client state (e :: es) =
      let answers := service.answersTo client (service state e.unit e.request).2 es
      if e.client = client then (service state e.unit e.request).1 :: answers else answers := by
  by_cases hclient : e.client = client <;>
    simp [answersTo, Errand.order, executeAll, hclient]

/-- **A client is answered as if it were alone**, if its orders commute with those of the others. -/
theorem answersTo_eq_alone (h : Errand.ApartBy service.Commutes es) (client : Nat) (state : σ) :
    service.answersTo client state es =
      (service.executeAll state ((Errand.ofClient client es).map Errand.order)).1 := by
  induction es generalizing state with
  | nil => rfl
  | cons e es ih =>
    rw [answersTo_cons]
    dsimp only
    rw [ih h.of_cons]
    by_cases hclient : e.client = client
    · simp [Errand.ofClient, hclient, executeAll, Errand.order]
    · -- the errand of another client commutes with all that are left of this one
      have hothers : ∀ o' ∈ (Errand.ofClient client es).map Errand.order,
          service.Commutes e.order o' := by
        intro o' ho'
        obtain ⟨e', he', rfl⟩ := List.mem_map.1 ho'
        obtain ⟨hmem, rfl⟩ := Errand.mem_ofClient.1 he'
        exact h e List.mem_cons_self e' (List.mem_cons_of_mem _ hmem) hclient
      have hafter := congrArg Prod.fst (executeAll_after hothers state)
      have hskip : Errand.ofClient client (e :: es) = Errand.ofClient client es := by
        simp [Errand.ofClient, hclient]
      rw [if_neg hclient, hskip]
      exact hafter

/-- An errand that commutes with those before it may be carried out first. -/
theorem stateBehind_of_middle {before behind : List Errand} {e : Errand}
    (h : ∀ e' ∈ before, service.Commutes e.order e'.order) (state : σ) :
    service.stateBehind state (before ++ e :: behind) =
      service.stateBehind (service state e.unit e.request).2 (before ++ behind) := by
  have hbefore : ∀ o' ∈ before.map Errand.order, service.Commutes e.order o' := by
    intro o' ho'
    obtain ⟨e', he', rfl⟩ := List.mem_map.1 ho'
    exact h e' he'
  have hafter := congrArg Prod.snd (executeAll_after hbefore state)
  simp only [Errand.order] at hafter
  simp only [stateBehind, List.map_append, List.map_cons, executeAll_append, Errand.order, hafter,
    executeAll]

/-- **Every interleaving leads to the same state**, if the orders of different clients commute. -/
theorem stateBehind_eq_of_interleaved (h : Errand.ApartBy service.Commutes es)
    (hsame : Errand.Interleaved es es') (state : σ) :
    service.stateBehind state es = service.stateBehind state es' := by
  induction es generalizing es' state with
  | nil =>
    have hnil : es' = [] := List.eq_nil_iff_forall_not_mem.2 fun e he =>
      absurd (hsame.mem_iff.2 he) List.not_mem_nil
    rw [hnil]
  | cons e es ih =>
    -- in the other list `e` stands behind errands of other clients, with which it commutes
    obtain ⟨before, behind, rfl, hbefore, hrest⟩ := hsame.exists_of_cons
    have hcommutes : ∀ e' ∈ before, service.Commutes e.order e'.order := by
      intro e' he'
      have hmem : e' ∈ e :: es := hsame.mem_iff.2 (List.mem_append_left _ he')
      exact h e List.mem_cons_self e' hmem (Ne.symm (hbefore e' he'))
    rw [stateBehind_of_middle hcommutes]
    exact ih h.of_cons hrest _

end Service

end Modbus
