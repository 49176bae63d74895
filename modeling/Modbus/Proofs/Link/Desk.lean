import Modbus.Proofs.Link.Agenda
import Modbus.Proofs.Transaction.Search

/-!
# The desk of a connection without failures

While deals are started one after another and are answered in the same order, the table of a desk
knows exactly those ids as pending whose deals have been started and not been answered, and a ticket
has the response of its deal as soon as that has come (`Desk.Serves`). One lemma for each operation
says how it goes on.
-/

namespace Modbus

namespace Desk

/-- The state of a desk when deals have been started, some of them have ended, and the first ones
have been answered. -/
structure Serves (d : Desk) (started ended : List Deal) (heard : Nat) : Prop where
  closed : d.table.closed = none
  nextSerial : d.table.nextSerial = started.length
  nextId : d.table.nextId = UInt16.ofNat started.length
  /-- The ids of the deals without an answer are pending. -/
  entries : ∀ id : TransactionId, d.table.entries[id]? =
    if heard ≤ id.toNat ∧ id.toNat < started.length then some (.pending id.toNat) else none
  /-- The tickets of the deals that have not ended have the answers that have come. -/
  tickets : ∀ x ∈ started, x ∉ ended → ∃ isSent, d.tickets[x.number]? = some
    ⟨UInt16.ofNat x.number, isSent, if x.number < heard then some (.ok x.response) else none⟩

namespace Serves

variable {d : Desk} {started ended : List Deal} {heard : Nat} {x : Deal}

/-- A new desk serves nobody. -/
theorem initial : Serves {} [] [] 0 where
  closed := rfl
  nextSerial := rfl
  nextId := rfl
  entries id := by simp
  tickets := nofun

/-- The ids of deals are as different as their numbers. -/
theorem toNat_number (ho : Deal.InOrder started) (hx : x ∈ started) :
    (UInt16.ofNat x.number).toNat = x.number := by
  have := Nat.lt_of_lt_of_le (ho.number_lt hx) ho.length_le
  exact Nat.mod_eq_of_lt this

/-- The delivery that a deal finds is its response, once that has come. -/
theorem delivery (h : Serves d started ended heard) (ho : Deal.InOrder started) (hx : x ∈ started)
    (hended : x ∉ ended) : (d.outlook? x.number).bind Outlook.delivery? =
      if x.number < heard then some (.ok x.response) else none := by
  obtain ⟨isSent, ht⟩ := h.tickets x hx hended
  by_cases hlt : x.number < heard
  · simp [outlook?, ht, hlt, Outlook.delivery?]
  · have hentry := h.entries (UInt16.ofNat x.number)
    rw [toNat_number ho hx, if_pos ⟨Nat.le_of_not_lt hlt, ho.number_lt hx⟩] at hentry
    simp [outlook?, ht, hlt, hentry, Outlook.delivery?]

/-- That a request has been sent makes no difference to who is served. -/
theorem markSent (h : Serves d started ended heard) (serial : Serial) :
    Serves (d.markSent serial) started ended heard where
  closed := by rw [table_markSent, h.closed]
  nextSerial := by rw [table_markSent, h.nextSerial]
  nextId := by rw [table_markSent, h.nextId]
  entries := by
    rw [table_markSent]
    exact h.entries
  tickets x hx hended := by
    obtain ⟨isSent, ht⟩ := h.tickets x hx hended
    rw [Desk.markSent, getElem?_modify, ht]
    split
    · exact ⟨true, rfl⟩
    · exact ⟨isSent, rfl⟩

/-- A deal that has its response ends. -/
theorem drop (h : Serves d started ended heard) (ho : Deal.InOrder started) (hx : x ∈ started)
    (hended : x ∉ ended) (hlt : x.number < heard) :
    Serves (d.drop x.number) started (ended ++ [x]) heard := by
  have htable : (d.drop x.number).table = d.table := by
    obtain ⟨isSent, ht⟩ := h.tickets x hx hended
    have hentry := h.entries (UInt16.ofNat x.number)
    rw [toNat_number ho hx, if_neg (fun hle => Nat.not_le.2 hlt hle.1)] at hentry
    rw [table_drop ht, Table.release, if_neg (by simp [hentry])]
  constructor
  case closed => rw [htable, h.closed]
  case nextSerial => rw [htable, h.nextSerial]
  case nextId => rw [htable, h.nextId]
  case entries => rw [htable]; exact h.entries
  case tickets =>
    intro y hy hy'
    have hne : x.number ≠ y.number := fun hn =>
      hy' (List.mem_append_right _ (List.mem_singleton.2 (ho.eq_of_number hy hx hn.symm)))
    obtain ⟨isSent, ht⟩ := h.tickets y hy fun hmem => hy' (List.mem_append_left _ hmem)
    exact ⟨isSent, by rw [getElem?_drop, if_neg hne, ht]⟩

/-- The next response comes. -/
theorem resolve (h : Serves d started ended heard) (ho : Deal.InOrder started)
    (hx : started[heard]? = some x) :
    Serves (d.resolve x.response) started ended (heard + 1) := by
  have hmem := List.mem_of_getElem? hx
  have hnumber : x.number = heard := ho.number hx
  have hid : (UInt16.ofNat heard).toNat = heard := hnumber ▸ toNat_number ho hmem
  have hlt : heard < started.length := hnumber ▸ ho.number_lt hmem
  have htransaction : x.response.header.transaction = UInt16.ofNat heard := by
    rw [← hnumber]
    rfl
  constructor
  case closed => rw [table_resolve, Table.closed_resolve, h.closed]
  case nextSerial => rw [table_resolve, Table.nextSerial_resolve, h.nextSerial]
  case nextId => rw [table_resolve, Table.nextId_resolve, h.nextId]
  case entries =>
    intro id
    rw [table_resolve, Table.getElem?_resolve, h.entries, htransaction]
    by_cases heq : UInt16.ofNat heard = id
    · subst heq
      rw [if_pos rfl, hid, if_neg (by omega)]
    · have hne : id.toNat ≠ heard := fun hn => heq (by rw [← hn, UInt16.ofNat_toNat])
      rw [if_neg heq]
      by_cases hle : heard ≤ id.toNat ∧ id.toNat < started.length
      · rw [if_pos hle, if_pos (by omega)]
      · rw [if_neg hle, if_neg (by omega)]
  case tickets =>
    intro y hy hy'
    obtain ⟨isSent, ht⟩ := h.tickets y hy hy'
    refine ⟨isSent, ?_⟩
    have hentry : d.table.entries[UInt16.ofNat heard]? = some (.pending heard) := by
      rw [h.entries, hid, if_pos ⟨Nat.le_refl _, hlt⟩]
    rw [getElem?_resolve, htransaction, hentry, ht]
    by_cases heq : heard = y.number
    · obtain rfl := ho.eq_of_number hmem hy (hnumber.trans heq)
      simp [heq]
    · have hiff : y.number < heard + 1 ↔ y.number < heard := by omega
      simp [heq, hiff]

/-- The next deal is started. -/
theorem allocate (h : Serves d started ended heard) (hheard : heard ≤ started.length)
    (hx : x.number = started.length) (ho : Deal.InOrder (started ++ [x])) :
    ∃ d', d.allocate = .ok (x.number, { id := UInt16.ofNat x.number }, d') ∧
      Serves d' (started ++ [x]) ended heard := by
  have hlength : started.length < Table.capacity := by
    have hle := ho.length_le
    rwa [List.length_append] at hle
  have hconsecutive : d.table.Consecutive heard started.length := h.entries
  have hfree : d.table.nextId ∉ d.table.entries := h.nextId ▸ hconsecutive.not_mem hlength
  have htable := Table.allocate_eq h.closed hfree
  refine ⟨_, by
    simp only [Desk.allocate, htable, bind, Except.bind, h.nextSerial, h.nextId, hx]
    rfl, ?_⟩
  constructor
  case closed => exact h.closed
  case nextSerial => simp [h.nextSerial]
  case nextId => simp [Table.enter]
  case entries =>
    rw [List.length_append]
    exact hconsecutive.enter hheard hlength h.nextSerial
  case tickets =>
    intro y hy hy'
    simp only [Std.TreeMap.getElem?_insert, Nat.compare_eq_eq]
    rcases List.mem_append.1 hy with hy | hy
    · have hlt := (ho.of_initial (List.prefix_append _ _)).number_lt hy
      rw [if_neg (Nat.ne_of_gt hlt)]
      exact h.tickets y hy hy'
    · obtain rfl := List.mem_singleton.1 hy
      rw [if_pos hx.symm, if_neg (by omega), hx]
      exact ⟨false, rfl⟩

end Serves

end Desk

end Modbus
