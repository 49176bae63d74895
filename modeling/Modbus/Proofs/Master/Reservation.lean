import Modbus.Proofs.Master.Deeds

/-!
# Ids that stay reserved

A call may end without having been given a reply: its caller gives it up, its deadline comes, or the
transport fails. What becomes of its transaction id depends on whether its frame has been appended
to the outgoing bytes. If not, nothing in the table is left of the call, and no byte of it is sent.
Otherwise the peer may still answer, so the id stays in the table, as an abandoned one, until it is
freed (`Desk.Frees`); the table hands it out to nobody else before (`Master.run_reserves_ids`).
-/

namespace Modbus

namespace Desk

variable {d : Desk} {a : DeskAction} {id : TransactionId} {serial : Serial}

/-- No entry has a certain serial. -/
def Lacks (d : Desk) (serial : Serial) : Prop :=
  ∀ (id : TransactionId) (e : Entry), d.table.entries[id]? = some e → e.serial ≠ serial

/-- A serial that has been used does not come back. -/
theorem Lacks.run (h : d.Lacks serial) (hlt : serial < d.table.nextSerial)
    (actions : List DeskAction) : (d.run actions).Lacks serial := by
  induction actions generalizing d with
  | nil => exact h
  | cons a actions ih =>
    refine ih (fun id e he => ?_) (Nat.lt_of_lt_of_le hlt (nextSerial_le_act d a))
    cases entryStep he with
    | issued hok =>
      obtain ⟨-, -, rfl, -⟩ := allocate_inv hok
      exact (Nat.ne_of_lt hlt).symm
    | kept hk => exact h id e hk
    | abandoned _ hp => exact h id (.pending _) hp

end Desk

namespace Master

variable {policy : UnitPolicy} {capacity : Nat} {ds : List Deed} {o : Outcome} {c : Call} {n : Nat}

/-- Two calls are given up, one in the middle of its turn and one that has not had its turn. -/
example :
    let hs : List Happening := [.start 0 1 (.readHoldingRegisters 0 1) none,
      .start 1 1 (.readHoldingRegisters 0 1) none, .cancel 1, .cancel 0]
    ((attach .warn 0).run hs).master.desk.table.abandonedIds = [0] := by decide

end Master

end Modbus
