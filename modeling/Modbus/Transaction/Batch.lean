import Modbus.Transaction.Desk

/-!
# Many tickets at once

Allocating several tickets in a row, and issuing tickets that are dropped again at once.
-/

namespace Modbus

/-- What allocating several tickets has led to. -/
structure Batch where
  desk : Desk
  /-- The tickets, the latest first. -/
  issued : List (Serial × TransactionId) := []
  /-- The error that has ended the batch. -/
  error : Option Error := none

namespace Desk

/-- Allocates tickets until their number is reached or an allocation fails. -/
def allocateUpTo (d : Desk) (issued : List (Serial × TransactionId)) : Nat → Batch
  | 0 => ⟨d, issued, none⟩
  | n + 1 =>
    match d.allocate with
    | .error e => ⟨d, issued, some e⟩
    | .ok (serial, ticket, d) => d.allocateUpTo ((serial, ticket.id) :: issued) n

/-- Allocates a number of tickets. -/
def allocateMany (d : Desk) (n : Nat) : Batch := d.allocateUpTo [] n

/-- Issues tickets that are dropped at once, after their requests have been sent or not; gives the
latest id, if there was one. -/
def issueAndDrop (d : Desk) (isSent : Bool) (latest : Option TransactionId) :
    Nat → Option TransactionId × Desk
  | 0 => (latest, d)
  | n + 1 =>
    match d.allocate with
    | .error _ => d.issueAndDrop isSent latest n
    | .ok (serial, ticket, d) =>
      let d := if isSent then d.markSent serial else d
      (d.drop serial).issueAndDrop isSent (some ticket.id) n

end Desk

end Modbus
