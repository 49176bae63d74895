import Modbus.Frame.Basic
import Std.Data.TreeMap

/-!
# The table of transactions

A connection has 65536 transaction ids, and the table knows which of them are in use. An id is
pending while somebody waits for its response. It is abandoned when the caller gave up after the
request had been sent: the response may still come, so the id stays occupied until it does. Ids are
handed out in ascending order and start again from zero; ids in use are left out. Only when all are
in use is an abandoned id reclaimed, namely that of the earliest allocation.

Allocations are numbered by serials, which never come again, so that an id that is used a second
time is told apart from its first use. Once the table is closed it is empty, and every allocation
fails with the first reason for closing.
-/

namespace Modbus

/-- The number of an allocation. It stands for a counter of 64 bits that never comes back to zero:
fewer than 2 ^ 64 allocations are assumed. -/
abbrev Serial := Nat

/-- The state of a transaction id in use, with the serial of its allocation. -/
inductive Entry where
  /-- The response is waited for. -/
  | pending (serial : Serial)
  /-- The request has been sent, but nobody waits for the response any more. -/
  | abandoned (serial : Serial)
  deriving DecidableEq, Repr

namespace Entry

/-- The serial of the allocation that an entry belongs to. -/
def serial : Entry → Serial
  | pending serial | abandoned serial => serial

/-- The serial of an entry whose response is waited for. -/
def pending? : Entry → Option Serial
  | pending serial => some serial
  | abandoned _ => none

/-- The serial of an entry whose response nobody waits for. -/
def abandoned? : Entry → Option Serial
  | pending _ => none
  | abandoned serial => some serial

end Entry

/-- The transaction ids of a connection. -/
structure Table where
  /-- The id from which the next free one is looked for. -/
  nextId : TransactionId := 0
  /-- The serial of the next allocation. -/
  nextSerial : Serial := 0
  /-- The ids in use. -/
  entries : Std.TreeMap TransactionId Entry := ∅
  /-- The first reason for which the table has been closed. -/
  closed : Option Fault := none

namespace Table

/-- The number of transaction ids. -/
def capacity : Nat := 65536

variable (t : Table)

/-- The first id that is not in use among the given number of ids from one on. -/
def firstFree (start : TransactionId) : Nat → Option TransactionId
  | 0 => none
  | n + 1 => if start ∈ t.entries then firstFree (start + 1) n else some start

/-- The abandoned id with the smallest serial. -/
def oldestAbandoned : Option TransactionId :=
  let older (best : Option (Serial × TransactionId)) (id : TransactionId) (e : Entry) :=
    match e, best with
    | .pending _, _ => best
    | .abandoned serial, none => some (serial, id)
    | .abandoned serial, some (least, _) => if serial < least then some (serial, id) else best
  (t.entries.foldl older none).map (·.2)

/-- The table after an id has been handed out. -/
def enter (id nextId : TransactionId) : Table :=
  { t with
    nextId
    nextSerial := t.nextSerial + 1
    entries := t.entries.insert id (.pending t.nextSerial) }

/-- Hands out an id. -/
def allocate : Except Error (TransactionId × Table) :=
  match t.closed with
  | some reason => .error (.transport reason)
  | none =>
    if capacity ≤ t.entries.size then
      match t.oldestAbandoned with
      | none => .error (.protocol .transactionIdsExhausted)
      | some id => .ok (id, t.enter id t.nextId)
    else
      match t.firstFree t.nextId capacity with
      | none => .error (.protocol .transactionIdsExhausted)
      | some id => .ok (id, t.enter id (id + 1))

/-- Frees an id for which a response has come, and says whose response it is. -/
def resolve (id : TransactionId) : Table × Option Serial :=
  match t.entries[id]? with
  | none => (t, none)
  | some e => ({ t with entries := t.entries.erase id }, e.pending?)

/-- Closes the table, and says who waited for a response. -/
def close (reason : Fault) : Table × List Serial :=
  ({ t with entries := ∅, closed := t.closed.or (some reason) },
    t.entries.values.filterMap Entry.pending?)

/-- Gives an allocation up: its id is abandoned if the request has been sent, and otherwise free
again. An id that has been resolved, or handed out anew, is left as it is. -/
def release (id : TransactionId) (serial : Serial) (sent : Bool) : Table :=
  if t.entries[id]? = some (.pending serial) then
    { t with
      entries := if sent then t.entries.insert id (.abandoned serial) else t.entries.erase id }
  else t

/-- The ids whose response is waited for, in ascending order. -/
def pendingIds : List TransactionId :=
  t.entries.toList.filterMap fun (id, e) => e.pending?.map fun _ => id

/-- The abandoned ids, in ascending order. -/
def abandonedIds : List TransactionId :=
  t.entries.toList.filterMap fun (id, e) => e.abandoned?.map fun _ => id

end Table

end Modbus
