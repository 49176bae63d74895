import Modbus.Fault
import Modbus.Wire.Word

/-!
# The outgoing side of a connection

Bytes to send wait in a buffer until the transport accepts them, and are then in transit until the
peer receives them. The transport holds a limited number of bytes in transit, and accepts what it
has room for. It may also treat attempts to write in any other way (`Treatment`), for a while. The
stream ends when the sender shuts it down, and it breaks when the peer becomes deaf; in both cases
the transport accepts nothing more.
-/

namespace Modbus

/-- What a transport makes of an attempt to write. -/
inductive Treatment where
  /-- It accepts everything. -/
  | accept
  /-- It accepts at most a number of bytes, and has no room for now. -/
  | stall (most : Nat)
  /-- It accepts at most a number of bytes, and then fails. -/
  | fail (most : Nat) (fault : Fault)
  deriving DecidableEq, Repr

/-- The outgoing bytes of a connection. -/
structure Outlet where
  /-- The most bytes in transit. -/
  capacity : Nat
  /-- The bytes that the transport has not accepted. -/
  buffer : Bytes := []
  /-- The bytes that the peer has not received. -/
  transit : Bytes := []
  /-- The bytes that the transport has accepted, but that will never be received. -/
  lost : Bytes := []
  /-- How the transport treats the next attempts to write; after that it accepts what it has room
  for. -/
  treatments : List Treatment := []
  /-- Whether the sender has ended the stream. -/
  isShut : Bool := false
  /-- Whether the peer has stopped receiving. -/
  isDeaf : Bool := false

namespace Outlet

/-- How an attempt to empty the buffer ends. -/
inductive Flush where
  /-- The transport has accepted everything. -/
  | flushed
  /-- The transport has no room for the rest. -/
  | stalled
  /-- The transport has failed. -/
  | broken (fault : Fault)
  deriving DecidableEq, Repr

/-- From this number of buffered bytes on, the buffer has to be emptied before more is appended. -/
def highWater : Nat := 8192

variable (o : Outlet)

/-- The number of bytes that the transport can accept now. -/
def room : Nat := o.capacity - o.transit.length

/-- The transport accepts a number of bytes, or as many as are in the buffer. -/
def pass (n : Nat) : Outlet :=
  { o with transit := o.transit ++ o.buffer.take n, buffer := o.buffer.drop n }

/-- Passes as many bytes as possible from the buffer to the transport. -/
def flush : Outlet × Flush :=
  if o.buffer.isEmpty then (o, .flushed)
  else if o.isShut || o.isDeaf then (o, .broken .brokenPipe)
  else
    match o.treatments with
    | [] => (o.pass o.room, if o.buffer.length ≤ o.room then .flushed else .stalled)
    | t :: treatments =>
      let o := { o with treatments }
      match t with
      | .accept => (o.pass o.buffer.length, .flushed)
      | .stall most => (o.pass most, .stalled)
      | .fail most fault => (o.pass most, .broken fault)

/-- Appends bytes to the buffer. -/
def append (bytes : Bytes) : Outlet := { o with buffer := o.buffer ++ bytes }

/-- Ends the stream. What is in the buffer stays there. -/
def shut : Outlet := { o with isShut := true }

/-- Makes the peer deaf: what is in transit is lost. -/
def deafen : Outlet := { o with isDeaf := true, transit := [], lost := o.lost ++ o.transit }

/-- The peer receives a number of bytes, or as many as are in transit. -/
def receive (n : Nat) : Bytes × Outlet :=
  (o.transit.take n, { o with transit := o.transit.drop n })

/-- Whether the peer has nothing more to expect. -/
def isEnded : Bool := o.isDeaf || (o.isShut && o.transit.isEmpty)

/-- Whatever comes of an attempt to empty the buffer, the transport accepts a number of bytes: all
of them if the buffer is flushed, and none if the stream has ended or is broken. -/
theorem flush_inv : ∃ n treatments, o.flush.1 = { o.pass n with treatments } ∧
    (o.flush.2 = .flushed → o.buffer.length ≤ n) ∧ (o.isShut || o.isDeaf → n = 0) := by
  have hnone : o = { o.pass 0 with treatments := o.treatments } := by simp [pass]
  unfold flush
  split <;> rename_i hempty
  · exact ⟨0, o.treatments, hnone, by simp [List.isEmpty_iff.1 hempty]⟩
  · split <;> rename_i hbroken
    · exact ⟨0, o.treatments, hnone, nofun, fun _ => rfl⟩
    · split
      · refine ⟨o.room, o.treatments, rfl, fun h => ?_, fun h => absurd h hbroken⟩
        by_cases hroom : o.buffer.length ≤ o.room
        · exact hroom
        · rw [if_neg hroom] at h
          cases h
      · rename_i t treatments _
        cases t with
        | accept => exact ⟨_, treatments, rfl, fun _ => Nat.le_refl _, fun h => absurd h hbroken⟩
        | stall most => exact ⟨most, treatments, rfl, nofun, fun h => absurd h hbroken⟩
        | fail most fault => exact ⟨most, treatments, rfl, nofun, fun h => absurd h hbroken⟩

/-- Emptying the buffer neither loses nor reorders bytes. -/
theorem flush_bytes : o.flush.1.transit ++ o.flush.1.buffer = o.transit ++ o.buffer := by
  obtain ⟨n, treatments, h, -⟩ := o.flush_inv
  simp [h, pass]

/-- A buffer that has been flushed holds nothing. -/
theorem buffer_of_flushed (hf : o.flush.2 = .flushed) : o.flush.1.buffer = [] := by
  obtain ⟨n, treatments, h, hall, -⟩ := o.flush_inv
  rw [h]
  exact List.drop_eq_nil_of_le (hall hf)

end Outlet

end Modbus
