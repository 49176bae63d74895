import Modbus.Master.Call
import Modbus.Proofs.Pdu.Replies

/-!
# What a frame says to a call

A frame that reaches a call is judged in three steps: by its unit, by its PDU, and by the function
of the reply in it. `Call.Judgement` says what comes of this, one case for each way in which a frame
can fail and one for each kind of answer, in terms of what is on the wire: an answer means that the
PDU is its encoding. The first step that fails decides (`Call.judge_eq_iff`).
-/

namespace Modbus

namespace Call

variable {policy : UnitPolicy} {c : Call} {f : Frame} {result : CallResult}

/-- Whether the unit of a frame is accepted. -/
def AcceptsUnit (c : Call) (policy : UnitPolicy) (f : Frame) : Prop :=
  policy = .reject → f.header.unit = c.unit

/-- What the caller is told about a frame. -/
inductive Judgement (policy : UnitPolicy) (c : Call) (f : Frame) : CallResult → Prop where
  /-- Another unit has answered, and this is not accepted. -/
  | foreignUnit (hp : policy = .reject) (hu : f.header.unit ≠ c.unit) :
    Judgement policy c f (.error (.protocol (.unitMismatch c.unit f.header.unit)))
  /-- The PDU is not the encoding of a reply. -/
  | malformed {cause : PduError} (hu : c.AcceptsUnit policy f)
    (hnone : ∀ r : Reply, r.IsCanonical → r.bytes ≠ f.pdu)
    (hd : Reply.decode f.pdu = .error cause) : Judgement policy c f (.error (.pdu cause))
  /-- The PDU is the encoding of a reply to a request for another function. -/
  | otherFunction {r : Reply} (hu : c.AcceptsUnit policy f) (hr : r.IsCanonical)
    (hpdu : f.pdu = r.bytes) (hf : r.function ≠ c.request.function) : Judgement policy c f
      (.error (.protocol (.functionMismatch c.request.function r.function)))
  /-- The PDU is the encoding of a response to the request. -/
  | response {r : Response} (hu : c.AcceptsUnit policy f) (hr : Reply.IsCanonical (.ok r))
    (hpdu : f.pdu = r.bytes) (hf : r.function = c.request.function) :
    Judgement policy c f (.ok (.ok r))
  /-- The PDU is the function of the request, with the highest bit set, and an exception. -/
  | exception {e : ExceptionCode} (hu : c.AcceptsUnit policy f)
    (hr : Reply.IsCanonical (.error ⟨c.request.function, e⟩))
    (hpdu : f.pdu = [c.request.function.byte ||| 0x80, e.byte]) :
    Judgement policy c f (.ok (.error e))

/-- A frame of another unit is refused if such frames are to be rejected. -/
theorem judge_of_foreignUnit (hp : policy = .reject) (hu : f.header.unit ≠ c.unit) :
    c.judge policy f = .error (.protocol (.unitMismatch c.unit f.header.unit)) := by
  rw [judge, if_pos ⟨hp, hu⟩]

/-- A frame of an accepted unit whose PDU cannot be read is an error of the PDU. -/
theorem judge_of_malformed {cause : PduError} (hu : c.AcceptsUnit policy f)
    (hd : Reply.decode f.pdu = .error cause) : c.judge policy f = .error (.pdu cause) := by
  rw [judge, if_neg fun h => h.2 (hu h.1), hd]

/-- A frame with the encoding of a reply is judged by the function of the reply. -/
theorem judge_of_bytes {r : Reply} (hu : c.AcceptsUnit policy f) (hr : r.IsCanonical)
    (hpdu : f.pdu = r.bytes) : c.judge policy f = r.checked c.request.function := by
  rw [judge, if_neg fun h => h.2 (hu h.1), hpdu, hr.decode_bytes]

/-- A reply to a request for another function is refused. -/
theorem checked_of_ne {r : Reply} {requested : FunctionCode} (hf : r.function ≠ requested) :
    r.checked requested = .error (.protocol (.functionMismatch requested r.function)) := by
  rw [Reply.checked, if_neg hf]

/-- Any other reply is told. -/
theorem checked_of_eq {r : Reply} {requested : FunctionCode} (hf : r.function = requested) :
    r.checked requested = .ok r.answer := by
  rw [Reply.checked, if_pos hf]

/-- What a caller is told about a frame is what the frame says. -/
theorem judgement_judge (policy : UnitPolicy) (c : Call) (f : Frame) :
    Judgement policy c f (c.judge policy f) := by
  by_cases hu : c.AcceptsUnit policy f
  · cases hd : Reply.decode f.pdu with
    | error cause =>
      rw [judge_of_malformed hu hd]
      refine .malformed hu (fun r hr hbytes => ?_) hd
      rw [← hbytes, hr.decode_bytes] at hd
      cases hd
    | ok r =>
      obtain ⟨hr, hbytes, -⟩ := Reply.decode_inv hd
      rw [judge_of_bytes hu hr hbytes.symm]
      by_cases hf : r.function = c.request.function
      · rw [checked_of_eq hf]
        cases r with
        | ok response => exact .response hu hr hbytes.symm hf
        | error e =>
          have hfunction : e.function = c.request.function := hf
          have he : e = ⟨c.request.function, e.exception⟩ := by rw [← hfunction]
          rw [he] at hr hbytes
          exact .exception hu hr hbytes.symm
      · rw [checked_of_ne hf]
        exact .otherFunction hu hr hbytes.symm hf
  · obtain ⟨hp, hne⟩ := Classical.not_imp.1 hu
    rw [judge_of_foreignUnit hp hne]
    exact .foreignUnit hp hne

/-- What a caller is told about a frame is told by the frame, and by nothing else. -/
theorem judge_eq_iff : c.judge policy f = result ↔ Judgement policy c f result := by
  constructor
  · rintro rfl
    exact judgement_judge policy c f
  · intro h
    cases h with
    | foreignUnit hp hu => exact judge_of_foreignUnit hp hu
    | malformed hu _ hd => exact judge_of_malformed hu hd
    | otherFunction hu hr hpdu hf => exact (judge_of_bytes hu hr hpdu).trans (checked_of_ne hf)
    | response hu hr hpdu hf => exact (judge_of_bytes hu hr hpdu).trans (checked_of_eq hf)
    | exception hu hr hpdu => exact (judge_of_bytes hu hr hpdu).trans (checked_of_eq rfl)

end Call

end Modbus
