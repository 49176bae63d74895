import Mathlib.Data.List.Basic
import Modbus.Proofs.Master.Answers

/-!
# Replies with the function byte of the request

A reply names its function by one byte, and a request is sent with one. When the two bytes are the
same, and the frame has the ids of the call, the caller is told the answer of the reply, with one
exception: a custom request with the code of a named function is compared by its name, which no
reply has, so whatever is answered to it is taken for another function
(`Call.IsAnsweredBy.judge`, `FunctionCode.IsHomonym`).
-/

namespace Modbus

namespace FunctionCode

/-- Whether a custom function has the code of a named one. -/
def IsHomonym : FunctionCode → Prop
  | custom code => code = 0x03 ∨ code = 0x06 ∨ code = 0x10
  | _ => False

instance : DecidablePred IsHomonym
  | custom _ => inferInstanceAs (Decidable (_ ∨ _))
  | readHoldingRegisters | writeSingleRegister | writeMultipleRegisters =>
    inferInstanceAs (Decidable False)

variable {f : FunctionCode}

/-- The function that the byte of another one names is this one, unless it is a custom one with the
code of a named one. -/
theorem ofByte_byte_iff : ofByte f.byte = f ↔ ¬ f.IsHomonym := by
  cases f with
  | custom code =>
    simp only [IsHomonym, not_or]
    constructor
    · intro h
      refine ⟨?_, ?_, ?_⟩ <;> rintro rfl <;> cases h
    · rintro ⟨h3, h6, h16⟩
      simp [ofByte, byte, h3, h6, h16]
  | _ => simp [byte, IsHomonym, ofByte]

end FunctionCode

/-- The function of a reply that can be read is the one that its byte names. -/
theorem Reply.IsCanonical.ofByte_byte {r : Reply} (h : r.IsCanonical) :
    FunctionCode.ofByte r.function.byte = r.function := by
  cases h with
  | response hf => exact hf.ofByte_byte
  | exception hf => exact (FunctionCode.isOrdinary_iff.2 hf).ofByte_byte

namespace Call

variable {policy : UnitPolicy} {c : Call} {f : Frame} {r : Reply}

/-- What the caller is told about a reply with the function byte of the request. -/
def rawResult (c : Call) (r : Reply) : CallResult :=
  if c.request.function.IsHomonym then
    .error (.protocol (.functionMismatch c.request.function r.function))
  else .ok r.answer

/-- A frame of the addressed unit, with a reply that has the function byte of the request. -/
structure IsAnsweredBy (c : Call) (f : Frame) (r : Reply) : Prop where
  header : f.header = ⟨c.transaction, c.unit⟩
  reads : Reply.decode f.pdu = .ok r
  byte : r.function.byte = c.request.function.byte

/-- Such a frame is judged by the name of the requested function. -/
theorem IsAnsweredBy.judge (h : c.IsAnsweredBy f r) (policy : UnitPolicy) :
    c.judge policy f = c.rawResult r := by
  obtain ⟨hcanonical, hbytes, -⟩ := Reply.decode_inv h.reads
  have hunit : c.AcceptsUnit policy f := fun _ => by rw [h.header]
  have hfunction : FunctionCode.ofByte c.request.function.byte = r.function :=
    h.byte ▸ hcanonical.ofByte_byte
  rw [judge_of_bytes hunit hcanonical hbytes.symm, rawResult]
  split <;> rename_i hhomonym
  · refine checked_of_ne fun heq => ?_
    exact FunctionCode.ofByte_byte_iff.1 (hfunction.trans heq) hhomonym
  · exact checked_of_eq (hfunction.symm.trans (FunctionCode.ofByte_byte_iff.2 hhomonym))

/-- So it says the answer of the reply if and only if the request is not a custom one with the code
of a named function. -/
theorem IsAnsweredBy.judge_eq_ok_iff (h : c.IsAnsweredBy f r) (policy : UnitPolicy) :
    c.judge policy f = .ok r.answer ↔ ¬ c.request.function.IsHomonym := by
  rw [h.judge policy, rawResult]
  split <;> simp [*]

end Call

namespace Master

/-- What becomes of the frames that answer calls with the function byte of their requests. -/
structure AnswersRaw (policy : UnitPolicy) (ds : List Deed) (o : Outcome) : Prop where
  /-- A call that is handed such a frame takes no other delivery, and if it takes this one, its
  caller is told so. -/
  decided : ∀ n c f r, HandedAt ds n c f → c.IsAnsweredBy f r →
    IsDecidedAt policy ds o n c f (c.rawResult r)
  /-- A call that waits ends as soon as such a frame comes, if it is the first one with its id. -/
  prompt : ∀ c bytes fs f fs' r, c ∈ o.master.awaiting → o.master.inlet.isClosed = false →
    (Decoder.frames.drain (o.master.inlet.buffer ++ bytes)).items = fs ++ f :: fs' →
    (∀ f' ∈ fs, f'.header.transaction ≠ c.transaction) → c.IsAnsweredBy f r →
      .finished c.id (c.rawResult r) ∈ (o.master.step (.send bytes)).events
  /-- The frame says the answer of the reply, unless the request is a custom one with the code of a
  named function. -/
  transparent : ∀ (c : Call) (f : Frame) (r : Reply), c.IsAnsweredBy f r →
    (c.judge policy f = .ok r.answer ↔ ¬ c.request.function.IsHomonym)

/-- **Replies reach raw requests, except those with the code of a named function**, in every run. -/
theorem run_answers_raw (policy : UnitPolicy) (capacity : Nat) (hs : List Happening) :
    let m := attach policy capacity
    let o := m.run hs
    ∃ ds, Trace m ds o ∧ ds.filter Deed.isInput = m.inputs hs ∧
      ds.filterMap Deed.started? = m.started hs ∧ AnswersRaw policy ds o := by
  intro m o
  obtain ⟨ds, ht, hinputs, hstarted⟩ := m.exists_trace hs
  have hquiet : o.master.IsQuiet := isQuiet_run (m := m) nofun hs
  refine ⟨ds, ht, hinputs, hstarted, ?_⟩
  constructor
  case decided =>
    intro n c f r hc h
    rw [← h.judge policy]
    exact ht.isDecidedAt hquiet hc
  case prompt =>
    intro c bytes fs f fs' r hc hopen hitems hfs h
    have htold := ((Tells.of_trace ht).waits hquiet hc).send hopen hitems hfs (by rw [h.header])
    rwa [ht.policy, h.judge] at htold
  case transparent => exact fun c f r h => h.judge_eq_ok_iff policy

/-- A raw request to read a register is answered by the word that is in it, and the caller is told
that the functions differ. -/
theorem functionMismatch_of_raw_read :
    let request : Request := .custom 0x03 [0, 0, 0, 1]
    let pdu : Bytes := [0x03, 2, 0, 42]
    let hs : List Happening := [.start 0 1 request none, .send (Frame.bytes ⟨⟨0, 1⟩, pdu⟩)]
    request.size? = .ok 5 ∧ request.bytes.head? = some 0x03 ∧
      Reply.decode pdu = .ok (.ok (.readHoldingRegisters [42])) ∧
      ((attach .warn 64).run hs).told =
        [(0, .error (.protocol (.functionMismatch (.custom 0x03) .readHoldingRegisters)))] := by
  refine ⟨rfl, rfl, rfl, ?_⟩
  cbv

end Master

end Modbus
