import Modbus.Slave.Connection

/-!
# Direct execution of requests

What a service makes of requests that are handed to it one after another, without any connection
(`Service.executeAll`). A connection answers requests exactly so (`Connection.answerAll_eq`) if the
answers of its service suit the requests and fit into a PDU (`Answer.Suits`). The registers of a
process image give such answers (`ProcessImage.isSound_handle`).
-/

namespace Modbus

variable {σ : Type}

namespace Service

/-- The answers to requests that are executed one after another, each on the state that those
before it have left, and the state after all of them. -/
def executeAll (service : Service σ) (state : σ) : List (UnitId × Request) → List Answer × σ
  | [] => ([], state)
  | (unit, request) :: rest =>
    let (answer, state) := service state unit request
    let (answers, state) := executeAll service state rest
    (answer :: answers, state)

variable (service : Service σ) (state : σ) (requests requests' : List (UnitId × Request))

/-- There are as many answers as requests. -/
@[simp] theorem length_executeAll :
    (service.executeAll state requests).1.length = requests.length := by
  induction requests generalizing state with
  | nil => rfl
  | cons r rest ih => exact congrArg (· + 1) (ih _)

/-- What has been executed before matters by the state it leaves. -/
theorem executeAll_append :
    service.executeAll state (requests ++ requests') =
      let first := service.executeAll state requests
      let later := service.executeAll first.2 requests'
      (first.1 ++ later.1, later.2) := by
  induction requests generalizing state with
  | nil => rfl
  | cons r rest ih => simp only [List.cons_append, executeAll, ih]

end Service

/-- Whether an answer can be told to whoever has requested a function: a response is one of that
function and fits into a PDU, and an exception is named by its byte. -/
def Answer.Suits (function : FunctionCode) : Answer → Prop
  | .ok r => r.function = function ∧ r.size ≤ Pdu.maxSize
  | .error e => .ofByte e.byte = e

/-- Whether all answers of a service suit the requests. -/
def Service.IsSound (service : Service σ) : Prop :=
  ∀ state unit request, (service state unit request).1.Suits request.function

/-! ## Registers -/

namespace ProcessImage

variable (image : ProcessImage)

/-- A read gives at most as many words as have been requested. -/
theorem length_read_le {memory : Memory} {unit : UnitId} {address : Address} {count : Nat}
    {words : List Word} (h : image.read unit address count memory = .ok words) :
    words.length ≤ count := by
  unfold read at h
  cases hl : image.lock unit memory with
  | error e => simp [hl, bind, Except.bind] at h
  | ok cell =>
    simp only [hl, bind, Except.bind, Bank.read] at h
    split at h
    · cases h
      exact List.length_take_le _ _
    · cases h

/-- A number of registers that is not refused is within bounds. -/
theorem le_of_checkQuantity {count : Nat} {most : Quantity} {u : Unit}
    (h : checkQuantity count most = .ok u) : 0 < count ∧ count ≤ most.toNat := by
  unfold checkQuantity at h
  split at h
  · cases h
  · omega

theorem told_ok {α : Type} (a : α) : told (.ok a) = .ok a := rfl

theorem told_error {α : Type} (e : RegisterError) :
    told (.error e : Except RegisterError α) = .error e.exception := rfl

/-- The exception for an access that fails is named by its byte. -/
theorem ofByte_told {α : Type} {access : Except RegisterError α} {e : ExceptionCode}
    (h : told access = .error e) : .ofByte e.byte = e := by
  cases access with
  | ok a => cases h
  | error r =>
    cases h
    cases r <;> rfl

/-- The exception for a number of registers out of bounds is named by its byte. -/
theorem ofByte_checkQuantity {count : Nat} {most : Quantity} {e : ExceptionCode}
    (h : checkQuantity count most = .error e) : .ofByte e.byte = e := by
  unfold checkQuantity at h
  split at h <;> cases h
  rfl

/-- A request that has been executed is answered by a response of its function, which fits into a
PDU. -/
theorem suits_of_execute_ok {memory memory' : Memory} {unit : UnitId} {request : Request}
    {response : Response} (h : image.execute memory unit request = .ok (response, memory')) :
    Answer.Suits request.function (.ok response) := by
  have hfive : 5 ≤ Pdu.maxSize := by decide
  cases request with
  | readHoldingRegisters address quantity =>
    simp only [execute, bind, Except.bind] at h
    cases hc : checkQuantity quantity.toNat maxReadQuantity with
    | error e => simp [hc] at h
    | ok u =>
      cases hr : image.read unit address quantity.toNat memory with
      | error e => simp [hc, hr, told_error] at h
      | ok words =>
        simp only [hc, hr, told_ok, pure, Except.pure] at h
        cases h
        have hmost := (le_of_checkQuantity hc).2
        have hwords := image.length_read_le hr
        simp only [maxReadQuantity, UInt16.reduceToNat] at hmost
        refine ⟨rfl, ?_⟩
        simp only [Response.size, Pdu.maxSize]
        omega
  | writeSingleRegister address word =>
    simp only [execute, bind, Except.bind] at h
    split at h <;> cases h
    exact ⟨rfl, hfive⟩
  | writeMultipleRegisters address words =>
    simp only [execute, bind, Except.bind] at h
    split at h
    · cases h
    · split at h <;> cases h
      exact ⟨rfl, hfive⟩
  | custom code data => cases h

/-- The exception for a request that cannot be executed is named by its byte. -/
theorem suits_of_execute_error {memory : Memory} {unit : UnitId} {request : Request}
    {e : ExceptionCode} (h : image.execute memory unit request = .error e) :
    Answer.Suits request.function (.error e) := by
  cases request with
  | readHoldingRegisters address quantity =>
    simp only [execute, bind, Except.bind] at h
    split at h <;> rename_i hc
    · cases h
      exact ofByte_checkQuantity hc
    · split at h <;> rename_i hr
      · cases h
        exact ofByte_told hr
      · cases h
  | writeSingleRegister address word =>
    simp only [execute, bind, Except.bind] at h
    split at h <;> rename_i hr
    · cases h
      exact ofByte_told hr
    · cases h
  | writeMultipleRegisters address words =>
    simp only [execute, bind, Except.bind] at h
    split at h <;> rename_i hc
    · cases h
      exact ofByte_checkQuantity hc
    · split at h <;> rename_i hr
      · cases h
        exact ofByte_told hr
      · cases h
  | custom code data =>
    cases h
    rfl

/-- Every answer from the registers of an image suits its request. -/
theorem isSound_handle : Service.IsSound image.handle := by
  intro memory unit request
  unfold handle
  split <;> rename_i he
  · exact image.suits_of_execute_ok he
  · exact image.suits_of_execute_error he

end ProcessImage

/-! ## Connections -/

/-- The frame that tells the answer to a request. -/
def RequestMessage.responseFrame (m : RequestMessage) (answer : Answer) : Frame :=
  ⟨m.header, (answer.reply m.request.function).bytes⟩

namespace Connection

variable {service : Service σ} (state : σ)

/-- The unit and the request of a message. -/
def order (m : RequestMessage) : UnitId × Request := (m.header.unit, m.request)

/-- The reply to a request has the frame of the answer. -/
theorem frame?_replyTo (hsound : service.IsSound) (m : RequestMessage) :
    (replyTo service state m).1.frame? =
      .ok (m.responseFrame (service state m.header.unit m.request).1) := by
  have hsuits := hsound state m.header.unit m.request
  simp only [replyTo, ReplyMessage.frame?, RequestMessage.responseFrame]
  cases h : (service state m.header.unit m.request).1 with
  | error e => rfl
  | ok r =>
    rw [h] at hsuits
    simp only [Answer.reply, Reply.size?, Response.size?, if_pos hsuits.2]
    rfl

/-- A connection answers requests as if they were executed directly. -/
theorem answerAll_eq (hsound : service.IsSound) (ms : List RequestMessage) :
    answerAll service state ms =
      let (answers, state) := service.executeAll state (ms.map order)
      let fs := List.zipWith RequestMessage.responseFrame ms answers
      { state, sent := fs.flatMap Frame.bytes } := by
  induction ms generalizing state with
  | nil => rfl
  | cons m ms ih =>
    have hframe := frame?_replyTo state hsound m
    simp only [answerAll, hframe, ih, List.map_cons, order, Service.executeAll,
      List.zipWith_cons_cons, List.flatMap_cons]
    rfl

end Connection

end Modbus
