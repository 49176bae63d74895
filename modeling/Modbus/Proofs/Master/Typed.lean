import Modbus.Master.Session
import Modbus.Proofs.Master.Answers
import Modbus.Proofs.Master.Deadlines

/-!
# What typed calls tell

A typed call gives a value only for a response that fits the request, and what it makes of a
response of another function is left open (`TypedResult.foreign`). A frame whose function is not
that of the request never gets so far: it is refused where it is judged. What the bytes of a PDU
mean to a typed call is said by `TypedCall.Says`, without any decoder, and this is what the call
makes of the frame (`TypedCall.result_judge_iff`).

Whatever a peer sends, the caller of a typed call is told what such a frame says, or an error
(`Master.run_answers_typed_calls`).
-/

namespace Modbus

namespace TypedCall

variable {α : Type}

/-- What the bytes of a PDU say to a typed call, if `brings` says which values they bring. -/
inductive Says (t : TypedCall α) (brings : Bytes → α → Prop) (pdu : Bytes) : TypedResult α → Prop
    where
  | value {a : α} (h : brings pdu a) : Says t brings pdu (.value a)
  /-- An exception of the function of the request. -/
  | exception {code : ExceptionCode} (hcode : code = .ofByte code.byte)
    (h : pdu = [t.request.function.byte ||| 0x80, code.byte]) :
    Says t brings pdu (.exception code)

/-- How a typed call takes values from responses: those that it accepts are the ones whose encoding
brings the value, and no response of its function is left open. -/
structure Takes (t : TypedCall α) (brings : Bytes → α → Prop) : Prop where
  named : ∃ code < 0x80, t.request.function = .ofByte code
  complete : ∀ {pdu : Bytes} {a : α}, brings pdu a → ∃ r : Response,
    r.function = t.request.function ∧ r.size ≤ Pdu.maxSize ∧ pdu = r.bytes ∧
      t.read r = some (.ok a)
  sound : ∀ {r : Response}, r.function = t.request.function → r.size ≤ Pdu.maxSize →
    (∃ a, t.read r = some (.ok a) ∧ brings r.bytes a) ∨ ∃ cause, t.read r = some (.error cause)

/-- The PDU of a response to a read: the number of bytes, and the words one after another. -/
def BringsWords (quantity : Quantity) (pdu : Bytes) (words : List Word) : Prop :=
  words.length = quantity.toNat ∧ quantity.toNat ≤ 125 ∧
    pdu = 0x03 :: UInt8.ofNat (2 * quantity.toNat) :: Word.listBytes words

/-- A typed read brings as many words as it has asked for. -/
theorem takes_readHoldingRegisters (address : Address) (quantity : Quantity) :
    (readHoldingRegisters address quantity).Takes (BringsWords quantity) where
  named := ⟨0x03, by decide, rfl⟩
  complete := by
    rintro pdu words ⟨hlength, hmost, rfl⟩
    refine ⟨.readHoldingRegisters words, rfl, ?_, ?_, ?_⟩
    · simp only [Response.size, Pdu.maxSize]
      omega
    · rw [← hlength]
      rfl
    · exact congrArg some (if_pos hlength)
  sound := by
    intro r hf hs
    cases r with
    | readHoldingRegisters words =>
      simp only [Response.size, Pdu.maxSize] at hs
      by_cases hlength : words.length = quantity.toNat
      · refine .inl ⟨words, congrArg some (if_pos hlength), hlength, by omega, ?_⟩
        rw [← hlength]
        rfl
      · exact .inr ⟨_, congrArg some (if_neg hlength)⟩
    | _ => cases hf

/-- The PDU of a response to a single write: the address and the word of the request. -/
def EchoesWord (address : Address) (word : Word) (pdu : Bytes) (_ : Unit) : Prop :=
  pdu = 0x06 :: (Word.bytes address ++ Word.bytes word)

/-- A typed write of a register expects the register and the word back. -/
theorem takes_writeSingleRegister (address : Address) (word : Word) :
    (writeSingleRegister address word).Takes (EchoesWord address word) where
  named := ⟨0x06, by decide, rfl⟩
  complete := by
    rintro pdu ⟨⟩ rfl
    refine ⟨.writeSingleRegister address word, rfl, ?_, rfl, congrArg some (if_pos ⟨rfl, rfl⟩)⟩
    exact Nat.le_of_ble_eq_true rfl
  sound := by
    intro r hf hs
    cases r with
    | writeSingleRegister address' word' =>
      by_cases hecho : address' = address ∧ word' = word
      · refine .inl ⟨(), congrArg some (if_pos hecho), ?_⟩
        obtain ⟨rfl, rfl⟩ := hecho
        rfl
      · exact .inr ⟨_, congrArg some (if_neg hecho)⟩
    | _ => cases hf

/-- The PDU of a response to a multiple write: the address and the number of words of the
request. -/
def EchoesQuantity (address : Address) (words : List Word) (pdu : Bytes) (_ : Unit) : Prop :=
  ∃ quantity : Quantity, quantity.toNat = words.length ∧
    pdu = 0x10 :: (Word.bytes address ++ Word.bytes quantity)

/-- A typed write of several registers expects their address and their number back. -/
theorem takes_writeMultipleRegisters (address : Address) (words : List Word) :
    (writeMultipleRegisters address words).Takes (EchoesQuantity address words) where
  named := ⟨0x10, by decide, rfl⟩
  complete := by
    rintro pdu ⟨⟩ ⟨quantity, hquantity, rfl⟩
    refine ⟨.writeMultipleRegisters address quantity, rfl, ?_, rfl,
      congrArg some (if_pos ⟨rfl, hquantity⟩)⟩
    exact Nat.le_of_ble_eq_true rfl
  sound := by
    intro r hf hs
    cases r with
    | writeMultipleRegisters address' quantity =>
      by_cases hecho : address' = address ∧ quantity.toNat = words.length
      · refine .inl ⟨(), congrArg some (if_pos hecho), quantity, hecho.2, ?_⟩
        rw [← hecho.1]
        rfl
      · exact .inr ⟨_, congrArg some (if_neg hecho)⟩
    | _ => cases hf

/-! ## Frames -/

variable {t : TypedCall α} {brings : Bytes → α → Prop} {policy : UnitPolicy} {c : Call} {f : Frame}

/-- What a typed call makes of a frame is what the PDU of the frame says, or an error. -/
theorem says_or_failed (ht : t.Takes brings) (hc : c.request = t.request) (policy : UnitPolicy)
    (f : Frame) : (c.AcceptsUnit policy f ∧ t.Says brings f.pdu (t.result (c.judge policy f))) ∨
      ∃ e, t.result (c.judge policy f) = .failed e := by
  have hjudged := Call.judgement_judge policy c f
  generalize c.judge policy f = result at hjudged
  cases hjudged with
  | foreignUnit | malformed | otherFunction => exact .inr ⟨_, rfl⟩
  | @response r hu hr hpdu hf =>
    cases hr with
    | response _ hs =>
      obtain ⟨n, hn⟩ := hs
      rcases ht.sound (hc ▸ hf) (Response.size?_eq_ok.1 hn).2 with ⟨a, hread, ha⟩ | ⟨cause, hread⟩
      · refine .inl ⟨hu, ?_⟩
        simp only [result, TypedResult.ofResult, hread]
        exact .value (hpdu ▸ ha)
      · refine .inr ⟨.pdu cause, ?_⟩
        simp only [result, TypedResult.ofResult, hread]
  | exception hu hr hpdu =>
    cases hr with
    | exception _ he => exact .inl ⟨hu, .exception he (hc ▸ hpdu)⟩

/-- **What a typed call makes of a frame.** It gives a value, or an exception, if and only if the
frame is of an accepted unit and its PDU says so. -/
theorem result_judge_iff (ht : t.Takes brings) (hc : c.request = t.request)
    {result : TypedResult α} (hresult : ∀ e, result ≠ .failed e) :
    t.result (c.judge policy f) = result ↔
      c.AcceptsUnit policy f ∧ t.Says brings f.pdu result := by
  constructor
  · rintro rfl
    exact (says_or_failed ht hc policy f).resolve_right fun ⟨e, he⟩ => hresult e he
  · rintro ⟨hu, hsays⟩
    cases hsays with
    | @value a h =>
      obtain ⟨r, hf, hs, hpdu, hread⟩ := ht.complete h
      have hordinary : r.function.IsOrdinary :=
        FunctionCode.isOrdinary_iff.2 (hf ▸ ht.named)
      have hcanonical : Reply.IsCanonical (.ok r) :=
        .response hordinary ⟨_, Response.size?_eq_ok.2 ⟨rfl, hs⟩⟩
      have hjudge : c.judge policy f = .ok (.ok r) :=
        Call.judge_eq_iff.2 (.response hu hcanonical hpdu (hc ▸ hf))
      simp only [hjudge, TypedCall.result, TypedResult.ofResult, hread]
    | @exception code hcode h =>
      have hcanonical : Reply.IsCanonical (.error ⟨c.request.function, code⟩) :=
        .exception (hc ▸ ht.named) hcode
      have hjudge : c.judge policy f = .ok (.error code) :=
        Call.judge_eq_iff.2 (.exception hu hcanonical (hc ▸ h))
      rw [hjudge]
      rfl

end TypedCall

namespace Master

/-! ## Runs -/

/-- A call is started under its name, for its request. -/
theorem start_mem_of_started {m : Master} {hs : List Happening} {c : Call} (h : c ∈ m.started hs) :
    .start c.id c.unit c.request c.timeout ∈ hs := by
  induction hs generalizing m with
  | nil => cases h
  | cons happening hs ih =>
    rcases List.mem_append.1 h with hnow | hlater
    · obtain ⟨id, unit, request, timeout, desk, rfl, hnew⟩ := startedBy_inv hnow
      obtain ⟨ticket, -, -, rfl, rfl, rfl, -⟩ := newCall_inv hnew
      rw [(deadline_of_newCall hnew).1]
      exact List.mem_cons_self
    · exact List.mem_cons_of_mem _ (ih hlater)

/-- A name is given to nothing but calls for a request. -/
def AsksOnly (hs : List Happening) (id : CallId) (request : Request) : Prop :=
  ∀ unit request' timeout, .start id unit request' timeout ∈ hs → request' = request

/-- The peer has sent a PDU, in a whole frame with the transaction id of a call that has been
started, and of a unit that the call accepts. -/
structure Receives (m : Master) (hs : List Happening) (c : Call) (pdu : Bytes) : Prop where
  started : c ∈ m.started hs
  frame : ∃ fs f, AtFront fs (Happening.stream hs) ∧ f ∈ fs ∧
    f.header.transaction = c.transaction ∧ c.AcceptsUnit m.policy f ∧ f.pdu = pdu

/-- What is true of typed calls of one kind, whatever happens to a master. -/
structure AnswersTyped {α : Type} (m : Master) (hs : List Happening) (t : TypedCall α)
    (brings : Bytes → α → Prop) : Prop where
  /-- A frame that reaches the call gives a value or an exception if and only if it says so, and an
  error otherwise. In no case it is left open what the caller is told. -/
  judged : ∀ (c : Call) (f : Frame) (result : TypedResult α), c.request = t.request →
    (∀ e, result ≠ .failed e) → (t.result (c.judge m.policy f) = result ↔
      c.AcceptsUnit m.policy f ∧ t.Says brings f.pdu result)
  /-- What the caller is told is an error, or what a PDU says that the peer has sent to the call. -/
  told : ∀ id result, AsksOnly hs id t.request → .finished id result ∈ (m.run hs).events →
    (∃ e, t.result result = .failed e) ∨
    ∃ c pdu, c.id = id ∧ m.Receives hs c pdu ∧ t.Says brings pdu (t.result result)

/-- Every typed call whose response is read in one way is answered by it, in every run. -/
theorem run_answers_typed {α : Type} {t : TypedCall α} {brings : Bytes → α → Prop}
    (ht : t.Takes brings) (policy : UnitPolicy) (capacity : Nat) (hs : List Happening) :
    (attach policy capacity).AnswersTyped hs t brings := by
  constructor
  case judged => exact fun c f result hc hresult => TypedCall.result_judge_iff ht hc hresult
  case told =>
    intro id result hasks he
    cases result with
    | error e => exact .inl ⟨e, rfl⟩
    | ok answer =>
      obtain ⟨ds, htrace, hinputs, hstarted⟩ := (attach policy capacity).exists_trace hs
      obtain ⟨c, f, n, k, rfl, -, hhanded, -, hjudge⟩ := htrace.handed_of_answered he
      have hquiet := isQuiet_run (m := attach policy capacity) nofun hs
      have htransaction : f.header.transaction = c.transaction :=
        (htrace.isDecidedAt hquiet hhanded).transaction
      have hc : c ∈ (attach policy capacity).started hs :=
        hstarted ▸ Deed.mem_started.2 (List.mem_of_mem_take hhanded.started)
      have hrequest : c.request = t.request := hasks _ _ _ (start_mem_of_started hc)
      rcases TypedCall.says_or_failed ht hrequest policy f with ⟨hu, hsays⟩ | hfailed
      · have hpassed : f ∈ ds.filterMap Deed.passed? :=
          List.mem_filterMap.2 ⟨_, List.mem_of_getElem? hhanded.passed, rfl⟩
        refine .inr ⟨c, f.pdu, rfl, ⟨hc, ?frame⟩, hjudge ▸ hsays⟩
        case frame => exact ⟨_, f, atFront_of_inputs hinputs, hpassed, htransaction, hu, rfl⟩
      · exact .inl (hjudge ▸ hfailed)

/-- **Typed calls are sound against any peer**, in every run and whatever their arguments are. A
read gives as many words as have been requested, those of the PDU that the peer has sent, and no
more than 125; a write succeeds if the peer has echoed the address and the word, or the number of
words; an exception is one of the function of the request; and everything else is an error. -/
theorem run_answers_typed_calls (policy : UnitPolicy) (capacity : Nat) (hs : List Happening) :
    let m := attach policy capacity
    (∀ address quantity, m.AnswersTyped hs (.readHoldingRegisters address quantity)
      (TypedCall.BringsWords quantity)) ∧
    (∀ address word, m.AnswersTyped hs (.writeSingleRegister address word)
      (TypedCall.EchoesWord address word)) ∧
    ∀ address words, m.AnswersTyped hs (.writeMultipleRegisters address words)
      (TypedCall.EchoesQuantity address words) := by
  refine ⟨fun address quantity => ?_, fun address word => ?_, fun address words => ?_⟩
  · exact run_answers_typed (TypedCall.takes_readHoldingRegisters address quantity) _ _ _
  · exact run_answers_typed (TypedCall.takes_writeSingleRegister address word) _ _ _
  · exact run_answers_typed (TypedCall.takes_writeMultipleRegisters address words) _ _ _

end Master

end Modbus
