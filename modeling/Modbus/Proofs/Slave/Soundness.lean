import Modbus.Proofs.Link.Agenda
import Modbus.Proofs.Pdu.Replies
import Modbus.Proofs.Slave.Stream

/-!
# Answers that can always be told

A slave that serves the registers of an image never fails on its own answers, whatever the other
side sends (`ProcessImage.always_tells`). A request that has been read from a stream has an ordinary
function, the registers give an answer that suits it, and such an answer makes a reply that keeps
everything that the encoders assert (`Connection.tells_replyTo`): its size is that of a PDU, its
counts fit into their fields, and the function of an exception leaves the bit free that marks
exceptions. The master reads the frame back, with the function that it has requested. So a
connection ends with the stream or with an error of the stream, never because of an answer
(`Connection.ended_of_stream`).
-/

namespace Modbus

/-! ## What encoding takes for granted -/

/-- What the encoders assert of a reply: one byte can count the bytes of the words, and the function
of an exception is named without the bit that marks exceptions. -/
def Reply.IsAssured : Reply → Prop
  | .ok (.readHoldingRegisters words) => 2 * words.length ≤ 0xFF
  | .ok (.writeSingleRegister ..) | .ok (.writeMultipleRegisters ..) | .ok (.custom ..) => True
  | .error e => e.function.byte < 0x80

/-- A reply that answers a request can be sent, and is understood. -/
structure ReplyMessage.Tells (reply : ReplyMessage) (m : RequestMessage) : Prop where
  /-- It has the header of the request. -/
  header : reply.header = m.header
  /-- It fits into a PDU, and its encoding has the announced size. -/
  size : ∃ n ≤ Pdu.maxSize, reply.reply.size? = .ok n ∧ reply.reply.bytes.length = n
  /-- Nothing that the encoder of the PDU asserts is violated. -/
  assured : reply.reply.IsAssured
  /-- Nor is what the encoder of the header asserts: the length field can count the bytes. -/
  length : reply.reply.bytes.length + 1 ≤ 0xFFFF
  /-- It has a frame, which a master splits off whatever follows it. -/
  frame : ∃ f, reply.frame? = .ok f ∧ f = ⟨m.header, reply.reply.bytes⟩ ∧
    ∀ rest, Decoder.frames.next (f.bytes ++ rest) = .item f rest
  /-- The PDU is read back, as a reply for the function of the request. -/
  decode : Reply.decode reply.reply.bytes = .ok reply.reply
  function : reply.reply.function = m.request.function

/-- As many frames come back as there are requests, and each has the header of the request at its
place and a PDU that is read as a reply for its function. -/
def RequestMessage.AreAnswered (ms : List RequestMessage) (fs : List Frame) : Prop :=
  fs.length = ms.length ∧ ∀ (i : Nat) (m : RequestMessage), ms[i]? = some m →
    ∃ (f : Frame) (reply : Reply), fs[i]? = some f ∧ f.header = m.header ∧
      Reply.decode f.pdu = .ok reply ∧ reply.function = m.request.function

namespace Answer.Suits

variable {a : Answer} {function : FunctionCode}

/-- The reply with a suitable answer has a size that fits into a PDU, and is encoded in as many
bytes. -/
theorem size?_reply (h : a.Suits function) :
    ∃ n ≤ Pdu.maxSize, (a.reply function).size? = .ok n ∧ (a.reply function).bytes.length = n := by
  cases a with
  | ok r => exact ⟨r.size, h.2, Response.size?_eq_ok.2 ⟨rfl, h.2⟩, r.length_bytes⟩
  | error e => exact ⟨2, by decide, rfl, rfl⟩

/-- All that encoding takes for granted is true of the reply with a suitable answer. -/
theorem isAssured_reply (h : a.Suits function) (hf : function.IsOrdinary) :
    (a.reply function).IsAssured := by
  cases a with
  | error e => exact hf.byte_lt
  | ok r =>
    cases r with
    | readHoldingRegisters words =>
      have hsize := h.2
      simp only [Response.size, Pdu.maxSize] at hsize
      simp only [reply, Reply.IsAssured]
      omega
    | _ => trivial

end Answer.Suits

/-! ## Requests from a stream -/

namespace RequestStream

variable {stream : Bytes} {qs : List (Frame × Request)} {e : Option Error}

/-- The requests of a stream have been read from their frames. -/
theorem decode_of_mem (h : RequestStream stream qs e) {f : Frame} {r : Request}
    (hmem : (f, r) ∈ qs) : Request.decode f.pdu = .ok r := by
  induction h with
  | nothing | truncated | broken | malformed => cases hmem
  | request _ hr _ ih =>
    rcases List.mem_cons.1 hmem with heq | hlater
    · cases heq
      exact hr
    · exact ih hlater

/-- The requests of a stream are for ordinary functions. -/
theorem isOrdinary_of_mem (h : RequestStream stream qs e) {m : RequestMessage}
    (hmem : m ∈ qs.map RequestMessage.ofFrame) : m.request.function.IsOrdinary := by
  obtain ⟨⟨f, r⟩, hq, rfl⟩ := List.mem_map.1 hmem
  exact (Request.decode_inv (h.decode_of_mem hq)).1

end RequestStream

/-! ## Errors of a stream -/

namespace Pdu

variable {kind : MessageKind}

/-- What fails in two parts fails in one of them. -/
theorem bind_ne_error {α β : Type} {x : Except PduError α} {f : α → Except PduError β}
    {e : PduError} (hx : x ≠ .error e) (hf : ∀ a, f a ≠ .error e) : x >>= f ≠ .error e := by
  cases x with
  | error e' => exact fun h => hx (by cases h; rfl)
  | ok a => exact hf a

/-- No error of reading a byte is one of encoding. -/
theorem takeByte_ne_unencodable (bs : Bytes) : takeByte bs ≠ .error (.unencodable kind) := by
  cases bs <;> simp [takeByte]

/-- Nor is there one in reading a word. -/
theorem takeWord_ne_unencodable (bs : Bytes) : takeWord bs ≠ .error (.unencodable kind) := by
  unfold takeWord
  split <;> simp

/-- Nor is there one in reading several words. -/
theorem takeWords_ne_unencodable (n : Nat) (bs : Bytes) :
    takeWords n bs ≠ .error (.unencodable kind) := by
  induction n generalizing bs with
  | zero => simp [takeWords]
  | succ n ih =>
    exact bind_ne_error (takeWord_ne_unencodable bs) fun read =>
      bind_ne_error (ih read.2) fun _ => by simp [pure, Except.pure]

/-- Nor is there one in reading an address and a word. -/
theorem takePair_ne_unencodable (bs : Bytes) : takePair bs ≠ .error (.unencodable kind) :=
  bind_ne_error (takeWord_ne_unencodable bs) fun read =>
    bind_ne_error (takeWord_ne_unencodable read.2) fun _ => by simp [pure, Except.pure]

/-- Nor is there one in reading words behind the count of their bytes. -/
theorem takeByteCount_ne_unencodable (count : UInt8) (bs : Bytes) :
    takeByteCount count bs ≠ .error (.unencodable kind) := by
  unfold takeByteCount
  split
  · exact takeWords_ne_unencodable _ _
  · simp

/-- What is left behind a message is not an error of encoding. -/
theorem complete_ne_unencodable {α : Type} (kind' : MessageKind) (read : α × Bytes) :
    complete kind' read ≠ .error (.unencodable kind) := by
  obtain ⟨a, rest⟩ := read
  cases rest <;> simp [complete]

/-- A PDU that is too long is not refused as one that cannot be encoded. -/
theorem limited_ne_unencodable (kind' : MessageKind) (bs : Bytes) :
    limited kind' bs ≠ .error (.unencodable kind) := by
  unfold limited
  split <;> simp

end Pdu

open Pdu

namespace Request

variable {kind : MessageKind}

/-- Nor is there such an error in a request to write several registers. -/
theorem takeMultiple_ne_unencodable (bs : Bytes) :
    takeMultiple bs ≠ .error (.unencodable kind) := by
  refine bind_ne_error (takePair_ne_unencodable bs) fun pair => ?_
  refine bind_ne_error (takeByte_ne_unencodable pair.2) fun count => ?_
  dsimp only
  split
  · exact bind_ne_error (takeByteCount_ne_unencodable count.1 count.2) fun _ => by
      simp [pure, Except.pure]
  · simp [throw, throwThe, MonadExceptOf.throw]

/-- A request that cannot be read is not refused as one that cannot be encoded. -/
theorem decode_ne_unencodable (bs : Bytes) :
    Request.decode bs ≠ .error (.unencodable kind) := by
  have hpair (bs : Bytes) : takePair bs >>= complete .request ≠ .error (.unencodable kind) :=
    bind_ne_error (takePair_ne_unencodable bs) (complete_ne_unencodable .request)
  have hmultiple (bs : Bytes) :
      takeMultiple bs >>= complete .request ≠ .error (.unencodable kind) :=
    bind_ne_error (takeMultiple_ne_unencodable bs) (complete_ne_unencodable .request)
  refine bind_ne_error
    (bind_ne_error (limited_ne_unencodable .request bs) takeByte_ne_unencodable)
    fun read => ?_
  dsimp only
  unfold decodeFields
  split
  · exact bind_ne_error (hpair read.2) fun _ => by simp [pure, Except.pure]
  split
  · exact bind_ne_error (hpair read.2) fun _ => by simp [pure, Except.pure]
  split
  · exact bind_ne_error (hmultiple read.2) fun _ => by simp [pure, Except.pure]
  split
  · simp [pure, Except.pure]
  · simp [throw, throwThe, MonadExceptOf.throw]

end Request

/-- The error of a stream is none of encoding. -/
theorem RequestStream.ne_unencodable {stream : Bytes} {qs : List (Frame × Request)}
    {e : Option Error} (h : RequestStream stream qs e) (kind : MessageKind) :
    e ≠ some (.pdu (.unencodable kind)) := by
  induction h with
  | nothing => simp
  | truncated | broken => simp [Error.frame, Error.pdu]
  | malformed _ hr =>
    intro heq
    cases heq
    exact Request.decode_ne_unencodable _ hr
  | request _ _ _ ih => exact ih

/-! ## Connections -/

/-- Frames that can be sent are read one after another, and nothing is left. -/
theorem Decoder.drainLast_flatMap_bytes {fs : List Frame} (h : ∀ f ∈ fs, f.IsSendable) :
    Decoder.frames.drainLast (fs.flatMap Frame.bytes) = ⟨fs, none, []⟩ := by
  have hreading : IsReading .ok (fs.flatMap Frame.bytes) ⟨fs, none, []⟩ := by
    induction fs with
    | nil => exact .ended
    | cons f fs ih =>
      obtain ⟨hf, hfs⟩ := List.forall_mem_cons.1 h
      rw [List.flatMap_cons]
      exact .item (Frame.split_bytes hf _) rfl (ih hfs)
  exact hreading.eq_drainLast

namespace Connection

variable {σ : Type} {service : Service σ}

/-- What a service answers to a request for an ordinary function can be told. -/
theorem tells_replyTo (hsound : service.IsSound) (state : σ) {m : RequestMessage}
    (hf : m.request.function.IsOrdinary) : (replyTo service state m).1.Tells m := by
  have hsuits := hsound state m.header.unit m.request
  obtain ⟨hpos, hle⟩ := hsuits.length_reply
  constructor
  case header => rfl
  case size => exact hsuits.size?_reply
  case assured => exact hsuits.isAssured_reply hf
  case length =>
    have hmost : Pdu.maxSize + 1 ≤ 0xFFFF := by decide
    exact Nat.le_trans (Nat.add_le_add_right hle 1) hmost
  case frame =>
    have hsendable : (m.responseFrame (service state m.header.unit m.request).1).IsSendable :=
      ⟨hpos, hle⟩
    exact ⟨_, frame?_replyTo state hsound m, rfl, fun rest =>
      Decoder.next_of_frame (Frame.split_bytes hsendable rest) rfl⟩
  case decode => exact hsuits.decode_reply hf
  case function => exact hsuits.function_reply

/-- The answers to requests that are executed one after another suit them. -/
theorem suits_executeAll (hsound : service.IsSound) (state : σ) {ms : List RequestMessage} {i : Nat}
    {m : RequestMessage} {a : Answer} (hm : ms[i]? = some m)
    (ha : (service.executeAll state (ms.map order)).1[i]? = some a) :
    a.Suits m.request.function := by
  induction ms generalizing state i with
  | nil => cases hm
  | cons first rest ih =>
    cases i with
    | zero =>
      cases hm
      cases ha
      exact hsound _ _ _
    | succ i => exact ih _ hm ha

/-- The answers to requests for ordinary functions are heard by a master. -/
theorem heard_responses (hsound : service.IsSound) (state : σ) {ms : List RequestMessage}
    (hms : ∀ m ∈ ms, m.request.function.IsOrdinary) :
    let fs := List.zipWith RequestMessage.responseFrame ms
      (service.executeAll state (ms.map order)).1
    Decoder.frames.drainLast (fs.flatMap Frame.bytes) = ⟨fs, none, []⟩ ∧
      RequestMessage.AreAnswered ms fs := by
  intro fs
  have hlength : fs.length = ms.length := by simp [fs]
  refine ⟨Decoder.drainLast_flatMap_bytes fun f hf => ?_, hlength, fun i m hm => ?_⟩
  · obtain ⟨i, hi⟩ := List.mem_iff_getElem?.1 hf
    obtain ⟨m, a, hm, ha, rfl⟩ := List.getElem?_zipWith_eq_some.1 hi
    obtain ⟨hpos, hle⟩ := (suits_executeAll hsound state hm ha).length_reply
    exact ⟨hpos, hle⟩
  · have hlt : i < fs.length := by
      rw [hlength]
      exact (List.getElem?_eq_some_iff.1 hm).1
    have hf := List.getElem?_eq_getElem hlt
    obtain ⟨m', a, hm', ha, hframe⟩ := List.getElem?_zipWith_eq_some.1 hf
    cases hm.symm.trans hm'
    have hsuits := suits_executeAll hsound state hm ha
    have hordinary := hms m (List.mem_of_getElem? hm)
    refine ⟨m.responseFrame a, a.reply m.request.function, hframe ▸ hf, rfl, ?_, ?_⟩
    · exact hsuits.decode_reply hordinary
    · exact hsuits.function_reply

/-- A connection ends as its stream does. -/
theorem ended_of_stream (hsound : service.IsSound) (state : σ) {chunks : List Bytes}
    {qs : List (Frame × Request)} {e : Option Error}
    (h : RequestStream chunks.flatten qs e) :
    (receiveStream service {} state chunks).connection.ended = some e := by
  obtain ⟨hitems, herror⟩ := h.drainLast
  obtain ⟨-, -, hended⟩ := receiveStream_eq service {} rfl state chunks
  rw [List.nil_append, answerAll_eq state hsound, herror] at hended
  exact hended

end Connection

/-- A slave that serves an image can tell every answer, and is understood. -/
structure ProcessImage.AlwaysTells (image : ProcessImage) : Prop where
  /-- The reply to a request that has been read from a stream can be told, whatever the registers
  hold when it is executed. -/
  tells : ∀ stream, ∀ m ∈ (Decoder.requests.drainLast stream).items, ∀ memory,
    (Connection.replyTo image.handle memory m).1.Tells m
  /-- A connection ends as its stream does, and never because an answer cannot be encoded. -/
  ended : ∀ memory chunks, ∃ e,
    (Connection.receiveStream image.handle {} memory chunks).connection.ended = some e ∧
      (Decoder.requests.drainLast chunks.flatten).error = e ∧
      ∀ kind, e ≠ some (.pdu (.unencodable kind))
  /-- What has been sent consists of frames, by which the requests are answered. -/
  heard : ∀ memory chunks, ∃ fs,
    Decoder.frames.drainLast (Connection.receiveStream image.handle {} memory chunks).sent =
      ⟨fs, none, []⟩ ∧
    RequestMessage.AreAnswered (Decoder.requests.drainLast chunks.flatten).items fs

/-- **A slave never fails on its own answers.** Whatever registers it serves and whatever bytes
come, every answer keeps what the encoders assert, fits into a PDU, and is read back by the master
with the function that was requested. -/
theorem ProcessImage.always_tells (image : ProcessImage) : image.AlwaysTells := by
  have hsound := image.isSound_handle
  have hordinary : ∀ stream, ∀ m ∈ (Decoder.requests.drainLast stream).items,
      m.request.function.IsOrdinary := by
    intro stream m hm
    obtain ⟨qs, e, h⟩ := RequestStream.exists_of_stream stream
    exact h.isOrdinary_of_mem (h.drainLast.1 ▸ hm)
  constructor
  case tells =>
    exact fun stream m hm memory => Connection.tells_replyTo hsound memory (hordinary stream m hm)
  case ended =>
    intro memory chunks
    obtain ⟨qs, e, h⟩ := RequestStream.exists_of_stream chunks.flatten
    exact ⟨e, Connection.ended_of_stream hsound memory h, h.drainLast.2, h.ne_unencodable⟩
  case heard =>
    intro memory chunks
    obtain ⟨hsent, -, -⟩ := Connection.receiveStream_eq image.handle {} rfl memory chunks
    rw [List.nil_append, Connection.answerAll_eq memory hsound] at hsent
    rw [hsent]
    exact ⟨_, Connection.heard_responses hsound memory (hordinary chunks.flatten)⟩

end Modbus
