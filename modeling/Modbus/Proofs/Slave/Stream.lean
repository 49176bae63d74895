import Modbus.Proofs.Frame.Chunks
import Modbus.Proofs.Slave.Execution

/-!
# What a slave makes of a stream

A slave that serves registers answers a stream of bytes as if the requests in it were executed
directly, whatever the bytes are and however they come in chunks
(`ProcessImage.serves_requests_of_stream`). `RequestStream` says which requests a stream consists of
and how it ends: frames are taken off its front and their PDUs are read, until there is nothing left
or the first error comes.
-/

namespace Modbus

/-- The requests at the front of a stream, with their frames, and the error that follows them. -/
inductive RequestStream : Bytes → List (Frame × Request) → Option Error → Prop where
  /-- The stream ends behind a frame. -/
  | nothing : RequestStream [] [] none
  /-- The stream ends inside a frame. -/
  | truncated {stream : Bytes} (hne : stream ≠ []) (hs : Frame.split stream = .ok none) :
    RequestStream stream []
      (some (.frame (.truncated stream.length (Frame.expectedSize stream))))
  /-- The stream goes on with something that is not a frame. -/
  | broken {stream : Bytes} {e : FrameError} (hs : Frame.split stream = .error e) :
    RequestStream stream [] (some (.frame e))
  /-- The stream goes on with a frame whose PDU is malformed. -/
  | malformed {stream rest : Bytes} {f : Frame} {e : PduError}
    (hs : Frame.split stream = .ok (some (f, rest))) (hr : Request.decode f.pdu = .error e) :
    RequestStream stream [] (some (.pdu e))
  /-- The stream goes on with the frame of a request. -/
  | request {stream rest : Bytes} {f : Frame} {r : Request} {qs : List (Frame × Request)}
    {e : Option Error} (hs : Frame.split stream = .ok (some (f, rest)))
    (hr : Request.decode f.pdu = .ok r) (later : RequestStream rest qs e) :
    RequestStream stream ((f, r) :: qs) e

/-- The message of a request in a frame. -/
def RequestMessage.ofFrame (q : Frame × Request) : RequestMessage := ⟨q.1.header, q.2⟩

namespace RequestStream

variable {stream : Bytes} {qs qs' : List (Frame × Request)} {e e' : Option Error}

/-- Every stream consists of requests and an ending. -/
theorem exists_of_stream (stream : Bytes) : ∃ qs e, RequestStream stream qs e := by
  induction stream using Frame.split_induct with
  | broken stream e hs => exact ⟨_, _, .broken hs⟩
  | incomplete stream hs =>
    by_cases hne : stream = []
    · subst hne
      exact ⟨_, _, .nothing⟩
    · exact ⟨_, _, .truncated hne hs⟩
  | frame stream f rest hs ih =>
    cases hr : Request.decode f.pdu with
    | error e => exact ⟨_, _, .malformed hs hr⟩
    | ok r =>
      obtain ⟨qs, e, h⟩ := ih
      exact ⟨_, _, .request hs hr h⟩

/-- A stream consists of its requests in one way only. -/
theorem unique (h : RequestStream stream qs e) (h' : RequestStream stream qs' e') :
    qs' = qs ∧ e' = e := by
  induction h generalizing qs' e' with
  | nothing =>
    cases h' with
    | nothing => exact ⟨rfl, rfl⟩
    | truncated hne _ => exact absurd rfl hne
    | broken hs | malformed hs | request hs => cases hs
  | truncated hne hs =>
    cases h' with
    | nothing => exact absurd rfl hne
    | truncated => exact ⟨rfl, rfl⟩
    | broken hs' | malformed hs' | request hs' => rw [hs] at hs'; cases hs'
  | broken hs =>
    cases h' with
    | nothing => cases hs
    | broken hs' => rw [hs] at hs'; cases hs'; exact ⟨rfl, rfl⟩
    | truncated _ hs' | malformed hs' | request hs' => rw [hs] at hs'; cases hs'
  | malformed hs hr =>
    cases h' with
    | nothing => cases hs
    | malformed hs' hr' =>
      rw [hs] at hs'
      cases hs'
      rw [hr] at hr'
      cases hr'
      exact ⟨rfl, rfl⟩
    | request hs' hr' => rw [hs] at hs'; cases hs'; rw [hr] at hr'; cases hr'
    | truncated _ hs' | broken hs' => rw [hs] at hs'; cases hs'
  | request hs hr _ ih =>
    cases h' with
    | nothing => cases hs
    | request hs' hr' later =>
      rw [hs] at hs'
      cases hs'
      rw [hr] at hr'
      cases hr'
      obtain ⟨rfl, rfl⟩ := ih later
      exact ⟨rfl, rfl⟩
    | malformed hs' hr' => rw [hs] at hs'; cases hs'; rw [hr] at hr'; cases hr'
    | truncated _ hs' | broken hs' => rw [hs] at hs'; cases hs'

/-- Behind the frames of the requests nothing is left if and only if there is no error. -/
theorem bytes (h : RequestStream stream qs e) :
    ∃ rest, stream = qs.flatMap (·.1.bytes) ++ rest ∧ (e = none ↔ rest = []) := by
  induction h with
  | nothing => exact ⟨[], rfl, by simp⟩
  | @truncated stream hne _ => exact ⟨stream, rfl, by simp [hne]⟩
  | @broken stream _ hs =>
    have hne : stream ≠ [] := by rintro rfl; cases hs
    exact ⟨stream, rfl, by simp [hne]⟩
  | @malformed stream _ _ _ hs _ =>
    have hne : stream ≠ [] := by rintro rfl; cases hs
    exact ⟨stream, rfl, by simp [hne]⟩
  | request hs _ _ ih =>
    obtain ⟨rest, hrest, hnone⟩ := ih
    exact ⟨rest, by rw [(Frame.split_eq_frame hs).1, hrest]; simp, hnone⟩

/-- The requests and the error are a reading of the stream. -/
theorem isReading (h : RequestStream stream qs e) : ∃ rest,
    Decoder.IsReading Decoder.readRequest stream ⟨qs.map RequestMessage.ofFrame, e, rest⟩ := by
  induction h with
  | nothing => exact ⟨[], .ended⟩
  | truncated hne hs => exact ⟨_, .truncated hne hs⟩
  | broken hs => exact ⟨_, .broken hs⟩
  | malformed hs hr => exact ⟨_, .malformed hs (by rw [Decoder.readRequest, hr]; rfl)⟩
  | request hs hr _ ih =>
    obtain ⟨rest, hlater⟩ := ih
    exact ⟨rest, .item hs (by rw [Decoder.readRequest, hr]; rfl) hlater⟩

/-- A slave that reads the stream to its end reads these requests and this error. -/
theorem drainLast (h : RequestStream stream qs e) :
    (Decoder.requests.drainLast stream).items = qs.map RequestMessage.ofFrame ∧
      (Decoder.requests.drainLast stream).error = e := by
  obtain ⟨rest, hreading⟩ := h.isReading
  have hdrain : Decoder.requests.drainLast stream = _ := hreading.eq_drainLast
  rw [hdrain]
  exact ⟨rfl, rfl⟩

end RequestStream

/-! ## Connections -/

namespace Connection

variable {σ : Type} (service : Service σ)

/-- A connection that receives chunks and then the end of the stream. -/
def receiveStream (c : Connection) (state : σ) : List Bytes → Served σ
  | [] => c.finish service state
  | chunk :: chunks =>
    let s := c.receive service state chunk
    let later := receiveStream s.connection s.state chunks
    { later with sent := s.sent ++ later.sent }

/-- A connection that has ended stays as it is. -/
theorem receiveStream_of_ended {c : Connection} (h : c.ended.isSome) (state : σ)
    (chunks : List Bytes) : receiveStream service c state chunks = ⟨c, state, []⟩ := by
  induction chunks with
  | nil => rw [receiveStream, finish, if_pos h]
  | cons chunk chunks ih => simp only [receiveStream, receive, if_pos h, ih, List.append_nil]

/-- Answering can be stopped between requests and gone on with, unless it has failed. -/
theorem answerAll_append (state : σ) (ms ms' : List RequestMessage) :
    answerAll service state (ms ++ ms') =
      let first := answerAll service state ms
      match first.error with
      | some _ => first
      | none =>
        let later := answerAll service first.state ms'
        { later with sent := first.sent ++ later.sent } := by
  induction ms generalizing state with
  | nil => rfl
  | cons m ms ih =>
    simp only [List.cons_append, answerAll]
    split
    · rfl
    · simp only [ih]
      split <;> simp [*]

/-- What a connection sends, and how it ends, depends on the stream as a whole. -/
theorem receiveStream_eq (c : Connection) (hc : c.ended = none) (state : σ) (chunks : List Bytes) :
    let r := Decoder.requests.drainLast (c.buffer ++ chunks.flatten)
    let answered := answerAll service state r.items
    let s := receiveStream service c state chunks
    s.sent = answered.sent ∧ s.state = answered.state ∧
      s.connection.ended = some (answered.error.or r.error) := by
  induction chunks generalizing c state with
  | nil =>
    rw [receiveStream, finish, hc, List.flatten_nil, List.append_nil]
    refine ⟨rfl, rfl, ?_⟩
    simp only [serve, Option.isSome_none, Bool.false_eq_true, if_false, if_true]
    split <;> simp [*]
  | cons chunk chunks ih =>
    have hfirst : receive service c state chunk =
        serve service state (Decoder.requests.drain (c.buffer ++ chunk)) false := by
      rw [receive, hc]
      rfl
    have hwhole := Decoder.drainLast_append (Decoder.isFinal_ofFrames _) (d := Decoder.requests)
      (c.buffer ++ chunk) chunks.flatten
    rw [List.flatten_cons, ← List.append_assoc, hwhole]
    simp only [receiveStream, hfirst, serve]
    generalize Decoder.requests.drain (c.buffer ++ chunk) = r
    cases ha : (answerAll service state r.items).error with
    | some e =>
      rw [receiveStream_of_ended service (by simp)]
      cases hr : r.error with
      | some e' => simp [ha]
      | none => simp [Reading.prepend, answerAll_append, ha]
    | none =>
      cases hr : r.error with
      | some e' =>
        rw [receiveStream_of_ended service (by simp)]
        simp [ha]
      | none =>
        obtain ⟨hsent, hstate, hended⟩ :=
          ih ⟨r.rest, none⟩ rfl (answerAll service state r.items).state
        simp [Reading.prepend, answerAll_append, ha, hsent, hstate, hended]

end Connection

/-- A slave answers a stream that comes in chunks and then ends: the requests of the stream are
executed on the registers in their order, each is answered with its own header by the response or
the exception it has led to, and nothing behind an error is executed. The connection ends without
an error if and only if the stream consists of the frames of these requests. -/
theorem ProcessImage.serves_requests_of_stream (image : ProcessImage) (memory : Memory)
    (chunks : List Bytes) :
    ∃ qs e, RequestStream chunks.flatten qs e ∧
      (∀ qs' e', RequestStream chunks.flatten qs' e' → qs' = qs ∧ e' = e) ∧
      let ms := qs.map RequestMessage.ofFrame
      let executed := Service.executeAll image.handle memory (ms.map Connection.order)
      let s := Connection.receiveStream image.handle {} memory chunks
      executed.1.length = qs.length ∧
        s.sent = (List.zipWith RequestMessage.responseFrame ms executed.1).flatMap Frame.bytes ∧
        s.state = executed.2 ∧ s.connection.ended = some e ∧
        (e = none ↔ chunks.flatten = qs.flatMap (·.1.bytes)) := by
  obtain ⟨qs, e, h⟩ := RequestStream.exists_of_stream chunks.flatten
  refine ⟨qs, e, h, fun _ _ h' => h.unique h', ?_⟩
  intro ms executed s
  obtain ⟨hitems, herror⟩ := h.drainLast
  obtain ⟨hsent, hstate, hended⟩ :=
    Connection.receiveStream_eq image.handle {} rfl memory chunks
  simp only [List.nil_append, hitems, herror,
    Connection.answerAll_eq memory image.isSound_handle] at hsent hstate hended
  obtain ⟨rest, hrest, hnone⟩ := h.bytes
  have hwhole : e = none ↔ chunks.flatten = qs.flatMap (·.1.bytes) := by
    rw [hnone, hrest]
    simp
  exact ⟨by simp [executed, ms], hsent, hstate, hended, hwhole⟩

end Modbus
