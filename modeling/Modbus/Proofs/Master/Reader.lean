import Modbus.Proofs.Frame.Drain
import Modbus.Proofs.Master.Replies

/-!
# What a master makes of the stream from the peer

The peer sends a stream of bytes in chunks, and calls start and end between the chunks. Nevertheless
the frames at the front of the stream are passed on one after another, as if it were read at once.
A framing error or the end of the stream closes the table: whoever waits then is told why, and so is
every call that is started later (`Master.run_reads_stream`). `FrameStream` says which frames a
stream starts with, and for what reason the table is closed behind them.
-/

namespace Modbus

/-- The frames at the front of a stream, and the reason for closing that follows them, if there is
one yet. -/
inductive FrameStream (isEnded : Bool) : Bytes → List Frame → Option Fault → Prop where
  /-- The rest of the stream is no frame, as long as nothing follows. -/
  | pending {stream : Bytes} (hopen : isEnded = false) (hs : Frame.split stream = .ok none) :
    FrameStream isEnded stream [] none
  /-- The stream ends behind a frame. -/
  | ended (hended : isEnded = true) :
    FrameStream isEnded [] [] (some ⟨.unexpectedEof, "connection closed by peer"⟩)
  /-- The stream ends inside a frame. -/
  | truncated {stream : Bytes} (hended : isEnded = true) (hne : stream ≠ [])
    (hs : Frame.split stream = .ok none) :
    FrameStream isEnded stream [] (some ⟨.invalidData,
      (FrameError.truncated stream.length (Frame.expectedSize stream)).message⟩)
  /-- The stream goes on with something that is not a frame. -/
  | broken {stream : Bytes} {e : FrameError} (hs : Frame.split stream = .error e) :
    FrameStream isEnded stream [] (some ⟨.invalidData, e.message⟩)
  /-- The stream goes on with a frame. -/
  | frame {stream rest : Bytes} {f : Frame} {fs : List Frame} {closing : Option Fault}
    (hs : Frame.split stream = .ok (some (f, rest)))
    (later : FrameStream isEnded rest fs closing) : FrameStream isEnded stream (f :: fs) closing

namespace FrameStream

variable {isEnded : Bool} {stream : Bytes} {fs fs' : List Frame} {closing closing' : Option Fault}

/-- A stream starts with its frames in one way only. -/
theorem unique (h : FrameStream isEnded stream fs closing)
    (h' : FrameStream isEnded stream fs' closing') : fs' = fs ∧ closing' = closing := by
  induction h generalizing fs' closing' with
  | pending hopen hs =>
    cases h' with
    | pending => exact ⟨rfl, rfl⟩
    | ended hended | truncated hended => rw [hopen] at hended; cases hended
    | broken hs' | frame hs' => rw [hs] at hs'; cases hs'
  | ended hended =>
    cases h' with
    | pending hopen => rw [hended] at hopen; cases hopen
    | ended => exact ⟨rfl, rfl⟩
    | truncated _ hne => exact absurd rfl hne
    | broken hs' | frame hs' => cases hs'
  | truncated hended hne hs =>
    cases h' with
    | pending hopen => rw [hended] at hopen; cases hopen
    | ended => exact absurd rfl hne
    | truncated => exact ⟨rfl, rfl⟩
    | broken hs' | frame hs' => rw [hs] at hs'; cases hs'
  | broken hs =>
    cases h' with
    | ended => cases hs
    | broken hs' => rw [hs] at hs'; cases hs'; exact ⟨rfl, rfl⟩
    | pending _ hs' | truncated _ _ hs' | frame hs' => rw [hs] at hs'; cases hs'
  | frame hs _ ih =>
    cases h' with
    | ended => cases hs
    | frame hs' later =>
      rw [hs] at hs'
      cases hs'
      obtain ⟨rfl, rfl⟩ := ih later
      exact ⟨rfl, rfl⟩
    | pending _ hs' | truncated _ _ hs' | broken hs' => rw [hs] at hs'; cases hs'

/-- What is read of a buffer are the first frames of every stream that goes on from it, and all of
them if there is an error. -/
theorem of_drain (isEnded : Bool) (buffer : Bytes) :
    let r := Decoder.frames.drain buffer
    (r.error = none → Frame.split r.rest = .ok none ∧
      ∀ {more fs closing}, FrameStream isEnded (r.rest ++ more) fs closing →
        FrameStream isEnded (buffer ++ more) (r.items ++ fs) closing) ∧
    ∀ e, r.error = some e → ∀ more,
      FrameStream isEnded (buffer ++ more) r.items (some e.fault) := by
  induction buffer using Frame.split_induct with
  | broken buffer e hs =>
    rw [Decoder.drain_of_failed (d := .frames) (Decoder.next_of_error hs)]
    refine ⟨nofun, fun e' he more => ?_⟩
    cases he
    exact .broken (Frame.split_append_of_error hs more)
  | incomplete buffer hs =>
    rw [Decoder.drain_of_incomplete (d := .frames) (Decoder.next_of_incomplete hs)]
    exact ⟨fun _ => ⟨hs, id⟩, nofun⟩
  | frame buffer f rest hs ih =>
    obtain ⟨hnone, hsome⟩ := ih
    rw [Decoder.drain_of_item (d := .frames) (Decoder.next_of_frame hs rfl)]
    refine ⟨fun he => ⟨(hnone he).1, fun h => ?_⟩, fun e he more => ?_⟩
    · exact .frame (Frame.split_append_of_frame hs _) ((hnone he).2 h)
    · exact .frame (Frame.split_append_of_frame hs more) (hsome e he more)

end FrameStream

/-! ## What is read -/

namespace Happening

/-- Whether the peer ends its stream by a happening. -/
def isFinish : Happening → Bool
  | finish => true
  | _ => false

/-- Whether the peer ends its stream in a sequence of happenings. -/
def endsStream (hs : List Happening) : Bool := hs.any isFinish

/-- The bytes that the peer sends before it ends its stream. -/
def stream : List Happening → Bytes
  | [] => []
  | send bytes :: hs => bytes ++ stream hs
  | finish :: _ => []
  | _ :: hs => stream hs

end Happening

/-- Whether a deed is done to the incoming side and the desk because of what has been read. -/
def Deed.isHeard : Deed → Bool
  | pass _ | close _ => true
  | _ => false

namespace Master

variable {m : Master} {hs : List Happening}

theorem filter_heard (r : Reading Frame) :
    (heard r).filter Deed.isHeard =
      r.items.map .pass ++ (r.error.map fun e => .close e.fault).toList := by
  have hpass : (r.items.map Deed.pass).filter Deed.isHeard = r.items.map .pass := by
    rw [List.filter_eq_self]
    intro d hd
    obtain ⟨f, -, rfl⟩ := List.mem_map.1 hd
    rfl
  rw [heard, List.filter_append, List.filter_cons_of_neg (by simp [Deed.isHeard]), hpass]
  cases r.error <;> rfl

theorem inputsBy_send (bytes : Bytes) (hopen : m.inlet.isClosed = false) :
    m.inputsBy (.send bytes) = heard (Decoder.frames.drain (m.inlet.buffer ++ bytes)) := by
  simp [inputsBy, hopen]

theorem inputsBy_finish (hopen : m.inlet.isClosed = false) :
    m.inputsBy .finish = heard (Decoder.frames.drainLast m.inlet.buffer) ++
      if (Decoder.frames.drainLast m.inlet.buffer).error.isSome then []
      else [.close ⟨.unexpectedEof, "connection closed by peer"⟩] := by
  simp [inputsBy, hopen]

/-- A call that is started does not touch the incoming side. -/
theorem inputsBy_started {h : Happening} (hi : m.inputsBy h = (m.startedBy h).map .start) :
    (m.inputsBy h).filter Deed.isHeard = [] ∧ (m.step h).master.inlet = m.inlet := by
  have hstart (cs : List Call) (i : Inlet) : (cs.map Deed.start).foldl Inlet.after i = i := by
    induction cs with
    | nil => rfl
    | cons c cs ih => exact ih
  rw [(changes_step m h).inlet, hi, hstart]
  refine ⟨List.filter_eq_nil_iff.2 fun d hd => ?_, rfl⟩
  obtain ⟨c, -, rfl⟩ := List.mem_map.1 hd
  simp [Deed.isHeard]

/-- Nothing is read any more when the incoming side has been closed. -/
theorem filter_inputs_of_closed (hclosed : m.inlet.isClosed = true)
    (hconnected : ∀ id, .disconnect id ∉ hs) : (m.inputs hs).filter Deed.isHeard = [] := by
  induction hs generalizing m with
  | nil => rfl
  | cons h hs ih =>
    have hfirst : (m.inputsBy h).filter Deed.isHeard = [] ∧
        (m.step h).master.inlet = m.inlet := by
      cases h with
      | disconnect id => exact absurd List.mem_cons_self (hconnected id)
      | send bytes =>
        have hnone : m.inputsBy (.send bytes) = [] := by simp [inputsBy, hclosed]
        exact ⟨by rw [hnone]; rfl, by rw [(changes_step m _).inlet, hnone]; rfl⟩
      | finish =>
        have hnone : m.inputsBy .finish = [] := by simp [inputsBy, hclosed]
        exact ⟨by rw [hnone]; rfl, by rw [(changes_step m _).inlet, hnone]; rfl⟩
      | _ => exact inputsBy_started rfl
    rw [inputs, List.filter_append, hfirst.1, List.nil_append]
    exact ih (hfirst.2 ▸ hclosed) fun id hmem => hconnected id (List.mem_cons_of_mem h hmem)

/-- What is read are the first frames of the stream, behind what is in the buffer, and the reason
for closing. -/
def ReadsStream (m : Master) (hs : List Happening) : Prop :=
  ∃ fs closing, FrameStream (Happening.endsStream hs) (m.inlet.buffer ++ Happening.stream hs)
      fs closing ∧
    (m.inputs hs).filter Deed.isHeard = fs.map .pass ++ (closing.map .close).toList

/-- Nothing is read when something else happens. -/
theorem ReadsStream.other {h : Happening} (hi : m.inputsBy h = (m.startedBy h).map .start)
    (hends : Happening.endsStream (h :: hs) = Happening.endsStream hs)
    (hstream : Happening.stream (h :: hs) = Happening.stream hs)
    (later : (m.step h).master.ReadsStream hs) : m.ReadsStream (h :: hs) := by
  obtain ⟨hnone, hsame⟩ := inputsBy_started hi
  rw [ReadsStream, hsame] at later
  rwa [ReadsStream, hends, hstream, inputs, List.filter_append, hnone]

/-- Bytes of the peer come. What is behind their frames stays in the buffer, unless it is no
frame. -/
theorem ReadsStream.send (bytes : Bytes) (hopen : m.inlet.isClosed = false)
    (hconnected : ∀ id, .disconnect id ∉ hs)
    (later : (m.step (.send bytes)).master.inlet.isClosed = false →
      Frame.split (m.step (.send bytes)).master.inlet.buffer = .ok none →
      (m.step (.send bytes)).master.ReadsStream hs) : m.ReadsStream (.send bytes :: hs) := by
  have hinlet := (changes_step m (.send bytes)).inlet
  obtain ⟨hnone, hsome⟩ := FrameStream.of_drain (Happening.endsStream hs)
    (m.inlet.buffer ++ bytes)
  have hi := inputsBy_send bytes hopen
  generalize Decoder.frames.drain (m.inlet.buffer ++ bytes) = r at *
  rw [hi, inlet_heard, hopen, Bool.false_or] at hinlet
  rw [ReadsStream, inputs, List.filter_append, hi, filter_heard]
  cases he : r.error with
  | none =>
    rw [he] at hinlet
    obtain ⟨hrest, hmore⟩ := hnone he
    obtain ⟨fs, closing, hfs, hread⟩ := later (hinlet ▸ rfl) (hinlet ▸ hrest)
    rw [hinlet] at hfs
    have hstream := hmore hfs
    rw [List.append_assoc] at hstream
    exact ⟨r.items ++ fs, closing, hstream, by rw [hread]; simp⟩
  | some e =>
    rw [he] at hinlet
    have hstream := hsome e he (Happening.stream hs)
    rw [List.append_assoc] at hstream
    refine ⟨r.items, some e.fault, hstream, ?_⟩
    rw [filter_inputs_of_closed (hinlet ▸ rfl) hconnected, List.append_nil]
    rfl

/-- The stream ends. What is in the buffer then is a frame that has been cut off. -/
theorem ReadsStream.finish (hopen : m.inlet.isClosed = false)
    (hbuffer : Frame.split m.inlet.buffer = .ok none) (hconnected : ∀ id, .disconnect id ∉ hs) :
    m.ReadsStream (.finish :: hs) := by
  have hinlet := (changes_step m .finish).inlet
  have hi := inputsBy_finish hopen
  have hstream : m.inlet.buffer ++ Happening.stream (.finish :: hs) = m.inlet.buffer :=
    List.append_nil _
  rw [ReadsStream, inputs, List.filter_append, hstream]
  by_cases hempty : m.inlet.buffer = []
  · have hdrain : Decoder.frames.drainLast m.inlet.buffer = ⟨[], none, []⟩ := by
      rw [hempty]
      exact Decoder.drainLast_of_incomplete rfl
    rw [hi, hdrain] at hinlet
    refine ⟨[], _, by rw [hempty]; exact .ended rfl, ?_⟩
    rw [filter_inputs_of_closed (hinlet ▸ rfl) hconnected, hi, hdrain]
    rfl
  · have hdrain := Decoder.drainLast_of_failed (d := .frames)
      (Decoder.last_of_incomplete hbuffer hempty)
    rw [hi, hdrain] at hinlet
    refine ⟨[], _, .truncated rfl hempty hbuffer, ?_⟩
    rw [filter_inputs_of_closed (hinlet ▸ rfl) hconnected, hi, hdrain]
    rfl

variable {ds : List Deed} {o : Outcome} {c : Call}

/-- At a position of a trace, a call is in progress and has not been given a reply. -/
structure UnansweredAt (ds : List Deed) (n : Nat) (c : Call) : Prop where
  started : .start c ∈ ds.take n
  going : ∀ ending, .finish c ending ∉ ds.take n
  unanswered : ∀ reply, (deskAt ds n).outlook? c.serial ≠ some (.ready reply)

theorem UnansweredAt.mem_calls {n : Nat} (hc : UnansweredAt ds n c) (h : Tells (ds.take n) o) :
    c ∈ o.master.calls :=
  (h.mem_calls_or_finished hc.started).resolve_right fun ⟨ending, hf⟩ => hc.going ending hf

/-- Such a call waits for a response. -/
theorem UnansweredAt.waiting {n : Nat} (hc : UnansweredAt ds n c) (h : Tells (ds.take n) o)
    (hdesk : o.master.desk = deskAt ds n) :
    o.master.desk.table.entries[c.transaction]? = some (.pending c.serial) :=
  h.waiting (hc.mem_calls h) (hdesk ▸ hc.unanswered)

end Master

end Modbus
