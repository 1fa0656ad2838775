import Sp1Tee.Common.Wire
import Sp1Tee.Foundation.Framing

/-!
# The message stream over vsock

`send` writes a message as one frame, the length in four bytes and the serialized
message behind it, and `recv` reads one frame and deserializes its body. A message
whose serialization has more than `u32Max` bytes is refused before anything is
written. So the receiver gets exactly the messages whose `send` succeeded,
however the transport splits the bytes and wherever it cuts them off.
-/

namespace Sp1Tee

open Foundation

inductive CommunicationError
  | Io (e : IoError)
  | Bincode (e : String)
  | MessageTooLarge
deriving DecidableEq

/-- The sending end of a stream: what has been written, how many more bytes the
transport takes (`none` when it does not fail), and how it fails after that. -/
structure Sink where
  written : Bytes
  room : Option ℕ
  failure : IoError

/-- Writes all of `bs`, or as much of it as the transport takes. -/
def Sink.writeAll (bs : Bytes) (sink : Sink) : Except IoError Unit × Sink :=
  match sink.room with
  | none => (.ok (), { sink with written := sink.written ++ bs })
  | some n =>
    if bs.length ≤ n then
      (.ok (), { sink with written := sink.written ++ bs, room := some (n - bs.length) })
    else
      (.error sink.failure, { sink with written := sink.written ++ bs.take n, room := some 0 })

def u32Max : ℕ := 4294967295

namespace VsockStream

variable {α : Type} (codec : Codec α)

def send (message : α) (sink : Sink) : Except CommunicationError Unit × Sink :=
  match codec.serialize message with
  | .error e => (.error (.Bincode e), sink)
  | .ok message_bytes =>
    if message_bytes.length > u32Max then
      (.error .MessageTooLarge, sink)
    else
      let message_len := beBytes 4 message_bytes.length
      match sink.writeAll message_len with
      | (.error e, sink) => (.error (.Io e), sink)
      | (.ok (), sink) =>
        match sink.writeAll message_bytes with
        | (.error e, sink) => (.error (.Io e), sink)
        | (.ok (), sink) => (.ok (), sink)

def recv (src : Source) : Except CommunicationError α × Source :=
  match src.readExact 4 with
  | (.error e, src) => (.error (.Io e), src)
  | (.ok message_len_buf, src) =>
    let message_len := ofBeBytes message_len_buf
    match src.readExact message_len with
    | (.error e, src) => (.error (.Io e), src)
    | (.ok message_buf, src) =>
      match codec.deserialize message_buf with
      | .error e => (.error (.Bincode e), src)
      | .ok message => (.ok message, src)

def sendAll : List α → Sink → List (Except CommunicationError Unit) × Sink
  | [], sink => ([], sink)
  | message :: messages, sink =>
    let (result, sink) := send codec message sink
    let (results, sink) := sendAll messages sink
    (result :: results, sink)

def succeeded (messages : List α) (results : List (Except CommunicationError Unit)) : List α :=
  ((messages.zip results).filter fun p => p.2.isOk).map Prod.fst

/-- The serialization of a message that a frame can carry. -/
def body (message : α) : Option Bytes :=
  match codec.serialize message with
  | .error _ => none
  | .ok bytes => if bytes.length > u32Max then none else some bytes

/-- The messages among `messages` whose frames lie within the first `k` bytes, if
the frames stand one behind the other. -/
def arrived : ℕ → List α → List α
  | _, [] => []
  | k, message :: messages =>
    match body codec message with
    | none => []
    | some bytes =>
      if 4 + bytes.length ≤ k then message :: arrived (k - (4 + bytes.length)) messages else []

variable {codec}

theorem body_eq_some_iff {message : α} {bytes : Bytes} :
    body codec message = some bytes ↔
      codec.serialize message = .ok bytes ∧ bytes.length ≤ u32Max := by
  rw [body]
  cases codec.serialize message with
  | error e => simp
  | ok bs =>
      by_cases hbs : bs.length > u32Max
      · simp only [if_pos hbs, Except.ok.injEq, reduceCtorEq, false_iff, not_and]
        rintro rfl
        exact Nat.not_le.mpr hbs
      · simp only [if_neg hbs, Option.some.injEq, Except.ok.injEq]
        constructor
        · rintro rfl
          exact ⟨rfl, Nat.not_lt.mp hbs⟩
        · exact fun h => h.1

theorem length_body_lt {message : α} {bytes : Bytes} (h : body codec message = some bytes) :
    bytes.length < 256 ^ 4 := by
  have hle := (body_eq_some_iff.mp h).2
  simp only [u32Max] at hle
  omega

theorem length_lt_of_mem_filterMap_body {messages : List α} {bytes : Bytes}
    (h : bytes ∈ messages.filterMap (body codec)) : bytes.length < 256 ^ 4 := by
  obtain ⟨message, -, hbody⟩ := List.mem_filterMap.mp h
  exact length_body_lt hbody

/-! ## Sending -/

theorem send_of_body {message : α} {bytes : Bytes} (h : body codec message = some bytes)
    {sink : Sink} (hsink : sink.room = none) :
    send codec message sink =
      (.ok (), { sink with written := sink.written ++ frame 4 bytes }) := by
  obtain ⟨hserialize, hlength⟩ := body_eq_some_iff.mp h
  rw [send, hserialize]
  simp only [if_neg (Nat.not_lt.mpr hlength), Sink.writeAll, hsink, frame, List.append_assoc]

theorem send_of_body_eq_none {message : α} (h : body codec message = none) (sink : Sink) :
    ∃ e, send codec message sink = (.error e, sink) := by
  rw [body] at h
  rw [send]
  cases hserialize : codec.serialize message with
  | error e => exact ⟨.Bincode e, rfl⟩
  | ok bytes =>
      rw [hserialize] at h
      by_cases hbytes : bytes.length > u32Max
      · exact ⟨.MessageTooLarge, if_pos hbytes⟩
      · simp only [if_neg hbytes, reduceCtorEq] at h

theorem send_of_too_large {message : α} {bytes : Bytes}
    (h : codec.serialize message = .ok bytes) (hbytes : u32Max < bytes.length) (sink : Sink) :
    send codec message sink = (.error .MessageTooLarge, sink) := by
  rw [send, h]
  exact if_pos hbytes

/-- On a healthy connection exactly the messages that a frame can carry are
written, in turn. -/
theorem sendAll_of_healthy (codec : Codec α) (messages : List α) {sink : Sink}
    (h : sink.room = none) :
    (sendAll codec messages sink).2.written =
        sink.written ++ frames 4 (messages.filterMap (body codec)) ∧
      succeeded messages (sendAll codec messages sink).1 =
        messages.filter fun m => (body codec m).isSome := by
  induction messages generalizing sink with
  | nil => simp [sendAll, succeeded, frames]
  | cons message messages ih =>
      cases hbody : body codec message with
      | none =>
          obtain ⟨e, hsend⟩ := send_of_body_eq_none hbody sink
          obtain ⟨hwritten, hsucceeded⟩ := ih h
          rw [sendAll, hsend, List.filterMap_cons_none hbody,
            List.filter_cons_of_neg (by simp [hbody])]
          exact ⟨hwritten, hsucceeded⟩
      | some bytes =>
          let sink' : Sink := { sink with written := sink.written ++ frame 4 bytes }
          obtain ⟨hwritten, hsucceeded⟩ := ih (show sink'.room = none from h)
          rw [sendAll, send_of_body hbody h, List.filterMap_cons_some hbody,
            List.filter_cons_of_pos (by simp [hbody]), frames_cons, ← List.append_assoc]
          exact ⟨hwritten, congrArg (message :: ·) hsucceeded⟩

/-! ## Receiving -/

/-- What `recv` makes of a frame. -/
def received (codec : Codec α) : Except IoError Bytes → Except CommunicationError α
  | .error e => .error (.Io e)
  | .ok bytes =>
    match codec.deserialize bytes with
    | .error e => .error (.Bincode e)
    | .ok message => .ok message

theorem recv_eq_received (codec : Codec α) :
    recv codec = fun src => (received codec (src.readFrame 4).1, (src.readFrame 4).2) := by
  funext src
  rw [recv, Source.readFrame]
  cases src.readExact 4 with
  | mk result src₁ =>
      cases result with
      | error e => rfl
      | ok message_len_buf =>
          simp only
          cases src₁.readExact (ofBeBytes message_len_buf) with
          | mk result src₂ =>
              cases result with
              | error e => rfl
              | ok message_buf =>
                  simp only [received]
                  cases codec.deserialize message_buf <;> rfl

/-- One frame is consumed, whether or not its body deserializes. -/
theorem recv_frame (codec : Codec α) {bytes rest : Bytes} (hbytes : bytes.length < 256 ^ 4)
    {src : Source} (h : src.content = frame 4 bytes ++ rest) :
    ∃ src', recv codec src = (received codec (.ok bytes), src') ∧ src'.content = rest ∧
      src'.ending = src.ending := by
  obtain ⟨src', hread, hcontent, hending⟩ := Source.readFrame_frame hbytes h
  refine ⟨src', ?_, hcontent, hending⟩
  rw [recv_eq_received]
  simp only [hread]

theorem map_received_bodies {messages : List α} (hround : ∀ m ∈ messages, codec.RoundTrip m) :
    (messages.filterMap (body codec)).map (fun bytes => received codec (.ok bytes)) =
      (messages.filter fun m => (body codec m).isSome).map .ok := by
  induction messages with
  | nil => rfl
  | cons message messages ih =>
      have htail := ih fun m hm => hround m (List.mem_cons_of_mem message hm)
      cases hbody : body codec message with
      | none =>
          rw [List.filterMap_cons_none hbody, List.filter_cons_of_neg (by simp [hbody]), htail]
      | some bytes =>
          have hreceived : received codec (.ok bytes) = .ok message := by
            rw [received, hround message List.mem_cons_self bytes
              (body_eq_some_iff.mp hbody).1]
          rw [List.filterMap_cons_some hbody, List.filter_cons_of_pos (by simp [hbody]),
            List.map_cons, List.map_cons, hreceived, htail]

theorem arrived_eq_take (codec : Codec α) (k : ℕ) (messages : List α) :
    arrived codec k (messages.filter fun m => (body codec m).isSome) =
      (messages.filter fun m => (body codec m).isSome).take
        (wholeFrames 4 k (messages.filterMap (body codec))) := by
  induction messages generalizing k with
  | nil => rfl
  | cons message messages ih =>
      cases hbody : body codec message with
      | none =>
          rw [List.filterMap_cons_none hbody, List.filter_cons_of_neg (by simp [hbody]), ih]
      | some bytes =>
          rw [List.filterMap_cons_some hbody, List.filter_cons_of_pos (by simp [hbody]),
            arrived, wholeFrames, hbody]
          by_cases hk : 4 + bytes.length ≤ k
          · simp only [if_pos hk, ih, List.take_succ_cons]
          · simp only [if_neg hk, List.take_zero]

/-- Receiving from a stream that was cut behind `k` bytes. -/
theorem repeated_recv_take (codec : Codec α) {messages : List α}
    (hround : ∀ m ∈ messages, codec.RoundTrip m) (k : ℕ) {src : Source}
    (h : src.content = (frames 4 (messages.filterMap (body codec))).take k) (n : ℕ) :
    let whole := arrived codec k (messages.filter fun m => (body codec m).isSome)
    (Source.repeated (recv codec) (whole.length + n) src).1 =
      whole.map .ok ++ List.replicate n (.error (.Io src.ending)) := by
  intro whole
  let bodies := (messages.filterMap (body codec)).take
    (wholeFrames 4 k (messages.filterMap (body codec)))
  have hmap : bodies.map (fun bytes => received codec (.ok bytes)) = whole.map .ok := by
    rw [List.map_take, map_received_bodies hround, ← List.map_take, ← arrived_eq_take]
  have hlength : whole.length = bodies.length := by
    have hlengths := congrArg List.length hmap
    rwa [List.length_map, List.length_map, eq_comm] at hlengths
  have hread := Source.repeated_readFrame_take (by decide) k
    (fun bytes hbytes => length_lt_of_mem_filterMap_body hbytes) h n
  rw [recv_eq_received, Source.repeated_map, hlength]
  simp only [bodies, hread, List.map_append, List.map_map, List.map_replicate]
  rw [← hmap]
  rfl

theorem repeated_recv_frames (codec : Codec α) {messages : List α}
    (hround : ∀ m ∈ messages, codec.RoundTrip m) {rest : Bytes} {src : Source}
    (h : src.content = frames 4 (messages.filterMap (body codec)) ++ rest) :
    let sent := messages.filter fun m => (body codec m).isSome
    ∃ src', Source.repeated (recv codec) sent.length src = (sent.map .ok, src') ∧
      src'.content = rest ∧ src'.ending = src.ending := by
  intro sent
  have hmap : (messages.filterMap (body codec)).map (fun bytes => received codec (.ok bytes)) =
      sent.map .ok := map_received_bodies hround
  have hlength : sent.length = (messages.filterMap (body codec)).length := by
    have hlengths := congrArg List.length hmap
    rwa [List.length_map, List.length_map, eq_comm] at hlengths
  obtain ⟨src', hread, hcontent, hending⟩ := Source.repeated_readFrame_frames
    (fun bytes hbytes => length_lt_of_mem_filterMap_body hbytes) h
  refine ⟨src', ?_, hcontent, hending⟩
  rw [recv_eq_received, Source.repeated_map, hlength, hread, List.map_map]
  exact congrArg (·, src') hmap

/-- On a healthy connection `send` succeeds unless the message is too large. The receiver
gets the messages whose `send` succeeded and nothing else: all of them if the stream arrives
whole, those whose frames arrived whole if it is cut, and an undecodable frame costs no
other. -/
theorem send_recv_roundTrip (codec : Codec α) (messages : List α)
    (hround : ∀ m ∈ messages, codec.RoundTrip m) (sink : Sink) (hhealthy : sink.room = none) :
    (∀ m bytes sink, codec.serialize m = .ok bytes → u32Max < bytes.length →
      send codec m sink = (.error .MessageTooLarge, sink)) ∧
    (∀ m bytes sink, codec.serialize m = .ok bytes → bytes.length ≤ u32Max → sink.room = none →
      send codec m sink = (.ok (), { sink with written := sink.written ++ frame 4 bytes })) ∧
    (∃ wire, (sendAll codec messages sink).2.written = sink.written ++ wire ∧
      let sent := succeeded messages (sendAll codec messages sink).1
      (∀ src : Source, src.content = wire →
        ∃ src', Source.repeated (recv codec) sent.length src = (sent.map .ok, src') ∧
          src'.content = []) ∧
      (∀ (k : ℕ) (src : Source), src.content = wire.take k → ∀ n : ℕ,
        (Source.repeated (recv codec) ((arrived codec k sent).length + n) src).1 =
          (arrived codec k sent).map .ok ++ List.replicate n (.error (.Io src.ending)))) ∧
    (∀ (bytes rest : Bytes) (e : String) (src : Source), bytes.length ≤ u32Max →
      codec.deserialize bytes = .error e → src.content = frame 4 bytes ++ rest →
      ∃ src', recv codec src = (.error (.Bincode e), src') ∧ src'.content = rest ∧
        src'.ending = src.ending) := by
  obtain ⟨hwritten, hsucceeded⟩ := sendAll_of_healthy codec messages hhealthy
  refine ⟨fun m bytes sink hm hbytes => send_of_too_large hm hbytes sink,
    fun m bytes sink hm hbytes => send_of_body (body_eq_some_iff.mpr ⟨hm, hbytes⟩),
    ⟨frames 4 (messages.filterMap (body codec)), hwritten, ?_, ?_⟩, ?_⟩
  · intro src hsrc
    rw [hsucceeded]
    obtain ⟨src', hread, hcontent, -⟩ := repeated_recv_frames codec hround
      (hsrc.trans (List.append_nil _).symm)
    exact ⟨src', hread, hcontent⟩
  · intro k src hsrc n
    rw [hsucceeded]
    exact repeated_recv_take codec hround k hsrc n
  · intro bytes rest e src hbytes hdeserialize hsrc
    obtain ⟨src', hread, hcontent, hending⟩ := recv_frame codec
      (show bytes.length < 256 ^ 4 by simp only [u32Max] at hbytes; omega) hsrc
    refine ⟨src', ?_, hcontent, hending⟩
    rw [hread, received, hdeserialize]

/-- Three requests in two chunks. -/
theorem send_recv_roundTrip_requests :
    let codec : Codec (EnclaveRequest Bytes) := EnclaveRequest.codec .vec
    let messages : List (EnclaveRequest Bytes) := [.Print "hello", .GetPublicKey, .CloseSession]
    let written := (sendAll codec messages ⟨[], none, .unexpectedEof⟩).2.written
    (Source.repeated (recv codec) 3 ⟨[written.take 5, written.drop 5], .unexpectedEof⟩).1 =
      messages.map .ok := by
  intro codec messages written
  have hround : ∀ m ∈ messages, codec.RoundTrip m := by
    intro m hm
    apply Codec.roundTrip_ofFormat
    simp only [messages, List.mem_cons, List.not_mem_nil, or_false] at hm
    rcases hm with rfl | rfl | rfl
    · exact Format.valid_string (by decide +kernel)
    · trivial
    · trivial
  obtain ⟨-, -, ⟨wire, hwire, hwhole, -⟩, -⟩ :=
    send_recv_roundTrip codec messages hround ⟨[], none, .unexpectedEof⟩ rfl
  have hcontent : Source.content ⟨[written.take 5, written.drop 5], .unexpectedEof⟩ = wire := by
    simp only [Source.content, List.flatten_cons, List.flatten_nil, List.append_nil,
      List.take_append_drop, written]
    exact hwire
  obtain ⟨src', hread, -⟩ := hwhole _ hcontent
  have hsent : succeeded messages (sendAll codec messages ⟨[], none, .unexpectedEof⟩).1 =
      messages := by decide +kernel
  rw [hsent] at hread
  exact congrArg Prod.fst hread

end VsockStream

end Sp1Tee
