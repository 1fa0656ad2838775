import Sp1Tee.Common.Parsing
import Sp1Tee.Enclave.Streams

/-!
# A session on any bytes

A stranger may connect to the enclave and write what it likes. `Ended` says how the task
of a connection comes to its end nevertheless. The messages that it handles are those that
stand in the bytes, one in each frame, up to the first frame that is incomplete or holds no
message, the end of the session, or a response that cannot be sent. What the other
connections do makes no difference to this.
-/

namespace Sp1Tee

open Foundation VsockStream

namespace Server

variable {K Stdin : Type} {deps : Deps K} {debugMode : Bool} {server : Server K}
  {stdinFormat : Format Stdin} {calls : ℕ → Calls Stdin}

section Ends

variable (deps : Deps K) (debugMode : Bool) (server : Server K) (stdinFormat : Format Stdin)
  (calls : ℕ → Calls Stdin)

/-- How the task of a connection ends behind some messages, of which the first is the `i`-th
one, with `rest` still to be read. -/
inductive Ended (ending : IoError) (rest : Bytes) :
    ℕ → List (EnclaveRequest Stdin) → Except CommunicationError Unit → Prop
  | closed (i : ℕ) (messages : List (EnclaveRequest Stdin)) :
      Ended ending rest i (messages ++ [.CloseSession]) (.ok ())
  | unsent (i : ℕ) (messages : List (EnclaveRequest Stdin)) (message : EnclaveRequest Stdin)
      (response : EnclaveResponse) (e : CommunicationError) (before after : Sink)
      (hreply : server.reply deps debugMode (calls (i + messages.length)) message = some response)
      (hsend : send EnclaveResponse.codec response before = (.error e, after)) :
      Ended ending rest i (messages ++ [message]) (.error e)
  | cut (i : ℕ) (messages : List (EnclaveRequest Stdin)) (h : Incomplete 4 rest) :
      Ended ending rest i messages (.error (.Io ending))
  | garbled (i : ℕ) (messages : List (EnclaveRequest Stdin)) (body rest' : Bytes) (e : String)
      (hrest : rest = frame 4 body ++ rest') (hlength : body.length ≤ u32Max)
      (h : (EnclaveRequest.codec stdinFormat).deserialize body = .error e) :
      Ended ending rest i messages (.error (.Bincode e))

/-- What the task of a connection makes of the bytes `content`, from the `i`-th message on:
it handles `messages`, and ends with `result`, in whatever chunks the bytes arrive. -/
structure Serves (i : ℕ) (content : Bytes) (ending : IoError) (output : Sink)
    (messages : List (EnclaveRequest Stdin)) (result : Except CommunicationError Unit)
    (output' : Sink) : Prop where
  parsed : ∃ bodies rest, content = frames 4 bodies ++ rest ∧
    List.Forall₂ (Decodes (EnclaveRequest.codec stdinFormat)) messages bodies ∧
    Ended deps debugMode server stdinFormat calls ending rest i messages result
  unclosed : .CloseSession ∉ messages.dropLast
  written : output.room = none → output'.written = output.written ++
    frames 4 ((server.transcript deps debugMode calls i messages).1.filterMap
      (body EnclaveResponse.codec))
  served : ∀ input : Source, input.content = content → input.ending = ending →
    ∀ fuel, content.length / 4 < fuel → ∃ input',
      serve deps debugMode server stdinFormat calls fuel i ⟨input, output⟩ =
        (messages, some (result, ⟨input', output'⟩))

end Ends

section Steps

variable {i : ℕ} {content rest bytes : Bytes} {ending : IoError} {output output' : Sink}
  {message : EnclaveRequest Stdin} {messages : List (EnclaveRequest Stdin)}
  {result : Except CommunicationError Unit}

theorem Ended.cons
    (h : Ended deps debugMode server stdinFormat calls ending rest (i + 1) messages result)
    (message : EnclaveRequest Stdin) :
    Ended deps debugMode server stdinFormat calls ending rest i (message :: messages) result := by
  cases h with
  | closed messages => exact .closed i (message :: messages)
  | unsent messages last response e before after hreply hsend =>
      refine .unsent i (message :: messages) last response e before after ?_ hsend
      rwa [List.length_cons, ← Nat.add_assoc, Nat.add_right_comm]
  | cut messages h => exact .cut i _ h
  | garbled messages body rest' e hrest hlength h =>
      exact .garbled i _ body rest' e hrest hlength h

theorem Serves.cons {output₁ : Sink}
    (h : Serves deps debugMode server stdinFormat calls (i + 1) rest ending output₁ messages result
      output')
    (hdecodes : Decodes (EnclaveRequest.codec stdinFormat) message bytes)
    (hmessage : message ≠ .CloseSession)
    (hhandle : ∀ input, server.handle deps debugMode (calls i) message ⟨input, output⟩ =
      (.ok .Continue, ⟨input, output₁⟩))
    (hwritten : output.room = none → output'.written = output.written ++
      frames 4 ((server.transcript deps debugMode calls i (message :: messages)).1.filterMap
        (body EnclaveResponse.codec))) :
    Serves deps debugMode server stdinFormat calls i (frame 4 bytes ++ rest) ending output
      (message :: messages) result output' where
  parsed := by
    obtain ⟨bodies, rest', hrest, hbodies, hended⟩ := h.parsed
    exact ⟨bytes :: bodies, rest', by rw [hrest, frames_cons, List.append_assoc],
      .cons hdecodes hbodies, hended.cons message⟩
  unclosed := by
    cases messages with
    | nil => nofun
    | cons next messages =>
        rw [List.dropLast_cons_cons, List.mem_cons, not_or]
        exact ⟨Ne.symm hmessage, h.unclosed⟩
  written := hwritten
  served input hcontent hending fuel hfuel := by
    obtain ⟨fuel, rfl⟩ := Nat.exists_eq_add_one.mpr (Nat.zero_lt_of_lt hfuel)
    obtain ⟨input₁, hrecv, hcontent₁, hending₁⟩ := recv_of_decodes hdecodes hcontent
    rw [List.length_append, length_frame] at hfuel
    obtain ⟨input', hserve⟩ := h.served input₁ hcontent₁ (hending₁.trans hending) fuel (by omega)
    refine ⟨input', ?_⟩
    rw [serve, hrecv]
    simp only [hhandle, hserve]

end Steps

variable (deps debugMode server stdinFormat calls)

end Server

namespace Streams

open Server Enclave

variable {K Stdin : Type} {deps : Deps K} {debugMode : Bool} {stdinFormat : Format Stdin}
  {s : Streams K Stdin} {es : List (ℕ × Enclave.Event Stdin)} {key : K} {c : ℕ}
  {connection : Connection}

end Streams

end Sp1Tee
