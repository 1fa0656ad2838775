import Sp1Tee.Common.Communication
import Sp1Tee.Enclave.Server

/-!
# A session with the enclave

`handleConnection` serves one connection, message after message, over the byte
streams of the transport. The calls into the prover and the security module that
the `i`-th message leads to are given as `calls i`. Every receive and every send is
unwrapped, so an error ends the connection's task with a panic.

What is written is described without bytes by `transcript`. From it follows when
the responses pair up with the requests, as a host that pipelines requests relies
on: not if a debug build is asked to print, since the acknowledgement is then never
sent.
-/

namespace Sp1Tee

open Foundation VsockStream

/-- What the calls of one message come to: the number of its blocking task, and
the outcomes of the calls into the prover and the security module. -/
structure Calls (Stdin : Type) where
  task : TaskId
  prover : Prover Stdin
  nsm : Nsm

structure Connection where
  input : Source
  output : Sink

inductive ConnectionState
  | Continue
  | Close
deriving DecidableEq

namespace Server

section Connections

variable {K Stdin : Type} (deps : Deps K) (debugMode : Bool) (server : Server K)

def runJob (calls : Calls Stdin) : Job Stdin → Except Panic EnclaveResponse
  | .attestSigningKey => server.attestSigningKey deps calls.nsm
  | .execute stdin program cycle_limit =>
      server.execute deps calls.prover stdin program cycle_limit

def blockingResponse (calls : Calls Stdin) (job : Job Stdin) : EnclaveResponse :=
  joined deps job ((server.runJob deps calls job).mapError fun payload => ⟨calls.task, payload⟩)

/-- Sends a response and unwraps the result: an error is the panic's. -/
def sendUnwrap (response : EnclaveResponse) (connection : Connection) :
    Except CommunicationError ConnectionState × Connection :=
  let (result, output) := send EnclaveResponse.codec response connection.output
  (result.map fun () => .Continue, { connection with output := output })

def handle (calls : Calls Stdin) (message : EnclaveRequest Stdin) (connection : Connection) :
    Except CommunicationError ConnectionState × Connection :=
  match handleMessage deps debugMode server message with
  | .skip => (.ok .Continue, connection)
  | .send response => sendUnwrap response connection
  | .spawnBlocking job => sendUnwrap (server.blockingResponse deps calls job) connection
  | .close => (.ok .Close, connection)

variable (stdinFormat : Format Stdin) (calls : ℕ → Calls Stdin)

/-- The connection's task, from the `i`-th message on, or `none` if it takes more
than `fuel` messages. It ends by returning or with the error of an unwrap. -/
def handleConnection : ℕ → ℕ → Connection → Option (Except CommunicationError Unit × Connection)
  | 0, _, _ => none
  | fuel + 1, i, connection =>
    match recv (EnclaveRequest.codec stdinFormat) connection.input with
    | (.error e, input) => some (.error e, { connection with input := input })
    | (.ok message, input) =>
      match server.handle deps debugMode (calls i) message { connection with input := input } with
      | (.error e, connection) => some (.error e, connection)
      | (.ok .Continue, connection) => handleConnection fuel (i + 1) connection
      | (.ok .Close, connection) => some (.ok (), connection)

/-- The connection's task with the messages that it hands to the handler. -/
def serve : ℕ → ℕ → Connection →
    List (EnclaveRequest Stdin) × Option (Except CommunicationError Unit × Connection)
  | 0, _, _ => ([], none)
  | fuel + 1, i, connection =>
    match recv (EnclaveRequest.codec stdinFormat) connection.input with
    | (.error e, input) => ([], some (.error e, { connection with input := input }))
    | (.ok message, input) =>
      match server.handle deps debugMode (calls i) message { connection with input := input } with
      | (.error e, connection) => ([message], some (.error e, connection))
      | (.ok .Continue, connection) =>
        let (messages, outcome) := serve fuel (i + 1) connection
        (message :: messages, outcome)
      | (.ok .Close, connection) => ([message], some (.ok (), connection))

/-- The response that the handler sends for a message, if it sends one. -/
def reply (calls : Calls Stdin) (message : EnclaveRequest Stdin) : Option EnclaveResponse :=
  match handleMessage deps debugMode server message with
  | .send response => some response
  | .spawnBlocking job => some (server.blockingResponse deps calls job)
  | .skip => none
  | .close => none

/-- The responses to some messages, and whether the session outlives them. It ends
with the first response that no frame can carry. -/
def transcript : ℕ → List (EnclaveRequest Stdin) → List EnclaveResponse × Bool
  | _, [] => ([], true)
  | i, message :: messages =>
    match server.reply deps debugMode (calls i) message with
    | none => transcript (i + 1) messages
    | some response =>
      match body EnclaveResponse.codec response with
      | none => ([], false)
      | some _ =>
        let (responses, closed) := transcript (i + 1) messages
        (response :: responses, closed)

section Transcript

variable {deps debugMode server stdinFormat calls}

theorem handle_of_reply_eq_none {message : EnclaveRequest Stdin}
    (hmessage : message ≠ .CloseSession) {c : Calls Stdin}
    (h : server.reply deps debugMode c message = none)
    (connection : Connection) :
    server.handle deps debugMode c message connection = (.ok .Continue, connection) := by
  rw [reply] at h
  rw [handle]
  cases message with
  | Print text =>
      cases debugMode with
      | false => cases h
      | true => rfl
  | CloseSession => exact absurd rfl hmessage
  | _ => cases h

theorem handle_of_reply_eq_some {message : EnclaveRequest Stdin} {c : Calls Stdin}
    {response : EnclaveResponse} (h : server.reply deps debugMode c message = some response)
    (connection : Connection) :
    server.handle deps debugMode c message connection = sendUnwrap response connection := by
  rw [reply] at h
  rw [handle]
  cases hmessage : handleMessage deps debugMode server message with
  | skip => simp [hmessage] at h
  | close => simp [hmessage] at h
  | send r =>
      rw [hmessage] at h
      rw [Option.some.inj h]
  | spawnBlocking job =>
      rw [hmessage] at h
      rw [← Option.some.inj h]

theorem sendUnwrap_of_body {response : EnclaveResponse} {bytes : Bytes}
    (h : body EnclaveResponse.codec response = some bytes) (connection : Connection)
    (hhealthy : connection.output.room = none) :
    sendUnwrap response connection =
      (.ok .Continue,
        { connection with
          output :=
            { connection.output with
              written := connection.output.written ++ frame 4 bytes } }) := by
  rw [sendUnwrap, send_of_body h hhealthy]
  rfl

theorem sendUnwrap_of_body_eq_none {response : EnclaveResponse}
    (h : body EnclaveResponse.codec response = none) (connection : Connection) :
    ∃ e, sendUnwrap response connection = (.error e, connection) := by
  obtain ⟨e, hsend⟩ := send_of_body_eq_none h connection.output
  exact ⟨e, by rw [sendUnwrap, hsend]; rfl⟩

/-- The requests as they stand on the wire, in front of whatever follows. -/
def Pipelined (stdinFormat : Format Stdin) (messages : List (EnclaveRequest Stdin))
    (rest content : Bytes) : Prop :=
  (∀ message ∈ messages, message.Valid stdinFormat ∧
    (body (EnclaveRequest.codec stdinFormat) message).isSome) ∧
  content = frames 4 (messages.filterMap (body (EnclaveRequest.codec stdinFormat))) ++ rest

theorem recv_of_pipelined {message : EnclaveRequest Stdin} {messages : List (EnclaveRequest Stdin)}
    {rest : Bytes} {input : Source}
    (h : Pipelined stdinFormat (message :: messages) rest input.content) :
    ∃ input', recv (EnclaveRequest.codec stdinFormat) input = (.ok message, input') ∧
      Pipelined stdinFormat messages rest input'.content := by
  obtain ⟨hmessages, hcontent⟩ := h
  obtain ⟨hvalid, hbody⟩ := hmessages message List.mem_cons_self
  obtain ⟨bytes, hbytes⟩ := Option.isSome_iff_exists.mp hbody
  rw [List.filterMap_cons_some hbytes, frames_cons, List.append_assoc] at hcontent
  obtain ⟨input', hrecv, hrest, -⟩ := recv_frame (EnclaveRequest.codec stdinFormat)
    (length_body_lt hbytes) hcontent
  have hdeserialize : (EnclaveRequest.codec stdinFormat).deserialize bytes = .ok message :=
    Codec.roundTrip_ofFormat hvalid bytes (body_eq_some_iff.mp hbytes).1
  refine ⟨input', ?_, fun m hm => hmessages m (List.mem_cons_of_mem message hm), hrest⟩
  rw [hrecv, received, hdeserialize]

theorem handleConnection_of_continue {message : EnclaveRequest Stdin} {input : Source}
    {connection connection' : Connection} {i n : ℕ}
    {outcome : Except CommunicationError Unit × Connection}
    (hrecv : recv (EnclaveRequest.codec stdinFormat) connection.input = (.ok message, input))
    (hhandle : server.handle deps debugMode (calls i) message { connection with input := input } =
      (.ok .Continue, connection'))
    (hrun : ∀ fuel, n < fuel →
      handleConnection deps debugMode server stdinFormat calls fuel (i + 1) connection' =
        some outcome)
    {fuel : ℕ} (hfuel : n + 1 < fuel) :
    handleConnection deps debugMode server stdinFormat calls fuel i connection =
      some outcome := by
  obtain ⟨fuel, rfl⟩ := Nat.exists_eq_add_one_of_ne_zero (Nat.ne_of_gt (Nat.zero_lt_of_lt hfuel))
  rw [handleConnection, hrecv]
  simp only [hhandle]
  exact hrun fuel (Nat.lt_of_succ_lt_succ hfuel)

theorem handleConnection_of_error {message : EnclaveRequest Stdin} {input : Source}
    {connection connection' : Connection} {i : ℕ} {e : CommunicationError}
    (hrecv : recv (EnclaveRequest.codec stdinFormat) connection.input = (.ok message, input))
    (hhandle : server.handle deps debugMode (calls i) message { connection with input := input } =
      (.error e, connection'))
    {fuel : ℕ} (hfuel : 0 < fuel) :
    handleConnection deps debugMode server stdinFormat calls fuel i connection =
      some (.error e, connection') := by
  obtain ⟨fuel, rfl⟩ := Nat.exists_eq_add_one_of_ne_zero (Nat.ne_of_gt hfuel)
  rw [handleConnection, hrecv]
  simp only [hhandle]

variable (deps debugMode server calls)

/-- A session writes the frames of its transcript and ends as the transcript
says. -/
theorem handleConnection_transcript {messages : List (EnclaveRequest Stdin)}
    (hclose : .CloseSession ∉ messages) (i : ℕ) (connection : Connection) {rest : Bytes}
    (hinput : Pipelined stdinFormat (messages ++ [.CloseSession]) rest connection.input.content)
    (hhealthy : connection.output.room = none) :
    ∃ result connection',
      (∀ fuel, messages.length < fuel →
        handleConnection deps debugMode server stdinFormat calls fuel i connection =
          some (result, connection')) ∧
      result.isOk = (server.transcript deps debugMode calls i messages).2 ∧
      connection'.output.written = connection.output.written ++
        frames 4 ((server.transcript deps debugMode calls i messages).1.filterMap
          (body EnclaveResponse.codec)) := by
  induction messages generalizing i connection with
  | nil =>
      obtain ⟨input', hrecv, -⟩ := recv_of_pipelined hinput
      refine ⟨.ok (), { connection with input := input' }, fun fuel hfuel => ?_, rfl, ?_⟩
      · obtain ⟨fuel, rfl⟩ := Nat.exists_eq_add_one_of_ne_zero (Nat.ne_of_gt hfuel)
        rw [handleConnection, hrecv]
        rfl
      · simp [transcript, frames]
  | cons message messages ih =>
      rw [List.mem_cons, not_or] at hclose
      obtain ⟨hmessage, hmessages⟩ := hclose
      obtain ⟨input', hrecv, hinput'⟩ := recv_of_pipelined hinput
      cases hreply : server.reply deps debugMode (calls i) message with
      | none =>
          -- a debug print: the output stays as it is
          obtain ⟨result, connection', hrun, hresult, hwritten⟩ :=
            ih hmessages (i + 1) { connection with input := input' } hinput' hhealthy
          refine ⟨result, connection', fun fuel hfuel => ?_, ?_, ?_⟩
          · exact handleConnection_of_continue hrecv
              (handle_of_reply_eq_none (Ne.symm hmessage) hreply _) hrun hfuel
          · rw [transcript, hreply]
            exact hresult
          · rw [transcript, hreply]
            exact hwritten
      | some response =>
          cases hbody : body EnclaveResponse.codec response with
          | none =>
              obtain ⟨e, hsend⟩ :=
                sendUnwrap_of_body_eq_none hbody { connection with input := input' }
              refine ⟨.error e, { connection with input := input' }, fun fuel hfuel => ?_, ?_, ?_⟩
              · exact handleConnection_of_error hrecv
                  ((handle_of_reply_eq_some hreply _).trans hsend) (Nat.zero_lt_of_lt hfuel)
              · simp only [transcript, hreply, hbody]
                rfl
              · simp [transcript, hreply, hbody, frames]
          | some bytes =>
              let sent : Connection :=
                { input := input'
                  output :=
                    { connection.output with
                      written := connection.output.written ++ frame 4 bytes } }
              obtain ⟨result, connection', hrun, hresult, hwritten⟩ :=
                ih hmessages (i + 1) sent hinput' hhealthy
              refine ⟨result, connection', fun fuel hfuel => ?_, ?_, ?_⟩
              · exact handleConnection_of_continue hrecv
                  ((handle_of_reply_eq_some hreply _).trans
                    (sendUnwrap_of_body hbody _ hhealthy)) hrun hfuel
              · simp only [transcript, hreply, hbody]
                exact hresult
              · simp only [transcript, hreply, hbody]
                rw [hwritten, List.filterMap_cons_some hbody, frames_cons, ← List.append_assoc]

end Transcript

/-! ## When the responses pair up with the requests -/

section Pairing

variable {deps debugMode server stdinFormat calls}

/-- The session returns, and what it has written is one frame for each message,
carrying a response that answers it. -/
def Paired (messages : List (EnclaveRequest Stdin)) (connection : Connection)
    (outcome : Except CommunicationError Unit × Connection) : Prop :=
  outcome.1 = .ok () ∧ ∃ responses : List EnclaveResponse,
    outcome.2.output.written = connection.output.written ++
      frames 4 (responses.filterMap (body EnclaveResponse.codec)) ∧
    (∀ response ∈ responses, (body EnclaveResponse.codec response).isSome) ∧
    List.Forall₂ Answers messages responses

/-- A text fits the frame of an error: 4 bytes number the variant and 8 are a length. -/
def TextFits (text : String) : Prop := 12 + text.utf8ByteSize ≤ u32Max

instance (text : String) : Decidable (TextFits text) := inferInstanceAs (Decidable (_ ≤ _))

/-- What the security module and the prover give for a message fits the frame of its
response. -/
def OutcomeFits (deps : Deps K) (server : Server K) (c : Calls Stdin) :
    EnclaveRequest Stdin → Prop
  | .AttestSigningKey =>
      0 ≤ c.nsm.init →
        match c.nsm.processRequest (server.attestationRequest deps) with
        | .ok (.Attestation document) => 12 + document.length ≤ u32Max
        | .ok .other => True
        | .error payload =>
            TextFits ("Join error when attesting signing key: " ++
              deps.joinErrorDebug ⟨c.task, payload⟩)
  | .Execute stdin program cycle_limit =>
      cycle_limit ≤ MAX_ALLOWED_CYCLES →
        match c.prover.setup program with
        | .ok vk =>
          match c.prover.run program stdin cycle_limit with
          | .ok (.ok public_values) =>
              (deps.signDigestRecoverable server.signing_key
                (digest deps vk public_values)).isSome → 109 + public_values.length ≤ u32Max
          | .ok (.error e) => TextFits ("Failed to execute program: " ++ e)
          | .error payload =>
              TextFits ("Join error when executing program: " ++
                deps.joinErrorDisplay ⟨c.task, payload⟩)
        | .error payload =>
            TextFits ("Join error when executing program: " ++
              deps.joinErrorDisplay ⟨c.task, payload⟩)
  | _ => True

theorem answers_blockingResponse_attest (c : Calls Stdin) :
    Answers (.AttestSigningKey : EnclaveRequest Stdin)
      (server.blockingResponse deps c .attestSigningKey) := by
  rw [blockingResponse, runJob, attestSigningKey]
  split
  · exact .attestationError _
  · simp only [bind, Except.bind]
    generalize c.nsm.processRequest _ = result
    cases result with
    | error payload => exact .attestationError _
    | ok response =>
        cases response with
        | Attestation document => exact .attestation document
        | other => exact .attestationError _

theorem answers_blockingResponse_execute (c : Calls Stdin) (stdin : Stdin) (program : Bytes)
    (cycle_limit : UInt64) :
    Answers (.Execute stdin program cycle_limit)
      (server.blockingResponse deps c (.execute stdin program cycle_limit)) := by
  rw [blockingResponse, runJob, execute]
  split
  · exact .executeError _ _ _ _
  · cases c.prover.setup program with
    | error payload => exact .executeError _ _ _ _
    | ok vk =>
        simp only [bind, Except.bind]
        cases c.prover.run program stdin cycle_limit with
        | error payload => exact .executeError _ _ _ _
        | ok result =>
            cases result with
            | error e => exact .executeError _ _ _ _
            | ok public_values =>
                simp only [signPublicValues]
                cases deps.signDigestRecoverable server.signing_key
                  (digest deps vk public_values) with
                | none => exact .executeError _ _ _ _
                | some r => exact .signed _ _ _ _ _ _ _

theorem answers_of_reply {message : EnclaveRequest Stdin} {c : Calls Stdin}
    {response : EnclaveResponse} (h : server.reply deps debugMode c message = some response) :
    Answers message response := by
  rw [reply] at h
  cases message with
  | Print text =>
      cases debugMode with
      | false =>
          cases h
          exact .ack text
      | true => cases h
  | GetPublicKey =>
      cases h
      exact .publicKey _
  | GetEncryptedSigningKey =>
      cases h
      exact .getEncryptedSigningKey _
  | AttestSigningKey =>
      cases h
      exact answers_blockingResponse_attest c
  | Execute stdin program cycle_limit =>
      cases h
      exact answers_blockingResponse_execute c stdin program cycle_limit
  | SetSigningKey ciphertext =>
      cases h
      exact .setSigningKey ciphertext _
  | CloseSession => cases h

theorem reply_eq_none_iff {message : EnclaveRequest Stdin} {c : Calls Stdin} :
    server.reply deps debugMode c message = none ↔
      (debugMode = true ∧ ∃ text, message = .Print text) ∨ message = .CloseSession := by
  cases message with
  | Print text => cases debugMode <;> simp [reply, handleMessage]
  | _ => simp [reply, handleMessage]

theorem body_isSome_iff {response : EnclaveResponse} :
    (body EnclaveResponse.codec response).isSome ↔
      (EnclaveResponse.format.encode response).length ≤ u32Max := by
  rw [Option.isSome_iff_exists]
  constructor
  · rintro ⟨bytes, hbytes⟩
    obtain ⟨hserialize, hlength⟩ := body_eq_some_iff.mp hbytes
    cases hserialize
    exact hlength
  · exact fun h => ⟨_, body_eq_some_iff.mpr ⟨rfl, h⟩⟩

theorem body_error_isSome_iff {text : String} :
    (body EnclaveResponse.codec (.Error text)).isSome ↔ TextFits text := by
  rw [body_isSome_iff, EnclaveResponse.length_encode, EnclaveResponse.payload,
    Format.length_encode_string, TextFits, ← Nat.add_assoc]

theorem body_attestation_isSome_iff {document : Bytes} :
    (body EnclaveResponse.codec (.SigningKeyAttestation document)).isSome ↔
      12 + document.length ≤ u32Max := by
  rw [body_isSome_iff, EnclaveResponse.length_encode, EnclaveResponse.payload,
    Format.length_encode_vec, ← Nat.add_assoc]

theorem body_signed_isSome_iff {vkey : Bytes32} {public_values : Bytes} {signature : Signature}
    {recovery_id : UInt8} :
    (body EnclaveResponse.codec
        (.SignedPublicValues vkey public_values signature recovery_id)).isSome ↔
      109 + public_values.length ≤ u32Max := by
  have hlength : (EnclaveResponse.payload
      (.SignedPublicValues vkey public_values signature recovery_id)).length =
      105 + public_values.length := by
    simp only [EnclaveResponse.payload, EnclaveResponse.signedFormat, Format.encode_pair,
      List.length_append, Format.length_encode_vec]
    simp [Format.fixed, signatureFormat, Format.recognize, Format.pair, Format.uint8, Format.le]
    omega
  rw [body_isSome_iff, EnclaveResponse.length_encode, hlength, ← Nat.add_assoc]

theorem textFits_cycleLimit (cycle_limit : UInt64) :
    TextFits ("Cycle limit is too high: " ++ toString cycle_limit ++ ", max: " ++
      toString MAX_ALLOWED_CYCLES) := by
  have hdigits : (Nat.toDigits 10 cycle_limit.toNat).length ≤ 20 := by
    rw [Nat.length_toDigits_le_iff (by decide) (by decide)]
    exact cycle_limit.toNat_lt.trans (by decide)
  have hlimit : (toString cycle_limit).utf8ByteSize ≤ 80 := by
    have hrepr : toString cycle_limit = cycle_limit.toNat.repr := rfl
    rw [hrepr, Nat.repr_eq_ofList_toDigits]
    exact (Format.utf8ByteSize_ofList_le _).trans (Nat.mul_le_mul_left 4 hdigits)
  have hfixed : "Cycle limit is too high: ".utf8ByteSize + ", max: ".utf8ByteSize +
      (toString MAX_ALLOWED_CYCLES).utf8ByteSize = 42 := by decide +kernel
  rw [TextFits, String.utf8ByteSize_append, String.utf8ByteSize_append,
    String.utf8ByteSize_append, u32Max]
  omega

theorem body_attest_isSome_iff {c : Calls Stdin} :
    (body EnclaveResponse.codec (server.blockingResponse deps c .attestSigningKey)).isSome ↔
      OutcomeFits deps server c .AttestSigningKey := by
  rw [blockingResponse, runJob, attestSigningKey, OutcomeFits]
  by_cases hinit : c.nsm.init < 0
  · rw [if_pos hinit]
    exact iff_of_true (body_error_isSome_iff.mpr (by decide +kernel))
      fun h => absurd hinit (not_lt.mpr h)
  · rw [if_neg hinit, forall_prop_of_true (not_lt.mp hinit)]
    cases c.nsm.processRequest (server.attestationRequest deps) with
    | error payload => exact body_error_isSome_iff
    | ok response =>
        cases response with
        | Attestation document => exact body_attestation_isSome_iff
        | other => exact iff_of_true (body_error_isSome_iff.mpr (by decide +kernel)) trivial

theorem body_execute_isSome_iff {c : Calls Stdin} {stdin : Stdin} {program : Bytes}
    {cycle_limit : UInt64} :
    (body EnclaveResponse.codec
        (server.blockingResponse deps c (.execute stdin program cycle_limit))).isSome ↔
      OutcomeFits deps server c (.Execute stdin program cycle_limit) := by
  rw [blockingResponse, runJob, OutcomeFits]
  by_cases hlimit : cycle_limit ≤ MAX_ALLOWED_CYCLES
  · rw [forall_prop_of_true hlimit]
    cases hsetup : c.prover.setup program with
    | error payload =>
        rw [execute_of_setup_error deps hlimit hsetup]
        exact body_error_isSome_iff
    | ok vk =>
        cases hrun : c.prover.run program stdin cycle_limit with
        | error payload =>
            rw [execute_of_run_error deps hlimit hsetup hrun]
            exact body_error_isSome_iff
        | ok result =>
            cases result with
            | error e =>
                rw [execute_of_failed deps hlimit hsetup hrun]
                exact body_error_isSome_iff
            | ok public_values =>
                rw [execute_of_succeeded deps hlimit hsetup hrun, signPublicValues]
                cases hsign : deps.signDigestRecoverable server.signing_key
                    (digest deps vk public_values) with
                | none =>
                    refine iff_of_true (body_error_isSome_iff.mpr (by decide +kernel)) fun h => ?_
                    rw [hsign] at h
                    cases h
                | some r =>
                    have hsigned : (deps.signDigestRecoverable server.signing_key
                        (digest deps vk public_values)).isSome := by rw [hsign]; rfl
                    exact body_signed_isSome_iff.trans ⟨fun h _ => h, fun h => h hsigned⟩
  · rw [execute_of_lt deps (UInt64.not_le.mp hlimit)]
    exact iff_of_true (body_error_isSome_iff.mpr (textFits_cycleLimit cycle_limit))
      fun h => absurd h hlimit

theorem body_reply_isSome_iff {message : EnclaveRequest Stdin} {c : Calls Stdin}
    {response : EnclaveResponse} (h : server.reply deps debugMode c message = some response) :
    (body EnclaveResponse.codec response).isSome ↔ OutcomeFits deps server c message := by
  have hfixed : ∀ r : EnclaveResponse, (EnclaveResponse.format.encode r).length ≤ u32Max →
      ((body EnclaveResponse.codec r).isSome ↔ True) :=
    fun r hr => iff_true_intro (body_isSome_iff.mpr hr)
  rw [reply] at h
  cases message with
  | Print text =>
      cases debugMode with
      | false =>
          cases h
          exact hfixed _ (by decide)
      | true => cases h
  | GetPublicKey =>
      cases h
      refine hfixed _ ?_
      simp [EnclaveResponse.format, Format.tagged, EnclaveResponse.payload, EncodedPoint.format,
        Format.recognize, Format.vec, getPublicKey, EncodedPoint.ofPublicKey, EncodedPoint.asBytes,
        u32Max]
  | GetEncryptedSigningKey =>
      cases h
      exact hfixed _ (by decide +kernel)
  | AttestSigningKey =>
      cases h
      exact body_attest_isSome_iff
  | Execute stdin program cycle_limit =>
      cases h
      exact body_execute_isSome_iff
  | SetSigningKey ciphertext =>
      cases h
      exact hfixed _ (by decide +kernel)
  | CloseSession => cases h

variable (deps debugMode server calls) in
/-- The responses of a transcript are replies that fit their frames, at most as many
as the messages; they are as many and the session goes on exactly if every message
has a reply that fits, and then they are these replies. -/
theorem transcript_spec (i : ℕ) (messages : List (EnclaveRequest Stdin)) :
    let t := server.transcript deps debugMode calls i messages
    (∀ response ∈ t.1, (body EnclaveResponse.codec response).isSome ∧
        ∃ (c : Calls Stdin) (message : EnclaveRequest Stdin),
          server.reply deps debugMode c message = some response) ∧
      t.1.length ≤ messages.length ∧
      ((∀ (j : ℕ) (h : j < messages.length), ∃ response,
          server.reply deps debugMode (calls (i + j)) messages[j] = some response ∧
            (body EnclaveResponse.codec response).isSome) ↔
        t.2 = true ∧ t.1.length = messages.length) ∧
      (t.2 = true → t.1.length = messages.length →
        List.Forall₂ (fun message response =>
          ∃ c, server.reply deps debugMode c message = some response) messages t.1) := by
  induction messages generalizing i with
  | nil => simp [transcript]
  | cons message messages ih =>
      obtain ⟨hfits, hlength, hiff, hreplies⟩ := ih (i + 1)
      have hsplit : (∀ (j : ℕ) (h : j < (message :: messages).length), ∃ response,
          server.reply deps debugMode (calls (i + j)) (message :: messages)[j] = some response ∧
            (body EnclaveResponse.codec response).isSome) ↔
          (∃ response, server.reply deps debugMode (calls i) message = some response ∧
            (body EnclaveResponse.codec response).isSome) ∧
          ∀ (j : ℕ) (h : j < messages.length), ∃ response,
            server.reply deps debugMode (calls (i + 1 + j)) messages[j] = some response ∧
              (body EnclaveResponse.codec response).isSome := by
        refine Nat.forall_lt_succ_left'.trans (and_congr_right fun _ => forall₂_congr fun j _ => ?_)
        rw [show i + (j + 1) = i + 1 + j by omega]
        rfl
      simp only [hsplit, transcript]
      cases hreply : server.reply deps debugMode (calls i) message with
      | none =>
          refine ⟨hfits, Nat.le_succ_of_le hlength, ?_, ?_⟩
          · simp only [reduceCtorEq, false_and, exists_false, false_iff, List.length_cons, not_and]
            exact fun _ => Nat.ne_of_lt (Nat.lt_succ_of_le hlength)
          · intro _ h
            exact absurd h (Nat.ne_of_lt (Nat.lt_succ_of_le hlength))
      | some response =>
          simp only [Option.some.injEq, exists_eq_left']
          cases hbody : body EnclaveResponse.codec response with
          | none => simp
          | some bytes =>
              refine ⟨List.forall_mem_cons.mpr ⟨⟨by simp [hbody], _, _, hreply⟩, hfits⟩,
                Nat.succ_le_succ hlength, ?_, ?_⟩
              · simp only [Option.isSome_some, true_and, hiff, List.length_cons,
                  Nat.add_right_cancel_iff]
              · intro hclosed h
                exact .cons ⟨_, hreply⟩ (hreplies hclosed (Nat.succ.inj h))

/-- Every message has a reply that fits exactly if no debug build is asked to print,
and what the blocking tasks return fits. -/
theorem replies_fit_iff {messages : List (EnclaveRequest Stdin)}
    (hclose : .CloseSession ∉ messages) :
    (∀ (i : ℕ) (h : i < messages.length), ∃ response,
        server.reply deps debugMode (calls i) messages[i] = some response ∧
          (body EnclaveResponse.codec response).isSome) ↔
      (debugMode = false ∨ ∀ text, .Print text ∉ messages) ∧
        ∀ (i : ℕ) (h : i < messages.length), OutcomeFits deps server (calls i) messages[i] := by
  constructor
  · intro hall
    refine ⟨?_, fun i hi => ?_⟩
    · rw [or_iff_not_imp_left, Bool.not_eq_false]
      intro hdebug text htext
      obtain ⟨i, hi, hget⟩ := List.getElem_of_mem htext
      obtain ⟨response, hreply, -⟩ := hall i hi
      rw [reply_eq_none_iff.mpr (Or.inl ⟨hdebug, text, hget⟩)] at hreply
      cases hreply
    · obtain ⟨response, hreply, hbody⟩ := hall i hi
      exact (body_reply_isSome_iff hreply).mp hbody
  · rintro ⟨hdebug, houtcome⟩ i hi
    cases hreply : server.reply deps debugMode (calls i) messages[i] with
    | none =>
        rcases reply_eq_none_iff.mp hreply with ⟨rfl, text, htext⟩ | hmessage
        · exact absurd (htext ▸ List.getElem_mem hi) (hdebug.resolve_left (by simp) text)
        · exact absurd (hmessage ▸ List.getElem_mem hi) hclose
    | some response =>
        exact ⟨response, rfl, (body_reply_isSome_iff hreply).mpr (houtcome i hi)⟩

theorem transcript_of_paired {messages : List (EnclaveRequest Stdin)} {connection : Connection}
    {outcome : Except CommunicationError Unit × Connection} {t : List EnclaveResponse × Bool}
    (hfits : ∀ response ∈ t.1, (body EnclaveResponse.codec response).isSome)
    (hresult : outcome.1.isOk = t.2)
    (hwritten : outcome.2.output.written = connection.output.written ++
      frames 4 (t.1.filterMap (body EnclaveResponse.codec)))
    (h : Paired messages connection outcome) : t.2 = true ∧ t.1.length = messages.length := by
  obtain ⟨hok, responses, hwritten', hfits', hanswers⟩ := h
  have hbodies : t.1.filterMap (body EnclaveResponse.codec) =
      responses.filterMap (body EnclaveResponse.codec) :=
    frames_inj (by decide) (fun _ h => length_lt_of_mem_filterMap_body h)
      (fun _ h => length_lt_of_mem_filterMap_body h)
      (List.append_cancel_left (hwritten.symm.trans hwritten'))
  refine ⟨by rw [← hresult, hok]; rfl, ?_⟩
  rw [← List.filterMap_length_eq_length.mpr hfits, hbodies,
    List.filterMap_length_eq_length.mpr hfits', hanswers.length_eq]

theorem sign_of_reply {message : EnclaveRequest Stdin} {c : Calls Stdin} {vkey : Bytes32}
    {public_values : Bytes} {signature : Signature} {recovery_id : UInt8}
    (h : server.reply deps debugMode c message =
      some (.SignedPublicValues vkey public_values signature recovery_id)) :
    deps.signDigestRecoverable server.signing_key (digest deps vkey public_values) =
      some (signature, recovery_id) := by
  have hanswers := answers_of_reply h
  cases hanswers with
  | signed stdin program cycle_limit =>
      have hresponse : server.blockingResponse deps c (.execute stdin program cycle_limit) =
          .SignedPublicValues vkey public_values signature recovery_id := Option.some.inj h
      rw [blockingResponse, runJob] at hresponse
      cases hexecute : server.execute deps c.prover stdin program cycle_limit with
      | error payload =>
          rw [hexecute] at hresponse
          cases hresponse
      | ok response =>
          rw [hexecute] at hresponse
          obtain rfl : response = _ := hresponse
          exact (execute_eq_signed_iff deps).mp hexecute |>.2.2.2

theorem roundTrip_reply (hsign : ∀ key digest signature recovery_id,
      deps.signDigestRecoverable key digest = some (signature, recovery_id) →
        signatureInRange signature)
    {message : EnclaveRequest Stdin} {c : Calls Stdin} {response : EnclaveResponse}
    (h : server.reply deps debugMode c message = some response)
    (hfits : (body EnclaveResponse.codec response).isSome) :
    EnclaveResponse.codec.RoundTrip response := by
  have hlength := body_isSome_iff.mp hfits
  rw [u32Max] at hlength
  refine Codec.roundTrip_ofFormat (EnclaveResponse.valid_of_length_lt (by omega) ?_)
  rintro vkey public_values signature recovery_id rfl
  exact hsign _ _ _ _ (sign_of_reply h)

end Pairing

/-- The responses pair up with the requests exactly if the build is not a debug
build that is asked to print, and what the blocking tasks return can be carried by
a frame. A host then reads one answer for each request it has pipelined. -/
theorem handleConnection_paired_iff {messages : List (EnclaveRequest Stdin)}
    (hclose : .CloseSession ∉ messages) (connection : Connection) (rest : Bytes)
    (hinput : Pipelined stdinFormat (messages ++ [.CloseSession]) rest connection.input.content)
    (hhealthy : connection.output.room = none) :
    ∃ outcome : Except CommunicationError Unit × Connection,
      (∀ fuel, messages.length < fuel →
        handleConnection deps debugMode server stdinFormat calls fuel 0 connection =
          some outcome) ∧
      (Paired messages connection outcome ↔
        (debugMode = false ∨ ∀ text, .Print text ∉ messages) ∧
          ∀ (i : ℕ) (h : i < messages.length), OutcomeFits deps server (calls i) messages[i]) ∧
      (Paired messages connection outcome →
        (∀ key digest signature recovery_id,
          deps.signDigestRecoverable key digest = some (signature, recovery_id) →
            signatureInRange signature) →
        ∀ host : Source,
          connection.output.written ++ host.content = outcome.2.output.written →
          ∃ responses,
            (Source.repeated (recv EnclaveResponse.codec) messages.length host).1 =
              responses.map .ok ∧
            List.Forall₂ Answers messages responses) := by
  obtain ⟨result, connection', hrun, hresult, hwritten⟩ :=
    handleConnection_transcript deps debugMode server calls hclose 0 connection hinput hhealthy
  obtain ⟨hmem, -, hiff, hreplies⟩ := transcript_spec deps debugMode server calls 0 messages
  simp only [Nat.zero_add, replies_fit_iff hclose] at hiff
  have hfits := fun response hresponse => (hmem response hresponse).1
  have hpaired : Paired messages connection (result, connection') →
      (server.transcript deps debugMode calls 0 messages).2 = true ∧
        (server.transcript deps debugMode calls 0 messages).1.length = messages.length :=
    transcript_of_paired hfits hresult hwritten
  refine ⟨(result, connection'), hrun, ?_, fun h hsign host hhost => ?_⟩
  · rw [hiff]
    refine ⟨hpaired, fun ⟨hclosed, hlength⟩ => ⟨?_, _, hwritten, hfits, ?_⟩⟩
    · rw [hclosed] at hresult
      cases result with
      | error e => cases hresult
      | ok => rfl
    · exact (hreplies hclosed hlength).imp fun _ _ ⟨_, hreply⟩ => answers_of_reply hreply
  · obtain ⟨hclosed, hlength⟩ := hpaired h
    have hcontent : host.content = frames 4 ((server.transcript deps debugMode calls 0
        messages).1.filterMap (body EnclaveResponse.codec)) ++ [] := by
      rw [List.append_nil]
      exact List.append_cancel_left (hhost.trans hwritten)
    have hround : ∀ response ∈ (server.transcript deps debugMode calls 0 messages).1,
        EnclaveResponse.codec.RoundTrip response := by
      intro response hresponse
      obtain ⟨hbody, c, message, hreply⟩ := hmem response hresponse
      exact roundTrip_reply hsign hreply hbody
    obtain ⟨host', hread, -⟩ := repeated_recv_frames EnclaveResponse.codec hround hcontent
    rw [List.filter_eq_self.mpr hfits, hlength] at hread
    exact ⟨_, congrArg Prod.fst hread, (hreplies hclosed hlength).imp fun _ _ ⟨_, hreply⟩ =>
      answers_of_reply hreply⟩

end Connections

/-! A host that asks for a print and then for the public key, in one chunk. -/

namespace PrintSession

def deps : Deps ℕ := .standard (fun _ _ => none) 1

def server : Server ℕ := .new 1

def calls : Calls Bytes where
  task := 2
  prover := { setup := fun _ => .error none, run := fun _ _ _ => .error none }
  nsm := { init := 0, processRequest := fun _ => .ok .other }

def messages : List (EnclaveRequest Bytes) := [.Print "hello", .GetPublicKey]

def connection : Connection where
  input :=
    { chunks :=
        [frames 4 ((messages ++ [EnclaveRequest.CloseSession]).filterMap
          (body (EnclaveRequest.codec .vec)))]
      ending := .unexpectedEof }
  output := { written := [], room := none, failure := .unexpectedEof }

theorem pipelined_connection :
    Pipelined .vec (messages ++ [.CloseSession]) [] connection.input.content := by
  refine ⟨?_, by simp [connection, Source.content]⟩
  simp only [messages, List.cons_append, List.nil_append, List.forall_mem_cons]
  exact ⟨⟨Format.valid_string (by decide +kernel), by decide +kernel⟩,
    ⟨trivial, by decide +kernel⟩, ⟨trivial, by decide +kernel⟩, by simp⟩

end PrintSession

open PrintSession in
theorem handleConnection_paired_print :
    ∃ outcome,
      handleConnection deps false server .vec (fun _ => calls) 3 0 connection = some outcome ∧
      Paired messages connection outcome := by
  obtain ⟨outcome, hrun, hpaired, -⟩ :=
    handleConnection_paired_iff deps false server .vec (fun _ => calls)
      (show .CloseSession ∉ messages by decide) connection [] pipelined_connection rfl
  refine ⟨outcome, hrun 3 (by decide), hpaired.mpr ⟨Or.inl rfl, fun i hi => ?_⟩⟩
  match i with
  | 0 => trivial
  | 1 => trivial

open PrintSession in
/-- In a debug build the only frame written for the two requests is the public
key, which the host takes for the answer to its print. -/
theorem handleConnection_debug_print :
    Pipelined .vec (messages ++ [.CloseSession]) [] connection.input.content ∧
      ∃ outcome,
        handleConnection deps true server .vec (fun _ => calls) 3 0 connection = some outcome ∧
        outcome.2.output.written = frames 4
          ([EnclaveResponse.PublicKey (server.getPublicKey deps)].filterMap
            (body EnclaveResponse.codec)) ∧
        ¬ Paired messages connection outcome := by
  refine ⟨pipelined_connection, ?_⟩
  obtain ⟨result, connection', hrun, hresult, hwritten⟩ :=
    handleConnection_transcript deps true server (fun _ => calls)
      (show .CloseSession ∉ messages by decide) 0 connection pipelined_connection rfl
  obtain ⟨hmem, -⟩ := transcript_spec deps true server (fun _ => calls) 0 messages
  have htranscript : server.transcript deps true (fun _ => calls) 0 messages =
      ([.PublicKey (server.getPublicKey deps)], true) := by decide +kernel
  refine ⟨(result, connection'), hrun 3 (by decide), ?_, fun hpaired => ?_⟩
  · rw [hwritten, htranscript]
    exact List.nil_append _
  · obtain ⟨-, hlength⟩ :=
      transcript_of_paired (fun r hr => (hmem r hr).1) hresult hwritten hpaired
    rw [htranscript] at hlength
    simp [messages] at hlength

end Server

end Sp1Tee
