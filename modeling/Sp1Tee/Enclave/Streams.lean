import Sp1Tee.Enclave.Traces

/-!
# The connections and their bytes

`Enclave.machine` leaves open what a connection receives and whether a response can be
written. `Streams.machine` is the same enclave with the byte streams of its connections: a
step that receives takes the next frame from the bytes that come, and a step that replies
writes one.

At this level too, connections have nothing to do with each other. `session_of_run` says
that a connection is always where `handleConnection` gets to on the same streams, with no
other connection around.
-/

namespace Sp1Tee

open Foundation VsockStream

namespace Server

variable {K Stdin : Type} {deps : Deps K} {debugMode : Bool} {server : Server K}
  {stdinFormat : Format Stdin} {connection before now : Connection}

theorem handleMessage_new (deps : Deps K) (debugMode : Bool) (server : Server K)
    (message : EnclaveRequest Stdin) :
    handleMessage deps debugMode server message =
      handleMessage deps debugMode (.new server.signing_key) message := by
  cases message <;> rfl

/-- Where `handleConnection` is after some messages, each with its calls. -/
inductive Reached (deps : Deps K) (debugMode : Bool) (server : Server K)
    (stdinFormat : Format Stdin) (connection : Connection) :
    List (Calls Stdin) → Connection → Prop
  | nil : Reached deps debugMode server stdinFormat connection [] connection
  | snoc {calls : List (Calls Stdin)} {before after : Connection}
      (h : Reached deps debugMode server stdinFormat connection calls before)
      (last : Calls Stdin) {message : EnclaveRequest Stdin} {input : Source}
      (hrecv : recv (EnclaveRequest.codec stdinFormat) before.input = (.ok message, input))
      (hhandle : server.handle deps debugMode last message { before with input := input } =
        (.ok .Continue, after)) :
      Reached deps debugMode server stdinFormat connection (calls ++ [last]) after

theorem Reached.handleConnection {calls : List (Calls Stdin)} {after : Connection}
    (h : Reached deps debugMode server stdinFormat connection calls after)
    {all : ℕ → Calls Stdin} (hall : ∀ i last, calls[i]? = some last → all i = last) (fuel : ℕ) :
    handleConnection deps debugMode server stdinFormat all (fuel + calls.length) 0 connection =
      handleConnection deps debugMode server stdinFormat all fuel calls.length after := by
  induction h generalizing fuel with
  | nil => rfl
  | @snoc calls before after h last message input hrecv hhandle ih =>
      have hlast : all calls.length = last := hall _ last (by simp)
      have hbefore := ih (fun i last' hi => hall i last' (by
        rw [List.getElem?_append_left (List.getElem?_eq_some_iff.mp hi).1, hi])) (fuel + 1)
      rw [List.length_append, List.length_singleton, ← Nat.add_assoc, Nat.add_right_comm, hbefore,
        Server.handleConnection, hrecv]
      simp only [hlast, hhandle]

/-- The last turn of `handleConnection`, with its calls. -/
def Ends (deps : Deps K) (debugMode : Bool) (server : Server K) (stdinFormat : Format Stdin)
    (last : Calls Stdin) (before now : Connection)
    (outcome : Except CommunicationError Unit) : Prop :=
  ∀ (calls : ℕ → Calls Stdin) (i fuel : ℕ), calls i = last →
    handleConnection deps debugMode server stdinFormat calls (fuel + 1) i before =
      some (outcome, now)

theorem ends_of_recv_error {e : CommunicationError}
    (h : recv (EnclaveRequest.codec stdinFormat) before.input = (.error e, now.input))
    (houtput : now.output = before.output) (last : Calls Stdin) :
    Ends deps debugMode server stdinFormat last before now (.error e) := by
  intro calls i fuel _
  obtain ⟨input, output⟩ := now
  subst houtput
  rw [handleConnection, h]

theorem ends_of_handle {message : EnclaveRequest Stdin} {input : Source} {last : Calls Stdin}
    {result : Except CommunicationError ConnectionState}
    {outcome : Except CommunicationError Unit}
    (h : recv (EnclaveRequest.codec stdinFormat) before.input = (.ok message, input))
    (hhandle : server.handle deps debugMode last message { before with input := input } =
      (result, now))
    (hresult : (∃ e, result = .error e ∧ outcome = .error e) ∨
      (result = .ok .Close ∧ outcome = .ok ())) :
    Ends deps debugMode server stdinFormat last before now outcome := by
  intro calls i fuel hcalls
  rw [handleConnection, h]
  rcases hresult with ⟨e, rfl, rfl⟩ | ⟨rfl, rfl⟩ <;> simp only [hcalls, hhandle]

end Server

open Server Enclave

/-- The enclave, and the streams of its connections. -/
structure Streams (K Stdin : Type) where
  enclave : Enclave K Stdin
  streams : ℕ → Connection

namespace Streams

/-- What makes a connection go on, beside its streams. -/
inductive Turn
  | recv
  | proceed
  | setup (outcome : Except Panic Bytes32)
  | run (outcome : Except Panic (Except String Bytes))
  | attest (nsm : Nsm)
  | join
  | reply

/-- A connection is accepted, with the bytes that it will bring and the room for those that
it will be sent, or one goes on. -/
inductive Action
  | accept (c : ℕ) (connection : Connection)
  | on (c : ℕ) (turn : Turn)

variable {K Stdin : Type} (deps : Deps K) (debugMode : Bool) (stdinFormat : Format Stdin)

/-- What a turn comes to, and the streams after it. -/
def resolve (phase : Phase Stdin) (connection : Connection) :
    Turn → Option (Input Stdin × Connection)
  | .recv =>
    let (result, input) := recv (EnclaveRequest.codec stdinFormat) connection.input
    some (.recv result, { connection with input := input })
  | .reply =>
    match phase with
    | .replying _ response =>
      let (result, output) := send EnclaveResponse.codec response connection.output
      some (.reply result, { connection with output := output })
    | _ => none
  | .proceed => some (.proceed, connection)
  | .setup outcome => some (.setup outcome, connection)
  | .run outcome => some (.run outcome, connection)
  | .attest nsm => some (.attest nsm, connection)
  | .join => some (.join, connection)

def start (key : K) (task : TaskId) : Streams K Stdin where
  enclave := .start key task
  streams _ := ⟨⟨[], .unexpectedEof⟩, ⟨[], none, .unexpectedEof⟩⟩

def machine : Machine (Streams K Stdin) Action (ℕ × Enclave.Event Stdin) where
  step s a :=
    match a with
    | .accept c connection =>
      match (Enclave.machine deps debugMode).step s.enclave (.accept c) with
      | none => none
      | some (enclave, es) =>
        some ({ enclave := enclave, streams := Function.update s.streams c connection }, es)
    | .on c turn =>
      match s.enclave.connections c with
      | none => none
      | some phase =>
        match resolve stdinFormat phase (s.streams c) turn with
        | none => none
        | some (input, connection) =>
          match (Enclave.machine deps debugMode).step s.enclave (.on c input) with
          | none => none
          | some (enclave, es) =>
            some ({ enclave := enclave, streams := Function.update s.streams c connection }, es)

/-- What the streams do in a step that has this input. -/
def Fits (phase : Phase Stdin) (now : Connection) (input : Input Stdin) (after : Connection) :
    Prop :=
  match input with
  | .recv result => recv (EnclaveRequest.codec stdinFormat) now.input = (result, after.input) ∧
      after.output = now.output
  | .reply result => ∃ request response, phase = .replying request response ∧
      send EnclaveResponse.codec response now.output = (result, after.output) ∧
      after.input = now.input
  | _ => after = now

variable {deps debugMode stdinFormat} {s s' : Streams K Stdin} {phase : Phase Stdin}
  {now after : Connection} {es : List (ℕ × Enclave.Event Stdin)}

theorem fits_of_resolve {turn : Turn} {input : Input Stdin}
    (h : resolve stdinFormat phase now turn = some (input, after)) :
    Fits stdinFormat phase now input after := by
  cases turn with
  | recv =>
      cases h
      exact ⟨rfl, rfl⟩
  | reply =>
      cases phase with
      | replying request response =>
          cases h
          exact ⟨request, response, rfl, rfl, rfl⟩
      | _ => cases h
  | _ =>
      cases h
      rfl

theorem step_cases {a : Action}
    (hstep : (machine deps debugMode stdinFormat).step s a = some (s', es)) :
    (∃ c connection, a = .accept c connection ∧
      (Enclave.machine deps debugMode).step s.enclave (.accept c) = some (s'.enclave, es) ∧
      s'.streams = Function.update s.streams c connection) ∨
    ∃ c turn input phase after, a = .on c turn ∧ s.enclave.connections c = some phase ∧
      Fits stdinFormat phase (s.streams c) input after ∧
      (Enclave.machine deps debugMode).step s.enclave (.on c input) = some (s'.enclave, es) ∧
      s'.streams = Function.update s.streams c after := by
  cases a with
  | accept c connection =>
      simp only [machine] at hstep
      split at hstep
      · cases hstep
      · next enclave es' haccept =>
        cases hstep
        exact Or.inl ⟨c, connection, rfl, haccept, rfl⟩
  | on c turn =>
      simp only [machine] at hstep
      split at hstep
      · cases hstep
      · next phase hphase =>
        split at hstep
        · cases hstep
        · next input after hresolve =>
          split at hstep
          · cases hstep
          · next enclave es' hon =>
            cases hstep
            exact Or.inr ⟨c, turn, input, phase, after, rfl, hphase, fits_of_resolve hresolve, hon,
              rfl⟩

/-! ## Where a session stands -/

instance : Inhabited (Calls Stdin) :=
  ⟨⟨0, ⟨fun _ => .error none, fun _ _ _ => .error none⟩, default⟩⟩

/-- The calls of the messages handled so far, in front of those of the last one. -/
theorem getD_append_of_getElem? {done : List (Calls Stdin)} {last c : Calls Stdin} {i : ℕ}
    (h : done[i]? = some c) : (done ++ [last]).getD i default = c := by
  rw [List.getD_eq_getElem?_getD, List.getElem?_append_left (List.getElem?_eq_some_iff.mp h).1, h,
    Option.getD_some]

/-- A blocking task got to its stage as it does with the calls of one message. -/
def RunBy (deps : Deps K) (server : Server K) (task : TaskId) : Job Stdin → Stage → Prop
  | .execute _ _ cycle_limit, .waiting | .execute _ _ cycle_limit, .guarded
  | .execute _ _ cycle_limit, .ready _ | .execute _ _ cycle_limit, .executed _ _ =>
      cycle_limit ≤ MAX_ALLOWED_CYCLES
  | job, .returned result => ∃ prover nsm, server.runJob deps ⟨task, prover, nsm⟩ job = result
  | _, _ => True

/-- A message has been received since `before`, and nothing else has happened. -/
def Received (stdinFormat : Format Stdin) (before now : Connection)
    (message : EnclaveRequest Stdin) : Prop :=
  recv (EnclaveRequest.codec stdinFormat) before.input = (.ok message, now.input) ∧
    now.output = before.output

/-- How a connection got to its phase since `before`, when it was about to receive. -/
def Stands (deps : Deps K) (debugMode : Bool) (server : Server K) (stdinFormat : Format Stdin)
    (before now : Connection) : Phase Stdin → Prop
  | .receiving => now = before
  | .blocked task job stage =>
      Received stdinFormat before now job.request ∧ RunBy deps server task job stage
  | .replying request response => Received stdinFormat before now request ∧
      ∃ calls, server.reply deps debugMode calls request = some response
  | .closed => ∃ last outcome, Ends deps debugMode server stdinFormat last before now outcome

section Step

variable {server : Server K} {connection before : Connection} {calls : List (Calls Stdin)}

theorem handleConnection_of_ends {last : Calls Stdin} {outcome : Except CommunicationError Unit}
    (hreached : Reached deps debugMode server stdinFormat connection calls before)
    (hends : Ends deps debugMode server stdinFormat last before now outcome) (fuel : ℕ) :
    handleConnection deps debugMode server stdinFormat
      (fun i => (calls ++ [last]).getD i default) (fuel + 1 + calls.length) 0 connection =
        some (outcome, now) := by
  rw [hreached.handleConnection fun i c => getD_append_of_getElem?]
  exact hends _ _ fuel (by simp)

theorem runBy_returned_iff {task : TaskId} {job : Job Stdin}
    {result : Except Panic EnclaveResponse} :
    RunBy deps server task job (.returned result) ↔
      ∃ prover nsm, server.runJob deps ⟨task, prover, nsm⟩ job = result := by
  cases job <;> exact Iff.rfl

theorem handle_of_received {request : EnclaveRequest Stdin} {response : EnclaveResponse}
    {c : Calls Stdin} {result : Except CommunicationError Unit}
    (hreply : server.reply deps debugMode c request = some response)
    (hreceived : Received stdinFormat before now request)
    (hsend : send EnclaveResponse.codec response now.output = (result, after.output))
    (hinput : after.input = now.input) :
    server.handle deps debugMode c request { before with input := now.input } =
      (result.map fun () => .Continue, after) := by
  rw [handle_of_reply_eq_some hreply, sendUnwrap, ← hreceived.2, hsend, ← hinput]

theorem stands_of_recv {fresh : TaskId} {p : Progress Stdin} {message : EnclaveRequest Stdin}
    (hreached : Reached deps debugMode (.new server.signing_key) stdinFormat connection calls
      before)
    (hreceived : Received stdinFormat before after message)
    (hp : Progresses deps debugMode server fresh .receiving (.recv (.ok message)) p) :
    ∃ calls before,
      Reached deps debugMode (.new server.signing_key) stdinFormat connection calls before ∧
        Stands deps debugMode (.new server.signing_key) stdinFormat before after p.phase := by
  have hafter : ({ before with input := after.input } : Connection) = after := by
    rw [← hreceived.2]
  cases hp with
  | skipped message h =>
      rw [handleMessage_new] at h
      refine ⟨calls ++ [default], after, hreached.snoc default hreceived.1 ?_, rfl⟩
      rw [handle, h, hafter]
  | answering message response h =>
      rw [handleMessage_new] at h
      exact ⟨calls, before, hreached, hreceived, default, by rw [reply, h]⟩
  | spawned message job h =>
      obtain rfl := request_of_handleMessage h
      refine ⟨calls, before, hreached, hreceived, ?_⟩
      cases job <;> trivial
  | closing message h =>
      rw [handleMessage_new] at h
      refine ⟨calls, before, hreached, default, .ok (), ends_of_handle hreceived.1 ?_
        (Or.inr ⟨rfl, rfl⟩)⟩
      rw [handle, h, hafter]

theorem runBy_of_progresses {fresh task : TaskId} {job : Job Stdin} {stage : Stage}
    {input : Input Stdin} {p : Progress Stdin}
    (h : RunBy deps (.new server.signing_key) task job stage)
    (hp : Progresses deps debugMode server fresh (.blocked task job stage) input p)
    (hjoin : ∀ result, stage ≠ .returned result) :
    ∃ stage', p.phase = .blocked task job stage' ∧
      RunBy deps (.new server.signing_key) task job stage' := by
  cases hp with
  | refused task stdin program cycle_limit hlimit =>
      exact ⟨_, rfl, ⟨fun _ => .error none, fun _ _ _ => .error none⟩, default,
        execute_of_lt deps hlimit⟩
  | admitted task stdin program cycle_limit hlimit => exact ⟨_, rfl, hlimit⟩
  | locked | setupDone | runDone => exact ⟨_, rfl, h⟩
  | setupPanicked task stdin program cycle_limit payload =>
      exact ⟨_, rfl, ⟨fun _ => .error payload, fun _ _ _ => .error none⟩, default,
        execute_of_setup_error deps h rfl⟩
  | runFailed task stdin program cycle_limit vk e =>
      exact ⟨_, rfl, ⟨fun _ => .ok vk, fun _ _ _ => .ok (.error e)⟩, default,
        execute_of_failed deps h rfl rfl⟩
  | runPanicked task stdin program cycle_limit vk payload =>
      exact ⟨_, rfl, ⟨fun _ => .ok vk, fun _ _ _ => .error payload⟩, default,
        execute_of_run_error deps h rfl rfl⟩
  | signed task stdin program cycle_limit vk public_values =>
      exact ⟨_, rfl, ⟨fun _ => .ok vk, fun _ _ _ => .ok (.ok public_values)⟩, default,
        execute_of_succeeded deps h rfl rfl⟩
  | attested task nsm =>
      exact ⟨_, rfl, ⟨fun _ => .error none, fun _ _ _ => .error none⟩, nsm, rfl⟩
  | joined task job result => exact absurd rfl (hjoin result)

/-- A step of a connection is one that `handleConnection` takes on the same streams. -/
theorem stands_of_progresses {fresh : TaskId} {input : Input Stdin} {p : Progress Stdin}
    (hreached : Reached deps debugMode (.new server.signing_key) stdinFormat connection calls
      before)
    (hstands : Stands deps debugMode (.new server.signing_key) stdinFormat before now phase)
    (hfits : Fits stdinFormat phase now input after)
    (hp : Progresses deps debugMode server fresh phase input p) :
    ∃ calls before,
      Reached deps debugMode (.new server.signing_key) stdinFormat connection calls before ∧
        Stands deps debugMode (.new server.signing_key) stdinFormat before after p.phase := by
  cases phase with
  | receiving =>
      obtain rfl : now = before := hstands
      cases input with
      | recv result =>
          obtain ⟨hrecv, houtput⟩ := hfits
          cases result with
          | error e =>
              cases hp
              exact ⟨calls, now, hreached, default, .error e,
                ends_of_recv_error hrecv houtput default⟩
          | ok message => exact stands_of_recv hreached ⟨hrecv, houtput⟩ hp
      | _ => cases hp
  | blocked task job stage =>
      obtain ⟨hreceived, hrunBy⟩ := hstands
      by_cases hjoin : ∃ result, stage = .returned result
      · obtain ⟨result, rfl⟩ := hjoin
        cases hp
        obtain rfl : after = now := hfits
        obtain ⟨prover, nsm, hrunJob⟩ := runBy_returned_iff.mp hrunBy
        refine ⟨calls, before, hreached, hreceived, ⟨task, prover, nsm⟩, ?_⟩
        simp only [reply, handleMessage_request, blockingResponse, hrunJob]
      · have hsame : after = now := by
          cases hp <;> exact hfits
        subst hsame
        obtain ⟨stage', hphase, hrunBy'⟩ := runBy_of_progresses hrunBy hp
          fun result hstage => hjoin ⟨result, hstage⟩
        rw [hphase]
        exact ⟨calls, before, hreached, hreceived, hrunBy'⟩
  | replying request response =>
      obtain ⟨hreceived, c, hreply⟩ := hstands
      cases hp with
      | answered =>
          obtain ⟨_, _, heq, hsend, hinput⟩ := hfits
          cases heq
          exact ⟨calls ++ [c], after, hreached.snoc c hreceived.1
            (handle_of_received hreply hreceived hsend hinput), rfl⟩
      | failedReply _ _ e =>
          obtain ⟨_, _, heq, hsend, hinput⟩ := hfits
          cases heq
          exact ⟨calls, before, hreached, c, .error e, ends_of_handle hreceived.1
            (handle_of_received hreply hreceived hsend hinput) (Or.inl ⟨e, rfl, rfl⟩)⟩
  | closed => cases hp

end Step

/-! ## What is written -/

def written (answers : List (EnclaveRequest Stdin × EnclaveResponse)) : Bytes :=
  frames 4 (answers.filterMap fun a => body EnclaveResponse.codec a.2)

theorem written_append (as as' : List (EnclaveRequest Stdin × EnclaveResponse)) :
    written (as ++ as') = written as ++ written as' := by
  simp [written, frames]

/-- A transport that does not fail has the responses that were answered. -/
def Carries (before now : Connection)
    (answers : List (EnclaveRequest Stdin × EnclaveResponse)) : Prop :=
  now.output.room = none ∧ now.output.written = before.output.written ++ written answers

theorem carries_of_send (request : EnclaveRequest Stdin) {response : EnclaveResponse}
    {result : Except CommunicationError Unit} (hroom : now.output.room = none)
    (hsend : send EnclaveResponse.codec response now.output = (result, after.output)) :
    Carries now after (match result with
      | .ok _ => [(request, response)]
      | .error _ => []) := by
  cases hbody : body EnclaveResponse.codec response with
  | none =>
      obtain ⟨e, herror⟩ := send_of_body_eq_none hbody now.output
      rw [herror] at hsend
      obtain ⟨rfl, hsame⟩ := Prod.mk.inj hsend
      exact ⟨by rw [← hsame, hroom], by simp [← hsame, written, frames]⟩
  | some bytes =>
      rw [send_of_body hbody hroom] at hsend
      obtain ⟨rfl, hsame⟩ := Prod.mk.inj hsend
      exact ⟨by rw [← hsame, hroom], by simp [← hsame, written, hbody, frames]⟩

theorem carries_of_progresses {server : Server K} {fresh : TaskId} {input : Input Stdin}
    {p : Progress Stdin} (hroom : now.output.room = none)
    (hfits : Fits stdinFormat phase now input after)
    (hp : Progresses deps debugMode server fresh phase input p) :
    Carries now after (p.events.filterMap Event.answer) := by
  have hquiet : after.output = now.output → p.events.filterMap Event.answer = [] →
      Carries now after (p.events.filterMap Event.answer) := fun houtput hevents => by
    rw [hevents]
    exact ⟨by rw [houtput, hroom], by simp [houtput, written, frames]⟩
  cases hp with
  | failedRecv | skipped | answering | spawned | closing => exact hquiet hfits.2 rfl
  | answered request response =>
      obtain ⟨_, _, heq, hsend, -⟩ := hfits
      cases heq
      exact carries_of_send request hroom hsend
  | failedReply request response e =>
      obtain ⟨_, _, heq, hsend, -⟩ := hfits
      cases heq
      exact carries_of_send request hroom hsend
  | signed task stdin program cycle_limit vk public_values =>
      obtain rfl : after = now := hfits
      refine hquiet rfl (List.filterMap_eq_nil_iff.mpr fun e he => ?_)
      obtain ⟨rfl, -⟩ := mem_signedEvents he
      rfl
  | _ =>
      obtain rfl : after = now := hfits
      exact hquiet rfl rfl

/-! ## All runs -/

/-- A connection that was accepted with some streams: it is where `handleConnection` gets to
on them, and has written what it has answered since `past`. -/
structure Served (deps : Deps K) (debugMode : Bool) (key : K) (stdinFormat : Format Stdin) (c : ℕ)
    (connection : Connection) (s : Streams K Stdin) (past : List (ℕ × Enclave.Event Stdin)) :
    Prop where
  signing_key : s.enclave.server.signing_key = key
  stands : ∃ phase calls before, s.enclave.connections c = some phase ∧
    Reached deps debugMode (.new key) stdinFormat connection calls before ∧
    Stands deps debugMode (.new key) stdinFormat before (s.streams c) phase
  carries : connection.output.room = none → Carries connection (s.streams c) (answers c past)

variable {key : K} {c : ℕ} {connection : Connection} {past : List (ℕ × Enclave.Event Stdin)}

theorem served_of_step {a : Action}
    (h : Served deps debugMode key stdinFormat c connection s past)
    (hstep : (machine deps debugMode stdinFormat).step s a = some (s', es)) :
    Served deps debugMode key stdinFormat c connection s' (past ++ es) := by
  obtain ⟨phase, calls, before, hphase, hreached, hstands⟩ := h.stands
  have hkey := h.signing_key
  rcases step_cases hstep with
    ⟨d, connection', -, haccept, hstreams⟩ |
      ⟨d, turn, input, phase', after, -, hd, hfits, hon, hstreams⟩
  · obtain ⟨hnone, rfl, henclave⟩ := Enclave.step_accept haccept
    have hne : c ≠ d := by
      rintro rfl
      rw [hnone] at hphase
      cases hphase
    have hsame : s'.streams c = s.streams c := by rw [hstreams, Function.update_of_ne hne]
    refine ⟨by rw [henclave, hkey], ⟨phase, calls, before, ?_, hreached, hsame ▸ hstands⟩, ?_⟩
    · rw [henclave]
      exact (Function.update_of_ne hne _ _).trans hphase
    · rw [List.append_nil, hsame]
      exact h.carries
  · obtain ⟨phase'', p, hd', hp, rfl, henclave⟩ := Enclave.step_on hon
    obtain rfl : phase' = phase'' := Option.some.inj (hd.symm.trans hd')
    by_cases hne : c = d
    · subst hne
      obtain rfl : phase = phase' := Option.some.inj (hphase.symm.trans hd)
      have hself : s'.streams c = after := by rw [hstreams, Function.update_self]
      subst hkey
      obtain ⟨calls', before', hreached', hstands'⟩ :=
        stands_of_progresses hreached hstands hfits hp
      refine ⟨by rw [henclave], ⟨p.phase, calls', before', ?_, hreached', hself ▸ hstands'⟩,
        fun hroom => ?_⟩
      · rw [henclave]
        exact Function.update_self _ _ _
      · obtain ⟨hroom', hwritten⟩ := h.carries hroom
        obtain ⟨hroom'', hwritten'⟩ := carries_of_progresses hroom' hfits hp
        rw [hself, answers_append, answers_map, if_pos rfl]
        exact ⟨hroom'', by rw [hwritten', hwritten, written_append, List.append_assoc]⟩
    · have hsame : s'.streams c = s.streams c := by rw [hstreams, Function.update_of_ne hne]
      refine ⟨by rw [henclave, hkey], ⟨phase, calls, before, ?_, hreached, hsame ▸ hstands⟩, ?_⟩
      · rw [henclave]
        exact (Function.update_of_ne hne _ _).trans hphase
      · rw [answers_append, answers_map, if_neg (Ne.symm hne), List.append_nil, hsame]
        exact h.carries

/-- A run is one of the enclave, for some inputs of its connections. -/
theorem run_enclave {as : List Action}
    (hrun : (machine deps debugMode stdinFormat).run s as = some (s', es)) :
    ∃ as', (Enclave.machine deps debugMode).run s.enclave as' = some (s'.enclave, es) := by
  have hproject : ∃ as', (Enclave.machine deps debugMode).run s.enclave as' =
      some (s'.enclave, es.filterMap some) :=
    Machine.run_project Streams.enclave some (fun {s s' a es} hstep => by
      rw [List.filterMap_some]
      rcases step_cases hstep with ⟨c, -, -, h, -⟩ | ⟨c, -, input, -, -, -, -, -, h, -⟩
      · exact Or.inr ⟨Enclave.Action.accept c, h⟩
      · exact Or.inr ⟨Enclave.Action.on c input, h⟩) hrun
  rwa [List.filterMap_some] at hproject

theorem answers_of_not_accepted {task : TaskId} {as : List (Enclave.Action Stdin)}
    {enclave : Enclave K Stdin}
    (hrun : (Enclave.machine deps debugMode).run (.start key task) as = some (enclave, es))
    (hc : enclave.connections c = none) : answers c es = [] := by
  have hstart : (Enclave.start key task : Enclave K Stdin).connections c = none →
      answers c ([] : List (ℕ × Enclave.Event Stdin)) = [] := fun _ => rfl
  refine Machine.run_invariant
    (I := fun (s : Enclave K Stdin) past => s.connections c = none → answers c past = [])
    (fun {s s' a past es} h hstep hc => ?_) hstart hrun hc
  rcases Enclave.step_cases hstep with ⟨d, -, rfl, rfl⟩ | ⟨d, input, phase, p, -, -, rfl, rfl⟩
  · by_cases hne : c = d
    · subst hne
      cases (Function.update_self c (some Phase.receiving) s.connections).symm.trans hc
    · rw [List.append_nil]
      exact h ((Function.update_of_ne hne _ _).symm.trans hc)
  · by_cases hne : c = d
    · subst hne
      cases (Function.update_self c (some p.phase) s.connections).symm.trans hc
    · rw [answers_append, answers_map, if_neg (Ne.symm hne), List.append_nil]
      exact h ((Function.update_of_ne hne _ _).symm.trans hc)

theorem served_of_accept {s₁ : Streams K Stdin} (hkey : s.enclave.server.signing_key = key)
    (hnone : s.enclave.connections c = none → answers c past = [])
    (hstep : (machine deps debugMode stdinFormat).step s (.accept c connection) = some (s₁, es)) :
    Served deps debugMode key stdinFormat c connection s₁ (past ++ es) := by
  rcases step_cases hstep with
    ⟨d, connection', heq, haccept, hstreams⟩ | ⟨d, turn, -, -, -, heq, -⟩
  · cases heq
    obtain ⟨hc, rfl, henclave⟩ := Enclave.step_accept haccept
    have hself : s₁.streams c = connection := by rw [hstreams, Function.update_self]
    refine ⟨by rw [henclave, hkey], ⟨.receiving, [], connection, ?_, .nil, hself⟩, fun hroom => ?_⟩
    · rw [henclave]
      exact Function.update_self _ _ _
    · rw [List.append_nil, hnone hc, hself]
      exact ⟨hroom, by simp [written, frames]⟩
  · cases heq

theorem signing_key_of_run {task : TaskId} {as : List Action}
    (hrun : (machine deps debugMode stdinFormat).run (start key task) as = some (s, es)) :
    s.enclave.server.signing_key = key := by
  refine Machine.run_preserves (I := fun s : Streams K Stdin => s.enclave.server.signing_key = key)
    (fun {s s' a es} h hstep => ?_) rfl hrun
  rcases step_cases hstep with ⟨c, -, -, haccept, -⟩ | ⟨c, -, input, -, -, -, -, -, hon, -⟩
  · obtain ⟨-, -, henclave⟩ := Enclave.step_accept haccept
    rw [henclave, h]
  · obtain ⟨-, p, -, -, -, henclave⟩ := Enclave.step_on hon
    rw [henclave, h]

theorem served_of_run {task : TaskId} {as : List Action} (haccept : .accept c connection ∈ as)
    (hrun : (machine deps debugMode stdinFormat).run (start key task) as = some (s, es)) :
    Served deps debugMode key stdinFormat c connection s es := by
  obtain ⟨as₁, as₂, rfl⟩ := List.append_of_mem haccept
  obtain ⟨s₁, es₁, es₂, hbefore, hrest, rfl⟩ := Machine.run_append_eq_some.mp hrun
  obtain ⟨s₂, es₃, es₄, hstep, hafter, rfl⟩ := Machine.run_cons_eq_some.mp hrest
  obtain ⟨as', henclave⟩ := run_enclave hbefore
  rw [← List.append_assoc]
  exact Machine.run_invariant served_of_step
    (served_of_accept (signing_key_of_run hbefore) (answers_of_not_accepted henclave) hstep) hafter

/-- In every run, with any number of connections at any points of theirs, a connection is
where `handleConnection` gets to, alone, on the streams that it was accepted with, for some
outcomes of the calls: before its next message, in the handling of it or, once closed, at
the end, with exactly the streams that `handleConnection` leaves. What has been written to a
peer that keeps reading are the responses that have been answered, in order. -/
theorem session_of_run {task : TaskId} {as : List Action} (haccept : .accept c connection ∈ as)
    (hrun : (machine deps debugMode stdinFormat).run (start key task) as = some (s, es)) :
    ∃ calls n before phase, s.enclave.connections c = some phase ∧
      (∀ fuel,
        handleConnection deps debugMode (.new key) stdinFormat calls (fuel + n) 0 connection =
          handleConnection deps debugMode (.new key) stdinFormat calls fuel n before) ∧
      Stands deps debugMode (.new key) stdinFormat before (s.streams c) phase ∧
      (phase = .closed → ∃ outcome,
        handleConnection deps debugMode (.new key) stdinFormat calls (n + 1) 0 connection =
          some (outcome, s.streams c)) ∧
      (connection.output.room = none → (s.streams c).output.written =
        connection.output.written ++ written (answers c es)) := by
  obtain ⟨-, ⟨phase, done, before, hphase, hreached, hstands⟩, hcarries⟩ :=
    served_of_run haccept hrun
  by_cases hclosed : phase = .closed
  · subst hclosed
    obtain ⟨last, outcome, hends⟩ := hstands
    refine ⟨fun i => (done ++ [last]).getD i default, done.length, before, .closed, hphase,
      hreached.handleConnection fun i c => getD_append_of_getElem?, ⟨last, outcome, hends⟩,
      fun _ => ⟨outcome, ?_⟩, fun hroom => (hcarries hroom).2⟩
    rw [Nat.add_comm, ← Nat.zero_add 1]
    exact handleConnection_of_ends hreached hends 0
  · exact ⟨fun i => (done ++ [default]).getD i default, done.length, before, phase, hphase,
      hreached.handleConnection fun i c => getD_append_of_getElem?, hstands,
      fun h => absurd h hclosed, fun hroom => (hcarries hroom).2⟩

def bringing (messages : List (EnclaveRequest Bytes)) : Connection where
  input :=
    { chunks := [frames 4 (messages.filterMap (body (EnclaveRequest.codec .vec)))]
      ending := .unexpectedEof }
  output := { written := [], room := none, failure := .unexpectedEof }

/-- While one connection asks for the key and closes its session, another one is refused an
execution. -/
def sessions : List Action :=
  [.accept 0 (bringing [.GetEncryptedSigningKey, .CloseSession]), .on 0 .recv,
    .accept 1 (bringing [.Execute [] [] 4294967296]), .on 1 .recv, .on 1 .proceed, .on 0 .reply,
    .on 1 .join, .on 0 .recv, .on 1 .reply]

theorem run_sessions :
    ∃ s es, (machine (.standard (fun _ _ => none) 1) false .vec).run (start 1 1) sessions =
        some (s, es) ∧ s.enclave.connections 0 = some .closed := by
  have hclosed : ((machine (.standard (fun _ _ => none) 1) false .vec).run (start 1 1) sessions).map
      (fun r => r.1.enclave.connections 0 matches some .closed) = some true := by decide +kernel
  obtain ⟨⟨s, es⟩, hrun, hphase⟩ := Option.map_eq_some_iff.mp hclosed
  refine ⟨s, es, hrun, ?_⟩
  split at hphase
  · assumption
  · cases hphase

theorem session_of_run_sessions :
    ∃ s es calls n outcome,
      (machine (.standard (fun _ _ => none) 1) false .vec).run (start 1 1) sessions =
        some (s, es) ∧
      handleConnection (.standard (fun _ _ => none) 1) false (.new 1) .vec calls (n + 1) 0
        (bringing [.GetEncryptedSigningKey, .CloseSession]) = some (outcome, s.streams 0) ∧
      (s.streams 0).output.written = written (answers 0 es) := by
  obtain ⟨s, es, hrun, hclosed⟩ := run_sessions
  obtain ⟨calls, n, before, phase, hphase, -, -, hend, hwritten⟩ :=
    session_of_run (c := 0) (show .accept 0 (bringing [.GetEncryptedSigningKey, .CloseSession]) ∈
      sessions from .head _) hrun
  obtain ⟨outcome, houtcome⟩ := hend (Option.some.inj (hphase.symm.trans hclosed))
  exact ⟨s, es, calls, n, outcome, hrun, houtcome, hwritten rfl⟩

end Streams

end Sp1Tee
