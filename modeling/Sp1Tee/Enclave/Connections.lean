import Mathlib.Logic.Function.Basic
import Sp1Tee.Common.Communication
import Sp1Tee.Enclave.Server
import Sp1Tee.Foundation.Guard
import Sp1Tee.Foundation.Machine

/-!
# Connections side by side

The enclave serves any number of connections at once. Each has a task of its own,
which receives messages, hands jobs to blocking tasks and writes the responses. An
execution's blocking task checks the cycle limit, waits for the execution guard,
calls `setup` and `run` of the prover, signs, and releases the guard when it
returns or panics. `progress` is one such step of one connection, `machine` is the
interleaving of all of them.

`Progresses` lists what a step can do, and the properties of all runs are derived
from it: here, that the guard is held exactly while an execution is in its section.
-/

namespace Sp1Tee

open Foundation Foundation.Solidity

def Job.request {Stdin : Type} : Job Stdin → EnclaveRequest Stdin
  | .attestSigningKey => .AttestSigningKey
  | .execute stdin program cycle_limit => .Execute stdin program cycle_limit

namespace Enclave

inductive Stage
  /-- It has been spawned. -/
  | started
  /-- It waits for the execution guard. -/
  | waiting
  /-- It holds the guard. -/
  | guarded
  /-- It holds the guard and the prover's setup has returned. -/
  | ready (vk : Bytes32)
  /-- It holds the guard and the program has run. -/
  | executed (vk : Bytes32) (public_values : Bytes)
  /-- It has ended. -/
  | returned (result : Except Panic EnclaveResponse)

inductive Phase (Stdin : Type)
  | receiving
  | blocked (task : TaskId) (job : Job Stdin) (stage : Stage)
  | replying (request : EnclaveRequest Stdin) (response : EnclaveResponse)
  /-- The task has returned, or an unwrap has panicked. -/
  | closed

/-- What makes a connection go on: the result of a receive or of a send, the outcome
of a call, or just its turn. -/
inductive Input (Stdin : Type)
  | recv (result : Except CommunicationError (EnclaveRequest Stdin))
  | proceed
  | setup (outcome : Except Panic Bytes32)
  | run (outcome : Except Panic (Except String Bytes))
  | attest (nsm : Nsm)
  | join
  | reply (result : Except CommunicationError Unit)

/-- What a run is remembered by: the calls into the prover, the digests that were
signed, and the responses that were written. -/
inductive Event (Stdin : Type)
  | setup (task : TaskId) (program : Bytes) (outcome : Except Panic Bytes32)
  | run (task : TaskId) (program : Bytes) (stdin : Stdin) (cycle_limit : UInt64)
      (outcome : Except Panic (Except String Bytes))
  | signed (task : TaskId) (digest : Bytes32)
  | answered (request : EnclaveRequest Stdin) (response : EnclaveResponse)
deriving DecidableEq

structure Progress (Stdin : Type) where
  phase : Phase Stdin
  execution_guard : Option TaskId
  spawned : ℕ
  events : List (Event Stdin)

/-- The task that is in the section of the execution guard. -/
def Phase.holder {Stdin : Type} : Phase Stdin → Option TaskId
  | .blocked task _ .guarded => some task
  | .blocked task _ (.ready _) => some task
  | .blocked task _ (.executed _ _) => some task
  | _ => none

/-- A step of the enclave: a connection is accepted, or one goes on. -/
inductive Action (Stdin : Type)
  | accept (c : ℕ)
  | on (c : ℕ) (input : Input Stdin)

end Enclave

/-- The enclave: the server, the connections accepted so far, and the number of the
next task. -/
structure Enclave (K Stdin : Type) where
  server : Server K
  connections : ℕ → Option (Enclave.Phase Stdin)
  nextTask : TaskId

namespace Enclave

variable {K Stdin : Type} (deps : Deps K) (debugMode : Bool)

/-- A freshly started enclave. The tasks before `task` are those of the runtime. -/
def start (key : K) (task : TaskId) : Enclave K Stdin where
  server := .new key
  connections _ := none
  nextTask := task

/-- A step that leaves the guard alone. -/
def keep (server : Server K) (phase : Phase Stdin) (events : List (Event Stdin)) :
    Progress Stdin :=
  { phase := phase, execution_guard := server.execution_guard, spawned := 0, events := events }

/-- A step with which a blocking task ends and the guard, if it was taken, is
released. -/
def release (phase : Phase Stdin) (events : List (Event Stdin)) : Progress Stdin :=
  { phase := phase, execution_guard := none, spawned := 0, events := events }

def signedEvents (server : Server K) (task : TaskId) (digest : Bytes32) : List (Event Stdin) :=
  match deps.signDigestRecoverable server.signing_key digest with
  | some _ => [.signed task digest]
  | none => []

/-- One step of a connection, if it can take one on this input. -/
def progress (server : Server K) (fresh : TaskId) :
    Phase Stdin → Input Stdin → Option (Progress Stdin)
  | .receiving, .recv (.error _) => some (keep server .closed [])
  | .receiving, .recv (.ok message) =>
    match Server.handleMessage deps debugMode server message with
    | .skip => some (keep server .receiving [])
    | .send response => some (keep server (.replying message response) [])
    | .spawnBlocking job =>
      some { keep server (.blocked fresh job .started) [] with spawned := 1 }
    | .close => some (keep server .closed [])
  | .blocked task (.execute stdin program cycle_limit) .started, .proceed =>
    if cycle_limit > MAX_ALLOWED_CYCLES then
      some (keep server (.blocked task (.execute stdin program cycle_limit)
        (.returned (.ok (Server.cycleLimitError cycle_limit)))) [])
    else
      some (keep server (.blocked task (.execute stdin program cycle_limit) .waiting) [])
  | .blocked task (.execute stdin program cycle_limit) .waiting, .proceed =>
    match server.execution_guard with
    | none =>
      some { keep server (.blocked task (.execute stdin program cycle_limit) .guarded) [] with
        execution_guard := some task }
    | some _ => none
  | .blocked task (.execute stdin program cycle_limit) .guarded, .setup outcome =>
    match outcome with
    | .ok vk =>
      some (keep server (.blocked task (.execute stdin program cycle_limit) (.ready vk))
        [.setup task program outcome])
    | .error payload =>
      some (release
        (.blocked task (.execute stdin program cycle_limit) (.returned (.error payload)))
        [.setup task program outcome])
  | .blocked task (.execute stdin program cycle_limit) (.ready vk), .run outcome =>
    match outcome with
    | .ok (.ok public_values) =>
      some (keep server
        (.blocked task (.execute stdin program cycle_limit) (.executed vk public_values))
        [.run task program stdin cycle_limit outcome])
    | .ok (.error e) =>
      some (release
        (.blocked task (.execute stdin program cycle_limit)
          (.returned (.ok (Server.executeError e))))
        [.run task program stdin cycle_limit outcome])
    | .error payload =>
      some (release
        (.blocked task (.execute stdin program cycle_limit) (.returned (.error payload)))
        [.run task program stdin cycle_limit outcome])
  | .blocked task (.execute stdin program cycle_limit) (.executed vk public_values), .proceed =>
    some (release
      (.blocked task (.execute stdin program cycle_limit)
        (.returned (.ok (server.signPublicValues deps vk public_values))))
      (signedEvents deps server task (Server.digest deps vk public_values)))
  | .blocked task .attestSigningKey .started, .attest nsm =>
    some (keep server
      (.blocked task .attestSigningKey (.returned (server.attestSigningKey deps nsm))) [])
  | .blocked task job (.returned result), .join =>
    some (keep server
      (.replying job.request
        (Server.joined deps job (result.mapError fun payload => ⟨task, payload⟩))) [])
  | .replying request response, .reply (.ok ()) =>
    some (keep server .receiving [.answered request response])
  | .replying _ _, .reply (.error _) => some (keep server .closed [])
  | _, _ => none

/-- All connections, interleaved. An event carries its connection. -/
def machine : Machine (Enclave K Stdin) (Action Stdin) (ℕ × Event Stdin) where
  step s a :=
    match a with
    | .accept c =>
      match s.connections c with
      | none =>
        some ({ s with
          connections := Function.update s.connections c (some .receiving)
          nextTask := s.nextTask + 1 }, [])
      | some _ => none
    | .on c input =>
      match s.connections c with
      | none => none
      | some phase =>
        match progress deps debugMode s.server s.nextTask phase input with
        | none => none
        | some p =>
          some ({
            server := { s.server with execution_guard := p.execution_guard }
            connections := Function.update s.connections c (some p.phase)
            nextTask := s.nextTask + p.spawned }, p.events.map fun e => (c, e))

inductive Progresses (server : Server K) (fresh : TaskId) :
    Phase Stdin → Input Stdin → Progress Stdin → Prop
  | failedRecv (e : CommunicationError) :
      Progresses server fresh .receiving (.recv (.error e)) (keep server .closed [])
  | skipped (message : EnclaveRequest Stdin)
      (h : Server.handleMessage deps debugMode server message = .skip) :
      Progresses server fresh .receiving (.recv (.ok message)) (keep server .receiving [])
  | answering (message : EnclaveRequest Stdin) (response : EnclaveResponse)
      (h : Server.handleMessage deps debugMode server message = .send response) :
      Progresses server fresh .receiving (.recv (.ok message))
        (keep server (.replying message response) [])
  | spawned (message : EnclaveRequest Stdin) (job : Job Stdin)
      (h : Server.handleMessage deps debugMode server message = .spawnBlocking job) :
      Progresses server fresh .receiving (.recv (.ok message))
        { keep server (.blocked fresh job .started) [] with spawned := 1 }
  | closing (message : EnclaveRequest Stdin)
      (h : Server.handleMessage deps debugMode server message = .close) :
      Progresses server fresh .receiving (.recv (.ok message)) (keep server .closed [])
  | refused (task : TaskId) (stdin : Stdin) (program : Bytes) (cycle_limit : UInt64)
      (h : MAX_ALLOWED_CYCLES < cycle_limit) :
      Progresses server fresh (.blocked task (.execute stdin program cycle_limit) .started) .proceed
        (keep server (.blocked task (.execute stdin program cycle_limit)
          (.returned (.ok (Server.cycleLimitError cycle_limit)))) [])
  | admitted (task : TaskId) (stdin : Stdin) (program : Bytes) (cycle_limit : UInt64)
      (h : cycle_limit ≤ MAX_ALLOWED_CYCLES) :
      Progresses server fresh (.blocked task (.execute stdin program cycle_limit) .started) .proceed
        (keep server (.blocked task (.execute stdin program cycle_limit) .waiting) [])
  | locked (task : TaskId) (stdin : Stdin) (program : Bytes) (cycle_limit : UInt64)
      (h : server.execution_guard = none) :
      Progresses server fresh (.blocked task (.execute stdin program cycle_limit) .waiting) .proceed
        { keep server (.blocked task (.execute stdin program cycle_limit) .guarded) [] with
          execution_guard := some task }
  | setupDone (task : TaskId) (stdin : Stdin) (program : Bytes) (cycle_limit : UInt64)
      (vk : Bytes32) :
      Progresses server fresh (.blocked task (.execute stdin program cycle_limit) .guarded)
        (.setup (.ok vk))
        (keep server (.blocked task (.execute stdin program cycle_limit) (.ready vk))
          [.setup task program (.ok vk)])
  | setupPanicked (task : TaskId) (stdin : Stdin) (program : Bytes) (cycle_limit : UInt64)
      (payload : Panic) :
      Progresses server fresh (.blocked task (.execute stdin program cycle_limit) .guarded)
        (.setup (.error payload))
        (release (.blocked task (.execute stdin program cycle_limit) (.returned (.error payload)))
          [.setup task program (.error payload)])
  | runDone (task : TaskId) (stdin : Stdin) (program : Bytes) (cycle_limit : UInt64)
      (vk : Bytes32) (public_values : Bytes) :
      Progresses server fresh (.blocked task (.execute stdin program cycle_limit) (.ready vk))
        (.run (.ok (.ok public_values)))
        (keep server
          (.blocked task (.execute stdin program cycle_limit) (.executed vk public_values))
          [.run task program stdin cycle_limit (.ok (.ok public_values))])
  | runFailed (task : TaskId) (stdin : Stdin) (program : Bytes) (cycle_limit : UInt64)
      (vk : Bytes32) (e : String) :
      Progresses server fresh (.blocked task (.execute stdin program cycle_limit) (.ready vk))
        (.run (.ok (.error e)))
        (release
          (.blocked task (.execute stdin program cycle_limit)
            (.returned (.ok (Server.executeError e))))
          [.run task program stdin cycle_limit (.ok (.error e))])
  | runPanicked (task : TaskId) (stdin : Stdin) (program : Bytes) (cycle_limit : UInt64)
      (vk : Bytes32) (payload : Panic) :
      Progresses server fresh (.blocked task (.execute stdin program cycle_limit) (.ready vk))
        (.run (.error payload))
        (release (.blocked task (.execute stdin program cycle_limit) (.returned (.error payload)))
          [.run task program stdin cycle_limit (.error payload)])
  | signed (task : TaskId) (stdin : Stdin) (program : Bytes) (cycle_limit : UInt64)
      (vk : Bytes32) (public_values : Bytes) :
      Progresses server fresh
        (.blocked task (.execute stdin program cycle_limit) (.executed vk public_values)) .proceed
        (release
          (.blocked task (.execute stdin program cycle_limit)
            (.returned (.ok (server.signPublicValues deps vk public_values))))
          (signedEvents deps server task (Server.digest deps vk public_values)))
  | attested (task : TaskId) (nsm : Nsm) :
      Progresses server fresh (.blocked task .attestSigningKey .started) (.attest nsm)
        (keep server
          (.blocked task .attestSigningKey (.returned (server.attestSigningKey deps nsm))) [])
  | joined (task : TaskId) (job : Job Stdin) (result : Except Panic EnclaveResponse) :
      Progresses server fresh (.blocked task job (.returned result)) .join
        (keep server
          (.replying job.request
            (Server.joined deps job (result.mapError fun payload => ⟨task, payload⟩))) [])
  | answered (request : EnclaveRequest Stdin) (response : EnclaveResponse) :
      Progresses server fresh (.replying request response) (.reply (.ok ()))
        (keep server .receiving [.answered request response])
  | failedReply (request : EnclaveRequest Stdin) (response : EnclaveResponse)
      (e : CommunicationError) :
      Progresses server fresh (.replying request response) (.reply (.error e))
        (keep server .closed [])

variable {deps debugMode}

theorem mem_signedEvents {server : Server K} {task : TaskId} {digest : Bytes32} {e : Event Stdin}
    (h : e ∈ signedEvents deps server task digest) :
    e = .signed task digest ∧ (deps.signDigestRecoverable server.signing_key digest).isSome := by
  rw [signedEvents] at h
  split at h
  · next hsign => exact ⟨List.mem_singleton.mp h, by rw [hsign]; rfl⟩
  · cases h

theorem progresses_of_progress {server : Server K} {fresh : TaskId} {phase : Phase Stdin}
    {input : Input Stdin} {p : Progress Stdin}
    (h : progress deps debugMode server fresh phase input = some p) :
    Progresses deps debugMode server fresh phase input p := by
  unfold progress at h
  split at h
  · cases h
    exact .failedRecv _
  · split at h
    · next hmessage =>
      cases h
      exact .skipped _ hmessage
    · next hmessage =>
      cases h
      exact .answering _ _ hmessage
    · next hmessage =>
      cases h
      exact .spawned _ _ hmessage
    · next hmessage =>
      cases h
      exact .closing _ hmessage
  · split at h
    · next hlimit =>
      cases h
      exact .refused _ _ _ _ hlimit
    · next hlimit =>
      cases h
      exact .admitted _ _ _ _ (UInt64.not_lt.mp hlimit)
  · split at h
    · next hguard =>
      cases h
      exact .locked _ _ _ _ hguard
    · cases h
  · split at h
    · cases h
      exact .setupDone _ _ _ _ _
    · cases h
      exact .setupPanicked _ _ _ _ _
  · split at h
    · cases h
      exact .runDone _ _ _ _ _ _
    · cases h
      exact .runFailed _ _ _ _ _ _
    · cases h
      exact .runPanicked _ _ _ _ _ _
  · cases h
    exact .signed _ _ _ _ _ _
  · cases h
    exact .attested _ _
  · cases h
    exact .joined _ _ _
  · cases h
    exact .answered _ _
  · cases h
    exact .failedReply _ _ _
  · cases h

theorem step_accept {s s' : Enclave K Stdin} {c : ℕ} {es : List (ℕ × Event Stdin)}
    (h : (machine deps debugMode).step s (.accept c) = some (s', es)) :
    s.connections c = none ∧ es = [] ∧
      s' = { s with
        connections := Function.update s.connections c (some .receiving)
        nextTask := s.nextTask + 1 } := by
  simp only [machine] at h
  split at h
  · next hc =>
    cases h
    exact ⟨hc, rfl, rfl⟩
  · cases h

theorem step_on {s s' : Enclave K Stdin} {c : ℕ} {input : Input Stdin}
    {es : List (ℕ × Event Stdin)}
    (h : (machine deps debugMode).step s (.on c input) = some (s', es)) :
    ∃ phase p, s.connections c = some phase ∧
      Progresses deps debugMode s.server s.nextTask phase input p ∧
      es = p.events.map (fun e => (c, e)) ∧
      s' = {
        server := { s.server with execution_guard := p.execution_guard }
        connections := Function.update s.connections c (some p.phase)
        nextTask := s.nextTask + p.spawned } := by
  simp only [machine] at h
  split at h
  · cases h
  · next phase hc =>
    split at h
    · cases h
    · next p hp =>
      cases h
      exact ⟨phase, p, hc, progresses_of_progress hp, rfl, rfl⟩

theorem step_cases {s s' : Enclave K Stdin} {a : Action Stdin} {es : List (ℕ × Event Stdin)}
    (h : (machine deps debugMode).step s a = some (s', es)) :
    (∃ c, s.connections c = none ∧ es = [] ∧
      s' = { s with
        connections := Function.update s.connections c (some .receiving)
        nextTask := s.nextTask + 1 }) ∨
    ∃ c input phase p, s.connections c = some phase ∧
      Progresses deps debugMode s.server s.nextTask phase input p ∧
      es = p.events.map (fun e => (c, e)) ∧
      s' = {
        server := { s.server with execution_guard := p.execution_guard }
        connections := Function.update s.connections c (some p.phase)
        nextTask := s.nextTask + p.spawned } := by
  cases a with
  | accept c => exact Or.inl ⟨c, step_accept h⟩
  | on c input => exact Or.inr ⟨c, input, step_on h⟩

/-! ## The execution guard -/

def holder (s : Enclave K Stdin) (c : ℕ) : Option TaskId := (s.connections c).bind Phase.holder

/-- A step enters the section only when the guard is free, holds the guard as long
as it stays in the section, and has released it when it is out. -/
theorem guard_of_progresses {server : Server K} {fresh : TaskId} {phase : Phase Stdin}
    {input : Input Stdin} {p : Progress Stdin}
    (h : Progresses deps debugMode server fresh phase input p) :
    (phase.holder = none ∧ p.phase.holder = none ∧ p.execution_guard = server.execution_guard) ∨
      (phase.holder = none ∧ server.execution_guard = none ∧
        p.phase.holder = p.execution_guard ∧ p.execution_guard.isSome) ∨
      (phase.holder.isSome ∧ p.phase.holder = phase.holder ∧
        p.execution_guard = server.execution_guard) ∨
      (phase.holder.isSome ∧ p.phase.holder = none ∧ p.execution_guard = none) := by
  cases h with
  | locked task stdin program cycle_limit hguard =>
      exact Or.inr (Or.inl ⟨rfl, hguard, rfl, rfl⟩)
  | setupDone | runDone => exact Or.inr (Or.inr (Or.inl ⟨rfl, rfl, rfl⟩))
  | setupPanicked | runFailed | runPanicked | signed =>
      exact Or.inr (Or.inr (Or.inr ⟨rfl, rfl, rfl⟩))
  | _ => exact Or.inl ⟨rfl, rfl, rfl⟩

theorem holder_update (s : Enclave K Stdin) (server : Server K) (c : ℕ) (phase : Phase Stdin)
    (task : TaskId) :
    holder ⟨server, Function.update s.connections c (some phase), task⟩ =
      Function.update s.holder c phase.holder :=
  Function.comp_update (fun connection : Option (Phase Stdin) => connection.bind Phase.holder)
    s.connections c (some phase)

theorem guarded_start (key : K) (task : TaskId) :
    Guarded (start key task : Enclave K Stdin).holder
      (start key task : Enclave K Stdin).server.execution_guard :=
  Guarded.empty

theorem guarded_of_step {s s' : Enclave K Stdin} {a : Action Stdin} {es : List (ℕ × Event Stdin)}
    (h : Guarded s.holder s.server.execution_guard)
    (hstep : (machine deps debugMode).step s a = some (s', es)) :
    Guarded s'.holder s'.server.execution_guard := by
  rcases step_cases hstep with ⟨c, hc, -, rfl⟩ | ⟨c, input, phase, p, hc, hp, -, rfl⟩
  · rw [holder_update]
    exact h.outside (by rw [holder, hc, Option.bind_none])
  · rw [holder_update]
    have hphase : s.holder c = phase.holder := by rw [holder, hc, Option.bind_some]
    rcases guard_of_progresses hp with
      ⟨hout, hout', hguard⟩ | ⟨hout, hfree, hin, htaken⟩ | ⟨-, hin, hguard⟩ | ⟨hin, hout, hfree⟩
    · rw [hout', hguard]
      exact h.outside (hphase.trans hout)
    · obtain ⟨task, htask⟩ := Option.isSome_iff_exists.mp htaken
      rw [hin, htask]
      rw [hfree] at h
      exact h.enter c task
    · rw [hin, hguard, ← hphase]
      exact h.stay c
    · rw [hout, hfree]
      exact h.leave (by rwa [hphase])

end Enclave

end Sp1Tee
