import Sp1Tee.Enclave.Connections
import Sp1Tee.Enclave.Session

/-!
# What the past of an enclave explains

Wherever a connection stands, the events so far say how it got there: which calls
of the prover have returned, and with what. `Explained` collects this for all
connections, and for what has been signed and answered. It is kept by every step,
so that in every run a digest is signed only after the successful execution it
stands for, and a response is one that the message handler of a fresh server
sends, if it finds the same prover.
-/

namespace Sp1Tee

open Foundation Foundation.Solidity

theorem Server.handleMessage_request {K Stdin : Type} (deps : Deps K) (debugMode : Bool)
    (server : Server K) (job : Job Stdin) :
    Server.handleMessage deps debugMode server job.request = .spawnBlocking job := by
  cases job with
  | attestSigningKey => rfl
  | execute stdin program cycle_limit => rfl

theorem Server.request_of_handleMessage {K Stdin : Type} {deps : Deps K} {debugMode : Bool}
    {server : Server K} {message : EnclaveRequest Stdin} {job : Job Stdin}
    (h : Server.handleMessage deps debugMode server message = .spawnBlocking job) :
    job.request = message := by
  cases message with
  | Print text => cases debugMode <;> cases h
  | AttestSigningKey =>
      cases h
      rfl
  | Execute stdin program cycle_limit =>
      cases h
      rfl
  | _ => cases h

namespace Enclave

variable {K Stdin : Type}

def Event.ConformsTo (prover : Prover Stdin) : Event Stdin → Prop
  | .setup _ program outcome => prover.setup program = outcome
  | .run _ program stdin cycle_limit outcome => prover.run program stdin cycle_limit = outcome
  | .signed _ _ => True
  | .answered _ _ => True

/-- The prover gives the outcomes that its calls had. -/
def Conforms (prover : Prover Stdin) (past : List (ℕ × Event Stdin)) : Prop :=
  ∀ e ∈ past, e.2.ConformsTo prover

theorem Conforms.mono {prover : Prover Stdin} {past past' : List (ℕ × Event Stdin)}
    (hsub : past ⊆ past') (h : Conforms prover past') : Conforms prover past :=
  fun e he => h e (hsub he)

variable (deps : Deps K) (debugMode : Bool) (key : K) (past : List (ℕ × Event Stdin)) (c : ℕ)

/-- A fresh server's blocking task would return this, with any prover that
conforms to the past. -/
def Returned (task : TaskId) (job : Job Stdin) (result : Except Panic EnclaveResponse) : Prop :=
  ∃ nsm, ∀ prover, Conforms prover past →
    (Server.new key).runJob deps ⟨task, prover, nsm⟩ job = result

/-- A fresh server would reply this, with any prover that conforms to the past. -/
def Replied (request : EnclaveRequest Stdin) (response : EnclaveResponse) : Prop :=
  ∃ task nsm, ∀ prover, Conforms prover past →
    (Server.new key).reply deps debugMode ⟨task, prover, nsm⟩ request = some response

/-- The connection `c` has executed a program within the allowed cycles. -/
structure ExecutedBy (task : TaskId) (stdin : Stdin) (program : Bytes) (cycle_limit : UInt64)
    (vk : Bytes32) (public_values : Bytes) : Prop where
  le_max : cycle_limit ≤ MAX_ALLOWED_CYCLES
  setup : (c, Event.setup task program (.ok vk)) ∈ past
  run : (c, Event.run task program stdin cycle_limit (.ok (.ok public_values))) ∈ past

def Stage.Explained (task : TaskId) : Job Stdin → Stage → Prop
  | .execute _ _ cycle_limit, .waiting => cycle_limit ≤ MAX_ALLOWED_CYCLES
  | .execute _ _ cycle_limit, .guarded => cycle_limit ≤ MAX_ALLOWED_CYCLES
  | .execute _ program cycle_limit, .ready vk =>
      cycle_limit ≤ MAX_ALLOWED_CYCLES ∧ (c, Event.setup task program (.ok vk)) ∈ past
  | .execute stdin program cycle_limit, .executed vk public_values =>
      ExecutedBy past c task stdin program cycle_limit vk public_values
  | job, .returned result => Returned deps key past task job result
  | _, _ => True

def Phase.Explained : Phase Stdin → Prop
  | .receiving => True
  | .blocked task job stage => Stage.Explained deps key past c task job stage
  | .replying request response => Replied deps debugMode key past request response
  | .closed => True

def Event.Explained : Event Stdin → Prop
  | .setup _ _ _ => True
  | .run _ _ _ _ _ => True
  | .signed task digest => ∃ stdin program cycle_limit vk public_values,
      ExecutedBy past c task stdin program cycle_limit vk public_values ∧
        digest = Server.digest deps vk public_values ∧
        (deps.signDigestRecoverable key digest).isSome
  | .answered request response => Replied deps debugMode key past request response

/-- The past explains where every connection stands, and what has happened. -/
structure Explained (s : Enclave K Stdin) : Prop where
  signing_key : s.server.signing_key = key
  phase : ∀ {c phase}, s.connections c = some phase → phase.Explained deps debugMode key past c
  event : ∀ {c e}, (c, e) ∈ past → e.Explained deps debugMode key past c

variable {deps debugMode key past c} {past' : List (ℕ × Event Stdin)}

/-! ## A longer past explains as much -/

theorem Returned.mono (hsub : past ⊆ past') {task : TaskId} {job : Job Stdin}
    {result : Except Panic EnclaveResponse} (h : Returned deps key past task job result) :
    Returned deps key past' task job result := by
  obtain ⟨nsm, h⟩ := h
  exact ⟨nsm, fun prover hprover => h prover (hprover.mono hsub)⟩

theorem Replied.mono (hsub : past ⊆ past') {request : EnclaveRequest Stdin}
    {response : EnclaveResponse} (h : Replied deps debugMode key past request response) :
    Replied deps debugMode key past' request response := by
  obtain ⟨task, nsm, h⟩ := h
  exact ⟨task, nsm, fun prover hprover => h prover (hprover.mono hsub)⟩

theorem ExecutedBy.mono (hsub : past ⊆ past') {task : TaskId} {stdin : Stdin} {program : Bytes}
    {cycle_limit : UInt64} {vk : Bytes32} {public_values : Bytes}
    (h : ExecutedBy past c task stdin program cycle_limit vk public_values) :
    ExecutedBy past' c task stdin program cycle_limit vk public_values where
  le_max := h.le_max
  setup := hsub h.setup
  run := hsub h.run

theorem Stage.explained_started (task : TaskId) (job : Job Stdin) :
    Stage.Explained deps key past c task job .started := by
  cases job with
  | attestSigningKey => trivial
  | execute => trivial

theorem Stage.explained_returned_iff {task : TaskId} {job : Job Stdin}
    {result : Except Panic EnclaveResponse} :
    Stage.Explained deps key past c task job (.returned result) ↔
      Returned deps key past task job result := by
  cases job with
  | attestSigningKey => exact Iff.rfl
  | execute => exact Iff.rfl

theorem Stage.Explained.mono (hsub : past ⊆ past') {task : TaskId} {job : Job Stdin}
    {stage : Stage} (h : Stage.Explained deps key past c task job stage) :
    Stage.Explained deps key past' c task job stage := by
  cases job with
  | attestSigningKey =>
      cases stage with
      | returned result => exact Returned.mono hsub h
      | _ => trivial
  | execute stdin program cycle_limit =>
      cases stage with
      | started => trivial
      | waiting => exact h
      | guarded => exact h
      | ready vk => exact ⟨h.1, hsub h.2⟩
      | executed vk public_values => exact ExecutedBy.mono hsub h
      | returned result => exact Returned.mono hsub h

theorem Phase.Explained.mono (hsub : past ⊆ past') {phase : Phase Stdin}
    (h : phase.Explained deps debugMode key past c) :
    phase.Explained deps debugMode key past' c := by
  cases phase with
  | receiving => trivial
  | blocked task job stage => exact Stage.Explained.mono hsub h
  | replying request response => exact Replied.mono hsub h
  | closed => trivial

theorem Event.Explained.mono (hsub : past ⊆ past') {e : Event Stdin}
    (h : e.Explained deps debugMode key past c) : e.Explained deps debugMode key past' c := by
  cases e with
  | setup => trivial
  | run => trivial
  | signed task digest =>
      obtain ⟨stdin, program, cycle_limit, vk, public_values, hexecuted, hdigest⟩ := h
      exact ⟨stdin, program, cycle_limit, vk, public_values, hexecuted.mono hsub, hdigest⟩
  | answered request response => exact Replied.mono hsub h

/-! ## A step explains what it does -/

theorem replied_of_send {server : Server K} {message : EnclaveRequest Stdin}
    {response : EnclaveResponse}
    (h : Server.handleMessage deps debugMode server message = .send response) :
    Replied deps debugMode server.signing_key past message response := by
  refine ⟨0, default, fun prover _ => ?_⟩
  have hnew : Server.handleMessage deps debugMode (.new server.signing_key) message =
      .send response := by
    rw [← h]
    cases message <;> rfl
  rw [Server.reply, hnew]

theorem replied_of_returned {task : TaskId} {job : Job Stdin}
    {result : Except Panic EnclaveResponse} (h : Returned deps key past task job result) :
    Replied deps debugMode key past job.request
      (Server.joined deps job (result.mapError fun payload => ⟨task, payload⟩)) := by
  obtain ⟨nsm, h⟩ := h
  refine ⟨task, nsm, fun prover hprover => ?_⟩
  simp only [Server.reply, Server.handleMessage_request, Server.blockingResponse,
    h prover hprover]

theorem returned_of_execute {task : TaskId} {stdin : Stdin} {program : Bytes}
    {cycle_limit : UInt64} {result : Except Panic EnclaveResponse}
    (h : ∀ prover, Conforms prover past →
      (Server.new key).execute deps prover stdin program cycle_limit = result) :
    Returned deps key past task (.execute stdin program cycle_limit) result :=
  ⟨default, h⟩

theorem explained_of_progresses {server : Server K} {fresh : TaskId} {phase : Phase Stdin}
    {input : Input Stdin} {p : Progress Stdin}
    (h : phase.Explained deps debugMode server.signing_key past c)
    (hp : Progresses deps debugMode server fresh phase input p)
    (hsub : past ⊆ past') (hevents : ∀ e ∈ p.events, (c, e) ∈ past') :
    p.phase.Explained deps debugMode server.signing_key past' c ∧
      ∀ e ∈ p.events, e.Explained deps debugMode server.signing_key past' c := by
  have hphase := h.mono hsub
  cases hp with
  | failedRecv | skipped | closing | failedReply => exact ⟨trivial, List.forall_mem_nil _⟩
  | spawned message job => exact ⟨Stage.explained_started fresh job, List.forall_mem_nil _⟩
  | answering message response hsend => exact ⟨replied_of_send hsend, List.forall_mem_nil _⟩
  | refused task stdin program cycle_limit hlimit =>
      exact ⟨returned_of_execute fun _ _ => Server.execute_of_lt deps hlimit,
        List.forall_mem_nil _⟩
  | admitted task stdin program cycle_limit hlimit => exact ⟨hlimit, List.forall_mem_nil _⟩
  | locked => exact ⟨hphase, List.forall_mem_nil _⟩
  | setupDone task stdin program cycle_limit vk =>
      have hsetup := hevents _ (List.mem_singleton_self _)
      exact ⟨⟨hphase, hsetup⟩, List.forall_mem_singleton.mpr trivial⟩
  | setupPanicked task stdin program cycle_limit payload =>
      have hsetup := hevents _ (List.mem_singleton_self _)
      refine ⟨returned_of_execute fun prover hprover => ?_, List.forall_mem_singleton.mpr trivial⟩
      exact Server.execute_of_setup_error deps hphase (hprover _ hsetup)
  | runDone task stdin program cycle_limit vk public_values =>
      have hrun := hevents _ (List.mem_singleton_self _)
      exact ⟨⟨hphase.1, hphase.2, hrun⟩, List.forall_mem_singleton.mpr trivial⟩
  | runFailed task stdin program cycle_limit vk error =>
      have hrun := hevents _ (List.mem_singleton_self _)
      refine ⟨returned_of_execute fun prover hprover => ?_, List.forall_mem_singleton.mpr trivial⟩
      exact Server.execute_of_failed deps hphase.1 (hprover _ hphase.2) (hprover _ hrun)
  | runPanicked task stdin program cycle_limit vk payload =>
      have hrun := hevents _ (List.mem_singleton_self _)
      refine ⟨returned_of_execute fun prover hprover => ?_, List.forall_mem_singleton.mpr trivial⟩
      exact Server.execute_of_run_error deps hphase.1 (hprover _ hphase.2) (hprover _ hrun)
  | signed task stdin program cycle_limit vk public_values =>
      have hexecuted : ExecutedBy past' c task stdin program cycle_limit vk public_values := hphase
      refine ⟨returned_of_execute fun prover hprover => ?_, fun e he => ?_⟩
      · exact Server.execute_of_succeeded deps hexecuted.le_max (hprover _ hexecuted.setup)
          (hprover _ hexecuted.run)
      · obtain ⟨rfl, hsign⟩ := mem_signedEvents he
        exact ⟨stdin, program, cycle_limit, vk, public_values, hexecuted, rfl, hsign⟩
  | attested task nsm => exact ⟨⟨nsm, fun _ _ => rfl⟩, List.forall_mem_nil _⟩
  | joined task job result =>
      exact ⟨replied_of_returned (Stage.explained_returned_iff.mp hphase), List.forall_mem_nil _⟩
  | answered request response => exact ⟨trivial, List.forall_mem_singleton.mpr hphase⟩

theorem eq_or_eq_of_update {connections : ℕ → Option (Phase Stdin)} {d : ℕ}
    {phase phase' : Phase Stdin}
    (h : Function.update connections c (some phase) d = some phase') :
    (d = c ∧ phase = phase') ∨ connections d = some phase' := by
  by_cases hd : d = c
  · rw [hd, Function.update_self] at h
    exact Or.inl ⟨hd, Option.some.inj h⟩
  · rw [Function.update_of_ne hd] at h
    exact Or.inr h

theorem explained_start (key : K) (task : TaskId) :
    Explained deps debugMode key [] (start key task : Enclave K Stdin) where
  signing_key := rfl
  phase h := by cases h
  event h := by cases h

theorem explained_of_step {s s' : Enclave K Stdin} {a : Action Stdin} {es : List (ℕ × Event Stdin)}
    (h : Explained deps debugMode key past s)
    (hstep : (machine deps debugMode).step s a = some (s', es)) :
    Explained deps debugMode key (past ++ es) s' := by
  have hsub : past ⊆ past ++ es := List.subset_append_left past es
  rcases step_cases hstep with ⟨c, -, rfl, rfl⟩ | ⟨c, input, phase, p, hc, hp, rfl, rfl⟩
  · refine ⟨h.signing_key, fun {d phase} hd => ?_, fun he => ?_⟩
    · rcases eq_or_eq_of_update hd with ⟨-, rfl⟩ | hd
      · trivial
      · exact (h.phase hd).mono hsub
    · rw [List.append_nil] at he
      exact (h.event he).mono hsub
  · have hkey := h.signing_key
    subst hkey
    have hevents : ∀ e ∈ p.events, (c, e) ∈ past ++ p.events.map fun e => (c, e) :=
      fun e he => List.mem_append_right past (List.mem_map_of_mem he)
    obtain ⟨hphase, hexplained⟩ := explained_of_progresses (h.phase hc) hp hsub hevents
    refine ⟨rfl, fun {d phase'} hd => ?_, fun {d e} he => ?_⟩
    · rcases eq_or_eq_of_update hd with ⟨rfl, rfl⟩ | hd
      · exact hphase
      · exact (h.phase hd).mono hsub
    · rcases List.mem_append.mp he with hpast | hnew
      · exact (h.event hpast).mono hsub
      · obtain ⟨e', he', hpair⟩ := List.mem_map.mp hnew
        obtain ⟨rfl, rfl⟩ := Prod.mk.inj hpair
        exact hexplained e' he'

/-! ## All runs -/

section Runs

variable {s : Enclave K Stdin} {task : TaskId} {as : List (Action Stdin)}
  {es : List (ℕ × Event Stdin)}

/-- Every run is explained by its events. -/
theorem explained_of_run
    (hrun : (machine deps debugMode).run (start key task) as = some (s, es)) :
    Explained deps debugMode key es s :=
  Machine.run_invariant (I := fun s past => Explained deps debugMode key past s)
    explained_of_step (explained_start key task) hrun

/-- In every run, the guard is held exactly by the one execution in its section. -/
theorem guarded_of_run
    (hrun : (machine deps debugMode).run (start key task) as = some (s, es)) :
    Guarded s.holder s.server.execution_guard :=
  Machine.run_preserves (I := fun s => Guarded s.holder s.server.execution_guard)
    guarded_of_step (guarded_start key task) hrun

end Runs

end Enclave

end Sp1Tee
