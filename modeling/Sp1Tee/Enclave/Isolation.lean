import Sp1Tee.Enclave.History

/-!
# Connections do not disturb each other

`AnsweredAlone` is the response of a freshly started enclave to a single request on
a single connection. A request that some connection has among others is answered in
the same way: `SameButTask` allows for one difference, which is the number of the
task in the text with which a panic of the prover is reported.
-/

namespace Sp1Tee

open Foundation Foundation.Solidity

/-- Two responses to a request are the same, or report the same panic of the
prover for two tasks. -/
inductive SameButTask {K Stdin : Type} (deps : Deps K) (prover : Prover Stdin) :
    EnclaveRequest Stdin → EnclaveResponse → EnclaveResponse → Prop
  | same (request : EnclaveRequest Stdin) (response : EnclaveResponse) :
      SameButTask deps prover request response response
  | panicked (stdin : Stdin) (program : Bytes) (cycle_limit : UInt64) (payload : Panic)
      (h : prover.PanicsOn stdin program cycle_limit payload) (task task' : TaskId) :
      SameButTask deps prover (.Execute stdin program cycle_limit)
        (Server.joined deps (.execute stdin program cycle_limit) (.error ⟨task, payload⟩))
        (Server.joined deps (.execute stdin program cycle_limit) (.error ⟨task', payload⟩))

variable {K Stdin : Type} {deps : Deps K} {debugMode : Bool}

/-- The replies to a request that does not involve the security module differ at most
in the number of the task. -/
theorem sameButTask_of_reply {server : Server K} {request : EnclaveRequest Stdin}
    (hrequest : request ≠ .AttestSigningKey) {task task' : TaskId} {prover : Prover Stdin}
    {nsm nsm' : Nsm} {response response' : EnclaveResponse}
    (h : server.reply deps debugMode ⟨task, prover, nsm⟩ request = some response)
    (h' : server.reply deps debugMode ⟨task', prover, nsm'⟩ request = some response') :
    SameButTask deps prover request response response' := by
  have hsame : server.reply deps debugMode ⟨task', prover, nsm'⟩ request =
      server.reply deps debugMode ⟨task, prover, nsm⟩ request →
      SameButTask deps prover request response response' := by
    intro heq
    rw [heq, h] at h'
    obtain rfl := Option.some.inj h'
    exact .same request response
  cases request with
  | AttestSigningKey => exact absurd rfl hrequest
  | Execute stdin program cycle_limit =>
      have hresponse : ∀ (task : TaskId) (nsm : Nsm),
          server.reply deps debugMode ⟨task, prover, nsm⟩ (.Execute stdin program cycle_limit) =
            some (Server.joined deps (.execute stdin program cycle_limit)
              ((server.execute deps prover stdin program cycle_limit).mapError
                fun payload => ⟨task, payload⟩)) := fun _ _ => rfl
      cases hexecute : server.execute deps prover stdin program cycle_limit with
      | ok result =>
          rw [hresponse, hresponse, hexecute] at hsame
          exact hsame rfl
      | error payload =>
          rw [hresponse, hexecute] at h h'
          obtain rfl := Option.some.inj h
          obtain rfl := Option.some.inj h'
          exact .panicked stdin program cycle_limit payload
            (Server.panicsOn_of_execute_eq_error deps hexecute) task task'
  | Print text =>
      cases debugMode with
      | false => exact hsame rfl
      | true => cases h
  | _ => exact hsame rfl

theorem exists_reply_of_reply {server : Server K} {request : EnclaveRequest Stdin}
    {calls : Calls Stdin} (calls' : Calls Stdin) {response : EnclaveResponse}
    (h : server.reply deps debugMode calls request = some response) :
    ∃ response', server.reply deps debugMode calls' request = some response' := by
  rw [Server.reply] at h ⊢
  split at h
  · exact ⟨_, rfl⟩
  · exact ⟨_, rfl⟩
  · cases h
  · cases h

namespace Enclave

variable (deps debugMode)

/-- A freshly started enclave, with `task` for its first task, gives this response to
this request alone. -/
def AnsweredAlone (key : K) (task : TaskId) (prover : Prover Stdin)
    (request : EnclaveRequest Stdin) (response : EnclaveResponse) : Prop :=
  ∃ (inputs : List (Input Stdin)) (s : Enclave K Stdin) (es : List (ℕ × Event Stdin)),
    (machine deps debugMode).run (start key task)
      (.accept 0 :: (Input.recv (.ok request) :: inputs).map (.on 0)) = some (s, es) ∧
    (∀ result, .recv result ∉ inputs) ∧ Conforms prover es ∧
    (0, .answered request response) ∈ es

def alone (server : Server K) (phase : Phase Stdin) (task : TaskId) : Enclave K Stdin where
  server := server
  connections := Function.update (fun _ => none) 0 (some phase)
  nextTask := task

/-- A connection that is alone can go on to this response. -/
def Finishes (server : Server K) (phase : Phase Stdin) (task : TaskId) (prover : Prover Stdin)
    (request : EnclaveRequest Stdin) (response : EnclaveResponse) : Prop :=
  ∃ (inputs : List (Input Stdin)) (s : Enclave K Stdin) (es : List (ℕ × Event Stdin)),
    (machine deps debugMode).run (alone server phase task) (inputs.map (.on 0)) = some (s, es) ∧
    (∀ result, .recv result ∉ inputs) ∧ Conforms prover es ∧
    (0, .answered request response) ∈ es

variable {deps debugMode}

/-! ## A connection that is alone -/

theorem step_alone {server : Server K} {phase : Phase Stdin} {task : TaskId} {input : Input Stdin}
    {p : Progress Stdin} (h : progress deps debugMode server task phase input = some p) :
    (machine deps debugMode).step (alone server phase task) (.on 0 input) =
      some (alone { server with execution_guard := p.execution_guard } p.phase (task + p.spawned),
        p.events.map fun e => (0, e)) := by
  simp only [machine, alone, Function.update_self, h, Function.update_idem]

variable {server : Server K} {task fresh : TaskId} {prover : Prover Stdin} {job : Job Stdin}
  {request : EnclaveRequest Stdin} {response : EnclaveResponse}

theorem Finishes.step {phase : Phase Stdin} (input : Input Stdin) (p : Progress Stdin)
    (hp : progress deps debugMode server fresh phase input = some p)
    (hinput : ∀ result, input ≠ .recv result) (hevents : ∀ e ∈ p.events, e.ConformsTo prover)
    (h : Finishes deps debugMode { server with execution_guard := p.execution_guard } p.phase
      (fresh + p.spawned) prover request response) :
    Finishes deps debugMode server phase fresh prover request response := by
  obtain ⟨inputs, s, es, hrun, hrecv, hconforms, hanswered⟩ := h
  refine ⟨input :: inputs, s, _, Machine.run_cons_eq_some.mpr ⟨_, _, _, step_alone hp, hrun, rfl⟩,
    fun result hmem => ?_, fun e he => ?_, List.mem_append_right _ hanswered⟩
  · rcases List.mem_cons.mp hmem with heq | hmem
    · exact hinput result heq.symm
    · exact hrecv result hmem
  · rcases List.mem_append.mp he with hnew | hlater
    · obtain ⟨e', he', rfl⟩ := List.mem_map.mp hnew
      exact hevents e' he'
    · exact hconforms e hlater

theorem finishes_replying (server : Server K) (fresh : TaskId) (prover : Prover Stdin)
    (request : EnclaveRequest Stdin) (response : EnclaveResponse) :
    Finishes deps debugMode server (.replying request response) fresh prover request response := by
  refine ⟨[.reply (.ok ())], _, _,
    Machine.run_cons_eq_some.mpr ⟨_, _, _, step_alone rfl, rfl, rfl⟩, fun result hmem => ?_,
    fun e he => ?_, List.mem_singleton_self _⟩
  · cases List.mem_singleton.mp hmem
  · obtain rfl := List.mem_singleton.mp he
    trivial

theorem finishes_returned (server : Server K) (task fresh : TaskId) (job : Job Stdin)
    (prover : Prover Stdin) (result : Except Panic EnclaveResponse) :
    Finishes deps debugMode server (.blocked task job (.returned result)) fresh prover job.request
      (Server.joined deps job (result.mapError fun payload => ⟨task, payload⟩)) := by
  have hjoin : progress deps debugMode server fresh (.blocked task job (.returned result)) .join =
      some (keep server (.replying job.request
        (Server.joined deps job (result.mapError fun payload => ⟨task, payload⟩))) []) := by
    cases job with
    | attestSigningKey => rfl
    | execute => rfl
  exact .step _ _ hjoin nofun (List.forall_mem_nil _) (finishes_replying _ _ prover _ _)

theorem finishes_execute (key : K) (task fresh : TaskId) (stdin : Stdin) (program : Bytes)
    (cycle_limit : UInt64) (prover : Prover Stdin) :
    Finishes deps debugMode (.new key) (.blocked task (.execute stdin program cycle_limit) .started)
      fresh prover (.Execute stdin program cycle_limit)
      (Server.joined deps (.execute stdin program cycle_limit)
        (((Server.new key).execute deps prover stdin program cycle_limit).mapError
          fun payload => ⟨task, payload⟩)) := by
  let stage : Stage → Phase Stdin := .blocked task (.execute stdin program cycle_limit)
  have hreturned : ∀ result, Finishes deps debugMode (.new key) (stage (.returned result)) fresh
      prover (.Execute stdin program cycle_limit) (Server.joined deps
        (.execute stdin program cycle_limit) (result.mapError fun payload => ⟨task, payload⟩)) :=
    finishes_returned (.new key) task fresh (.execute stdin program cycle_limit) prover
  by_cases hlimit : cycle_limit ≤ MAX_ALLOWED_CYCLES
  · have hadmitted : progress deps debugMode (.new key) fresh (stage .started) .proceed =
        some (keep (.new key) (stage .waiting) []) := if_neg (UInt64.not_lt.mpr hlimit)
    refine .step _ _ hadmitted nofun (List.forall_mem_nil _) ?_
    refine .step .proceed { keep (.new key) (stage .guarded) [] with execution_guard := some task }
      rfl nofun (List.forall_mem_nil _) ?_
    cases hsetup : prover.setup program with
    | error payload =>
        rw [Server.execute_of_setup_error deps hlimit hsetup]
        exact .step (.setup (.error payload)) _ rfl nofun (List.forall_mem_singleton.mpr hsetup)
          (hreturned (.error payload))
    | ok vk =>
        refine .step (.setup (.ok vk)) _ rfl nofun (List.forall_mem_singleton.mpr hsetup) ?_
        cases hrun : prover.run program stdin cycle_limit with
        | error payload =>
            rw [Server.execute_of_run_error deps hlimit hsetup hrun]
            exact .step (.run (.error payload)) _ rfl nofun (List.forall_mem_singleton.mpr hrun)
              (hreturned (.error payload))
        | ok result =>
            cases result with
            | error e =>
                rw [Server.execute_of_failed deps hlimit hsetup hrun]
                exact .step (.run (.ok (.error e))) _ rfl nofun
                  (List.forall_mem_singleton.mpr hrun) (hreturned (.ok (Server.executeError e)))
            | ok public_values =>
                rw [Server.execute_of_succeeded deps hlimit hsetup hrun]
                refine .step (.run (.ok (.ok public_values))) _ rfl nofun
                  (List.forall_mem_singleton.mpr hrun) ?_
                refine .step .proceed _ rfl nofun (fun e he => ?_) (hreturned (.ok _))
                obtain ⟨rfl, -⟩ := mem_signedEvents he
                trivial
  · have hrefused : progress deps debugMode (.new key) fresh (stage .started) .proceed =
        some (keep (.new key) (stage (.returned (.ok (Server.cycleLimitError cycle_limit)))) []) :=
      if_pos (UInt64.not_le.mp hlimit)
    rw [Server.execute_of_lt deps (UInt64.not_le.mp hlimit)]
    exact .step _ _ hrefused nofun (List.forall_mem_nil _)
      (hreturned (.ok (Server.cycleLimitError cycle_limit)))

theorem finishes_started (key : K) (task fresh : TaskId) (job : Job Stdin) (prover : Prover Stdin)
    (nsm : Nsm) :
    Finishes deps debugMode (.new key) (.blocked task job .started) fresh prover job.request
      ((Server.new key).blockingResponse deps ⟨task, prover, nsm⟩ job) := by
  cases job with
  | attestSigningKey =>
      exact .step (.attest nsm) _ rfl nofun (List.forall_mem_nil _)
        (finishes_returned (.new key) task fresh .attestSigningKey prover
          ((Server.new key).attestSigningKey deps nsm))
  | execute stdin program cycle_limit =>
      exact finishes_execute key task fresh stdin program cycle_limit prover

theorem answeredAlone_of_finishes {key : K} (p : Progress Stdin)
    (hp : progress deps debugMode (.new key) (task + 1) .receiving (.recv (.ok request)) = some p)
    (hevents : p.events = [])
    (h : Finishes deps debugMode ⟨key, p.execution_guard⟩ p.phase (task + 1 + p.spawned) prover
      request response) :
    AnsweredAlone deps debugMode key task prover request response := by
  obtain ⟨inputs, s, es, hrun, hrecv, hconforms, hanswered⟩ := h
  have hstep := step_alone hp
  rw [hevents] at hstep
  have hreceived := Machine.run_cons_eq_some.mpr ⟨_, [], es, hstep, hrun, rfl⟩
  exact ⟨inputs, s, es, Machine.run_cons_eq_some.mpr
    ⟨alone (.new key) .receiving (task + 1), [], es, rfl, hreceived, rfl⟩, hrecv, hconforms,
    hanswered⟩

theorem answeredAlone_of_reply {key : K} (nsm : Nsm)
    (h : (Server.new key).reply deps debugMode ⟨task + 1, prover, nsm⟩ request = some response) :
    AnsweredAlone deps debugMode key task prover request response := by
  cases hmessage : Server.handleMessage deps debugMode (.new key) request with
  | skip => simp [Server.reply, hmessage] at h
  | close => simp [Server.reply, hmessage] at h
  | send r =>
      simp only [Server.reply, hmessage, Option.some.injEq] at h
      subst h
      refine answeredAlone_of_finishes (keep (.new key) (.replying request r) []) ?_ rfl
        (finishes_replying _ _ prover request r)
      simp only [progress, hmessage]
  | spawnBlocking job =>
      simp only [Server.reply, hmessage, Option.some.injEq] at h
      subst h
      obtain rfl := Server.request_of_handleMessage hmessage
      refine answeredAlone_of_finishes
        { keep (.new key) (.blocked (task + 1) job .started) [] with spawned := 1 } ?_ rfl
        (finishes_started key (task + 1) _ job prover nsm)
      simp only [progress, hmessage]

/-- In every run of an enclave whose prover is deterministic, a connection that asks for
anything but an attestation gets the response that a fresh enclave with the same key
gives to this request alone, up to the task in the report of a panic. -/
theorem answered_isolated {key : K} {s : Enclave K Stdin} {as : List (Action Stdin)}
    {es : List (ℕ × Event Stdin)}
    (hrun : (machine deps debugMode).run (start key task) as = some (s, es))
    (hconforms : Conforms prover es) {c : ℕ} (hanswered : (c, .answered request response) ∈ es)
    (hrequest : request ≠ .AttestSigningKey) (task' : TaskId) :
    (∃ response', AnsweredAlone deps debugMode key task' prover request response') ∧
      ∀ response', AnsweredAlone deps debugMode key task' prover request response' →
        SameButTask deps prover request response response' := by
  obtain ⟨t, nsm, hreplied⟩ := (explained_of_run hrun).event hanswered
  have hreply := hreplied prover hconforms
  refine ⟨?_, ?_⟩
  · obtain ⟨response', hreply'⟩ := exists_reply_of_reply ⟨task' + 1, prover, nsm⟩ hreply
    exact ⟨response', answeredAlone_of_reply nsm hreply'⟩
  · rintro response' ⟨inputs, s', es', hrun', -, hconforms', hanswered'⟩
    obtain ⟨t', nsm', hreplied'⟩ := (explained_of_run hrun').event hanswered'
    exact sameButTask_of_reply hrequest hreply (hreplied' prover hconforms')

variable (deps debugMode) in
/-- What holds of an enclave with the key `key` after the events `es`. -/
structure Isolated (key : K) (s : Enclave K Stdin) (es : List (ℕ × Event Stdin)) : Prop where
  /-- At most one execution is in the section of the guard, and the guard is free if
  none is. -/
  guarded : Guarded s.holder s.server.execution_guard
  signing_key : s.server.signing_key = key
  /-- Responses are those of a fresh enclave. -/
  answered : ∀ prover, Conforms prover es → ∀ c request response,
    (c, .answered request response) ∈ es → request ≠ .AttestSigningKey → ∀ task,
      (∃ response', AnsweredAlone deps debugMode key task prover request response') ∧
        ∀ response', AnsweredAlone deps debugMode key task prover request response' →
          SameButTask deps prover request response response'

theorem isolated_of_run {key : K} {s : Enclave K Stdin} {as : List (Action Stdin)}
    {es : List (ℕ × Event Stdin)}
    (hrun : (machine deps debugMode).run (start key task) as = some (s, es)) :
    Isolated deps debugMode key s es where
  guarded := guarded_of_run hrun
  signing_key := (explained_of_run hrun).signing_key
  answered _ hconforms _ _ _ hanswered hrequest :=
    answered_isolated hrun hconforms hanswered hrequest

end Enclave

end Sp1Tee
