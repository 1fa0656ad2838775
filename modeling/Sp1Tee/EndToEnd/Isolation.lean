import Sp1Tee.Enclave.Isolation
import Sp1Tee.Host.Deployment

/-!
# Isolation between connections

What is shown of the enclave for all interleavings of its connections also holds
behind the host, where each execution is forwarded by a handler that a client may
cancel. Cancelling frees the host's mutex while the enclave is still at work, so the
two locks get out of step; the guard of the enclave keeps the executions apart.
-/

namespace Sp1Tee

open Foundation Foundation.Solidity Enclave

/-- Connections are isolated in every run of the enclave, and behind the host in
every run of its handlers. -/
theorem isolation {K Stdin : Type} (deps : Deps K) (debugMode : Bool) (key : K) (task : TaskId) :
    (∀ (as : List (Enclave.Action Stdin)) (s : Enclave K Stdin)
      (es : List (ℕ × Enclave.Event Stdin)),
      (Enclave.machine deps debugMode).run (.start key task) as = some (s, es) →
        Isolated deps debugMode key s es) ∧
    ∀ (as : List (Deployment.Action Stdin)) (d : Deployment K Stdin)
      (es : List ((ℕ × Enclave.Event Stdin) ⊕ Deployment.HostEvent Stdin)),
      (Deployment.machine deps debugMode).run (.start key task) as = some (d, es) →
        Guarded d.holder d.execution_mutex ∧
          Isolated deps debugMode key d.enclave (es.filterMap Sum.getLeft?) := by
  refine ⟨fun as s es hrun => isolated_of_run hrun, fun as d es hrun => ?_⟩
  obtain ⟨as', hrun'⟩ := Deployment.run_enclave hrun
  exact ⟨Deployment.guarded_of_run hrun, isolated_of_run hrun'⟩

/-! One execution panics beside an idle connection. Another one is cancelled while it
has the guard, and the next handler takes the mutex. -/

namespace Panicking

def deps : Deps ℕ := .standard (fun _ _ => none) 1

def prover : Prover Unit where
  setup _ := .error (some "invalid program")
  run _ _ _ := .error none

def request : EnclaveRequest Unit := .Execute () [] 0

/-- A connection is idle while another one executes. -/
def actions : List (Enclave.Action Unit) :=
  [.accept 0, .accept 1, .on 1 (.recv (.ok request)), .on 1 .proceed, .on 1 .proceed,
    .on 1 (.setup (.error (some "invalid program"))), .on 1 .join, .on 1 (.reply (.ok ()))]

def response (task : TaskId) : EnclaveResponse :=
  Server.joined deps (.execute () [] 0) (.error ⟨task, some "invalid program"⟩)

def events : List (ℕ × Enclave.Event Unit) :=
  [(1, .setup 3 [] (.error (some "invalid program"))), (1, .answered request (response 3))]

/-- The client of the handler 0 goes away. -/
def cancelledActions : List (Deployment.Action Unit) :=
  [.arrive 0 (.execute () [] 0), .handler 0 .lock, .handler 0 (.connect (some 0)),
    .handler 0 (.send (.ok ())), .deliver 0, .enclave 0 .proceed, .enclave 0 .proceed,
    .handler 0 .drop, .arrive 1 (.execute () [1] 5), .handler 1 .lock]

end Panicking

open Panicking in
theorem isolation_cancelled :
    (∃ s, (Enclave.machine deps false).run (.start 1 1) actions = some (s, events) ∧
      Isolated deps false 1 s events) ∧
    ∃ d, (Deployment.machine deps false).run (.start 1 1) cancelledActions = some (d, []) ∧
      d.execution_mutex = some 1 ∧ d.enclave.server.execution_guard = some 2 ∧
      Guarded d.holder d.execution_mutex ∧ Isolated deps false 1 d.enclave [] := by
  refine ⟨⟨_, rfl, ?_⟩, ⟨_, rfl, rfl, rfl, ?_⟩⟩
  · exact (isolation deps false 1 1).1 actions _ events rfl
  · exact (isolation deps false 1 1).2 cancelledActions _ [] rfl

open Panicking in
/-- The report of a panic differs from the one that a fresh enclave gives. -/
theorem answered_task_differs :
    (∃ s, (Enclave.machine deps false).run (.start 1 1) actions = some (s, events)) ∧
      Conforms prover events ∧ (1, .answered request (response 3)) ∈ events ∧
      AnsweredAlone deps false 1 1 prover request (response 2) ∧ response 2 ≠ response 3 := by
  refine ⟨⟨_, rfl⟩, ?_, ?_, ?_, by decide +kernel⟩
  · exact List.forall_mem_cons.mpr ⟨rfl, List.forall_mem_singleton.mpr trivial⟩
  · exact List.mem_cons_of_mem _ (List.mem_singleton_self _)
  · exact answeredAlone_of_reply default rfl

end Sp1Tee
