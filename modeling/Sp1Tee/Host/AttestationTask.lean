import Sp1Tee.Foundation.Pacer
import Sp1Tee.Host.Delivery

/-!
# The task that saves attestations

`spawn_attestation_task` runs one session of `save_attestation` after another, for as long
as the host runs. A session that failed is followed by another one soon, and one that
succeeded by the next tick of an interval. `AttestationTask.machine` interleaves the task
with the deployment and with a clock, and stamps every event with the time.

A `Session` is the whole trace of one session. The task leaves a sequence of them, beside
the beginning of the one that it is in.
-/

namespace Sp1Tee

open Foundation Foundation.Solidity Host

namespace Host

/-- A time in nanoseconds. -/
def Duration.fromSecs (secs : ℕ) : ℕ := secs * 1000000000

def ATTESTATION_INTERVAL : ℕ := Duration.fromSecs (30 * 60)

/-- The time to sleep before the first session, and after one that failed. -/
def TRY_AGAIN_INTERVAL : ℕ := Duration.fromSecs 5

/-- Whether a session that returns has saved the attestation. -/
def SaveEvent.outcome : SaveEvent → Option Bool
  | .returned (.ok ()) => some true
  | .returned (.error _) => some false
  | _ => none

end Host

namespace Deployment

variable {K Stdin : Type} {deps : Deps K} {debugMode : Bool} {keccak256 : Bytes → Bytes32}
  {d d' : Deployment K Stdin} {stage stage' : SaveStage} {input : SaveInput} {es : List SaveEvent}

/-- A step in which a session goes on, or its last one, at which it returns. -/
inductive Steps (stage' : SaveStage) : List SaveEvent → Prop
  | goesOn (es : List SaveEvent) (hstage : stage' ≠ .ended)
      (hes : ∀ result, .returned result ∉ es) : Steps stage' es
  | returns (es : List SaveEvent) (result : Except SaveAttestationError Unit)
      (hstage : stage' = .ended) (hes : ∀ result, .returned result ∉ es)
      (hput : result = .ok () → ∃ key body, .put key body ∈ es) :
      Steps stage' (es ++ [.returned result])

/-- Unless it is dropped, a session returns when it ends. -/
theorem steps_of_saveAttestation
    (h : d.saveAttestation deps debugMode keccak256 stage input = some (d', stage', es))
    (hinput : input ≠ .drop) : Steps stage' es := by
  have hreturns : ∀ e, Steps .ended [.returned (.error e)] := fun e =>
    .returns [] (.error e) rfl (by simp) (by simp)
  unfold saveAttestation at h
  split at h
  · rw [connectSession] at h
    split at h
    · cases h
    · cases h
      exact .goesOn [] (by simp) (by simp)
  · cases h
    exact hreturns _
  · cases h
    exact .goesOn [] (by simp) (by simp)
  · cases h
    exact hreturns _
  · cases h
    exact .goesOn [] (by simp) (by simp)
  · cases h
    exact hreturns _
  · rw [takeAttestation] at h
    split at h
    · cases h
    · next response d₁ hresponse =>
      split at h
      · cases h
        exact .goesOn _ (by simp) (by simp)
      · next e he =>
        cases h
        exact .returns [.received response] (.error e) rfl (by simp) (by simp)
  · cases h
    exact hreturns _
  · rw [takePublicKey] at h
    split at h
    · cases h
    · next response d₁ hresponse =>
      split at h
      · cases h
        exact .goesOn _ (by simp) (by simp)
      · next e he =>
        cases h
        exact .returns [.received response] (.error e) rfl (by simp) (by simp)
  · cases h
    exact hreturns _
  · next c key attestation result =>
    cases h
    exact .returns [.put key attestation] _ rfl (by simp)
      fun _ => ⟨key, attestation, List.mem_singleton_self _⟩
  · cases h
  · exact absurd rfl hinput
  · cases h

end Deployment

/-- The task, and the deployment that it belongs to. -/
structure AttestationTask (K Stdin : Type) where
  saving : Saving K Stdin
  pacer : Pacer
  /-- The sessions that have returned, and the index of the one that comes next. -/
  session : ℕ

namespace AttestationTask

inductive Action (Stdin : Type)
  | elapse (time : ℕ)
  /-- A sleep or the wait for a tick is over. -/
  | wake
  | saving (a : Saving.Action Stdin)

abbrev Event (Stdin : Type) := ℕ × Saving.Event Stdin

variable {K Stdin : Type}

/-- The task is in one session at a time, and nothing drops it. -/
def permits (s : AttestationTask K Stdin) : Saving.Action Stdin → Bool
  | .deployment _ => true
  | .session _ .drop => false
  | .session i _ => s.pacer.stage == .working && i == s.session

/-- Whether one of the events is the return of a session, and what it returned. -/
def returned (es : List (Saving.Event Stdin)) : Option Bool :=
  es.findSome? fun e => e.getRight?.bind fun e => e.2.outcome

variable (deps : Deps K) (debugMode : Bool) (keccak256 : Bytes → Bytes32)

def start (key : K) (task : TaskId) : AttestationTask K Stdin where
  saving := .start key task
  pacer := .start
  session := 0

/-- A step, with sessions that are `interval` apart. -/
def machine (interval : ℕ) : Machine (AttestationTask K Stdin) (Action Stdin) (Event Stdin) where
  step s a :=
    match a with
    | .elapse time =>
      match (Pacer.machine TRY_AGAIN_INTERVAL interval).step s.pacer (.elapse time) with
      | none => none
      | some (pacer, _) => some ({ s with pacer := pacer }, [])
    | .wake =>
      match (Pacer.machine TRY_AGAIN_INTERVAL interval).step s.pacer .wake with
      | none => none
      | some (pacer, _) => some ({ s with pacer := pacer }, [])
    | .saving a =>
      if s.permits a then
        match (Saving.machine deps debugMode keccak256).step s.saving a with
        | none => none
        | some (saving, es) =>
          match returned es with
          | none => some ({ s with saving := saving }, es.map fun e => (s.pacer.now, e))
          | some ok =>
            match (Pacer.machine TRY_AGAIN_INTERVAL interval).step s.pacer (.finish ok) with
            | none => none
            | some (pacer, _) =>
              some ({ saving := saving, pacer := pacer, session := s.session + 1 },
                es.map fun e => (s.pacer.now, e))
      else none

def sessionEvents (es : List (Event Stdin)) : List (ℕ × SaveEvent) :=
  (es.map Prod.snd).filterMap Sum.getRight?

/-- When each session returned, and whether it had saved the attestation. -/
def attempts (es : List (Event Stdin)) : List (ℕ × Bool) :=
  es.filterMap fun e => (e.2.getRight?.bind fun e => e.2.outcome).map fun ok => (e.1, ok)

variable {deps debugMode keccak256} {interval : ℕ} {s s' : AttestationTask K Stdin}

/-- What a step can do to the task: it is a step of the clock alone, of the deployment, or
of the session that the task is in. -/
inductive Steps (deps : Deps K) (debugMode : Bool) (keccak256 : Bytes → Bytes32) (interval : ℕ)
    (s : AttestationTask K Stdin) : AttestationTask K Stdin → List (Event Stdin) → Prop
  | clock (a : Pacer.Action) (pacer : Pacer)
      (h : (Pacer.machine TRY_AGAIN_INTERVAL interval).step s.pacer a = some (pacer, [])) :
      Steps deps debugMode keccak256 interval s { s with pacer := pacer } []
  | deployment (a : Deployment.Action Stdin) (d : Deployment K Stdin)
      (es : List ((ℕ × Enclave.Event Stdin) ⊕ Deployment.HostEvent Stdin))
      (h : (Deployment.machine deps debugMode).step s.saving.deployment a = some (d, es)) :
      Steps deps debugMode keccak256 interval s
        { s with saving := { s.saving with deployment := d } }
        (es.map fun e => (s.pacer.now, .inl e))
  | goesOn (d : Deployment K Stdin) (stage : SaveStage) (es : List SaveEvent)
      (hworking : s.pacer.stage = .working)
      (h : Deployment.Saves deps debugMode keccak256 s.saving.deployment
        (s.saving.sessions s.session) d stage es)
      (hstage : stage ≠ .ended) (hes : ∀ result, .returned result ∉ es) :
      Steps deps debugMode keccak256 interval s
        { s with saving :=
          { deployment := d, sessions := Function.update s.saving.sessions s.session stage } }
        (es.map fun e => (s.pacer.now, .inr (s.session, e)))
  | returns (d : Deployment K Stdin) (es : List SaveEvent)
      (result : Except SaveAttestationError Unit) (ok : Bool)
      (hworking : s.pacer.stage = .working)
      (h : Deployment.Saves deps debugMode keccak256 s.saving.deployment
        (s.saving.sessions s.session) d .ended (es ++ [.returned result]))
      (hes : ∀ result, .returned result ∉ es)
      (hok : SaveEvent.outcome (.returned result) = some ok)
      (hput : ok = true → ∃ key body, .put key body ∈ es) :
      Steps deps debugMode keccak256 interval s
        { saving :=
            { deployment := d, sessions := Function.update s.saving.sessions s.session .ended },
          pacer := s.pacer.finish ok,
          session := s.session + 1 }
        ((es ++ [SaveEvent.returned result]).map fun e => (s.pacer.now, .inr (s.session, e)))

theorem outcome_of_not_returned {es : List SaveEvent} (hes : ∀ result, .returned result ∉ es) :
    ∀ e ∈ es, e.outcome = none := by
  intro e he
  cases e with
  | returned result => exact absurd he (hes result)
  | _ => rfl

theorem returned_of_not_returned (i : ℕ) {es : List SaveEvent}
    (hes : ∀ result, .returned result ∉ es) :
    returned (es.map fun e => .inr (i, e) : List (Saving.Event Stdin)) = none := by
  rw [returned, List.findSome?_map, List.findSome?_eq_none_iff]
  exact outcome_of_not_returned hes

theorem returned_append (i : ℕ) {es : List SaveEvent} (hes : ∀ result, .returned result ∉ es)
    (result : Except SaveAttestationError Unit) :
    returned ((es ++ [SaveEvent.returned result]).map fun e => .inr (i, e) :
        List (Saving.Event Stdin)) =
      SaveEvent.outcome (.returned result) := by
  have hnone : returned (es.map fun e => .inr (i, e) : List (Saving.Event Stdin)) = none :=
    returned_of_not_returned i hes
  rw [returned] at hnone ⊢
  rw [List.map_append, List.findSome?_append, hnone, Option.none_or]
  cases result <;> rfl

theorem exists_outcome (result : Except SaveAttestationError Unit) :
    ∃ ok, SaveEvent.outcome (.returned result) = some ok ∧ (ok = true ↔ result = .ok ()) := by
  cases result with
  | ok _ => exact ⟨true, rfl, by simp⟩
  | error e => exact ⟨false, rfl, by simp⟩

theorem steps_of_step {a : Action Stdin} {es : List (Event Stdin)}
    (hstep : (machine deps debugMode keccak256 interval).step s a = some (s', es)) :
    Steps deps debugMode keccak256 interval s s' es := by
  cases a with
  | elapse time =>
      cases hstep
      exact .clock (.elapse time) _ rfl
  | wake =>
      simp only [machine] at hstep
      split at hstep
      · cases hstep
      · next pacer es' hwake =>
        cases hstep
        obtain rfl : es' = [] := by
          rcases Pacer.step_cases hwake with ⟨_, h, -⟩ | ⟨_, -, -, -, -, h⟩ | ⟨_, h, -⟩
          · cases h
          · exact h
          · cases h
        exact .clock .wake pacer hwake
  | saving a =>
      simp only [machine] at hstep
      split at hstep
      · next hpermits =>
        cases a with
        | deployment a =>
            cases hd : (Deployment.machine deps debugMode).step s.saving.deployment a with
            | none => simp [Saving.machine, hd] at hstep
            | some r =>
                have hnone : returned (r.2.map .inl : List (Saving.Event Stdin)) = none := by
                  simp [returned, List.findSome?_map, Function.comp_def]
                simp only [Saving.machine, hd, hnone] at hstep
                cases hstep
                rw [List.map_map]
                exact .deployment a r.1 r.2 hd
        | session i input =>
            have hinput : input ≠ .drop := by
              rintro rfl
              cases hpermits
            have hhere : s.pacer.stage = .working ∧ i = s.session := by
              cases input with
              | drop => exact absurd rfl hinput
              | _ => simpa [permits] using hpermits
            obtain ⟨hworking, rfl⟩ := hhere
            cases hd : s.saving.deployment.saveAttestation deps debugMode keccak256
                (s.saving.sessions s.session) input with
            | none => simp [Saving.machine, hd] at hstep
            | some r =>
                obtain ⟨d, stage, es'⟩ := r
                have hsaves := Deployment.saves_of_saveAttestation hd
                simp only [Saving.machine, hd] at hstep
                cases Deployment.steps_of_saveAttestation hd hinput with
                | goesOn _ hstage hes =>
                    simp only [returned_of_not_returned _ hes] at hstep
                    cases hstep
                    rw [List.map_map]
                    exact .goesOn d stage es' hworking hsaves hstage hes
                | returns es' result hstage hes hput =>
                    subst hstage
                    obtain ⟨ok, hok, hiff⟩ := exists_outcome result
                    simp only [returned_append _ hes, hok, Pacer.machine, hworking] at hstep
                    cases hstep
                    rw [List.map_map]
                    exact .returns d es' result ok hworking hsaves hes hok
                      fun h => hput (hiff.mp h)
      · cases hstep

/-! ## The task as a worker -/

theorem attempts_append (es es' : List (Event Stdin)) :
    attempts (es ++ es') = attempts es ++ attempts es' := List.filterMap_append

theorem attempts_of_not_returned (time i : ℕ) {es : List SaveEvent}
    (hes : ∀ result, .returned result ∉ es) :
    attempts (es.map fun e => (time, .inr (i, e)) : List (Event Stdin)) = [] := by
  rw [attempts, List.filterMap_map, List.filterMap_eq_nil_iff]
  intro e he
  simp [outcome_of_not_returned hes e he]

/-- A step of the task is one of its pacer, or it leaves the pacer alone. -/
theorem pacer_of_steps {es : List (Event Stdin)}
    (h : Steps deps debugMode keccak256 interval s s' es) :
    (s'.pacer = s.pacer ∧ attempts es = []) ∨
      ∃ a, (Pacer.machine TRY_AGAIN_INTERVAL interval).step s.pacer a =
        some (s'.pacer, attempts es) := by
  cases h with
  | clock a pacer h => exact Or.inr ⟨a, h⟩
  | deployment a d es h =>
      exact Or.inl ⟨rfl, by simp [attempts, List.filterMap_map, Function.comp_def]⟩
  | goesOn d stage es hworking h hstage hes =>
      exact Or.inl ⟨rfl, attempts_of_not_returned _ _ hes⟩
  | returns d es result ok hworking h hes hok hput =>
      refine Or.inr ⟨.finish ok, ?_⟩
      rw [List.map_append, attempts_append, attempts_of_not_returned _ _ hes, List.nil_append]
      simp [Pacer.machine, hworking, attempts, hok]

theorem paced_of_run {key : K} {task : TaskId} {as : List (Action Stdin)} {es : List (Event Stdin)}
    (hrun : (machine deps debugMode keccak256 interval).run (start key task) as = some (s, es)) :
    Pacer.Paced TRY_AGAIN_INTERVAL interval s.pacer (attempts es) := by
  obtain ⟨as', has'⟩ : ∃ as', (Pacer.machine TRY_AGAIN_INTERVAL interval).run .start as' =
      some (s.pacer, attempts es) :=
    Machine.run_project AttestationTask.pacer _
      (fun hstep => pacer_of_steps (steps_of_step hstep)) hrun
  exact Pacer.paced_of_run has'

/-! ## One session after another -/

/-- The whole trace of a session: it ends when it returns, what it has written is explained
by what it has read, and if it did not fail it has written something. -/
inductive Session (keccak256 : Bytes → Bytes32) (i : ℕ) : List (ℕ × SaveEvent) → Prop
  | mk (es : List SaveEvent) (result : Except SaveAttestationError Unit)
      (hes : ∀ result, .returned result ∉ es)
      (hwritten : ∀ object_key document, .put object_key document ∈ es →
        Deployment.Written keccak256 (es ++ [.returned result]) object_key document)
      (hput : result = .ok () → ∃ object_key document, .put object_key document ∈ es) :
      Session keccak256 i ((es ++ [SaveEvent.returned result]).map fun e => (i, e))

theorem sessionEvents_append (es es' : List (Event Stdin)) :
    sessionEvents (es ++ es') = sessionEvents es ++ sessionEvents es' := by
  rw [sessionEvents, List.map_append, List.filterMap_append]
  rfl

theorem sessionEvents_session (time i : ℕ) (es : List SaveEvent) :
    sessionEvents (es.map fun e => (time, .inr (i, e)) : List (Event Stdin)) =
      es.map fun e => (i, e) := by
  rw [sessionEvents, List.map_map, List.filterMap_map, ← List.filterMap_eq_map]
  rfl

/-- The sessions up to now: those that have returned, and the one that the task is in. -/
structure Sequential (keccak256 : Bytes → Bytes32) (s : AttestationTask K Stdin)
    (past : List (Event Stdin)) (done : List (ℕ × SaveEvent)) (trace : List SaveEvent) : Prop where
  blocks : Blocks (Session keccak256) (List.range s.session) done
  events : sessionEvents past = done ++ trace.map fun e => (s.session, e)
  recorded : Deployment.Recorded keccak256 trace (s.saving.sessions s.session)
  unreturned : ∀ result, .returned result ∉ trace
  idle : s.pacer.stage ≠ .working → trace = []
  ended : ∀ i, i < s.session → s.saving.sessions i = .ended
  later : ∀ i, s.session < i → s.saving.sessions i = .connecting
  next : s.pacer.stage ≠ .working → s.saving.sessions s.session = .connecting

variable {past es : List (Event Stdin)} {done : List (ℕ × SaveEvent)} {trace : List SaveEvent}

theorem sequential_start (key : K) (task : TaskId) :
    Sequential keccak256 (start key task : AttestationTask K Stdin) [] [] [] where
  blocks := .nil
  events := rfl
  recorded := rfl
  unreturned := nofun
  idle _ := rfl
  ended := nofun
  later _ _ := rfl
  next _ := rfl

theorem sequential_of_steps (hs : Sequential keccak256 s past done trace)
    (h : Steps deps debugMode keccak256 interval s s' es) :
    ∃ done trace, Sequential keccak256 s' (past ++ es) done trace := by
  cases h with
  | clock a pacer h =>
      rw [List.append_nil]
      rcases Pacer.step_cases h with
        ⟨time, -, rfl, -⟩ | ⟨time, -, hdue, -, rfl, -⟩ | ⟨ok, -, -, -, hes⟩
      · exact ⟨done, trace, ⟨hs.blocks, hs.events, hs.recorded, hs.unreturned, hs.idle, hs.ended,
          hs.later, hs.next⟩⟩
      · exact ⟨done, trace, ⟨hs.blocks, hs.events, hs.recorded, hs.unreturned, nofun, hs.ended,
          hs.later, nofun⟩⟩
      · cases hes
  | deployment a d es h =>
      refine ⟨done, trace, ⟨hs.blocks, ?_, hs.recorded, hs.unreturned, hs.idle, hs.ended,
        hs.later, hs.next⟩⟩
      rw [sessionEvents_append, hs.events]
      simp [sessionEvents, List.filterMap_map, Function.comp_def]
  | goesOn d stage es hworking h hstage hes =>
      have hrecorded := Deployment.recorded_of_saves hs.recorded h
      rw [← Function.update_self s.session stage s.saving.sessions] at hrecorded
      refine ⟨done, trace ++ es, ⟨hs.blocks, ?_, hrecorded, fun result hmem => ?_,
        fun hne => absurd hworking hne, fun i hi => ?_, fun i hi => ?_,
        fun hne => absurd hworking hne⟩⟩
      · rw [sessionEvents_append, sessionEvents_session, hs.events, List.map_append,
          List.append_assoc]
      · exact (List.mem_append.mp hmem).elim (hs.unreturned result) (hes result)
      · exact (Function.update_of_ne (Nat.ne_of_lt hi) _ _).trans (hs.ended i hi)
      · exact (Function.update_of_ne (Nat.ne_of_gt hi) _ _).trans (hs.later i hi)
  | returns d es result ok hworking h hes hok hput =>
      have hrecorded := Deployment.recorded_of_saves hs.recorded h
      rw [← List.append_assoc] at hrecorded
      have hsession : Session keccak256 s.session
          (((trace ++ es) ++ [SaveEvent.returned result]).map fun e => (s.session, e)) := by
        refine .mk (trace ++ es) result (fun result hmem => ?_) (fun object_key document hmem => ?_)
          fun hresult => ?_
        · exact (List.mem_append.mp hmem).elim (hs.unreturned result) (hes result)
        · exact hrecorded object_key document (List.mem_append_left _ hmem)
        · subst hresult
          obtain ⟨object_key, document, hmem⟩ := hput (Option.some.inj hok).symm
          exact ⟨object_key, document, List.mem_append_right _ hmem⟩
      have hlater : ∀ i, s.session + 1 ≤ i →
          Function.update s.saving.sessions s.session .ended i = .connecting := fun i hi =>
        (Function.update_of_ne (Nat.ne_of_gt hi) _ _).trans (hs.later i hi)
      have hnext := hlater (s.session + 1) (Nat.le_refl _)
      refine ⟨done ++ ((trace ++ es) ++ [SaveEvent.returned result]).map fun e => (s.session, e),
        [], ⟨?_, ?_, ?_, nofun, fun _ => rfl, fun i hi => ?_,
          fun i hi => hlater i (Nat.le_of_lt hi), fun _ => hnext⟩⟩
      · rw [List.range_succ]
        exact .snoc hs.blocks hsession (by simp)
      · rw [sessionEvents_append, sessionEvents_session, hs.events]
        simp
      · show Deployment.Recorded keccak256 []
          (Function.update s.saving.sessions s.session .ended (s.session + 1))
        rw [hnext]
        rfl
      · rcases Nat.lt_succ_iff_lt_or_eq.mp hi with hold | rfl
        · exact (Function.update_of_ne (Nat.ne_of_lt hold) _ _).trans (hs.ended i hold)
        · exact Function.update_self _ _ _

theorem exists_sequential_of_run {key : K} {task : TaskId} {as : List (Action Stdin)}
    (hrun : (machine deps debugMode keccak256 interval).run (start key task) as = some (s, es)) :
    ∃ done trace, Sequential keccak256 s es done trace :=
  Machine.run_invariant (I := fun s past => ∃ done trace, Sequential keccak256 s past done trace)
    (fun {s s' a past es} h hstep => by
      obtain ⟨done, trace, hs⟩ := h
      exact sequential_of_steps hs (steps_of_step hstep))
    ⟨[], [], sequential_start key task⟩ hrun

/-- In every run, the task is in one session at a time: what the sessions have done is a
sequence of whole sessions, followed by what the one has done that the task is in, and no
other session has a connection to the enclave. -/
theorem sessions_of_run (deps : Deps K) (debugMode : Bool) (keccak256 : Bytes → Bytes32)
    (interval : ℕ) (key : K) (task : TaskId) {as : List (Action Stdin)}
    (hrun : (machine deps debugMode keccak256 interval).run (start key task) as = some (s, es)) :
    ∃ done trace, Blocks (Session keccak256) (List.range s.session) done ∧
      sessionEvents es = done ++ trace.map (fun e => (s.session, e)) ∧
      (∀ result, .returned result ∉ trace) ∧
      (s.pacer.stage ≠ .working → trace = []) ∧
      ∀ i c, (s.saving.sessions i).connection = some c →
        i = s.session ∧ s.pacer.stage = .working := by
  obtain ⟨done, trace, hs⟩ := exists_sequential_of_run hrun
  refine ⟨done, trace, hs.blocks, hs.events, hs.unreturned, hs.idle, fun i c hc => ?_⟩
  have hi : i = s.session := by
    rcases Nat.lt_trichotomy i s.session with hlt | heq | hgt
    · rw [hs.ended i hlt] at hc
      cases hc
    · exact heq
    · rw [hs.later i hgt] at hc
      cases hc
  subst hi
  refine ⟨rfl, Classical.byContradiction fun hne => ?_⟩
  rw [hs.next hne] at hc
  cases hc

/-! The enclave is not up yet at the first session, the second one saves an attestation, and
the third one is connected. -/

def taskNsm : Nsm where
  init := 0
  processRequest _ := .ok (.Attestation [1])

def taskActions : List (Action Unit) :=
  [.elapse TRY_AGAIN_INTERVAL, .wake,
    .saving (.session 0 (.connect (.error (.Io (.other "refused"))))), .elapse 6000000000, .wake] ++
  [.session 1 (.connect (.ok 0)), .session 1 (.send (.ok ())), .session 1 (.send (.ok ())),
    .deployment (.deliver 0), .deployment (.enclave 0 (.attest taskNsm)),
    .deployment (.enclave 0 .join), .deployment (.enclave 0 (.reply (.ok ()))),
    .session 1 (.recv (.ok ())), .deployment (.deliver 0),
    .deployment (.enclave 0 (.reply (.ok ()))), .session 1 (.recv (.ok ())),
    .session 1 (.put (.ok ()))].map .saving ++
  [.wake, .saving (.session 2 (.connect (.ok 1)))]

theorem run_taskActions :
    ∃ s es, (machine (.standard (fun _ _ => none) 1) false (fun _ => 0) ATTESTATION_INTERVAL).run
        (start 1 1) taskActions = some (s, es) ∧
      s.session = 2 ∧ s.pacer.now = 11000000000 ∧
      attempts es = [(5000000000, false), (11000000000, true)] ∧
      (s.saving.sessions 2).connection = some 1 := by
  have hrun : ((machine (.standard (fun _ _ => none) 1) false (fun _ => 0)
      ATTESTATION_INTERVAL).run (start 1 1) taskActions).map (fun r => decide
        (r.1.session = 2 ∧ r.1.pacer.now = 11000000000 ∧
          attempts r.2 = [(5000000000, false), (11000000000, true)] ∧
          (r.1.saving.sessions 2).connection = some 1)) = some true := by
    decide +kernel
  obtain ⟨⟨s, es⟩, hs, hfacts⟩ := Option.map_eq_some_iff.mp hrun
  exact ⟨s, es, hs, of_decide_eq_true hfacts⟩

theorem sessions_of_run_task :
    ∃ s es, (machine (.standard (fun _ _ => none) 1) false (fun _ => 0) ATTESTATION_INTERVAL).run
        (start 1 1) taskActions = some (s, es) ∧
      attempts es = [(5000000000, false), (11000000000, true)] ∧
      ∃ (done : List (ℕ × SaveEvent)) (trace : List SaveEvent),
        Blocks (Session fun _ => 0) [0, 1] done ∧
        sessionEvents es = done ++ trace.map (fun e => (2, e)) ∧ s.pacer.stage = .working := by
  obtain ⟨s, es, hrun, hsession, -, hattempts, hconnection⟩ := run_taskActions
  obtain ⟨done, trace, hblocks, hevents, -, -, hconnected⟩ := sessions_of_run _ _ _ _ 1 1 hrun
  rw [hsession] at hblocks hevents
  exact ⟨s, es, hrun, hattempts, done, trace, hblocks, hevents, (hconnected 2 1 hconnection).2⟩

/-! ## How often a session is begun -/

theorem run_wait {time : ℕ} {pacer : Pacer}
    (h : (Pacer.machine TRY_AGAIN_INTERVAL interval).run s.pacer [.elapse time, .wake] =
      some (pacer, [])) :
    (machine deps debugMode keccak256 interval).run s [.elapse time, .wake] =
      some ({ s with pacer := pacer }, []) := by
  obtain ⟨pacer₁, es₁, es₂, helapse, hrest, -⟩ := Machine.run_cons_eq_some.mp h
  obtain ⟨pacer₂, es₃, es₄, hwake, hnil, -⟩ := Machine.run_cons_eq_some.mp hrest
  obtain ⟨rfl, -⟩ := Machine.run_nil_eq_some.mp hnil
  simp [Machine.run, machine, helapse, hwake]

/-- In every run, sessions fail at most once in five seconds, and they succeed at most once
in an interval beside twice at the start. Whatever has happened, the next session begins
as soon as five seconds or one interval have passed. -/
theorem attempts_of_run (deps : Deps K) (debugMode : Bool) (keccak256 : Bytes → Bytes32)
    {interval : ℕ} (hinterval : 0 < interval) (key : K) (task : TaskId) {as : List (Action Stdin)}
    (hrun : (machine deps debugMode keccak256 interval).run (start key task) as = some (s, es)) :
    Pacer.failed (attempts es) ≤ s.pacer.now / TRY_AGAIN_INTERVAL ∧
      Pacer.succeeded (attempts es) ≤ (s.pacer.now - TRY_AGAIN_INTERVAL) / interval + 2 ∧
      (s.pacer.stage ≠ .working → ∃ time ≤ max TRY_AGAIN_INTERVAL interval, ∃ s',
        (machine deps debugMode keccak256 interval).run s [.elapse time, .wake] = some (s', []) ∧
          s'.pacer.stage = .working ∧ s'.saving = s.saving ∧
          s.saving.sessions s'.session = .connecting) := by
  have hpaced := paced_of_run hrun
  refine ⟨?_, hpaced.succeeded_le hinterval, fun hwaiting => ?_⟩
  · rw [Nat.le_div_iff_mul_le (by decide), Nat.mul_comm]
    exact hpaced.failed_le
  · obtain ⟨done, trace, hs⟩ := exists_sequential_of_run hrun
    obtain ⟨time, htime, pacer, hwake, hworking⟩ := hpaced.exists_wake hwaiting
    exact ⟨time, htime, _, run_wait hwake, hworking, rfl, hs.next hwaiting⟩

theorem attempts_of_run_task :
    ∃ s es, (machine (.standard (fun _ _ => none) 1) false (fun _ => 0) ATTESTATION_INTERVAL).run
        (start 1 1) taskActions = some (s, es) ∧
      Pacer.succeeded (attempts es) ≤ 2 ∧ Pacer.failed (attempts es) ≤ 2 := by
  obtain ⟨s, es, hrun, -, hnow, -⟩ := run_taskActions
  obtain ⟨hfailed, hsucceeded, -⟩ :=
    attempts_of_run _ _ _ (by decide : 0 < ATTESTATION_INTERVAL) 1 1 hrun
  rw [hnow] at hfailed hsucceeded
  exact ⟨s, es, hrun, hsucceeded, hfailed⟩

end AttestationTask

end Sp1Tee
