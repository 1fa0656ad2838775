import Sp1Tee.Enclave.Connections
import Sp1Tee.Host.Execute

/-!
# The host and its enclave

Clients ask the host for executions and for the enclave's address. For each of them
a handler opens a connection to the enclave, sends one request and waits for the
response; an execution's handler does so while it holds `execution_mutex`. A handler
that a client abandons is dropped wherever it stands. This frees the mutex, though
the enclave may still be at work on the request, and the next handler may then
connect.

`Deployment.machine` is the interleaving of the handlers with the connections of the
enclave. Its runs are runs of the enclave, as far as the enclave is concerned, and
the mutex is held exactly by the one handler in its section.
-/

namespace Sp1Tee

open Foundation Foundation.Solidity

namespace Host

inductive ClientRequest (Stdin : Type)
  | execute (stdin : Stdin) (program : Bytes) (cycle_limit : UInt64)
  | getAddress
deriving DecidableEq

inductive Outcome
  | execute (result : Except ServerError TEEResponse)
  | getAddress (result : Except ServerError Address)
deriving DecidableEq

inductive HandlerStage
  /-- It waits for the mutex. -/
  | waiting
  | connecting
  /-- It has opened the connection `c`. -/
  | connected (c : ℕ)
  /-- It has sent its request on `c`. -/
  | awaiting (c : ℕ)
  /-- It has returned or was dropped. -/
  | ended
deriving DecidableEq

inductive HandlerInput
  | lock
  /-- The new connection, if there is one. -/
  | connect (c : Option ℕ)
  | send (result : Except CommunicationError Unit)
  | recv (result : Except CommunicationError Unit)
  /-- The client has gone away. -/
  | drop

namespace ClientRequest

variable {Stdin : Type}

def toEnclave : ClientRequest Stdin → EnclaveRequest Stdin
  | .execute stdin program cycle_limit => .Execute stdin program cycle_limit
  | .getAddress => .GetPublicKey

/-- Only executions take the mutex. -/
def firstStage : ClientRequest Stdin → HandlerStage
  | .execute _ _ _ => .waiting
  | .getAddress => .connecting

def failure : ClientRequest Stdin → ServerError → Outcome
  | .execute _ _ _, e => .execute (.error e)
  | .getAddress, e => .getAddress (.error e)

def outcome (keccak256 : Bytes → Bytes32) : ClientRequest Stdin → EnclaveResponse → Outcome
  | .execute _ _ _, response => .execute (executeInner response)
  | .getAddress, response => .getAddress (Host.getAddress keccak256 response)

/-- The handler `h`, if it is in the section of the mutex. -/
def holder (h : ℕ) : ClientRequest Stdin → HandlerStage → Option ℕ
  | .execute _ _ _, .connecting => some h
  | .execute _ _ _, .connected _ => some h
  | .execute _ _ _, .awaiting _ => some h
  | _, _ => none

end ClientRequest

/-- What the enclave finds on a connection: these messages, or bytes that may read
as anything. -/
inductive Line (Stdin : Type)
  | messages (queue : List (EnclaveRequest Stdin))
  | arbitrary

/-- The end of a connection announces itself. -/
def Line.close {Stdin : Type} : Line Stdin → Line Stdin
  | .messages queue => .messages (queue ++ [.CloseSession])
  | .arbitrary => .arbitrary

end Host

open Host

/-- The enclave, and the host with its handlers. -/
structure Deployment (K Stdin : Type) where
  enclave : Enclave K Stdin
  execution_mutex : Option ℕ
  handlers : ℕ → Option (ClientRequest Stdin × HandlerStage)
  lines : ℕ → Line Stdin
  /-- The responses that have not been read. -/
  responses : ℕ → List EnclaveResponse

namespace Deployment

/-- A step of the host or of the enclave. Anyone on the host may connect and write
what they like. -/
inductive Action (Stdin : Type)
  | arrive (h : ℕ) (request : ClientRequest Stdin)
  | handler (h : ℕ) (input : HandlerInput)
  | stranger (c : ℕ)
  /-- The enclave reads the next message. -/
  | deliver (c : ℕ)
  | enclave (c : ℕ) (input : Enclave.Input Stdin)

/-- What is remembered of the host: the outcomes for its clients. -/
abbrev HostEvent (Stdin : Type) := ℕ × ClientRequest Stdin × Outcome

variable {K Stdin : Type} (deps : Deps K) (debugMode : Bool)

def start (key : K) (task : TaskId) : Deployment K Stdin where
  enclave := .start key task
  execution_mutex := none
  handlers _ := none
  lines _ := .messages []
  responses _ := []

def put (d : Deployment K Stdin) (h : ℕ) (request : ClientRequest Stdin) (stage : HandlerStage) :
    Deployment K Stdin :=
  { d with handlers := Function.update d.handlers h (some (request, stage)) }

def setLine (d : Deployment K Stdin) (c : ℕ) (line : Line Stdin) : Deployment K Stdin :=
  { d with lines := Function.update d.lines c line }

/-- A stream that is dropped tries to say that it closes. If the request was not sent
completely, then what was written of it comes before. -/
def hangUp (d : Deployment K Stdin) : HandlerStage → Deployment K Stdin
  | .connected c => d.setLine c .arbitrary
  | .awaiting c => d.setLine c (d.lines c).close
  | _ => d

/-- The handler `h` returns or is dropped: its guard and its stream go away. -/
def leave (d : Deployment K Stdin) (h : ℕ) (request : ClientRequest Stdin) (stage : HandlerStage) :
    Deployment K Stdin :=
  let d := (d.hangUp stage).put h request .ended
  if (request.holder h stage).isSome then { d with execution_mutex := none } else d

/-- A step of a handler, with what becomes of its client's request, and of the
enclave. -/
def handle (d : Deployment K Stdin) (h : ℕ) (request : ClientRequest Stdin) :
    HandlerStage → HandlerInput →
      Option (Deployment K Stdin × List (HostEvent Stdin) × Option (Enclave.Action Stdin))
  | .waiting, .lock =>
    match request, d.execution_mutex with
    | .execute _ _ _, none =>
        some ({ d.put h request .connecting with execution_mutex := some h }, [], none)
    | _, _ => none
  | .connecting, .connect none =>
      some (d.leave h request .connecting,
        [(h, request, request.failure .FailedToConnectToEnclave)], none)
  | .connecting, .connect (some c) =>
      some ((d.put h request (.connected c)).setLine c (.messages []), [], some (.accept c))
  | .connected c, .send (.ok ()) =>
      some ((d.put h request (.awaiting c)).setLine c (.messages [request.toEnclave]), [], none)
  | .connected c, .send (.error _) =>
      some (d.leave h request (.connected c),
        [(h, request, request.failure .FailedToSendRequestToEnclave)], none)
  | .awaiting c, .recv (.ok ()) =>
    match d.responses c with
    | [] => none
    | response :: rest =>
        some ({ d.leave h request (.awaiting c) with
            responses := Function.update d.responses c rest },
          [(h, request, request.outcome deps.keccak256 response)], none)
  | .awaiting c, .recv (.error _) =>
      some (d.leave h request (.awaiting c),
        [(h, request, request.failure .FailedToReceiveResponseFromEnclave)], none)
  | .ended, _ => none
  | stage, .drop => some (d.leave h request stage, [], none)
  | _, _ => none

/-- The host's part of a step. -/
def move (d : Deployment K Stdin) :
    Action Stdin →
      Option (Deployment K Stdin × List (HostEvent Stdin) × Option (Enclave.Action Stdin))
  | .arrive h request =>
    match d.handlers h with
    | none => some (d.put h request request.firstStage, [], none)
    | some _ => none
  | .handler h input =>
    match d.handlers h with
    | none => none
    | some (request, stage) => d.handle deps h request stage input
  | .stranger c => some (d.setLine c .arbitrary, [], some (.accept c))
  | .deliver c =>
    match d.lines c with
    | .messages (message :: queue) =>
        some (d.setLine c (.messages queue), [], some (.on c (.recv (.ok message))))
    | _ => none
  | .enclave c input =>
    match input, d.lines c with
    | .recv (.ok _), .messages _ => none
    | input, _ => some (d, [], some (.on c input))

/-- The response of an event on the connection `c`. -/
def answeredOn (c : ℕ) : ℕ × Enclave.Event Stdin → Option EnclaveResponse
  | (c', .answered _ response) => if c' = c then some response else none
  | _ => none

def machine : Machine (Deployment K Stdin) (Action Stdin)
    ((ℕ × Enclave.Event Stdin) ⊕ HostEvent Stdin) where
  step d a :=
    match d.move deps a with
    | none => none
    | some (d, outcomes, none) => some (d, outcomes.map .inr)
    | some (d, outcomes, some a) =>
      match (Enclave.machine deps debugMode).step d.enclave a with
      | none => none
      | some (enclave, es) =>
        some ({ d with
            enclave := enclave
            responses := fun c => d.responses c ++ es.filterMap (answeredOn c) },
          outcomes.map .inr ++ es.map .inl)

variable {deps debugMode} {d d' : Deployment K Stdin}

/-! ## What a step can do -/

/-- What a step of the handler `h` can do. -/
inductive Handles (deps : Deps K) (d : Deployment K Stdin) (h : ℕ)
    (request : ClientRequest Stdin) : HandlerStage → Deployment K Stdin →
      List (HostEvent Stdin) → Option (Enclave.Action Stdin) → Prop
  | locked (hfree : d.execution_mutex = none) (hholder : request.holder h .connecting = some h) :
      Handles deps d h request .waiting
        { d.put h request .connecting with execution_mutex := some h } [] none
  | connecting (c : ℕ) :
      Handles deps d h request .connecting
        ((d.put h request (.connected c)).setLine c (.messages [])) [] (some (.accept c))
  | sent (c : ℕ) :
      Handles deps d h request (.connected c)
        ((d.put h request (.awaiting c)).setLine c (.messages [request.toEnclave])) [] none
  | received (c : ℕ) (response : EnclaveResponse) (rest : List EnclaveResponse)
      (hresponses : d.responses c = response :: rest) :
      Handles deps d h request (.awaiting c)
        { d.leave h request (.awaiting c) with
          responses := Function.update d.responses c rest }
        [(h, request, request.outcome deps.keccak256 response)] none
  | failed (stage : HandlerStage) (e : ServerError) :
      Handles deps d h request stage (d.leave h request stage)
        [(h, request, request.failure e)] none
  | dropped (stage : HandlerStage) :
      Handles deps d h request stage (d.leave h request stage) [] none

theorem handles_of_handle {h : ℕ} {request : ClientRequest Stdin} {stage : HandlerStage}
    {input : HandlerInput} {outcomes : List (HostEvent Stdin)}
    {action : Option (Enclave.Action Stdin)}
    (hstep : d.handle deps h request stage input = some (d', outcomes, action)) :
    Handles deps d h request stage d' outcomes action := by
  unfold handle at hstep
  split at hstep
  · split at hstep
    · next hfree =>
      cases hstep
      exact .locked hfree rfl
    · cases hstep
  · cases hstep
    exact .failed _ _
  · cases hstep
    exact .connecting _
  · cases hstep
    exact .sent _
  · cases hstep
    exact .failed _ _
  · split at hstep
    · cases hstep
    · next hresponses =>
      cases hstep
      exact .received _ _ _ hresponses
  · cases hstep
    exact .failed _ _
  · cases hstep
  · cases hstep
    exact .dropped _
  · cases hstep

/-- A step of the host: a client arrives, a handler makes a step, or the host only
passes on what is on a line. -/
theorem move_cases {a : Action Stdin} {outcomes : List (HostEvent Stdin)}
    {action : Option (Enclave.Action Stdin)} (hmove : d.move deps a = some (d', outcomes, action)) :
    (∃ h request, a = .arrive h request ∧ d.handlers h = none ∧
      d' = d.put h request request.firstStage) ∨
    (∃ h request stage, d.handlers h = some (request, stage) ∧
      Handles deps d h request stage d' outcomes action) ∨
    ∃ lines, d' = { d with lines := lines } := by
  cases a with
  | arrive h request =>
      simp only [move] at hmove
      split at hmove
      · next hnew =>
        cases hmove
        exact Or.inl ⟨h, request, rfl, hnew, rfl⟩
      · cases hmove
  | handler h input =>
      simp only [move] at hmove
      split at hmove
      · cases hmove
      · next request stage hh =>
        exact Or.inr (Or.inl ⟨h, request, stage, hh, handles_of_handle hmove⟩)
  | stranger c =>
      cases hmove
      exact Or.inr (Or.inr ⟨_, rfl⟩)
  | deliver c =>
      simp only [move] at hmove
      split at hmove
      · cases hmove
        exact Or.inr (Or.inr ⟨_, rfl⟩)
      · cases hmove
  | enclave c input =>
      simp only [move] at hmove
      split at hmove
      · cases hmove
      · cases hmove
        exact Or.inr (Or.inr ⟨_, rfl⟩)

theorem step_cases {a : Action Stdin} {es : List ((ℕ × Enclave.Event Stdin) ⊕ HostEvent Stdin)}
    (hstep : (machine deps debugMode).step d a = some (d', es)) :
    ∃ d₁ outcomes action, d.move deps a = some (d₁, outcomes, action) ∧
      ((action = none ∧ d' = d₁ ∧ es = outcomes.map .inr) ∨
        ∃ a' enclave es', action = some a' ∧
          (Enclave.machine deps debugMode).step d₁.enclave a' = some (enclave, es') ∧
          d' = { d₁ with
            enclave := enclave
            responses := fun c => d₁.responses c ++ es'.filterMap (answeredOn c) } ∧
          es = outcomes.map .inr ++ es'.map .inl) := by
  simp only [machine] at hstep
  split at hstep
  · cases hstep
  · next d₁ outcomes hmove =>
    cases hstep
    exact ⟨d', outcomes, none, hmove, Or.inl ⟨rfl, rfl, rfl⟩⟩
  · next d₁ outcomes a' hmove =>
    split at hstep
    · cases hstep
    · next enclave es' henclave =>
      cases hstep
      exact ⟨d₁, outcomes, some a', hmove, Or.inr ⟨a', enclave, es', rfl, henclave, rfl, rfl⟩⟩

/-! ## The enclave of a deployment -/

theorem leave_enclave (d : Deployment K Stdin) (h : ℕ) (request : ClientRequest Stdin)
    (stage : HandlerStage) : (d.leave h request stage).enclave = d.enclave := by
  rw [leave]
  split <;> cases stage <;> rfl

theorem move_enclave {a : Action Stdin} {outcomes : List (HostEvent Stdin)}
    {action : Option (Enclave.Action Stdin)} (hmove : d.move deps a = some (d', outcomes, action)) :
    d'.enclave = d.enclave := by
  rcases move_cases hmove with
    ⟨h, request, -, -, rfl⟩ | ⟨h, request, stage, -, hhandles⟩ | ⟨lines, rfl⟩
  · rfl
  · cases hhandles with
    | locked | connecting | sent => rfl
    | received | failed | dropped => exact leave_enclave d h request _
  · rfl

theorem update_subset {responses : ℕ → List EnclaveResponse} {c : ℕ} {response : EnclaveResponse}
    {rest : List EnclaveResponse} (h : responses c = response :: rest) (c' : ℕ) :
    Function.update responses c rest c' ⊆ responses c' := by
  by_cases hc : c' = c
  · subst hc
    rw [h, Function.update_self]
    exact List.subset_cons_self response rest
  · rw [Function.update_of_ne hc]
    exact List.Subset.refl _

theorem leave_responses (d : Deployment K Stdin) (h : ℕ) (request : ClientRequest Stdin)
    (stage : HandlerStage) : (d.leave h request stage).responses = d.responses := by
  rw [leave]
  split <;> cases stage <;> rfl

theorem responses_of_move {a : Action Stdin} {outcomes : List (HostEvent Stdin)}
    {action : Option (Enclave.Action Stdin)} (hmove : d.move deps a = some (d', outcomes, action))
    (c : ℕ) : d'.responses c ⊆ d.responses c := by
  rcases move_cases hmove with
    ⟨h, request, -, -, rfl⟩ | ⟨h, request, stage, -, hhandles⟩ | ⟨lines, rfl⟩
  · exact List.Subset.refl _
  · cases hhandles with
    | locked | connecting | sent => exact List.Subset.refl _
    | received c' response rest hresponses => exact update_subset hresponses c
    | failed | dropped =>
        rw [leave_responses]
        exact List.Subset.refl _
  · exact List.Subset.refl _

theorem enclave_of_step {a : Action Stdin}
    {es : List ((ℕ × Enclave.Event Stdin) ⊕ HostEvent Stdin)}
    (hstep : (machine deps debugMode).step d a = some (d', es)) :
    (d'.enclave = d.enclave ∧ es.filterMap Sum.getLeft? = []) ∨
      ∃ a', (Enclave.machine deps debugMode).step d.enclave a' =
        some (d'.enclave, es.filterMap Sum.getLeft?) := by
  obtain ⟨d₁, outcomes, action, hmove, hes⟩ := step_cases hstep
  have henclave := move_enclave hmove
  rcases hes with ⟨-, rfl, rfl⟩ | ⟨a', enclave, es', -, hstep', rfl, rfl⟩
  · exact Or.inl ⟨henclave, by simp [List.filterMap_map, Function.comp_def]⟩
  · rw [henclave] at hstep'
    refine Or.inr ⟨a', ?_⟩
    rw [hstep']
    simp [List.filterMap_append, List.filterMap_map, Function.comp_def]

/-- As far as the enclave is concerned, a run is a run of the enclave. -/
theorem run_enclave {as : List (Action Stdin)}
    {es : List ((ℕ × Enclave.Event Stdin) ⊕ HostEvent Stdin)}
    (hrun : (machine deps debugMode).run d as = some (d', es)) :
    ∃ as', (Enclave.machine deps debugMode).run d.enclave as' =
      some (d'.enclave, es.filterMap Sum.getLeft?) :=
  Machine.run_project enclave Sum.getLeft? enclave_of_step hrun

/-! ## The requests of the handlers -/

def requestOf (d : Deployment K Stdin) (h : ℕ) : Option (ClientRequest Stdin) :=
  (d.handlers h).map Prod.fst

theorem requestOf_put (d : Deployment K Stdin) (h : ℕ) (request : ClientRequest Stdin)
    (stage : HandlerStage) :
    (d.put h request stage).requestOf = Function.update d.requestOf h (some request) :=
  Function.comp_update (fun handler : Option (ClientRequest Stdin × HandlerStage) =>
    handler.map Prod.fst) d.handlers h (some (request, stage))

theorem requestOf_leave (d : Deployment K Stdin) (h : ℕ) (request : ClientRequest Stdin)
    (stage : HandlerStage) :
    (d.leave h request stage).requestOf = Function.update d.requestOf h (some request) := by
  have hhang : (d.hangUp stage).requestOf = d.requestOf := by cases stage <;> rfl
  rw [leave, ← hhang, ← requestOf_put _ h request .ended]
  split <;> rfl

theorem requestOf_of_step {a : Action Stdin}
    {es : List ((ℕ × Enclave.Event Stdin) ⊕ HostEvent Stdin)}
    (hstep : (machine deps debugMode).step d a = some (d', es)) :
    d'.requestOf = d.requestOf ∨
      ∃ h request, a = .arrive h request ∧ d.handlers h = none ∧
        d'.requestOf = Function.update d.requestOf h (some request) := by
  obtain ⟨d₁, outcomes, action, hmove, hes⟩ := step_cases hstep
  have hsame : d'.requestOf = d₁.requestOf := by
    rcases hes with ⟨-, rfl, -⟩ | ⟨a', enclave, es', -, -, rfl, -⟩
    · rfl
    · rfl
  rw [hsame]
  rcases move_cases hmove with
    ⟨h, request, ha, hnew, rfl⟩ | ⟨h, request, stage, hh, hhandles⟩ | ⟨lines, rfl⟩
  · exact Or.inr ⟨h, request, ha, hnew, requestOf_put d h request request.firstStage⟩
  · have hrequest : d.requestOf h = some request := by rw [requestOf, hh, Option.map_some]
    have hupdate : Function.update d.requestOf h (some request) = d.requestOf := by
      rw [← hrequest, Function.update_eq_self]
    refine Or.inl ?_
    cases hhandles with
    | locked => exact (requestOf_put d h request .connecting).trans hupdate
    | connecting c => exact (requestOf_put d h request (.connected c)).trans hupdate
    | sent c => exact (requestOf_put d h request (.awaiting c)).trans hupdate
    | received | failed | dropped => exact (requestOf_leave d h request _).trans hupdate
  · exact Or.inl rfl

theorem requestOf_mono {a : Action Stdin}
    {es : List ((ℕ × Enclave.Event Stdin) ⊕ HostEvent Stdin)}
    (hstep : (machine deps debugMode).step d a = some (d', es)) {h : ℕ}
    {request : ClientRequest Stdin} (hrequest : d.requestOf h = some request) :
    d'.requestOf h = some request := by
  rcases requestOf_of_step hstep with hsame | ⟨i, new, -, hnew, hupdate⟩
  · rwa [hsame]
  · have hne : h ≠ i := by
      rintro rfl
      rw [requestOf, hnew] at hrequest
      cases hrequest
    rwa [hupdate, Function.update_of_ne hne]

theorem requestOf_new {a : Action Stdin}
    {es : List ((ℕ × Enclave.Event Stdin) ⊕ HostEvent Stdin)}
    (hstep : (machine deps debugMode).step d a = some (d', es)) {h : ℕ}
    {request : ClientRequest Stdin} (hrequest : d'.requestOf h = some request) :
    d.requestOf h = some request ∨ a = .arrive h request := by
  rcases requestOf_of_step hstep with hsame | ⟨i, new, ha, -, hupdate⟩
  · exact Or.inl (hsame ▸ hrequest)
  · rw [hupdate] at hrequest
    by_cases hi : h = i
    · subst hi
      rw [Function.update_self] at hrequest
      exact Or.inr (Option.some.inj hrequest ▸ ha)
    · rw [Function.update_of_ne hi] at hrequest
      exact Or.inl hrequest

/-! ## The execution mutex -/

/-- The handler `h`, if it is in the section of the mutex. -/
def holder (d : Deployment K Stdin) (h : ℕ) : Option ℕ :=
  (d.handlers h).bind fun handler => handler.1.holder h handler.2

theorem holder_put (d : Deployment K Stdin) (h : ℕ) (request : ClientRequest Stdin)
    (stage : HandlerStage) :
    (d.put h request stage).holder = Function.update d.holder h (request.holder h stage) := by
  funext i
  by_cases hi : i = h
  · subst hi
    simp [holder, put]
  · simp [holder, put, hi]

theorem holder_leave (d : Deployment K Stdin) (h : ℕ) (request : ClientRequest Stdin)
    (stage : HandlerStage) :
    (d.leave h request stage).holder = Function.update d.holder h none := by
  have hnone : request.holder h .ended = none := by cases request <;> rfl
  have hhang : (d.hangUp stage).holder = d.holder := by cases stage <;> rfl
  rw [← hnone, ← hhang, ← holder_put, leave]
  split <;> rfl

theorem mutex_leave (d : Deployment K Stdin) (h : ℕ) (request : ClientRequest Stdin)
    (stage : HandlerStage) :
    (d.leave h request stage).execution_mutex =
      if (request.holder h stage).isSome then none else d.execution_mutex := by
  have hhang : (d.hangUp stage).execution_mutex = d.execution_mutex := by cases stage <;> rfl
  rw [leave, ← hhang]
  split <;> rfl

theorem guarded_leave (hg : Guarded d.holder d.execution_mutex) {h : ℕ}
    {request : ClientRequest Stdin} {stage : HandlerStage}
    (hh : d.handlers h = some (request, stage)) :
    Guarded (d.leave h request stage).holder (d.leave h request stage).execution_mutex := by
  have hholder : d.holder h = request.holder h stage := by rw [holder, hh, Option.bind_some]
  rw [holder_leave, mutex_leave]
  split
  · next hin => exact hg.leave (hholder ▸ hin)
  · next hout => exact hg.outside (hholder.trans (Option.not_isSome_iff_eq_none.mp hout))

theorem guarded_of_move (hg : Guarded d.holder d.execution_mutex) {a : Action Stdin}
    {outcomes : List (HostEvent Stdin)} {action : Option (Enclave.Action Stdin)}
    (hmove : d.move deps a = some (d', outcomes, action)) :
    Guarded d'.holder d'.execution_mutex := by
  rcases move_cases hmove with
    ⟨h, request, -, hnew, rfl⟩ | ⟨h, request, stage, hh, hhandles⟩ | ⟨lines, rfl⟩
  · rw [holder_put]
    have hfirst : request.holder h request.firstStage = none := by cases request <;> rfl
    rw [hfirst]
    exact hg.outside (by rw [holder, hnew, Option.bind_none])
  · have hholder : d.holder h = request.holder h stage := by rw [holder, hh, Option.bind_some]
    have hstay : ∀ stage', request.holder h stage' = request.holder h stage →
        Guarded (d.put h request stage').holder d.execution_mutex := by
      intro stage' hsame
      rw [holder_put, hsame, ← hholder]
      exact hg.stay h
    cases hhandles with
    | locked hfree henter =>
        rw [hfree] at hg
        have hput : (d.put h request .connecting).holder =
            Function.update d.holder h (some h) := by rw [holder_put, henter]
        exact hput ▸ hg.enter h h
    | connecting c => exact hstay (.connected c) (by cases request <;> rfl)
    | sent c => exact hstay (.awaiting c) (by cases request <;> rfl)
    | received | failed | dropped => exact guarded_leave hg hh
  · exact hg

/-- In every run, the mutex is held exactly by the one handler in its section. -/
theorem guarded_of_run {key : K} {task : TaskId} {as : List (Action Stdin)}
    {es : List ((ℕ × Enclave.Event Stdin) ⊕ HostEvent Stdin)}
    (hrun : (machine deps debugMode).run (start key task) as = some (d, es)) :
    Guarded d.holder d.execution_mutex := by
  refine Machine.run_preserves (I := fun d => Guarded d.holder d.execution_mutex)
    (fun {d d' a es} hg hstep => ?_) Guarded.empty hrun
  obtain ⟨d₁, outcomes, action, hmove, hes⟩ := step_cases hstep
  have hguarded := guarded_of_move hg hmove
  rcases hes with ⟨-, rfl, -⟩ | ⟨a', enclave, es', -, -, rfl, -⟩
  · exact hguarded
  · exact hguarded

end Deployment

end Sp1Tee
