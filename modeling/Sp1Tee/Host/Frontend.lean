import Sp1Tee.Host.Deployment

/-!
# Posted executions

In the production build, the handler of `/execute` recovers an address from the
signature of a request, and asks the prover network whether it is on the whitelist. Only
then `execute_inner` starts and forwards the request to the enclave. `Frontend.machine`
puts this in front of a deployment: anyone may post any bytes at any time. `Steps` lists
what a step can do.

The format of requests, the recovery of addresses and the network are not part of this
repository.
-/

namespace Sp1Tee

open Foundation Foundation.Solidity

namespace Host

/-- What a client asks for in a post. The signature goes with the parity that the
recovery needs. -/
structure TEERequest (Stdin : Type) where
  id : Bytes32
  program : Bytes
  stdin : Stdin
  cycle_limit : UInt64
  signature : Signature × Bool
deriving DecidableEq

/-- What the handler uses of its libraries. -/
structure AuthLibraries (Stdin : Type) where
  deserialize : Bytes → Except String (TEERequest Stdin)
  recoverAddressFromMsg : Signature × Bool → Bytes → Option Address

inductive AuthClientError
  | FailedToConnectToProverNetwork (e : String)
  | FailedToGetTeeWhitelistStatus (e : String)
deriving DecidableEq

/-- The answers of the prover network to one lookup. -/
structure ProverNetwork where
  connect : Except String Unit
  getTeeWhitelistStatus : Bytes → Except String Bool

def isWhitelisted (network : ProverNetwork) (address : Address) :
    Except AuthClientError Bool := do
  network.connect.mapError .FailedToConnectToProverNetwork
  (network.getTeeWhitelistStatus address.toBytes).mapError .FailedToGetTeeWhitelistStatus

section Execute

variable {Stdin : Type} (libs : AuthLibraries Stdin)

def recoverSigner (request : TEERequest Stdin) : Except ServerError Address :=
  match libs.recoverAddressFromMsg request.signature request.id.toBytes with
  | some signer => .ok signer
  | none => .error .FailedToAuthenticateRequest

/-- What comes of the answer about the whitelist. -/
def authorize : Except AuthClientError Bool → Except ServerError Unit
  | .ok true => .ok ()
  | .ok false => .error .FailedToAuthenticateRequest
  | .error _ => .error .FailedToAuthenticateRequest

def TEERequest.toClient (request : TEERequest Stdin) : ClientRequest Stdin :=
  .execute request.stdin request.program request.cycle_limit

inductive PostStage (Stdin : Type)
  /-- The network has not answered about the signer. -/
  | authenticating (request : TEERequest Stdin) (signer : Address)
  /-- `execute_inner` is in charge. -/
  | admitted (request : TEERequest Stdin) (signer : Address)
  /-- It was refused or dropped. -/
  | ended

/-- What is remembered of a post: the request that was read from it, the answer about
the signer, and the refusal. -/
inductive PostEvent (Stdin : Type)
  | posted (request : TEERequest Stdin)
  | lookedUp (signer : Address) (answer : Except AuthClientError Bool)
  | refused (e : ServerError)
deriving DecidableEq

/-- The handler until it waits for the network. -/
def receivePost (req : Bytes) : PostStage Stdin × List (PostEvent Stdin) :=
  match libs.deserialize req with
  | .error e => (.ended, [.refused (.FailedToDeserializeRequest e)])
  | .ok request =>
    match recoverSigner libs request with
    | .error e => (.ended, [.posted request, .refused e])
    | .ok signer => (.authenticating request signer, [.posted request])

end Execute

end Host

open Host

/-- A deployment whose executions have to be posted. -/
structure Frontend (K Stdin : Type) where
  deployment : Deployment K Stdin
  posts : ℕ → Option (PostStage Stdin)

namespace Frontend

/-- A step of a client, of the handler of a post, or of the deployment behind it. -/
inductive Action (Stdin : Type)
  /-- The owner of an address signs a request and submits it. -/
  | submit (signer : Address) (request : TEERequest Stdin)
  /-- Anyone posts some bytes. -/
  | post (h : ℕ) (req : Bytes)
  | lookup (h : ℕ) (network : ProverNetwork)
  /-- The client goes away before the network has answered. -/
  | abandon (h : ℕ)
  | deployment (a : Deployment.Action Stdin)

/-- What happens in front of the enclave, and behind. -/
inductive Event (Stdin : Type)
  | submitted (signer : Address) (request : TEERequest Stdin)
  | post (h : ℕ) (e : PostEvent Stdin)
  /-- The handler `h` writes a message to the enclave, all of it or a part. -/
  | forwarded (h : ℕ) (message : EnclaveRequest Stdin)
  | deployment (e : (ℕ × Enclave.Event Stdin) ⊕ Deployment.HostEvent Stdin)
deriving DecidableEq

variable {K Stdin : Type} (deps : Deps K) (debugMode : Bool) (libs : AuthLibraries Stdin)

def start (key : K) (task : TaskId) : Frontend K Stdin where
  deployment := .start key task
  posts _ := none

def setPost (s : Frontend K Stdin) (h : ℕ) (stage : PostStage Stdin) : Frontend K Stdin :=
  { s with posts := Function.update s.posts h (some stage) }

/-- Executions arrive by posts only, and no two handlers share a number. -/
def allows (s : Frontend K Stdin) : Deployment.Action Stdin → Bool
  | .arrive _ (.execute _ _ _) => false
  | .arrive h .getAddress => (s.posts h).isNone
  | _ => true

/-- What a step of the deployment writes to the enclave. -/
def forwards (d : Deployment K Stdin) : Deployment.Action Stdin → List (Event Stdin)
  | .handler h (.send _) =>
    match d.handlers h with
    | some (request, .connected _) => [.forwarded h request.toEnclave]
    | _ => []
  | _ => []

/-- The network answers. -/
def lookup (s : Frontend K Stdin) (h : ℕ) (request : TEERequest Stdin) (signer : Address)
    (answer : Except AuthClientError Bool) : Option (Frontend K Stdin × List (Event Stdin)) :=
  match authorize answer with
  | .error e =>
      some (s.setPost h .ended, [.post h (.lookedUp signer answer), .post h (.refused e)])
  | .ok () =>
    match (Deployment.machine deps debugMode).step s.deployment (.arrive h request.toClient) with
    | none => none
    | some (d, _) =>
        some ({ s with deployment := d }.setPost h (.admitted request signer),
          [.post h (.lookedUp signer answer)])

def machine : Machine (Frontend K Stdin) (Action Stdin) (Event Stdin) where
  step s a :=
    match a with
    | .submit signer request =>
      if libs.recoverAddressFromMsg request.signature request.id.toBytes = some signer then
        some (s, [.submitted signer request])
      else none
    | .post h req =>
      match s.posts h, s.deployment.handlers h with
      | none, none =>
          some (s.setPost h (receivePost libs req).1, (receivePost libs req).2.map (.post h))
      | _, _ => none
    | .lookup h network =>
      match s.posts h with
      | some (.authenticating request signer) =>
          s.lookup deps debugMode h request signer (isWhitelisted network signer)
      | _ => none
    | .abandon h =>
      match s.posts h with
      | some (.authenticating _ _) => some (s.setPost h .ended, [])
      | _ => none
    | .deployment a =>
      if s.allows a then
        match (Deployment.machine deps debugMode).step s.deployment a with
        | none => none
        | some (d, es) =>
            some ({ s with deployment := d }, forwards s.deployment a ++ es.map .deployment)
      else none

variable {deps debugMode libs} {s s' : Frontend K Stdin}

inductive Steps (deps : Deps K) (debugMode : Bool) (libs : AuthLibraries Stdin)
    (s : Frontend K Stdin) : Frontend K Stdin → List (Event Stdin) → Prop
  | submitted (signer : Address) (request : TEERequest Stdin) :
      Steps deps debugMode libs s s [.submitted signer request]
  | posted (h : ℕ) (req : Bytes) (hpost : s.posts h = none)
      (hhandler : s.deployment.handlers h = none) :
      Steps deps debugMode libs s (s.setPost h (receivePost libs req).1)
        ((receivePost libs req).2.map (.post h))
  | refused (h : ℕ) (request : TEERequest Stdin) (signer : Address)
      (answer : Except AuthClientError Bool)
      (hpost : s.posts h = some (.authenticating request signer)) (hanswer : answer ≠ .ok true) :
      Steps deps debugMode libs s (s.setPost h .ended)
        ([.lookedUp signer answer, .refused .FailedToAuthenticateRequest].map (.post h))
  | admitted (h : ℕ) (request : TEERequest Stdin) (signer : Address) (d : Deployment K Stdin)
      (es : List ((ℕ × Enclave.Event Stdin) ⊕ Deployment.HostEvent Stdin))
      (hpost : s.posts h = some (.authenticating request signer))
      (hd : (Deployment.machine deps debugMode).step s.deployment (.arrive h request.toClient) =
        some (d, es)) :
      Steps deps debugMode libs s ({ s with deployment := d }.setPost h (.admitted request signer))
        ([.lookedUp signer (.ok true)].map (.post h))
  | abandoned (h : ℕ) (request : TEERequest Stdin) (signer : Address)
      (hpost : s.posts h = some (.authenticating request signer)) :
      Steps deps debugMode libs s (s.setPost h .ended) ([].map (.post h))
  | deployment (a : Deployment.Action Stdin) (d : Deployment K Stdin)
      (es : List ((ℕ × Enclave.Event Stdin) ⊕ Deployment.HostEvent Stdin))
      (hallows : s.allows a = true)
      (hd : (Deployment.machine deps debugMode).step s.deployment a = some (d, es)) :
      Steps deps debugMode libs s { s with deployment := d }
        (forwards s.deployment a ++ es.map .deployment)

theorem authorize_eq_ok_iff {answer : Except AuthClientError Bool} :
    authorize answer = .ok () ↔ answer = .ok true := by
  rcases answer with e | _ | _
  · exact iff_of_false nofun nofun
  · exact iff_of_false nofun nofun
  · exact iff_of_true rfl rfl

theorem authorize_eq_error {answer : Except AuthClientError Bool} {e : ServerError}
    (h : authorize answer = .error e) : answer ≠ .ok true ∧ e = .FailedToAuthenticateRequest := by
  rcases answer with e' | _ | _
  · cases h
    exact ⟨nofun, rfl⟩
  · cases h
    exact ⟨nofun, rfl⟩
  · cases h

theorem steps_of_lookup {h : ℕ} {request : TEERequest Stdin} {signer : Address}
    {answer : Except AuthClientError Bool} {es : List (Event Stdin)}
    (hpost : s.posts h = some (.authenticating request signer))
    (hstep : s.lookup deps debugMode h request signer answer = some (s', es)) :
    Steps deps debugMode libs s s' es := by
  rw [lookup] at hstep
  split at hstep
  · next e he =>
    obtain ⟨hanswer, rfl⟩ := authorize_eq_error he
    cases hstep
    exact .refused h request signer answer hpost hanswer
  · next hok =>
    obtain rfl := authorize_eq_ok_iff.mp hok
    split at hstep
    · cases hstep
    · next d es' hd =>
      cases hstep
      exact .admitted h request signer d es' hpost hd

theorem steps_of_step {a : Action Stdin} {es : List (Event Stdin)}
    (hstep : (machine deps debugMode libs).step s a = some (s', es)) :
    Steps deps debugMode libs s s' es := by
  cases a with
  | submit signer request =>
      simp only [machine] at hstep
      split at hstep
      · cases hstep
        exact .submitted signer request
      · cases hstep
  | post h req =>
      simp only [machine] at hstep
      split at hstep
      · next hpost hhandler =>
        cases hstep
        exact .posted h req hpost hhandler
      · cases hstep
  | lookup h network =>
      simp only [machine] at hstep
      split at hstep
      · next hpost => exact steps_of_lookup hpost hstep
      · cases hstep
  | abandon h =>
      simp only [machine] at hstep
      split at hstep
      · next request signer hpost =>
        cases hstep
        exact .abandoned h request signer hpost
      · cases hstep
  | deployment a =>
      simp only [machine] at hstep
      split at hstep
      · next hallows =>
        split at hstep
        · cases hstep
        · next d es' hd =>
          cases hstep
          exact .deployment a d es' hallows hd
      · cases hstep

end Frontend

end Sp1Tee
