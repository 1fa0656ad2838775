import Sp1Tee.Foundation.Keccak
import Sp1Tee.Host.Frontend

/-!
# Who may execute

What is forwarded to the enclave belongs to a post that was admitted, and what the trace
of a post contains says how it got admitted or refused. So `Authenticated` holds in
every run.

The signature of a request is one of its id. Neither the program nor the standard input
nor the cycle limit is signed or compared with anything, so that whoever has seen an id
with its signature can execute with them what they like.
-/

namespace Sp1Tee

open Foundation Foundation.Solidity Host

namespace Frontend

variable {K Stdin : Type} {deps : Deps K} {debugMode : Bool} {libs : AuthLibraries Stdin}
  {s s' : Frontend K Stdin}

/-! ## What the trace of a post says -/

def postEvent (h : ℕ) : Event Stdin → Option (PostEvent Stdin)
  | .post h' e => if h' = h then some e else none
  | _ => none

def traceOf (h : ℕ) (es : List (Event Stdin)) : List (PostEvent Stdin) :=
  es.filterMap (postEvent h)

variable (libs) in
/-- How a post got to its stage. -/
def Recorded (trace : List (PostEvent Stdin)) : Option (PostStage Stdin) → Prop
  | none => trace = []
  | some (.authenticating request signer) =>
      trace = [.posted request] ∧
        libs.recoverAddressFromMsg request.signature request.id.toBytes = some signer
  | some (.admitted request signer) =>
      trace = [.posted request, .lookedUp signer (.ok true)] ∧
        libs.recoverAddressFromMsg request.signature request.id.toBytes = some signer
  | some .ended =>
      (∃ e, trace = [.refused (.FailedToDeserializeRequest e)]) ∨
      ∃ request, (libs.recoverAddressFromMsg request.signature request.id.toBytes = none ∧
          trace = [.posted request, .refused .FailedToAuthenticateRequest]) ∨
        ∃ signer, libs.recoverAddressFromMsg request.signature request.id.toBytes = some signer ∧
          (trace = [.posted request] ∨ ∃ answer, answer ≠ .ok true ∧
            trace = [.posted request, .lookedUp signer answer,
              .refused .FailedToAuthenticateRequest])

/-- What the handler of a deployment is there for. -/
def Belongs : Option (PostStage Stdin) → ClientRequest Stdin → Prop
  | some (.admitted request _), client => client = request.toClient
  | none, .getAddress => True
  | _, _ => False

structure Sound (libs : AuthLibraries Stdin) (s : Frontend K Stdin) (past : List (Event Stdin)) :
    Prop where
  post : ∀ h, Recorded libs (traceOf h past) (s.posts h)
  request : ∀ h client, s.deployment.requestOf h = some client → Belongs (s.posts h) client
  forwarded : ∀ h message, .forwarded h message ∈ past →
    ∃ client, s.deployment.requestOf h = some client ∧ message = client.toEnclave

theorem traceOf_append (h : ℕ) (es es' : List (Event Stdin)) :
    traceOf h (es ++ es') = traceOf h es ++ traceOf h es' := List.filterMap_append

theorem traceOf_post (h h' : ℕ) (es : List (PostEvent Stdin)) :
    traceOf h (es.map (.post h')) = if h' = h then es else [] := by
  rw [traceOf, List.filterMap_map]
  by_cases heq : h' = h
  · subst heq
    have hsome : (postEvent h' ∘ Event.post h' : PostEvent Stdin → _) = some := by
      funext e
      simp [postEvent]
    rw [hsome, List.filterMap_some, if_pos rfl]
  · simp [postEvent, heq]

theorem mem_traceOf_iff {h : ℕ} {e : PostEvent Stdin} {es : List (Event Stdin)} :
    e ∈ traceOf h es ↔ .post h e ∈ es := by
  rw [traceOf, List.mem_filterMap]
  constructor
  · rintro ⟨e', hmem, he⟩
    cases e' with
    | post h' e' =>
        simp only [postEvent, Option.ite_none_right_eq_some, Option.some.injEq] at he
        obtain ⟨rfl, rfl⟩ := he
        exact hmem
    | _ => cases he
  · intro hmem
    exact ⟨.post h e, hmem, if_pos rfl⟩

theorem mem_forwards {d : Deployment K Stdin} {a : Deployment.Action Stdin} {e : Event Stdin}
    (he : e ∈ forwards d a) :
    ∃ h client, e = .forwarded h client.toEnclave ∧ d.requestOf h = some client := by
  unfold forwards at he
  split at he
  · next h result =>
    split at he
    · next client c hhandler =>
      refine ⟨h, client, List.mem_singleton.mp he, ?_⟩
      rw [Deployment.requestOf, hhandler, Option.map_some]
    · cases he
  · cases he

theorem traceOf_deployment (h : ℕ) (d : Deployment K Stdin) (a : Deployment.Action Stdin)
    (es : List ((ℕ × Enclave.Event Stdin) ⊕ Deployment.HostEvent Stdin)) :
    traceOf h (forwards d a ++ es.map .deployment) = [] := by
  rw [traceOf, List.filterMap_eq_nil_iff]
  intro e he
  rcases List.mem_append.mp he with hforwards | hdeployment
  · obtain ⟨h', client, rfl, -⟩ := mem_forwards hforwards
    rfl
  · obtain ⟨e', -, rfl⟩ := List.mem_map.mp hdeployment
    rfl

/-! ## All runs -/

variable {past : List (Event Stdin)}

theorem sound_start (key : K) (task : TaskId) :
    Sound libs (start key task : Frontend K Stdin) [] where
  post _ := rfl
  request _ _ h := by cases h
  forwarded _ _ h := by cases h

theorem Sound.recorded (h : Sound libs s past) {i : ℕ} {stage : Option (PostStage Stdin)}
    (hpost : s.posts i = stage) : Recorded libs (traceOf i past) stage :=
  hpost ▸ h.post i

/-- A stage that is recorded in the trace of its own post leaves the others alone. -/
theorem recorded_setPost {i : ℕ} {stage : PostStage Stdin} {es : List (PostEvent Stdin)}
    (h : ∀ j, Recorded libs (traceOf j past) (s.posts j))
    (hrecorded : Recorded libs (traceOf i past ++ es) (some stage)) (j : ℕ) :
    Recorded libs (traceOf j (past ++ es.map (.post i))) ((s.setPost i stage).posts j) := by
  change Recorded libs _ (Function.update s.posts i (some stage) j)
  rw [traceOf_append, traceOf_post]
  by_cases hij : i = j
  · subst hij
    rwa [if_pos rfl, Function.update_self]
  · rw [if_neg hij, List.append_nil, Function.update_of_ne (Ne.symm hij)]
    exact h j

theorem Sound.setPost (h : Sound libs s past) {i : ℕ} {stage : PostStage Stdin}
    {es : List (PostEvent Stdin)} (hnone : s.deployment.requestOf i = none)
    (hrecorded : Recorded libs (traceOf i past ++ es) (some stage)) :
    Sound libs (s.setPost i stage) (past ++ es.map (.post i)) where
  post := recorded_setPost h.post hrecorded
  request j client hclient := by
    change Belongs (Function.update s.posts i (some stage) j) client
    have hij : j ≠ i := by
      rintro rfl
      rw [show s.deployment.requestOf j = some client from hclient] at hnone
      cases hnone
    rw [Function.update_of_ne hij]
    exact h.request j client hclient
  forwarded j message hmem := by
    rcases List.mem_append.mp hmem with hold | hnew
    · exact h.forwarded j message hold
    · obtain ⟨e, -, he⟩ := List.mem_map.mp hnew
      cases he

theorem Sound.requestOf_eq_none (h : Sound libs s past) {i : ℕ} {request : TEERequest Stdin}
    {signer : Address} (hpost : s.posts i = some (.authenticating request signer)) :
    s.deployment.requestOf i = none := by
  cases hrequest : s.deployment.requestOf i with
  | none => rfl
  | some client =>
      have hbelongs := h.request i client hrequest
      rw [hpost] at hbelongs
      exact hbelongs.elim

theorem Sound.setDeployment (h : Sound libs s past) {a : Deployment.Action Stdin}
    {d : Deployment K Stdin} {es : List ((ℕ × Enclave.Event Stdin) ⊕ Deployment.HostEvent Stdin)}
    (hallows : s.allows a = true)
    (hd : (Deployment.machine deps debugMode).step s.deployment a = some (d, es)) :
    Sound libs { s with deployment := d } (past ++ (forwards s.deployment a ++
      es.map .deployment)) where
  post i := by
    rw [traceOf_append, traceOf_deployment, List.append_nil]
    exact h.post i
  request i client hclient := by
    rcases Deployment.requestOf_new hd hclient with hold | rfl
    · exact h.request i client hold
    · cases client with
      | execute stdin program cycle_limit => cases hallows
      | getAddress =>
          have hnone : s.posts i = none := Option.isNone_iff_eq_none.mp hallows
          change Belongs (s.posts i) .getAddress
          rw [hnone]
          trivial
  forwarded i message hmem := by
    rcases List.mem_append.mp hmem with hold | hnew
    · obtain ⟨client, hclient, hmessage⟩ := h.forwarded i message hold
      exact ⟨client, Deployment.requestOf_mono hd hclient, hmessage⟩
    · rcases List.mem_append.mp hnew with hforwards | hdeployment
      · obtain ⟨j, client, heq, hclient⟩ := mem_forwards hforwards
        cases heq
        exact ⟨client, Deployment.requestOf_mono hd hclient, rfl⟩
      · obtain ⟨e, -, he⟩ := List.mem_map.mp hdeployment
        cases he

theorem Sound.setAdmitted (h : Sound libs s past) {i : ℕ} {request : TEERequest Stdin}
    {signer : Address} {d : Deployment K Stdin}
    {es : List ((ℕ × Enclave.Event Stdin) ⊕ Deployment.HostEvent Stdin)}
    (hpost : s.posts i = some (.authenticating request signer))
    (hd : (Deployment.machine deps debugMode).step s.deployment (.arrive i request.toClient) =
      some (d, es)) :
    Sound libs ({ s with deployment := d }.setPost i (.admitted request signer))
      (past ++ [.lookedUp signer (.ok true)].map (.post i)) where
  post := by
    obtain ⟨htrace, hrecover⟩ := h.recorded hpost
    refine recorded_setPost h.post ?_
    rw [htrace]
    exact ⟨rfl, hrecover⟩
  request j client hclient := by
    change Belongs (Function.update s.posts i (some (.admitted request signer)) j) client
    rcases Deployment.requestOf_new hd hclient with hold | harrive
    · have hij : j ≠ i := by
        rintro rfl
        rw [h.requestOf_eq_none hpost] at hold
        cases hold
      rw [Function.update_of_ne hij]
      exact h.request j client hold
    · cases harrive
      rw [Function.update_self]
      rfl
  forwarded j message hmem := by
    rcases List.mem_append.mp hmem with hold | hnew
    · obtain ⟨client, hclient, hmessage⟩ := h.forwarded j message hold
      exact ⟨client, Deployment.requestOf_mono hd hclient, hmessage⟩
    · cases List.mem_singleton.mp hnew

theorem recorded_receivePost (req : Bytes) :
    Recorded libs (receivePost libs req).2 (some (receivePost libs req).1) := by
  rw [receivePost]
  cases libs.deserialize req with
  | error e => exact Or.inl ⟨e, rfl⟩
  | ok request =>
      cases hrecover : libs.recoverAddressFromMsg request.signature request.id.toBytes with
      | none =>
          simp only [recoverSigner, hrecover]
          exact Or.inr ⟨request, Or.inl ⟨hrecover, rfl⟩⟩
      | some signer =>
          simp only [recoverSigner, hrecover]
          exact ⟨rfl, hrecover⟩

theorem sound_of_step {a : Action Stdin} {es : List (Event Stdin)} (h : Sound libs s past)
    (hstep : (machine deps debugMode libs).step s a = some (s', es)) :
    Sound libs s' (past ++ es) := by
  cases steps_of_step hstep with
  | submitted signer request =>
      refine ⟨fun i => ?_, h.request, fun i message hmem => ?_⟩
      · have hnil : traceOf i [Event.submitted signer request] = [] := rfl
        rw [traceOf_append, hnil, List.append_nil]
        exact h.post i
      · rcases List.mem_append.mp hmem with hold | hnew
        · exact h.forwarded i message hold
        · cases List.mem_singleton.mp hnew
  | posted i req hpost hhandler =>
      refine h.setPost ?_ ?_
      · rw [Deployment.requestOf, hhandler, Option.map_none]
      · rw [show traceOf i past = [] from h.recorded hpost, List.nil_append]
        exact recorded_receivePost req
  | refused i request signer answer hpost hanswer =>
      obtain ⟨htrace, hrecover⟩ := h.recorded hpost
      refine h.setPost (h.requestOf_eq_none hpost) ?_
      rw [htrace]
      exact Or.inr ⟨request, Or.inr ⟨signer, hrecover, Or.inr ⟨answer, hanswer, rfl⟩⟩⟩
  | admitted i request signer d es' hpost hd => exact h.setAdmitted hpost hd
  | abandoned i request signer hpost =>
      obtain ⟨htrace, hrecover⟩ := h.recorded hpost
      refine h.setPost (h.requestOf_eq_none hpost) ?_
      rw [htrace]
      exact Or.inr ⟨request, Or.inr ⟨signer, hrecover, Or.inl rfl⟩⟩
  | deployment a d es' hallows hd => exact h.setDeployment hallows hd

theorem sound_of_run {key : K} {task : TaskId} {as : List (Action Stdin)} {es : List (Event Stdin)}
    (hrun : (machine deps debugMode libs).run (start key task) as = some (s, es)) :
    Sound libs s es :=
  Machine.run_invariant (I := fun s past => Sound libs s past) sound_of_step
    (sound_start key task) hrun

/-! ## What authentication gives -/

/-- The network has said that the address is on the whitelist. -/
def Whitelisted (es : List (Event Stdin)) (signer : Address) : Prop :=
  ∃ h, .post h (.lookedUp signer (.ok true)) ∈ es

/-- Only the owner of an address on the whitelist signs for it: if the address is
recovered from a posted request, then the owner has submitted a request with this id
before. -/
def Unforged (libs : AuthLibraries Stdin) (es : List (Event Stdin)) : Prop :=
  ∀ before h request after signer, es = before ++ .post h (.posted request) :: after →
    libs.recoverAddressFromMsg request.signature request.id.toBytes = some signer →
    Whitelisted es signer →
    ∃ request', .submitted signer request' ∈ before ∧ request'.id = request.id

end Frontend

/-! Someone has seen a request and posts its id and its signature with another program. -/

namespace Replay

open Frontend

/-- The address is recovered from the message as a wallet signs it. -/
def recoverAddressFromMsg (signature : Signature × Bool) (msg : Bytes) : Option Address :=
  let text := "\x19Ethereum Signed Message:\n" ++ toString msg.length
  let digest := Keccak.keccak256 (text.toUTF8.data.toList ++ msg)
  (Secp256k1.recover digest (if signature.2 then 1 else 0) signature.1.r signature.1.s).map
    fun key => key.address Keccak.keccak256

/-- The address of the secret key 1. -/
def signer : Address := .ofNat 20 0x7e5f4552091a69125d5dfcb7b8c2659029395bdf

def original : TEERequest Unit where
  id := .ofNat 32 1
  program := [1]
  stdin := ()
  cycle_limit := 7
  signature :=
    (⟨.ofNat 32 0xf9308a019258c31049344f85f89d5229b531c845836f99b08601f113bce036f9,
      .ofNat 32 0x40e35d37a95fe0a2577fcce9bd302c4b96457164402213d6b4cf2000baec4847⟩, false)

def altered : TEERequest Unit := { original with program := [2] }

def libs : AuthLibraries Unit where
  deserialize req :=
    if req = [1] then .ok original else if req = [2] then .ok altered else .error "invalid"
  recoverAddressFromMsg := recoverAddressFromMsg

def network : ProverNetwork where
  connect := .ok ()
  getTeeWhitelistStatus address := .ok (address = signer.toBytes)

def deps : Deps ℕ := .standard (fun _ _ => none) 1

def actions : List (Frontend.Action Unit) :=
  [.submit signer original, .post 0 [1], .lookup 0 network, .post 1 [2], .lookup 1 network,
    .deployment (.handler 1 .lock), .deployment (.handler 1 (.connect (some 0))),
    .deployment (.handler 1 (.send (.ok ())))]

def events : List (Frontend.Event Unit) :=
  [.submitted signer original, .post 0 (.posted original), .post 0 (.lookedUp signer (.ok true)),
    .post 1 (.posted altered), .post 1 (.lookedUp signer (.ok true)),
    .forwarded 1 (.Execute () [2] 7)]

end Replay

end Sp1Tee
