import Sp1Tee.EndToEnd.Acceptance
import Sp1Tee.EndToEnd.SavedAttestation
import Sp1Tee.Host.Delivery

/-!
# What a client is told is so

A response with signed public values goes from an execution's blocking task over a
connection and a handler to a client. `Certified` says of such a response what it stands
for, whatever the prover has done before and elsewhere: this connection has set up and run
the program that was asked for, on its input and within its limit, and what came out was
signed with the enclave's key. Together with what is shown of the handlers, it follows that
a client who is told of a success can have it verified by the contract.
-/

namespace Sp1Tee

open Foundation Foundation.Solidity Host

namespace Enclave

variable {K Stdin : Type}

section Certified

variable (deps : Deps K) (key : K) (past : List (ℕ × Event Stdin)) (c : ℕ)

/-- Signed public values are those of an execution of this request on the connection
`c`. -/
def Certified (request : EnclaveRequest Stdin) (response : EnclaveResponse) : Prop :=
  ∀ vk public_values signature recovery_id,
    response = .SignedPublicValues vk public_values signature recovery_id →
    ∃ stdin program cycle_limit task, request = .Execute stdin program cycle_limit ∧
      ExecutedBy past c task stdin program cycle_limit vk public_values ∧
      (c, Event.signed task (Server.digest deps vk public_values)) ∈ past ∧
      deps.signDigestRecoverable key (Server.digest deps vk public_values) =
        some (signature, recovery_id)

/-- The response that is on its way is certified. -/
def Phase.Certified : Phase Stdin → Prop
  | .blocked _ job (.returned result) =>
      ∀ response, result = .ok response → Enclave.Certified deps key past c job.request response
  | .replying request response => Enclave.Certified deps key past c request response
  | _ => True

def Event.Certified : Event Stdin → Prop
  | .answered request response => Enclave.Certified deps key past c request response
  | _ => True

end Certified

variable {deps : Deps K} {debugMode : Bool} {key : K} {past past' : List (ℕ × Event Stdin)} {c : ℕ}

theorem Certified.mono (hsub : past ⊆ past') {request : EnclaveRequest Stdin}
    {response : EnclaveResponse} (h : Certified deps key past c request response) :
    Certified deps key past' c request response := by
  intro vk public_values signature recovery_id hresponse
  obtain ⟨stdin, program, cycle_limit, task, hrequest, hexecuted, hsigned, hsign⟩ :=
    h vk public_values signature recovery_id hresponse
  exact ⟨stdin, program, cycle_limit, task, hrequest, hexecuted.mono hsub, hsub hsigned, hsign⟩

theorem Phase.Certified.mono (hsub : past ⊆ past') {phase : Phase Stdin}
    (h : phase.Certified deps key past c) : phase.Certified deps key past' c := by
  cases phase with
  | receiving | closed => trivial
  | replying request response => exact Enclave.Certified.mono hsub h
  | blocked task job stage =>
      cases stage with
      | returned result => exact fun response hresponse => (h response hresponse).mono hsub
      | _ => trivial

theorem Event.Certified.mono (hsub : past ⊆ past') {e : Event Stdin}
    (h : e.Certified deps key past c) : e.Certified deps key past' c := by
  cases e with
  | answered request response => exact Enclave.Certified.mono hsub h
  | _ => trivial

theorem certified_of_answers {request : EnclaveRequest Stdin} {response : EnclaveResponse}
    (h : Answers request response)
    (hrequest : ∀ stdin program cycle_limit, request ≠ .Execute stdin program cycle_limit) :
    Certified deps key past c request response := by
  rintro vk public_values signature recovery_id rfl
  cases h with
  | signed => exact absurd rfl (hrequest _ _ _)

theorem certified_error (request : EnclaveRequest Stdin) (e : String) :
    Certified deps key past c request (.Error e) :=
  nofun

theorem certified_joined {task : TaskId} {job : Job Stdin} {result : Except Panic EnclaveResponse}
    (h : ∀ response, result = .ok response → Certified deps key past c job.request response) :
    Certified deps key past c job.request
      (Server.joined deps job (result.mapError fun payload => ⟨task, payload⟩)) := by
  cases result with
  | ok response => exact h response rfl
  | error payload => cases job <;> exact certified_error _ _

theorem certified_of_progresses {server : Server K} {fresh : TaskId} {phase : Phase Stdin}
    {input : Input Stdin} {p : Progress Stdin}
    (hexplained : phase.Explained deps debugMode server.signing_key past c)
    (h : phase.Certified deps server.signing_key past c)
    (hp : Progresses deps debugMode server fresh phase input p)
    (hsub : past ⊆ past') (hevents : ∀ e ∈ p.events, (c, e) ∈ past') :
    p.phase.Certified deps server.signing_key past' c ∧
      ∀ e ∈ p.events, e.Certified deps server.signing_key past' c := by
  have hphase := h.mono hsub
  cases hp with
  | failedRecv | skipped | closing | failedReply | spawned | admitted | locked =>
      exact ⟨trivial, List.forall_mem_nil _⟩
  | answering message response hsend =>
      refine ⟨certified_of_answers (answers_of_send hsend) ?_, List.forall_mem_nil _⟩
      rintro stdin program cycle_limit rfl
      cases hsend
  | refused =>
      refine ⟨fun response hresponse => ?_, List.forall_mem_nil _⟩
      cases hresponse
      exact certified_error _ _
  | setupDone | runDone => exact ⟨trivial, List.forall_mem_singleton.mpr trivial⟩
  | setupPanicked | runPanicked =>
      refine ⟨fun response hresponse => ?_, List.forall_mem_singleton.mpr trivial⟩
      cases hresponse
  | runFailed =>
      refine ⟨fun response hresponse => ?_, List.forall_mem_singleton.mpr trivial⟩
      cases hresponse
      exact certified_error _ _
  | signed task stdin program cycle_limit vk public_values =>
      have hexecuted : ExecutedBy past c task stdin program cycle_limit vk public_values :=
        hexplained
      refine ⟨fun response hresponse => ?_, fun e he => ?_⟩
      · cases hresponse
        intro vk' public_values' signature recovery_id hresponse
        obtain ⟨rfl, rfl, hsign⟩ := (Server.signPublicValues_eq_signed_iff deps).mp hresponse
        refine ⟨stdin, program, cycle_limit, task, rfl, hexecuted.mono hsub, hevents _ ?_, hsign⟩
        simp [release, signedEvents, hsign]
      · obtain ⟨rfl, -⟩ := mem_signedEvents he
        trivial
  | attested task nsm =>
      refine ⟨fun response hresponse => ?_, List.forall_mem_nil _⟩
      refine certified_of_answers (answers_attestSigningKey hresponse) fun _ _ _ hrequest => ?_
      cases hrequest
  | joined task job result => exact ⟨certified_joined hphase, List.forall_mem_nil _⟩
  | answered request response => exact ⟨trivial, List.forall_mem_singleton.mpr hphase⟩

theorem certified_of_run {s : Enclave K Stdin} {task : TaskId} {as : List (Action Stdin)}
    {es : List (ℕ × Event Stdin)}
    (hrun : (machine deps debugMode).run (start key task) as = some (s, es))
    {request : EnclaveRequest Stdin} {response : EnclaveResponse}
    (hanswered : (c, .answered request response) ∈ es) :
    Certified deps key es c request response := by
  have hinv := Machine.run_invariant (I := fun s past => Explained deps debugMode key past s ∧
      (∀ c phase, s.connections c = some phase → phase.Certified deps key past c) ∧
      ∀ e ∈ past, e.2.Certified deps key past e.1)
    (fun {s s' a past es} h hstep => ?_)
    ⟨explained_start key task, nofun, List.forall_mem_nil _⟩ hrun
  · exact hinv.2.2 _ hanswered
  · obtain ⟨hexplained, hphases, hpast⟩ := h
    refine ⟨explained_of_step hexplained hstep, ?_⟩
    have hsub : past ⊆ past ++ es := List.subset_append_left past es
    rcases step_cases hstep with ⟨c, -, rfl, rfl⟩ | ⟨c, input, phase, p, hc, hp, rfl, rfl⟩
    · refine ⟨fun d phase hd => ?_, fun e he => ?_⟩
      · rcases eq_or_eq_of_update hd with ⟨-, rfl⟩ | hd
        · trivial
        · exact (hphases d phase hd).mono hsub
      · rw [List.append_nil] at he ⊢
        exact hpast e he
    · have hkey := hexplained.signing_key
      subst hkey
      have hevents : ∀ e ∈ p.events, (c, e) ∈ past ++ p.events.map fun e => (c, e) :=
        fun e he => List.mem_append_right past (List.mem_map_of_mem he)
      obtain ⟨hphase, hcertified⟩ :=
        certified_of_progresses (hexplained.phase hc) (hphases c phase hc) hp hsub hevents
      refine ⟨fun d phase' hd => ?_, fun e he => ?_⟩
      · rcases eq_or_eq_of_update hd with ⟨rfl, rfl⟩ | hd
        · exact hphase
        · exact (hphases d phase' hd).mono hsub
      · rcases List.mem_append.mp he with hold | hnew
        · exact (hpast e hold).mono hsub
        · obtain ⟨e', he', rfl⟩ := List.mem_map.mp hnew
          exact hcertified e' he'

/-- Public keys are those of the enclave's key, whatever the security module does. -/
theorem truthful_of_run {s : Enclave K Stdin} {task : TaskId} {as : List (Action Stdin)}
    {es : List (ℕ × Event Stdin)}
    (hrun : (machine deps debugMode).run (start key task) as = some (s, es)) :
    ∀ e ∈ es, e.2.Truthful deps (fun _ => True) key := by
  have hstart : (start key task : Enclave K Stdin).Truthful deps (fun _ => True) key ∧
      ∀ e ∈ ([] : List (ℕ × Event Stdin)), e.2.Truthful deps (fun _ => True) key :=
    ⟨truthful_start task, List.forall_mem_nil _⟩
  have hinv := Machine.run_invariant (I := fun s past => s.Truthful deps (fun _ => True) key ∧
      ∀ e ∈ past, e.2.Truthful deps (fun _ => True) key)
    (fun {s s' a past es} h hstep => ?_) hstart hrun
  · exact hinv.2
  · have ha : a.Genuine fun _ => True := by
      cases a with
      | accept => trivial
      | on c input => cases input <;> trivial
    obtain ⟨hs', hes⟩ := truthful_of_step h.1 ha hstep
    exact ⟨hs', List.forall_mem_append.mpr ⟨h.2, hes⟩⟩

end Enclave

/-! ## The outcomes -/

namespace Saving

variable {K Stdin : Type}

/-- A success is that of an execution of this request on the connection `c`. -/
structure Vouched (deps : Deps K) (key : K) (past : List (ℕ × Enclave.Event Stdin)) (c : ℕ)
    (request : ClientRequest Stdin) (response : TEEResponse) : Prop where
  executed : ∃ stdin program cycle_limit task, request = .execute stdin program cycle_limit ∧
    Enclave.ExecutedBy past c task stdin program cycle_limit response.vkey
      response.public_values ∧
    (c, Enclave.Event.signed task (Server.digest deps response.vkey response.public_values)) ∈ past
  signature : ∃ recovery_id, response.recovery_id = recovery_id + 27 ∧
    deps.signDigestRecoverable key (Server.digest deps response.vkey response.public_values) =
      some (response.signature, recovery_id)

theorem executeInner_eq_ok {answer : EnclaveResponse} {response : TEEResponse}
    (h : executeInner answer = .ok response) :
    ∃ recovery_id, response.recovery_id = recovery_id + 27 ∧
      answer = .SignedPublicValues response.vkey response.public_values response.signature
        recovery_id := by
  cases answer with
  | SignedPublicValues vkey public_values signature recovery_id =>
      cases h
      exact ⟨recovery_id, rfl, rfl⟩
  | _ => cases h

theorem getAddress_eq_ok {keccak256 : Bytes → Bytes32} {answer : EnclaveResponse}
    {address : Address} (h : Host.getAddress keccak256 answer = .ok address) :
    ∃ point, answer = .PublicKey point ∧
      ethereumAddressFromEncodedPoint keccak256 point = some address := by
  cases answer with
  | PublicKey point =>
      rw [Host.getAddress] at h
      split at h
      · next haddress =>
        cases h
        exact ⟨point, rfl, haddress⟩
      · cases h
  | _ => cases h

section Runs

variable {deps : Deps K} {debugMode : Bool} {keccak256 : Bytes → Bytes32} {key : K}
  {task : TaskId} {as : List (Action Stdin)} {s : Saving K Stdin} {es : List (Event Stdin)} {h : ℕ}
  {request : ClientRequest Stdin}

theorem vouched_of_outcomes
    (hrun : (machine deps debugMode keccak256).run (start key task) as = some (s, es))
    {response : TEEResponse} (hmem : (h, request, .execute (.ok response)) ∈ outcomes es) :
    ∃ c, .deployment (.handler h (.connect (some c))) ∈ as ∧
      Vouched deps key (enclaveEvents es) c request response := by
  obtain ⟨opened, hd⟩ := delivered_of_run hrun
  obtain ⟨as', hrun'⟩ := run_enclave hrun
  obtain ⟨-, ⟨e, -, hfailed⟩ | ⟨c, answer, hopened, hanswered, hanswer⟩⟩ :=
    hd.deployment.outcome hmem
  · cases request <;> cases hfailed
  · refine ⟨c, hd.connected hopened, ?_⟩
    cases request with
    | execute stdin program cycle_limit =>
        have hok : executeInner answer = .ok response := (Outcome.execute.inj hanswer).symm
        obtain ⟨recovery_id, hid, rfl⟩ := executeInner_eq_ok hok
        obtain ⟨_, _, _, task', hrequest, hexecuted, hsigned, hsign⟩ :=
          Enclave.certified_of_run hrun' hanswered _ _ _ _ rfl
        cases hrequest
        exact ⟨⟨_, _, _, task', rfl, hexecuted, hsigned⟩, recovery_id, hid, hsign⟩
    | getAddress => cases hanswer

theorem address_of_outcomes
    (hrun : (machine deps debugMode keccak256).run (start key task) as = some (s, es))
    {address : Address} (hmem : (h, request, .getAddress (.ok address)) ∈ outcomes es) :
    address = (deps.verifyingKey key).address deps.keccak256 := by
  obtain ⟨opened, hd⟩ := delivered_of_run hrun
  obtain ⟨as', hrun'⟩ := run_enclave hrun
  obtain ⟨-, ⟨e, -, hfailed⟩ | ⟨c, answer, -, hanswered, hanswer⟩⟩ := hd.deployment.outcome hmem
  · cases request <;> cases hfailed
  · cases request with
    | execute => cases hanswer
    | getAddress =>
        have hok : Host.getAddress deps.keccak256 answer = .ok address :=
          (Outcome.getAddress.inj hanswer).symm
        obtain ⟨point, rfl, hpoint⟩ := getAddress_eq_ok hok
        have htruthful : point = (Server.new key).getPublicKey deps :=
          Enclave.truthful_of_run hrun' _ hanswered
        rw [htruthful, Server.getPublicKey, ethereumAddressFromEncodedPoint_ofPublicKey] at hpoint
        exact (Option.some.inj hpoint).symm

end Runs

/-- In every run, a success that a client is told is that of an execution of its own
request, on the connection of its handler, and is signed with the enclave's key; an address
that a client is told is that of this key. -/
theorem outcomes_sound (deps : Deps K) (debugMode : Bool) (keccak256 : Bytes → Bytes32) (key : K)
    (task : TaskId) {as : List (Action Stdin)} {s : Saving K Stdin} {es : List (Event Stdin)}
    (hrun : (machine deps debugMode keccak256).run (start key task) as = some (s, es)) :
    (∀ h request response, (h, request, .execute (.ok response)) ∈ outcomes es →
      ∃ c, .deployment (.handler h (.connect (some c))) ∈ as ∧
        Vouched deps key (enclaveEvents es) c request response) ∧
    ∀ h request address, (h, request, .getAddress (.ok address)) ∈ outcomes es →
      address = (deps.verifyingKey key).address deps.keccak256 :=
  ⟨fun _ _ _ hmem => vouched_of_outcomes hrun hmem,
    fun _ _ _ hmem => address_of_outcomes hrun hmem⟩

end Saving

/-! One client has the test program executed, another one asks for the address. -/

namespace Told

open Fixture SP1TeeVerifier.Fixture

def toldActions : List (Saving.Action Unit) :=
  [.deployment (.arrive 0 (.execute () [1, 2, 3] 1000)), .deployment (.handler 0 .lock),
    .deployment (.handler 0 (.connect (some 0))), .deployment (.arrive 1 .getAddress),
    .deployment (.handler 0 (.send (.ok ()))), .deployment (.handler 1 (.connect (some 1))),
    .deployment (.deliver 0), .deployment (.handler 1 (.send (.ok ()))),
    .deployment (.enclave 0 .proceed), .deployment (.deliver 1), .deployment (.enclave 0 .proceed),
    .deployment (.enclave 0 (.setup (.ok VKEY))), .deployment (.enclave 1 (.reply (.ok ()))),
    .deployment (.enclave 0 (.run (.ok (.ok VALID_PUBLIC_VALUES)))),
    .deployment (.handler 1 (.recv (.ok ()))), .deployment (.enclave 0 .proceed),
    .deployment (.enclave 0 .join), .deployment (.enclave 0 (.reply (.ok ()))),
    .deployment (.handler 0 (.recv (.ok ())))]

def success : TEEResponse := ⟨VKEY, VALID_PUBLIC_VALUES, signature, 28⟩

theorem run_toldActions :
    ∃ s es, (Saving.machine deps false Keccak.keccak256).run (.start realSigner 1) toldActions =
        some (s, es) ∧
      Saving.outcomes es = [(1, .getAddress, .getAddress (.ok messageSigner)),
        (0, .execute () [1, 2, 3] 1000, .execute (.ok success))] := by
  have hrun : ((Saving.machine deps false Keccak.keccak256).run (.start realSigner 1)
      toldActions).map (fun r => decide (Saving.outcomes r.2 =
        [(1, .getAddress, .getAddress (.ok messageSigner)),
          (0, .execute () [1, 2, 3] 1000, .execute (.ok success))])) = some true := by
    decide +kernel
  obtain ⟨⟨s, es⟩, hs, houtcomes⟩ := Option.map_eq_some_iff.mp hrun
  exact ⟨s, es, hs, of_decide_eq_true houtcomes⟩

end Told

open Told Fixture SP1TeeVerifier.Fixture in
theorem Saving.outcomes_sound_told :
    ∃ s es c, (machine deps false Keccak.keccak256).run (start realSigner 1) toldActions =
        some (s, es) ∧
      Vouched deps realSigner (enclaveEvents es) c (.execute () [1, 2, 3] 1000) success ∧
      messageSigner = (deps.verifyingKey realSigner).address deps.keccak256 := by
  obtain ⟨s, es, hrun, houtcomes⟩ := run_toldActions
  obtain ⟨hvouched, haddress⟩ := outcomes_sound _ _ _ _ _ hrun
  rw [houtcomes] at hvouched haddress
  obtain ⟨c, -, hvouched⟩ := hvouched 0 (.execute () [1, 2, 3] 1000) success (by simp)
  exact ⟨s, es, c, hrun, hvouched, haddress 1 .getAddress messageSigner (by simp)⟩

section Accepted

open SP1TeeVerifier

variable {K Stdin : Type} {deps : Deps K} {key : K}

/-- The contract accepts what is vouched for, if the enclave's address is registered. -/
theorem verifyProof_of_vouched
    {recover : Bytes32 → ℕ → Bytes32 → Bytes32 → Option PublicKey}
    (hrecover : ∀ key digest signature recovery_id,
      deps.signDigestRecoverable key digest = some (signature, recovery_id) →
      recovery_id = 0 ∨ recovery_id = 1 →
      recover digest recovery_id.toNat signature.r signature.s = some (deps.verifyingKey key))
    {past : List (ℕ × Enclave.Event Stdin)} {c : ℕ} {request : ClientRequest Stdin}
    {response : TEEResponse} (hvouched : Saving.Vouched deps key past c request response)
    (hlow : response.recovery_id = 27 ∨ response.recovery_id = 28)
    {staticcall : GatewayCall → Except Bytes Unit} {chain : Chain} (hreach : Reachable chain)
    (hmem : (deps.verifyingKey key).address deps.keccak256 ∈ chain.contract.getSigners)
    {inner : Bytes}
    (hinner : staticcall ⟨chain.contract.gateway, response.vkey, response.public_values, inner⟩ =
      .ok ()) :
    verifyProof (Evm.ofRecover deps.keccak256 recover) staticcall chain.contract response.vkey
      response.public_values
      (clientProofBytes (Evm.ofRecover deps.keccak256 recover) deps.SP1_TEE_VERSION response
        inner) = .ok () := by
  obtain ⟨recovery_id, hid, hsign⟩ := hvouched.signature
  have hid' : recovery_id = 0 ∨ recovery_id = 1 := by
    rw [hid] at hlow
    exact hlow.imp (fun h => (UInt8.add_left_inj 27).mp h) fun h => (UInt8.add_left_inj 27).mp h
  have hkeccak : (Evm.ofRecover deps.keccak256 recover).keccak256 = deps.keccak256 := rfl
  have haddress := ecrecover_add_27 deps.keccak256 recover hid' (hrecover _ _ _ _ hsign hid')
  rw [← messageHash_eq_digest deps hkeccak, ← hid] at haddress
  rw [← encode_clientProof, verifyProof_eq_ok_iff_exists]
  refine ⟨_, rfl, (accepts_clientProof_iff hlow haddress).mpr ⟨?_, ?_⟩, hinner⟩
  · exact fun hzero => hreach.sound.zero_notMem (hzero ▸ hmem)
  · exact hreach.sound.isSigner_iff.mpr hmem

/-- In every run, if the address that one client was told is registered, then the contract
accepts every success that any client was told, in front of any proof that the gateway
accepts. -/
theorem verifyProof_of_outcomes (debugMode : Bool) (keccak256 : Bytes → Bytes32)
    (recover : Bytes32 → ℕ → Bytes32 → Bytes32 → Option PublicKey)
    (hrecover : ∀ key digest signature recovery_id,
      deps.signDigestRecoverable key digest = some (signature, recovery_id) →
      recovery_id = 0 ∨ recovery_id = 1 →
      recover digest recovery_id.toNat signature.r signature.s = some (deps.verifyingKey key))
    {task : TaskId} {as : List (Saving.Action Stdin)} {s : Saving K Stdin}
    {es : List (Saving.Event Stdin)}
    (hrun : (Saving.machine deps debugMode keccak256).run (.start key task) as = some (s, es))
    {h h' : ℕ} {request request' : ClientRequest Stdin} {address : Address} {response : TEEResponse}
    (hasked : (h, request, .getAddress (.ok address)) ∈ Saving.outcomes es)
    (hexecuted : (h', request', .execute (.ok response)) ∈ Saving.outcomes es)
    (hlow : response.recovery_id = 27 ∨ response.recovery_id = 28)
    (staticcall : GatewayCall → Except Bytes Unit) (chain : Chain) (hreach : Reachable chain)
    (hmem : address ∈ chain.contract.getSigners) (inner : Bytes)
    (hinner : staticcall ⟨chain.contract.gateway, response.vkey, response.public_values, inner⟩ =
      .ok ()) :
    verifyProof (Evm.ofRecover deps.keccak256 recover) staticcall chain.contract response.vkey
      response.public_values
      (clientProofBytes (Evm.ofRecover deps.keccak256 recover) deps.SP1_TEE_VERSION response
        inner) = .ok () := by
  obtain rfl := Saving.address_of_outcomes hrun hasked
  obtain ⟨c, -, hvouched⟩ := Saving.vouched_of_outcomes hrun hexecuted
  exact verifyProof_of_vouched hrecover hvouched hlow hreach hmem hinner

end Accepted

open Told Fixture SP1TeeVerifier.Fixture in
theorem verifyProof_of_outcomes_told :
    SP1TeeVerifier.verifyProof ethereum acceptProof setUp.contract VKEY VALID_PUBLIC_VALUES
      (clientProofBytes ethereum 1 success proof) = .ok () := by
  obtain ⟨s, es, hrun, houtcomes⟩ := run_toldActions
  exact verifyProof_of_outcomes false Keccak.keccak256 Secp256k1.recover
    (fun key h sig recovery_id hsign _ => recover_deps key h sig recovery_id hsign) hrun
    (by rw [houtcomes]; exact List.mem_cons_self)
    (by rw [houtcomes]; exact List.mem_cons_of_mem _ List.mem_cons_self) (Or.inr rfl) acceptProof
    setUp reachable_setUp messageSigner_mem proof (by decide +kernel)

end Sp1Tee
