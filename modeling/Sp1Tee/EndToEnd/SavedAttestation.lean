import Sp1Tee.Enclave.Identity
import Sp1Tee.Host.Attestations
import Sp1Tee.Host.SaveAttestation

/-!
# A saved attestation verifies for its own key

`save_attestation` takes the address of an object from one response of the enclave and
the object from another one. Whoever verifies the object takes the address from the
document in it. They agree in every run, since everything that the enclave says is about
the one key that it was started with.

The security module and the validation of documents are not part of this repository.
`Faithful` is what is assumed of them: a document carries what was asked for, beside the
measurements of the enclave, and is valid.
-/

namespace Sp1Tee

open Foundation Foundation.Solidity Host

namespace Deployment

variable {K Stdin : Type} {deps : Deps K} {debugMode : Bool} {keccak256 : Bytes → Bytes32}
  {genuine : Nsm → Prop} {key : K} {d d' : Deployment K Stdin}

/-- What the enclave says, and has said, is truthful. -/
structure Truthful (deps : Deps K) (genuine : Nsm → Prop) (key : K) (d : Deployment K Stdin) :
    Prop where
  enclave : d.enclave.Truthful deps genuine key
  response : ∀ c, ∀ response ∈ d.responses c, response.Truthful deps genuine key

def Action.Genuine (genuine : Nsm → Prop) : Action Stdin → Prop
  | .enclave _ input => input.Genuine genuine
  | _ => True

theorem truthful_start (task : TaskId) :
    (start key task : Deployment K Stdin).Truthful deps genuine key where
  enclave := Enclave.truthful_start task
  response _ := List.forall_mem_nil _

theorem genuine_of_move {a : Action Stdin} {outcomes : List (HostEvent Stdin)}
    {action : Enclave.Action Stdin} (ha : a.Genuine genuine)
    (hmove : d.move deps a = some (d', outcomes, some action)) : action.Genuine genuine := by
  cases a with
  | arrive h request =>
      simp only [move] at hmove
      split at hmove
      · cases hmove
      · cases hmove
  | handler h input =>
      simp only [move] at hmove
      split at hmove
      · cases hmove
      · cases handles_of_handle hmove with
        | connecting => trivial
  | stranger c =>
      cases hmove
      trivial
  | deliver c =>
      simp only [move] at hmove
      split at hmove
      · cases hmove
        trivial
      · cases hmove
  | enclave c input =>
      simp only [move] at hmove
      split at hmove
      · cases hmove
      · cases hmove
        exact ha

theorem truthful_of_step {a : Action Stdin}
    {es : List ((ℕ × Enclave.Event Stdin) ⊕ HostEvent Stdin)}
    (h : d.Truthful deps genuine key) (ha : a.Genuine genuine)
    (hstep : (machine deps debugMode).step d a = some (d', es)) :
    d'.Truthful deps genuine key := by
  obtain ⟨d₁, outcomes, action, hmove, hes⟩ := step_cases hstep
  have henclave := h.enclave
  rw [← move_enclave hmove] at henclave
  have hresponse : ∀ c, ∀ response ∈ d₁.responses c, response.Truthful deps genuine key :=
    fun c response hmem => h.response c response (responses_of_move hmove c hmem)
  rcases hes with ⟨-, rfl, -⟩ | ⟨a', enclave, es', rfl, hstep', rfl, -⟩
  · exact ⟨henclave, hresponse⟩
  · obtain ⟨henclave', hevents⟩ :=
      Enclave.truthful_of_step henclave (genuine_of_move ha hmove) hstep'
    refine ⟨henclave', fun c response hmem => ?_⟩
    rcases List.mem_append.mp hmem with hold | hnew
    · exact hresponse c response hold
    · obtain ⟨e, he, hanswered⟩ := List.mem_filterMap.mp hnew
      have htruthful := hevents e he
      obtain ⟨c', e⟩ := e
      cases e with
      | answered request response' =>
          simp only [answeredOn, Option.ite_none_right_eq_some, Option.some.injEq] at hanswered
          exact hanswered.2 ▸ htruthful
      | _ => cases hanswered

theorem truthful_of_nextResponse {c : ℕ} {response : EnclaveResponse}
    (h : d.Truthful deps genuine key) (hresponse : d.nextResponse c = some (response, d')) :
    response.Truthful deps genuine key ∧ d'.Truthful deps genuine key := by
  rw [nextResponse] at hresponse
  split at hresponse
  · cases hresponse
  · next response rest hresponses =>
    cases hresponse
    refine ⟨h.response c response ?_, h.enclave, fun c' response' hmem => ?_⟩
    · rw [hresponses]
      exact List.mem_cons_self
    · exact h.response c' response' (update_subset hresponses c' hmem)

theorem truthful_hangUpSession (h : d.Truthful deps genuine key) (stage : SaveStage) :
    (d.hangUpSession stage).Truthful deps genuine key := by
  cases stage <;> exact ⟨h.enclave, h.response⟩

theorem truthful_of_saves {stage stage' : SaveStage} {es : List SaveEvent}
    (h : d.Truthful deps genuine key)
    (hsaves : Saves deps debugMode keccak256 d stage d' stage' es) :
    d'.Truthful deps genuine key ∧
      ∀ response, .received response ∈ es → response.Truthful deps genuine key := by
  cases hsaves with
  | connected c enclave es' haccept =>
      have hgenuine : (Enclave.Action.accept c : Enclave.Action Stdin).Genuine genuine := trivial
      obtain ⟨henclave, -⟩ := Enclave.truthful_of_step h.enclave hgenuine haccept
      exact ⟨⟨henclave, h.response⟩, nofun⟩
  | requested | pipelined => exact ⟨⟨h.enclave, h.response⟩, nofun⟩
  | attested c attestation d₁ hnext =>
      obtain ⟨hresponse, hd⟩ := truthful_of_nextResponse h hnext
      refine ⟨hd, fun response hmem => ?_⟩
      cases List.mem_singleton.mp hmem
      exact hresponse
  | identified c attestation public_key address d₁ hnext =>
      obtain ⟨hresponse, hd⟩ := truthful_of_nextResponse h hnext
      refine ⟨hd, fun response hmem => ?_⟩
      cases List.mem_singleton.mp hmem
      exact hresponse
  | refused stage c response e d₁ hnext =>
      obtain ⟨hresponse, hd⟩ := truthful_of_nextResponse h hnext
      refine ⟨truthful_hangUpSession hd stage, fun response' hmem => ?_⟩
      rcases List.mem_cons.mp hmem with heq | hmem
      · cases heq
        exact hresponse
      · cases List.mem_singleton.mp hmem
  | saved c key attestation result =>
      exact ⟨truthful_hangUpSession h _, by simp⟩
  | failed => exact ⟨truthful_hangUpSession h _, by simp⟩
  | dropped => exact ⟨truthful_hangUpSession h _, nofun⟩

end Deployment

namespace Saving

variable {K Stdin : Type} {deps : Deps K} {debugMode : Bool} {keccak256 : Bytes → Bytes32}
  {genuine : Nsm → Prop} {key : K} {s s' : Saving K Stdin}

/-- What holds of every run whose security modules are genuine. -/
structure Sound (deps : Deps K) (keccak256 : Bytes → Bytes32) (genuine : Nsm → Prop) (key : K)
    (s : Saving K Stdin) (past : List (Event Stdin)) : Prop where
  deployment : s.deployment.Truthful deps genuine key
  session : ∀ i, Deployment.Recorded keccak256 (traceOf i past) (s.sessions i)
  received : ∀ i response, .received response ∈ traceOf i past →
    response.Truthful deps genuine key

def Action.Genuine (genuine : Nsm → Prop) : Action Stdin → Prop
  | .deployment a => a.Genuine genuine
  | .session _ _ => True

theorem sound_start (task : TaskId) :
    Sound deps keccak256 genuine key (start key task : Saving K Stdin) [] where
  deployment := Deployment.truthful_start task
  session _ := rfl
  received _ _ h := by cases h

theorem sound_of_step {a : Action Stdin} {past es : List (Event Stdin)}
    (h : Sound deps keccak256 genuine key s past) (ha : a.Genuine genuine)
    (hstep : (machine deps debugMode keccak256).step s a = some (s', es)) :
    Sound deps keccak256 genuine key s' (past ++ es) := by
  rcases step_cases hstep with
    ⟨a', d, es', rfl, hd, rfl, rfl⟩ | ⟨i, d, stage, es', hsaves, rfl, rfl⟩
  · have htrace : ∀ i, traceOf i (past ++ es'.map .inl) = traceOf i past := fun i => by
      rw [traceOf_append, traceOf_deployment, List.append_nil]
    refine ⟨Deployment.truthful_of_step h.deployment ha hd, fun i => ?_, fun i => ?_⟩
    · rw [htrace]
      exact h.session i
    · rw [htrace]
      exact h.received i
  · obtain ⟨hd, hreceived⟩ := Deployment.truthful_of_saves h.deployment hsaves
    refine ⟨hd, fun j => ?_, fun j response hmem => ?_⟩
    · change Deployment.Recorded keccak256 _ (Function.update s.sessions i stage j)
      rw [traceOf_append, traceOf_session]
      by_cases hij : i = j
      · subst hij
        rw [if_pos rfl, Function.update_self]
        exact Deployment.recorded_of_saves (h.session i) hsaves
      · rw [if_neg hij, List.append_nil, Function.update_of_ne (Ne.symm hij)]
        exact h.session j
    · rw [traceOf_append, traceOf_session] at hmem
      rcases List.mem_append.mp hmem with hold | hnew
      · exact h.received j response hold
      · split at hnew
        · exact hreceived response hnew
        · cases hnew

theorem sound_of_run {task : TaskId} {as : List (Action Stdin)} {es : List (Event Stdin)}
    (hgenuine : ∀ a ∈ as, a.Genuine genuine)
    (hrun : (machine deps debugMode keccak256).run (start key task) as = some (s, es)) :
    Sound deps keccak256 genuine key s es :=
  Machine.run_invariant_of_forall (I := fun s past => Sound deps keccak256 genuine key s past)
    sound_of_step (sound_start task) hgenuine hrun

end Saving

/-! ## The objects in the bucket -/

/-- The documents of the security module are valid, and carry what was asked for beside
the measurements `pcrs`. -/
def Faithful (libs : Libraries) (pcrs : ℕ → Option Bytes) (nsm : Nsm) : Prop :=
  ∀ request document, nsm.processRequest request = .ok (.Attestation document) →
    verifyAttestation libs document = .ok
      { pcrs := pcrs, user_data := request.user_data, public_key := request.public_key }

section Bucket

variable {K Stdin : Type} {deps : Deps K} {key : K} {libs : Libraries} {pcrs : ℕ → Option Bytes}
  {document : Bytes}

theorem verifyAttestation_of_truthful
    (h : (EnclaveResponse.SigningKeyAttestation document).Truthful deps (Faithful libs pcrs) key) :
    verifyAttestation libs document = .ok
      { pcrs := pcrs
        user_data := some (Server.versionBytes deps)
        public_key := some (EncodedPoint.ofPublicKey (deps.verifyingKey key)).asBytes } := by
  obtain ⟨nsm, hnsm, hprocess⟩ := h
  exact hnsm _ document hprocess

/-- The measurement in hexadecimal, with or without `0x` in front, is that of the document. -/
theorem hasPcr0_of_encode {doc : AttestationDoc} {actual : Bytes}
    (hactual : doc.pcrs 0 = some actual) {pcr0 : String}
    (hpcr0 : pcr0 = Hex.encode actual ∨ pcr0 = "0x" ++ Hex.encode actual) :
    HasPcr0 pcr0 doc := by
  have hplain : Hex.removeMark (Hex.encodeChars actual) = Hex.encodeChars actual :=
    Hex.removeMark_of_not_hasMark (Hex.not_hasMark_encodeChars actual)
  refine ⟨actual, hactual, ?_⟩
  rcases hpcr0 with rfl | rfl
  · rw [withoutMark, Hex.toList_encode, hplain, Hex.encode]
  · rw [withoutMark, String.toList_append, Hex.toList_encode]
    change Hex.encode actual =
      String.ofList (Hex.removeMark ('0' :: 'x' :: Hex.encodeChars actual))
    rw [Hex.removeMark_mark, hplain, Hex.encode]

/-- In every run in which the security modules are faithful, an object that a session
writes is under the printed address of the key in it, and verifies for this address, the
version of the enclave and the measurement of the document. Before it is written, the
session has read an attestation and a public key. -/
theorem saveAttestation_verifies (deps : Deps K) (debugMode : Bool) (libs : Libraries)
    (pcrs : ℕ → Option Bytes) (key : K) (task : TaskId) {as : List (Saving.Action Stdin)}
    {s : Saving K Stdin} {es : List (Saving.Event Stdin)}
    (hrun : (Saving.machine deps debugMode libs.keccak256).run (.start key task) as =
      some (s, es))
    (hfaithful : ∀ a ∈ as, a.Genuine (Faithful libs pcrs)) (i : ℕ) (object_key : String)
    (document : Bytes) (hput : .inr (i, .put object_key document) ∈ es) :
    (∃ doc public_key address, verifyAttestation libs document = .ok doc ∧
      doc.public_key = some public_key ∧
      ethereumAddressFromSec1Bytes libs.keccak256 public_key = some address ∧
      object_key = toChecksum libs.keccak256 address ∧
      ∀ (client : S3Client) (actual : Bytes) (pcr0 : String),
        client.getObject object_key = .ok (.ok document) → doc.pcrs 0 = some actual →
        (pcr0 = Hex.encode actual ∨ pcr0 = "0x" ++ Hex.encode actual) →
        verifyAttestationForSigner libs client address deps.SP1_TEE_VERSION pcr0 = .ok ()) ∧
    ∃ public_key result, Saving.traceOf i es =
      [.received (.SigningKeyAttestation document), .received (.PublicKey public_key),
        .put object_key document, .returned result] := by
  have hsound := Saving.sound_of_run hfaithful hrun
  obtain ⟨point, address, result, haddress, hkey, htrace⟩ :=
    Deployment.written_of_recorded (hsound.session i) (Saving.mem_traceOf_iff.mpr hput)
  have hpoint : point = .ofPublicKey (deps.verifyingKey key) :=
    hsound.received i (.PublicKey point) (by simp [htrace])
  have hattestation : (EnclaveResponse.SigningKeyAttestation document).Truthful deps
      (Faithful libs pcrs) key :=
    hsound.received i (.SigningKeyAttestation document) (by simp [htrace])
  have hdoc := verifyAttestation_of_truthful hattestation
  refine ⟨⟨_, _, address, hdoc, rfl, ?_, hkey, fun client actual pcr0 hobject hactual hpcr0 => ?_⟩,
    point, result, htrace⟩
  · rw [hpoint, ethereumAddressFromEncodedPoint_ofPublicKey] at haddress
    rw [ethereumAddressFromSec1Bytes_ofPublicKey, haddress]
  · refine verifyAttestationForSigner_eq_ok_iff.mpr ⟨document, _, ?_, hdoc,
      hasPcr0_of_encode hactual hpcr0, rfl, ?_⟩
    · rw [fetch, ← hkey, hobject]
      rfl
    · rw [hpoint, ethereumAddressFromEncodedPoint_ofPublicKey] at haddress
      rw [derivedAddress, Option.bind_some, ethereumAddressFromSec1Bytes_ofPublicKey, haddress]

end Bucket

/-! A session of `save_attestation` beside a stranger who tries to set the signing key. -/

namespace SavedSession

def savingDeps : Deps ℕ := .standard (fun _ _ => none) 1

/-- The document is what was asked for: four bytes of user data and the public key. -/
def savingNsm : Nsm where
  init := 0
  processRequest request :=
    match request.user_data, request.public_key with
    | some [a, b, c, d], some public_key => .ok (.Attestation (a :: b :: c :: d :: public_key))
    | _, _ => .ok .other

def savingPcrs (i : ℕ) : Option Bytes := if i = 0 then some [0xab] else none

def savingLibs : Libraries where
  keccak256 := Keccak.keccak256
  validateAndParseAttestationDoc bytes :=
    match bytes with
    | a :: b :: c :: d :: public_key =>
        .ok { pcrs := savingPcrs, user_data := some [a, b, c, d], public_key := some public_key }
    | _ => .error "invalid"
  SP1_TEE_VERSION := 1

theorem faithful_savingNsm : Faithful savingLibs savingPcrs savingNsm := by
  intro request document h
  obtain ⟨user_data, nonce, public_key⟩ := request
  simp only [savingNsm] at h
  split at h
  · cases h
    rfl
  · cases h

def savingActions : List (Saving.Action Unit) :=
  [.session 0 (.connect (.ok 0)), .session 0 (.send (.ok ())), .session 0 (.send (.ok ())),
    .deployment (.deliver 0), .deployment (.stranger 1),
    .deployment (.enclave 1 (.recv (.ok (.SetSigningKey [1])))),
    .deployment (.enclave 0 (.attest savingNsm)), .deployment (.enclave 0 .join),
    .deployment (.enclave 0 (.reply (.ok ()))), .session 0 (.recv (.ok ())),
    .deployment (.deliver 0), .deployment (.enclave 1 (.reply (.ok ()))),
    .deployment (.enclave 0 (.reply (.ok ()))), .session 0 (.recv (.ok ())),
    .session 0 (.put (.ok ()))]

def savedDocument : Bytes :=
  leBytes 4 1 ++ (EncodedPoint.ofPublicKey (savingDeps.verifyingKey 1)).asBytes

def savedKey : String :=
  toChecksum Keccak.keccak256 ((savingDeps.verifyingKey 1).address Keccak.keccak256)

theorem run_savingActions :
    ∃ s es, (Saving.machine savingDeps false savingLibs.keccak256).run (.start 1 1) savingActions =
        some (s, es) ∧ .inr (0, .put savedKey savedDocument) ∈ es := by
  have hrun : ((Saving.machine savingDeps false savingLibs.keccak256).run (.start 1 1)
      savingActions).map (fun r => decide
        (SaveEvent.put savedKey savedDocument ∈ Saving.traceOf 0 r.2)) = some true := by
    decide +kernel
  obtain ⟨⟨s, es⟩, hs, hput⟩ := Option.map_eq_some_iff.mp hrun
  exact ⟨s, es, hs, Saving.mem_traceOf_iff.mp (of_decide_eq_true hput)⟩

end SavedSession

open SavedSession in
theorem saveAttestation_verifies_session :
    ∃ s es, (Saving.machine savingDeps false savingLibs.keccak256).run (.start 1 1) savingActions =
        some (s, es) ∧ .inr (0, .put savedKey savedDocument) ∈ es ∧
      ∃ address, savedKey = toChecksum Keccak.keccak256 address ∧
        verifyAttestationForSigner savingLibs (.of [(savedKey, savedDocument)]) address 1 "0xab" =
          .ok () := by
  obtain ⟨s, es, hrun, hput⟩ := run_savingActions
  have hfaithful : ∀ a ∈ savingActions, a.Genuine (Faithful savingLibs savingPcrs) := by
    simp [savingActions, Saving.Action.Genuine, Deployment.Action.Genuine, Enclave.Input.Genuine,
      faithful_savingNsm]
  obtain ⟨⟨doc, public_key, address, hdoc, -, -, hkey, hverifies⟩, -⟩ :=
    saveAttestation_verifies savingDeps false savingLibs savingPcrs 1 1 hrun hfaithful 0 savedKey
      savedDocument hput
  refine ⟨s, es, hrun, hput, address, hkey, ?_⟩
  refine hverifies (.of [(savedKey, savedDocument)]) [0xab] "0xab" ?_ ?_ (Or.inr (by decide))
  · simp [S3Client.of]
  · cases hdoc
    rfl

end Sp1Tee
