import Sp1Tee.Host.Address
import Sp1Tee.Host.Deployment

/-!
# Saving the attestation

From time to time the host asks the enclave for an attestation and for its public key,
and writes the attestation to the bucket under the key's address. `Saving.machine`
interleaves any number of such sessions with the handlers, the strangers and the
connections of a deployment.

`Saves` lists what a step of a session can do. From it follows what the trace of a
session says about where it stands: an object is written after both responses have
been read, each of them of its kind.
-/

namespace Sp1Tee

open Foundation Foundation.Solidity

namespace Host

/-- Why an attestation could not be saved. The error of the store is its text. -/
inductive SaveAttestationError
  | VsockError (e : CommunicationError)
  | S3PutObjectError (e : String)
  | BadPublicKey
  | UnexpectedMessage (type_of : String)
deriving DecidableEq

/-- The attestation that the first response has to be. -/
def expectAttestation : EnclaveResponse → Except SaveAttestationError Bytes
  | .SigningKeyAttestation attestation => .ok attestation
  | msg => .error (.UnexpectedMessage msg.typeOf)

/-- The key of the object, from the public key that the second response has to be. -/
def expectObjectKey (keccak256 : Bytes → Bytes32) :
    EnclaveResponse → Except SaveAttestationError String
  | .PublicKey public_key =>
    match ethereumAddressFromEncodedPoint keccak256 public_key with
    | some key => .ok (toChecksum keccak256 key)
    | none => .error .BadPublicKey
  | msg => .error (.UnexpectedMessage msg.typeOf)

/-- Where `save_attestation` stands, with its connection. -/
inductive SaveStage
  | connecting
  | connected (c : ℕ)
  /-- It has sent `AttestSigningKey`. -/
  | requested (c : ℕ)
  /-- It has sent `GetPublicKey` behind it. -/
  | awaitingAttestation (c : ℕ)
  | awaitingPublicKey (c : ℕ) (attestation : Bytes)
  /-- The attestation is to be written under `key`. -/
  | saving (c : ℕ) (key : String) (attestation : Bytes)
  /-- It has returned or was dropped. -/
  | ended
deriving DecidableEq

inductive SaveInput
  | connect (result : Except CommunicationError ℕ)
  | send (result : Except CommunicationError Unit)
  | recv (result : Except CommunicationError Unit)
  | put (result : Except String Unit)
  | drop

/-- What is remembered of a session. An object counts as written as soon as the store
is asked to. -/
inductive SaveEvent
  | received (response : EnclaveResponse)
  | put (key : String) (body : Bytes)
  | returned (result : Except SaveAttestationError Unit)
deriving DecidableEq

def Line.push {Stdin : Type} (message : EnclaveRequest Stdin) : Line Stdin → Line Stdin
  | .messages queue => .messages (queue ++ [message])
  | .arbitrary => .arbitrary

end Host

open Host

namespace Deployment

variable {K Stdin : Type} (deps : Deps K) (debugMode : Bool) (keccak256 : Bytes → Bytes32)

def hangUpSession (d : Deployment K Stdin) : SaveStage → Deployment K Stdin
  | .connected c | .requested c => d.setLine c .arbitrary
  | .awaitingAttestation c | .awaitingPublicKey c _ | .saving c _ _ =>
      d.setLine c (d.lines c).close
  | .connecting | .ended => d

/-- A session returns or is dropped at some stage: its stream goes away. -/
def quit (d : Deployment K Stdin) (stage : SaveStage) (trace : List SaveEvent) :
    Deployment K Stdin × SaveStage × List SaveEvent :=
  (d.hangUpSession stage, .ended, trace)

/-- The next response on `c`, and the deployment after it has been read. -/
def nextResponse (d : Deployment K Stdin) (c : ℕ) :
    Option (EnclaveResponse × Deployment K Stdin) :=
  match d.responses c with
  | [] => none
  | response :: rest =>
      some (response, { d with responses := Function.update d.responses c rest })

def connectSession (d : Deployment K Stdin) (c : ℕ) :
    Option (Deployment K Stdin × SaveStage × List SaveEvent) :=
  match (Enclave.machine deps debugMode).step d.enclave (.accept c) with
  | none => none
  | some (enclave, _) =>
      some ({ d with enclave := enclave }.setLine c (.messages []), .connected c, [])

def takeAttestation (d : Deployment K Stdin) (c : ℕ) :
    Option (Deployment K Stdin × SaveStage × List SaveEvent) :=
  match d.nextResponse c with
  | none => none
  | some (response, d) =>
    match expectAttestation response with
    | .ok attestation => some (d, .awaitingPublicKey c attestation, [.received response])
    | .error e =>
        some (d.quit (.awaitingAttestation c) [.received response, .returned (.error e)])

def takePublicKey (d : Deployment K Stdin) (c : ℕ) (attestation : Bytes) :
    Option (Deployment K Stdin × SaveStage × List SaveEvent) :=
  match d.nextResponse c with
  | none => none
  | some (response, d) =>
    match expectObjectKey keccak256 response with
    | .ok key => some (d, .saving c key attestation, [.received response])
    | .error e =>
        some (d.quit (.awaitingPublicKey c attestation)
          [.received response, .returned (.error e)])

/-- A step of a session: the deployment and the stage after it, and its trace. -/
def saveAttestation (d : Deployment K Stdin) :
    SaveStage → SaveInput → Option (Deployment K Stdin × SaveStage × List SaveEvent)
  | .connecting, .connect (.ok c) => d.connectSession deps debugMode c
  | .connecting, .connect (.error e) =>
      some (d.quit .connecting [.returned (.error (.VsockError e))])
  | .connected c, .send (.ok ()) =>
      some (d.setLine c ((d.lines c).push .AttestSigningKey), .requested c, [])
  | .connected c, .send (.error e) =>
      some (d.quit (.connected c) [.returned (.error (.VsockError e))])
  | .requested c, .send (.ok ()) =>
      some (d.setLine c ((d.lines c).push .GetPublicKey), .awaitingAttestation c, [])
  | .requested c, .send (.error e) =>
      some (d.quit (.requested c) [.returned (.error (.VsockError e))])
  | .awaitingAttestation c, .recv (.ok ()) => d.takeAttestation c
  | .awaitingAttestation c, .recv (.error e) =>
      some (d.quit (.awaitingAttestation c) [.returned (.error (.VsockError e))])
  | .awaitingPublicKey c attestation, .recv (.ok ()) =>
      d.takePublicKey keccak256 c attestation
  | .awaitingPublicKey c attestation, .recv (.error e) =>
      some (d.quit (.awaitingPublicKey c attestation) [.returned (.error (.VsockError e))])
  | .saving c key attestation, .put result =>
      some (d.quit (.saving c key attestation)
        [.put key attestation, .returned (result.mapError .S3PutObjectError)])
  | .ended, _ => none
  | stage, .drop => some (d.quit stage [])
  | _, _ => none

variable {deps debugMode keccak256} {d d' : Deployment K Stdin}

inductive Saves (deps : Deps K) (debugMode : Bool) (keccak256 : Bytes → Bytes32)
    (d : Deployment K Stdin) :
    SaveStage → Deployment K Stdin → SaveStage → List SaveEvent → Prop
  | connected (c : ℕ) (enclave : Enclave K Stdin) (es : List (ℕ × Enclave.Event Stdin))
      (h : (Enclave.machine deps debugMode).step d.enclave (.accept c) = some (enclave, es)) :
      Saves deps debugMode keccak256 d .connecting
        ({ d with enclave := enclave }.setLine c (.messages [])) (.connected c) []
  | requested (c : ℕ) (line : Line Stdin) :
      Saves deps debugMode keccak256 d (.connected c) (d.setLine c line) (.requested c) []
  | pipelined (c : ℕ) (line : Line Stdin) :
      Saves deps debugMode keccak256 d (.requested c) (d.setLine c line)
        (.awaitingAttestation c) []
  | attested (c : ℕ) (attestation : Bytes) (d₁ : Deployment K Stdin)
      (h : d.nextResponse c = some (.SigningKeyAttestation attestation, d₁)) :
      Saves deps debugMode keccak256 d (.awaitingAttestation c) d₁
        (.awaitingPublicKey c attestation) [.received (.SigningKeyAttestation attestation)]
  | identified (c : ℕ) (attestation : Bytes) (public_key : EncodedPoint) (address : Address)
      (d₁ : Deployment K Stdin) (h : d.nextResponse c = some (.PublicKey public_key, d₁))
      (haddress : ethereumAddressFromEncodedPoint keccak256 public_key = some address) :
      Saves deps debugMode keccak256 d (.awaitingPublicKey c attestation) d₁
        (.saving c (toChecksum keccak256 address) attestation) [.received (.PublicKey public_key)]
  | refused (stage : SaveStage) (c : ℕ) (response : EnclaveResponse) (e : SaveAttestationError)
      (d₁ : Deployment K Stdin) (h : d.nextResponse c = some (response, d₁))
      (hstage : stage ≠ .ended) :
      Saves deps debugMode keccak256 d stage (d₁.hangUpSession stage) .ended
        [.received response, .returned (.error e)]
  | saved (c : ℕ) (key : String) (attestation : Bytes)
      (result : Except SaveAttestationError Unit) :
      Saves deps debugMode keccak256 d (.saving c key attestation)
        (d.hangUpSession (.saving c key attestation)) .ended
        [.put key attestation, .returned result]
  | failed (stage : SaveStage) (e : SaveAttestationError) (hstage : stage ≠ .ended) :
      Saves deps debugMode keccak256 d stage (d.hangUpSession stage) .ended
        [.returned (.error e)]
  | dropped (stage : SaveStage) (hstage : stage ≠ .ended) :
      Saves deps debugMode keccak256 d stage (d.hangUpSession stage) .ended []

theorem expectAttestation_eq_ok {response : EnclaveResponse} {attestation : Bytes}
    (h : expectAttestation response = .ok attestation) :
    response = .SigningKeyAttestation attestation := by
  cases response with
  | SigningKeyAttestation document =>
      cases h
      rfl
  | _ => cases h

theorem expectObjectKey_eq_ok {response : EnclaveResponse} {key : String}
    (h : expectObjectKey keccak256 response = .ok key) :
    ∃ public_key address, response = .PublicKey public_key ∧
      ethereumAddressFromEncodedPoint keccak256 public_key = some address ∧
      key = toChecksum keccak256 address := by
  cases response with
  | PublicKey public_key =>
      rw [expectObjectKey] at h
      split at h
      · next address haddress =>
        cases h
        exact ⟨public_key, address, rfl, haddress, rfl⟩
      · cases h
  | _ => cases h

theorem saves_of_connectSession {c : ℕ} {stage : SaveStage} {es : List SaveEvent}
    (h : d.connectSession deps debugMode c = some (d', stage, es)) :
    Saves deps debugMode keccak256 d .connecting d' stage es := by
  rw [connectSession] at h
  split at h
  · cases h
  · next enclave es' haccept =>
    cases h
    exact .connected c enclave es' haccept

theorem saves_of_takeAttestation {c : ℕ} {stage : SaveStage} {es : List SaveEvent}
    (h : d.takeAttestation c = some (d', stage, es)) :
    Saves deps debugMode keccak256 d (.awaitingAttestation c) d' stage es := by
  rw [takeAttestation] at h
  split at h
  · cases h
  · next response d₁ hresponse =>
    split at h
    · next attestation hattestation =>
      cases h
      obtain rfl := expectAttestation_eq_ok hattestation
      exact .attested c attestation d' hresponse
    · next e he =>
      cases h
      exact .refused _ c response e d₁ hresponse nofun

theorem saves_of_takePublicKey {c : ℕ} {attestation : Bytes} {stage : SaveStage}
    {es : List SaveEvent}
    (h : d.takePublicKey keccak256 c attestation = some (d', stage, es)) :
    Saves deps debugMode keccak256 d (.awaitingPublicKey c attestation) d' stage es := by
  rw [takePublicKey] at h
  split at h
  · cases h
  · next response d₁ hresponse =>
    split at h
    · next key hkey =>
      cases h
      obtain ⟨public_key, address, rfl, haddress, rfl⟩ := expectObjectKey_eq_ok hkey
      exact .identified c attestation public_key address d' hresponse haddress
    · next e he =>
      cases h
      exact .refused _ c response e d₁ hresponse nofun

theorem saves_of_saveAttestation {stage stage' : SaveStage} {input : SaveInput}
    {es : List SaveEvent}
    (h : d.saveAttestation deps debugMode keccak256 stage input = some (d', stage', es)) :
    Saves deps debugMode keccak256 d stage d' stage' es := by
  unfold saveAttestation at h
  split at h
  · exact saves_of_connectSession h
  · cases h
    exact .failed _ _ nofun
  · cases h
    exact .requested _ _
  · cases h
    exact .failed _ _ nofun
  · cases h
    exact .pipelined _ _
  · cases h
    exact .failed _ _ nofun
  · exact saves_of_takeAttestation h
  · cases h
    exact .failed _ _ nofun
  · exact saves_of_takePublicKey h
  · cases h
    exact .failed _ _ nofun
  · cases h
    exact .saved _ _ _ _
  · cases h
  · next hstage =>
    cases h
    exact .dropped _ hstage
  · cases h

/-! ## What the trace of a session says -/

/-- The object under this key is written after the two responses have been read, and
the key is the address of the second. -/
def Written (keccak256 : Bytes → Bytes32) (trace : List SaveEvent) (object_key : String)
    (document : Bytes) : Prop :=
  ∃ public_key address result,
    ethereumAddressFromEncodedPoint keccak256 public_key = some address ∧
    object_key = toChecksum keccak256 address ∧
    trace = [.received (.SigningKeyAttestation document), .received (.PublicKey public_key),
      .put object_key document, .returned result]

/-- How a session got to its stage. -/
def Recorded (keccak256 : Bytes → Bytes32) (trace : List SaveEvent) : SaveStage → Prop
  | .awaitingPublicKey _ attestation => trace = [.received (.SigningKeyAttestation attestation)]
  | .saving _ key attestation => ∃ public_key address,
      ethereumAddressFromEncodedPoint keccak256 public_key = some address ∧
      key = toChecksum keccak256 address ∧
      trace = [.received (.SigningKeyAttestation attestation), .received (.PublicKey public_key)]
  | .ended => ∀ object_key document, .put object_key document ∈ trace →
      Written keccak256 trace object_key document
  | _ => trace = []

theorem not_mem_of_recorded {trace : List SaveEvent} {stage : SaveStage}
    (h : Recorded keccak256 trace stage) (hstage : stage ≠ .ended) (object_key : String)
    (document : Bytes) : .put object_key document ∉ trace := by
  cases stage with
  | ended => exact absurd rfl hstage
  | awaitingPublicKey c attestation =>
      have htrace : trace = [.received (.SigningKeyAttestation attestation)] := h
      simp [htrace]
  | saving c key attestation =>
      obtain ⟨public_key, address, -, -, rfl⟩ := h
      simp
  | _ =>
      have htrace : trace = [] := h
      simp [htrace]

/-- What is written is explained by the trace. -/
theorem written_of_recorded {trace : List SaveEvent} {stage : SaveStage} {object_key : String}
    {document : Bytes} (h : Recorded keccak256 trace stage)
    (hput : .put object_key document ∈ trace) : Written keccak256 trace object_key document := by
  by_cases hstage : stage = .ended
  · subst hstage
    exact h object_key document hput
  · exact absurd hput (not_mem_of_recorded h hstage object_key document)

theorem recorded_of_saves {trace : List SaveEvent} {stage stage' : SaveStage}
    {es : List SaveEvent} (h : Recorded keccak256 trace stage)
    (hsaves : Saves deps debugMode keccak256 d stage d' stage' es) :
    Recorded keccak256 (trace ++ es) stage' := by
  have hended : stage ≠ .ended → (∀ object_key document, .put object_key document ∉ es) →
      Recorded keccak256 (trace ++ es) .ended := by
    intro hstage hes object_key document hmem
    rcases List.mem_append.mp hmem with hold | hnew
    · exact absurd hold (not_mem_of_recorded h hstage object_key document)
    · exact absurd hnew (hes object_key document)
  cases hsaves with
  | connected | requested | pipelined =>
      rw [List.append_nil]
      exact h
  | attested c attestation d₁ hnext =>
      have htrace : trace = [] := h
      rw [htrace]
      rfl
  | identified c attestation public_key address d₁ hnext haddress =>
      have htrace : trace = [.received (.SigningKeyAttestation attestation)] := h
      rw [htrace]
      exact ⟨public_key, address, haddress, rfl, rfl⟩
  | saved c key attestation result =>
      obtain ⟨public_key, address, haddress, rfl, rfl⟩ := h
      intro object_key document hmem
      have hput : object_key = toChecksum keccak256 address ∧ document = attestation := by
        simpa using hmem
      obtain ⟨rfl, rfl⟩ := hput
      exact ⟨public_key, address, result, haddress, rfl, rfl⟩
  | refused stage c response e d₁ hnext hstage => exact hended hstage (by simp)
  | failed stage e hstage => exact hended hstage (by simp)
  | dropped stage hstage => exact hended hstage nofun

end Deployment

/-- A deployment with the sessions of `save_attestation`. -/
structure Saving (K Stdin : Type) where
  deployment : Deployment K Stdin
  sessions : ℕ → SaveStage

namespace Saving

/-- A step of the deployment or of a session. -/
inductive Action (Stdin : Type)
  | deployment (a : Deployment.Action Stdin)
  | session (i : ℕ) (input : SaveInput)

abbrev Event (Stdin : Type) :=
  ((ℕ × Enclave.Event Stdin) ⊕ Deployment.HostEvent Stdin) ⊕ (ℕ × SaveEvent)

variable {K Stdin : Type} (deps : Deps K) (debugMode : Bool) (keccak256 : Bytes → Bytes32)

def start (key : K) (task : TaskId) : Saving K Stdin where
  deployment := .start key task
  sessions _ := .connecting

def machine : Machine (Saving K Stdin) (Action Stdin) (Event Stdin) where
  step s a :=
    match a with
    | .deployment a =>
      match (Deployment.machine deps debugMode).step s.deployment a with
      | none => none
      | some (d, es) => some ({ s with deployment := d }, es.map .inl)
    | .session i input =>
      match s.deployment.saveAttestation deps debugMode keccak256 (s.sessions i) input with
      | none => none
      | some (d, stage, es) =>
        some ({ deployment := d, sessions := Function.update s.sessions i stage },
          es.map fun e => .inr (i, e))

def traceOf (i : ℕ) (es : List (Event Stdin)) : List SaveEvent :=
  (es.filterMap Sum.getRight?).filterMap (Machine.ofIndex i)

variable {deps debugMode keccak256} {s s' : Saving K Stdin}

theorem traceOf_append (i : ℕ) (es es' : List (Event Stdin)) :
    traceOf i (es ++ es') = traceOf i es ++ traceOf i es' := by
  rw [traceOf, List.filterMap_append, List.filterMap_append]
  rfl

theorem traceOf_deployment (i : ℕ)
    (es : List ((ℕ × Enclave.Event Stdin) ⊕ Deployment.HostEvent Stdin)) :
    traceOf i (es.map .inl : List (Event Stdin)) = [] := by
  simp [traceOf, List.filterMap_map, Function.comp_def]

theorem traceOf_session (i j : ℕ) (es : List SaveEvent) :
    traceOf i (es.map fun e => .inr (j, e) : List (Event Stdin)) = if j = i then es else [] := by
  rw [← Machine.filterMap_ofIndex_map, traceOf, List.filterMap_map]
  simp [Function.comp_def]

theorem mem_traceOf_iff {i : ℕ} {e : SaveEvent} {es : List (Event Stdin)} :
    e ∈ traceOf i es ↔ .inr (i, e) ∈ es := by
  rw [traceOf, List.mem_filterMap]
  constructor
  · rintro ⟨⟨j, e'⟩, hmem, hindex⟩
    simp only [Machine.ofIndex, Option.ite_none_right_eq_some, Option.some.injEq] at hindex
    obtain ⟨rfl, rfl⟩ := hindex
    obtain ⟨e, he, hright⟩ := List.mem_filterMap.mp hmem
    rwa [Sum.getRight?_eq_some_iff.mp hright] at he
  · intro h
    exact ⟨(i, e), List.mem_filterMap.mpr ⟨.inr (i, e), h, rfl⟩, if_pos rfl⟩

theorem step_cases {a : Action Stdin} {es : List (Event Stdin)}
    (hstep : (machine deps debugMode keccak256).step s a = some (s', es)) :
    (∃ a' d es', a = .deployment a' ∧
      (Deployment.machine deps debugMode).step s.deployment a' = some (d, es') ∧
      s' = { s with deployment := d } ∧ es = es'.map .inl) ∨
    ∃ i d stage es', Deployment.Saves deps debugMode keccak256 s.deployment (s.sessions i) d stage
        es' ∧
      s' = { deployment := d, sessions := Function.update s.sessions i stage } ∧
      es = es'.map fun e => .inr (i, e) := by
  cases a with
  | deployment a =>
      simp only [machine] at hstep
      split at hstep
      · cases hstep
      · next d es' hd =>
        cases hstep
        exact Or.inl ⟨a, d, es', rfl, hd, rfl, rfl⟩
  | session i input =>
      simp only [machine] at hstep
      split at hstep
      · cases hstep
      · next d stage es' hd =>
        cases hstep
        exact Or.inr ⟨i, d, stage, es', Deployment.saves_of_saveAttestation hd, rfl, rfl⟩

end Saving

end Sp1Tee
