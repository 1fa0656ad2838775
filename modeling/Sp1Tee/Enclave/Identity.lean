import Sp1Tee.Enclave.History

/-!
# What an enclave says about its key

Two kinds of responses are about the signing key: the public key itself, and an
attestation to it. Whatever the connections ask for and however they are interleaved,
the key in them is the one that the enclave was started with. For attestations this
is said relative to the security modules that are called.
-/

namespace Sp1Tee

open Foundation Foundation.Solidity

section Truthful

variable {K : Type} (deps : Deps K) (genuine : Nsm → Prop) (key : K)

/-- A public key is that of `key`, and a document is what a genuine security module
makes of the request to attest to `key`. -/
def EnclaveResponse.Truthful : EnclaveResponse → Prop
  | .PublicKey point => point = (Server.new key).getPublicKey deps
  | .SigningKeyAttestation document =>
      ∃ nsm, genuine nsm ∧
        nsm.processRequest ((Server.new key).attestationRequest deps) =
          .ok (.Attestation document)
  | _ => True

variable {deps genuine key}

theorem Server.truthful_of_send {Stdin : Type} {debugMode : Bool} {server : Server K}
    {message : EnclaveRequest Stdin} {response : EnclaveResponse}
    (h : Server.handleMessage deps debugMode server message = .send response) :
    response.Truthful deps genuine server.signing_key := by
  cases message with
  | Print text =>
      cases debugMode with
      | false =>
          cases h
          trivial
      | true => cases h
  | GetPublicKey =>
      cases h
      rfl
  | AttestSigningKey | Execute | CloseSession => cases h
  | GetEncryptedSigningKey | SetSigningKey =>
      cases h
      trivial

theorem Server.truthful_of_attestSigningKey {server : Server K} {nsm : Nsm} (hnsm : genuine nsm)
    {response : EnclaveResponse} (h : server.attestSigningKey deps nsm = .ok response) :
    response.Truthful deps genuine server.signing_key := by
  rw [attestSigningKey] at h
  split at h
  · cases h
    trivial
  · cases hprocess : nsm.processRequest (server.attestationRequest deps) with
    | error payload =>
        rw [hprocess] at h
        cases h
    | ok answer =>
        rw [hprocess] at h
        cases answer with
        | Attestation document =>
            cases h
            exact ⟨nsm, hnsm, hprocess⟩
        | other =>
            cases h
            trivial

theorem Server.truthful_signPublicValues (server : Server K) (vk : Bytes32)
    (public_values : Bytes) :
    (server.signPublicValues deps vk public_values).Truthful deps genuine key := by
  rw [signPublicValues]
  split <;> trivial

theorem Server.truthful_joined {Stdin : Type} {job : Job Stdin}
    {result : Except Panic EnclaveResponse} {task : TaskId}
    (h : ∀ response, result = .ok response → response.Truthful deps genuine key) :
    (Server.joined deps job (result.mapError fun payload => ⟨task, payload⟩)).Truthful deps
      genuine key := by
  cases result with
  | ok response => exact h response rfl
  | error payload => cases job <;> trivial

end Truthful

namespace Enclave

variable {K Stdin : Type} (deps : Deps K) (genuine : Nsm → Prop) (key : K)

def Input.Genuine : Input Stdin → Prop
  | .attest nsm => genuine nsm
  | _ => True

def Action.Genuine : Action Stdin → Prop
  | .accept _ => True
  | .on _ input => input.Genuine genuine

def Phase.Truthful : Phase Stdin → Prop
  | .blocked _ _ (.returned result) =>
      ∀ response, result = .ok response → response.Truthful deps genuine key
  | .replying _ response => response.Truthful deps genuine key
  | _ => True

def Event.Truthful : Event Stdin → Prop
  | .answered _ response => response.Truthful deps genuine key
  | _ => True

/-- The enclave has the key, and all responses that are on their way are truthful. -/
structure Truthful (s : Enclave K Stdin) : Prop where
  signing_key : s.server.signing_key = key
  phase : ∀ {c phase}, s.connections c = some phase → phase.Truthful deps genuine key

variable {deps genuine key} {debugMode : Bool}

theorem truthful_start (task : TaskId) :
    (start key task : Enclave K Stdin).Truthful deps genuine key where
  signing_key := rfl
  phase h := by cases h

theorem truthful_of_progresses {server : Server K} {fresh : TaskId} {phase : Phase Stdin}
    {input : Input Stdin} {p : Progress Stdin} (hinput : input.Genuine genuine)
    (h : phase.Truthful deps genuine server.signing_key)
    (hp : Progresses deps debugMode server fresh phase input p) :
    p.phase.Truthful deps genuine server.signing_key ∧
      ∀ e ∈ p.events, e.Truthful deps genuine server.signing_key := by
  cases hp with
  | failedRecv | skipped | spawned | closing | admitted | locked | failedReply =>
      exact ⟨trivial, List.forall_mem_nil _⟩
  | answering message response hsend =>
      exact ⟨Server.truthful_of_send hsend, List.forall_mem_nil _⟩
  | refused =>
      refine ⟨fun response hresponse => ?_, List.forall_mem_nil _⟩
      cases hresponse
      trivial
  | setupDone | runDone => exact ⟨trivial, List.forall_mem_singleton.mpr trivial⟩
  | setupPanicked | runPanicked =>
      exact ⟨nofun, List.forall_mem_singleton.mpr trivial⟩
  | runFailed =>
      refine ⟨fun response hresponse => ?_, List.forall_mem_singleton.mpr trivial⟩
      cases hresponse
      trivial
  | signed task stdin program cycle_limit vk public_values =>
      refine ⟨fun response hresponse => ?_, fun e he => ?_⟩
      · cases hresponse
        exact server.truthful_signPublicValues vk public_values
      · obtain ⟨rfl, -⟩ := mem_signedEvents he
        trivial
  | attested task nsm =>
      exact ⟨fun response => Server.truthful_of_attestSigningKey hinput, List.forall_mem_nil _⟩
  | joined task job result => exact ⟨Server.truthful_joined h, List.forall_mem_nil _⟩
  | answered request response => exact ⟨trivial, List.forall_mem_singleton.mpr h⟩

/-- A step whose attestation is genuine keeps an enclave truthful, and so is what it
answers. -/
theorem truthful_of_step {s s' : Enclave K Stdin} {a : Action Stdin} {es : List (ℕ × Event Stdin)}
    (h : s.Truthful deps genuine key) (ha : a.Genuine genuine)
    (hstep : (machine deps debugMode).step s a = some (s', es)) :
    s'.Truthful deps genuine key ∧ ∀ e ∈ es, e.2.Truthful deps genuine key := by
  cases a with
  | accept c =>
      obtain ⟨-, rfl, rfl⟩ := step_accept hstep
      refine ⟨⟨h.signing_key, fun {d phase} hd => ?_⟩, List.forall_mem_nil _⟩
      rcases eq_or_eq_of_update hd with ⟨-, rfl⟩ | hd
      · trivial
      · exact h.phase hd
  | on c input =>
      obtain ⟨phase, p, hc, hp, rfl, rfl⟩ := step_on hstep
      have hkey := h.signing_key
      subst hkey
      obtain ⟨hphase, hevents⟩ := truthful_of_progresses ha (h.phase hc) hp
      refine ⟨⟨rfl, fun {d phase'} hd => ?_⟩, fun e he => ?_⟩
      · rcases eq_or_eq_of_update hd with ⟨-, rfl⟩ | hd
        · exact hphase
        · exact h.phase hd
      · obtain ⟨e', he', rfl⟩ := List.mem_map.mp he
        exact hevents e' he'

end Enclave

end Sp1Tee
