import Sp1Tee.Contracts.SP1TeeVerifier.Verification
import Sp1Tee.Enclave.History
import Sp1Tee.EndToEnd.Acceptance

/-!
# What the contract accepts, an enclave has executed

A world consists of any number of enclaves, each with its own key and version, and
of the verifier on the chain. Its runs interleave the connections of all enclaves
with the transactions of the contract. Under the assumptions on the hash and on the
signatures that `verifyProof_authentic` names, a proof is accepted only if an
enclave whose address is registered has executed what the proof is about.
-/

namespace Sp1Tee

open Foundation Foundation.Solidity SP1TeeVerifier

/-- Enclaves and the chain. -/
abbrev World (ι K Stdin : Type) := (ι → Enclave K Stdin) × Chain

namespace World

abbrev Event (ι Stdin : Type) := (ι × ℕ × Enclave.Event Stdin) ⊕ Sp1Tee.Event

variable {ι K Stdin : Type} [DecidableEq ι]

instance [DecidableEq Stdin] : DecidableEq (Event ι Stdin) := inferInstance

/-- The enclaves and the contract, interleaved. -/
def machine (deps : ι → Deps K) (debugMode : ι → Bool) :
    Machine (World ι K Stdin) ((ι × Enclave.Action Stdin) ⊕ Tx) (Event ι Stdin) :=
  .interleave (.family fun i => Enclave.machine (deps i) (debugMode i)) SP1TeeVerifier.machine

def start (key : ι → K) (task : ι → TaskId) (deployed : Chain) : World ι K Stdin :=
  (fun i => .start (key i) (task i), deployed)

def eventsOf (i : ι) (es : List (Event ι Stdin)) : List (ℕ × Enclave.Event Stdin) :=
  (es.filterMap Sum.getLeft?).filterMap (Machine.ofIndex i)

variable (deps : ι → Deps K) (key : ι → K) (evm : Evm)

def address (i : ι) : Address := ((deps i).verifyingKey (key i)).address evm.keccak256

/-- The strings that the enclaves hash for their digests. -/
def hashedIn (es : List (Event ι Stdin)) : Set Bytes :=
  {bytes | ∃ i c task stdin program cycle_limit vk public_values,
    Enclave.ExecutedBy (eventsOf i es) c task stdin program cycle_limit vk public_values ∧
      bytes ∈ hashed evm (Server.versionBytes (deps i)) vk public_values}

/-- The strings that `verifyProof` hashes. -/
def hashedBy (programVKey : Bytes32) (publicValues proofBytes : Bytes) : Set Bytes :=
  {bytes | ∃ p : TeeProof, p.encode = proofBytes ∧
    bytes ∈ hashed evm p.version programVKey publicValues}

/-- A presented signature recovers to the address of an enclave only if the key with
this address has signed the digest. -/
def Unforged (es : List (Event ι Stdin)) (programVKey : Bytes32)
    (publicValues proofBytes : Bytes) : Prop :=
  ∀ p : TeeProof, p.encode = proofBytes → ∀ i,
    p.signer evm programVKey publicValues = address deps key evm i →
    ∃ j c task, address deps key evm j = address deps key evm i ∧
      (c, Enclave.Event.signed task (messageHash evm p.version programVKey publicValues)) ∈
        eventsOf j es

variable {deps key evm} {debugMode : ι → Bool} {task : ι → TaskId} {deployed : Chain}
  {as : List ((ι × Enclave.Action Stdin) ⊕ Tx)} {w : World ι K Stdin} {es : List (Event ι Stdin)}

theorem explained_of_run
    (hrun : (machine deps debugMode).run (start key task deployed) as = some (w, es)) (i : ι) :
    Enclave.Explained (deps i) (debugMode i) (key i) (eventsOf i es) (w.1 i) := by
  obtain ⟨bs, hbs⟩ := Machine.run_interleave_left hrun
  obtain ⟨cs, hcs⟩ := Machine.run_family hbs i
  exact Enclave.explained_of_run hcs

theorem signers_of_run {gateway owner : Address} (hdeploy : deploy gateway owner = .ok deployed)
    (hrun : (machine deps debugMode).run (start key task deployed) as = some (w, es)) :
    w.2.contract.Sound ∧
      ∀ a ∈ w.2.contract.getSigners, .inr (.SignerAdded a) ∈ es := by
  obtain ⟨txs, htxs⟩ := Machine.run_interleave_right hrun
  obtain ⟨hchain, hevents⟩ := run_of_machine htxs
  have hsound : deployed.contract.Sound := sound_of_deploy hdeploy
  rw [hchain]
  refine ⟨sound_of_run hsound txs, fun a ha => ?_⟩
  rcases mem_signers_of_run hsound ha with hold | hnew
  · rw [getSigners_of_deploy hdeploy] at hold
    cases hold
  · rw [hchain] at hevents
    have hmem : Event.SignerAdded a ∈ es.filterMap Sum.getRight? := hevents ▸ hnew
    obtain ⟨e, he, hright⟩ := List.mem_filterMap.mp hmem
    rwa [Sum.getRight?_eq_some_iff.mp hright] at he

/-- If the hash has no collision on what is hashed, a presented signature was made with
the key it recovers to, and only enclaves are registered, then `verifyProof` accepts
only what a registered enclave has executed before. -/
theorem verifyProof_authentic (hkeccak : ∀ i, (deps i).keccak256 = evm.keccak256)
    {gateway owner : Address} (hdeploy : deploy gateway owner = .ok deployed)
    (hrun : (machine deps debugMode).run (start key task deployed) as = some (w, es))
    (hregistered : ∀ a, .inr (.SignerAdded a) ∈ es → ∃ i, a = address deps key evm i)
    (programVKey : Bytes32) (publicValues proofBytes : Bytes)
    (hcollision : Set.InjOn evm.keccak256
      (hashedIn deps evm es ∪ hashedBy evm programVKey publicValues proofBytes))
    (hunforged : Unforged deps key evm es programVKey publicValues proofBytes)
    (staticcall : GatewayCall → Except Bytes Unit)
    (hok : verifyProof evm staticcall w.2.contract programVKey publicValues proofBytes = .ok ()) :
    ∃ i, address deps key evm i ∈ w.2.contract.getSigners ∧
      (∃ p : TeeProof, p.encode = proofBytes ∧
        p.version = leBytes 4 (deps i).SP1_TEE_VERSION.toNat) ∧
      ∃ c t stdin program cycle_limit,
        Enclave.ExecutedBy (eventsOf i es) c t stdin program cycle_limit programVKey
          publicValues := by
  obtain ⟨hsound, hsigners⟩ := signers_of_run hdeploy hrun
  obtain ⟨p, hencode, haccepts, -⟩ := verifyProof_eq_ok_iff_exists.mp hok
  have hmem := hsound.isSigner_iff.mp haccepts.isSigner
  obtain ⟨i, hi⟩ := hregistered _ (hsigners _ hmem)
  obtain ⟨j, c, t, hj, hsigned⟩ := hunforged p hencode i hi
  obtain ⟨stdin, program, cycle_limit, vk, public_values, hexecuted, hdigest, -⟩ :=
    (explained_of_run hrun j).event hsigned
  rw [← messageHash_eq_digest (deps j) (hkeccak j).symm] at hdigest
  obtain ⟨hversion, hvk, hvalues⟩ := messageHash_inj hcollision
    (fun bytes hbytes => Or.inr ⟨p, hencode, hbytes⟩)
    (fun bytes hbytes =>
      Or.inl ⟨j, c, t, stdin, program, cycle_limit, vk, public_values, hexecuted, hbytes⟩) hdigest
  refine ⟨j, ?_, ⟨p, hencode, hversion⟩, c, t, stdin, program, cycle_limit, ?_⟩
  · rw [hj, ← hi]
    exact hmem
  · rw [hvk, hvalues]
    exact hexecuted

end World

/-! One enclave with the test signer as its key executes the program of the test, and
the owner registers it. -/

namespace Fixture

open SP1TeeVerifier.Fixture

def deployed : Chain where
  contract := { owner := owner, signersMap := SignersMap.empty, gateway := gateway }
  log := [.OwnershipTransferred 0 owner]

def worldActions : List ((Unit × Enclave.Action Unit) ⊕ Tx) :=
  [.inl ((), .accept 0), .inl ((), .on 0 (.recv (.ok (.Execute () [1, 2, 3] 1000)))),
    .inl ((), .on 0 .proceed), .inl ((), .on 0 .proceed),
    .inl ((), .on 0 (.setup (.ok VKEY))), .inl ((), .on 0 (.run (.ok (.ok VALID_PUBLIC_VALUES)))),
    .inl ((), .on 0 .proceed), .inr ⟨owner, .addSigner messageSigner⟩]

def worldEvents : List (World.Event Unit Unit) :=
  [.inl ((), 0, .setup 2 [1, 2, 3] (.ok VKEY)),
    .inl ((), 0, .run 2 [1, 2, 3] () 1000 (.ok (.ok VALID_PUBLIC_VALUES))),
    .inl ((), 0, .signed 2 digest), .inr (.SignerAdded messageSigner)]

def presented : Bytes :=
  clientProofBytes ethereum 1 ⟨VKEY, VALID_PUBLIC_VALUES, signature, 28⟩ proof

theorem messageHash_presented :
    messageHash ethereum (leBytes 4 1) VKEY VALID_PUBLIC_VALUES = digest := by
  decide +kernel

/-- The client's proof, with the recovery id 1 of the signature. -/
def presentedProof (evm : Evm) : TeeProof :=
  clientProof evm 1 ⟨VKEY, VALID_PUBLIC_VALUES, signature, 28⟩ proof

theorem signer_presentedProof (evm : Evm) (programVKey : Bytes32) (publicValues : Bytes) :
    (presentedProof evm).signer evm programVKey publicValues =
      evm.ecrecover (messageHash evm (leBytes 4 1) programVKey publicValues) (1 + 27)
        signature.r signature.s := rfl

theorem signer_presented :
    (presentedProof ethereum).signer ethereum VKEY VALID_PUBLIC_VALUES = messageSigner := by
  rw [signer_presentedProof, messageHash_presented, ← address_realSigner]
  exact ecrecover_add_27 Keccak.keccak256 Secp256k1.recover (Or.inr rfl)
    (recover_deps realSigner digest signature 1 rfl)

theorem run_worldActions :
    ∃ w, (World.machine (fun _ => deps) (fun _ => false)).run
        (World.start (fun _ => realSigner) (fun _ => 1) deployed) worldActions =
      some (w, worldEvents) ∧
      verifyProof ethereum acceptProof w.2.contract VKEY VALID_PUBLIC_VALUES presented =
        .ok () := by
  have hrun : ((World.machine (fun _ => deps) (fun _ => false)).run
      (World.start (fun _ => realSigner) (fun _ => 1) deployed) worldActions).map
        (fun r => (r.2, r.1.2.contract.isSigner messageSigner, r.1.2.contract.gateway)) =
      some (worldEvents, true, deployed.contract.gateway) := by decide +kernel
  obtain ⟨⟨w, es⟩, hw, hpair⟩ := Option.map_eq_some_iff.mp hrun
  obtain ⟨rfl, hrest⟩ := Prod.mk.inj hpair
  obtain ⟨hsigner, hgateway⟩ := Prod.mk.inj hrest
  refine ⟨w, hw, ?_⟩
  refine verifyProof_eq_ok_iff_exists.mpr ⟨presentedProof ethereum, encode_clientProof _ _ _ _,
    (accepts_clientProof_iff (Or.inr rfl) signer_presented).mpr ⟨by decide, hsigner⟩, ?_⟩
  rw [hgateway]
  decide +kernel

theorem injOn_hashed :
    Set.InjOn ethereum.keccak256 (hashed ethereum (leBytes 4 1) VKEY VALID_PUBLIC_VALUES) := by
  have hvalues : ethereum.keccak256 (leBytes 4 1) ≠ ethereum.keccak256 VALID_PUBLIC_VALUES := by
    decide +kernel
  have hversion : ethereum.keccak256 (leBytes 4 1) ≠ digest := by decide +kernel
  have hconcat : ethereum.keccak256 VALID_PUBLIC_VALUES ≠ digest := by decide +kernel
  have hdigest : ethereum.keccak256 ((ethereum.keccak256 (leBytes 4 1)).toBytes ++ VKEY.toBytes ++
      (ethereum.keccak256 VALID_PUBLIC_VALUES).toBytes) = digest := by decide +kernel
  rintro a (rfl | rfl | rfl) b (rfl | rfl | rfl) h
  · rfl
  · exact absurd h hvalues
  · exact absurd (h.trans hdigest) hversion
  · exact absurd h.symm hvalues
  · rfl
  · exact absurd (h.trans hdigest) hconcat
  · exact absurd (h.symm.trans hdigest) hversion
  · exact absurd (h.symm.trans hdigest) hconcat
  · rfl

theorem eventsOf_worldEvents :
    World.eventsOf () worldEvents =
      [(0, .setup 2 [1, 2, 3] (.ok VKEY)),
        (0, .run 2 [1, 2, 3] () 1000 (.ok (.ok VALID_PUBLIC_VALUES))), (0, .signed 2 digest)] :=
  rfl

theorem hashed_worldEvents :
    World.hashedIn (fun _ : Unit => deps) ethereum worldEvents ∪
        World.hashedBy ethereum VKEY VALID_PUBLIC_VALUES presented ⊆
      hashed ethereum (leBytes 4 1) VKEY VALID_PUBLIC_VALUES := by
  rintro bytes (⟨⟨⟩, c, task, stdin, program, cycle_limit, vk, public_values, hexecuted, hbytes⟩ |
    ⟨p, hp, hbytes⟩)
  · obtain ⟨-, hsetup, hrun⟩ := hexecuted
    rw [eventsOf_worldEvents] at hsetup hrun
    simp only [List.mem_cons, Prod.mk.injEq, Enclave.Event.setup.injEq, Enclave.Event.run.injEq,
      Except.ok.injEq, reduceCtorEq, and_false, or_false, false_or, List.not_mem_nil] at hsetup hrun
    obtain ⟨-, -, -, rfl⟩ := hsetup
    obtain ⟨-, -, -, -, -, rfl⟩ := hrun
    exact hbytes
  · obtain rfl := TeeProof.encode_injective (hp.trans (encode_clientProof ethereum 1
      ⟨VKEY, VALID_PUBLIC_VALUES, signature, 28⟩ proof).symm)
    exact hbytes

theorem unforged_presented :
    World.Unforged (fun _ : Unit => deps) (fun _ => realSigner) ethereum worldEvents VKEY
      VALID_PUBLIC_VALUES presented := by
  rintro p hp ⟨⟩ -
  obtain rfl := TeeProof.encode_injective (hp.trans (encode_clientProof ethereum 1
    ⟨VKEY, VALID_PUBLIC_VALUES, signature, 28⟩ proof).symm)
  refine ⟨(), 0, 2, rfl, ?_⟩
  rw [eventsOf_worldEvents]
  simp [clientProof, messageHash_presented]

end Fixture

open Fixture SP1TeeVerifier.Fixture in
theorem World.verifyProof_authentic_presented :
    ∃ w, (World.machine (fun _ => deps) (fun _ => false)).run
        (World.start (fun _ => realSigner) (fun _ => 1) deployed) worldActions =
      some (w, worldEvents) ∧
      World.address (fun _ : Unit => deps) (fun _ => realSigner) ethereum () ∈
        w.2.contract.getSigners := by
  obtain ⟨w, hrun, hok⟩ := run_worldActions
  have hdeploy : deploy gateway owner = .ok deployed := deploy_of_ne_zero gateway (by decide)
  have haddress : World.address (fun _ : Unit => deps) (fun _ => realSigner) ethereum () =
      messageSigner := address_realSigner
  have hregistered : ∀ a, .inr (.SignerAdded a) ∈ worldEvents →
      ∃ i, a = World.address (fun _ : Unit => deps) (fun _ => realSigner) ethereum i := by
    intro a ha
    simp only [worldEvents, List.mem_cons, reduceCtorEq, Sum.inr.injEq, Event.SignerAdded.injEq,
      List.not_mem_nil, or_false, false_or] at ha
    exact ⟨(), by rw [ha, haddress]⟩
  obtain ⟨⟨⟩, hmem, -⟩ := World.verifyProof_authentic (fun _ => rfl) hdeploy hrun hregistered VKEY
    VALID_PUBLIC_VALUES presented (injOn_hashed.mono hashed_worldEvents) unforged_presented
    acceptProof hok
  exact ⟨w, hrun, hmem⟩

end Sp1Tee
