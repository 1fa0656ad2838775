import Sp1Tee.Contracts.SP1TeeVerifier.Verification
import Sp1Tee.Enclave.Server
import Sp1Tee.Host.Execute

/-!
# What the enclave signs, the contract accepts

An execution's response goes from the enclave through the host to a client, which
puts it in front of an inner proof. The digest, the recovery id and the address
are computed by different programs along this way; here they are shown to agree,
so that the contract accepts the result exactly if the enclave's address is
registered.
-/

namespace Sp1Tee

open Foundation Foundation.Solidity SP1TeeVerifier

/-- The proof bytes that a client assembles from the host's response. -/
def clientProofBytes (evm : Evm) (SP1_TEE_VERSION : UInt32) (response : Host.TEEResponse)
    (inner : Bytes) : Bytes :=
  (expectedSelector evm).toBytes ++ [response.recovery_id] ++ response.signature.r.toBytes ++
    response.signature.s.toBytes ++ [4] ++ leBytes 4 SP1_TEE_VERSION.toNat ++ inner

def clientProof (evm : Evm) (SP1_TEE_VERSION : UInt32) (response : Host.TEEResponse)
    (inner : Bytes) : TeeProof where
  selector := expectedSelector evm
  v := response.recovery_id
  r := response.signature.r
  s := response.signature.s
  version := leBytes 4 SP1_TEE_VERSION.toNat
  length_version_lt := by rw [length_leBytes]; decide
  inner := inner

theorem encode_clientProof (evm : Evm) (SP1_TEE_VERSION : UInt32) (response : Host.TEEResponse)
    (inner : Bytes) :
    (clientProof evm SP1_TEE_VERSION response inner).encode =
      clientProofBytes evm SP1_TEE_VERSION response inner := by
  have hlen : (clientProof evm SP1_TEE_VERSION response inner).versionLen = 4 := by
    rw [TeeProof.versionLen, clientProof, length_leBytes]
    rfl
  rw [TeeProof.encode, hlen]
  rfl

theorem messageHash_eq_digest {K : Type} (deps : Deps K) {evm : Evm}
    (hkeccak : evm.keccak256 = deps.keccak256) (vkey : Bytes32) (public_values : Bytes) :
    messageHash evm (Server.versionBytes deps) vkey public_values =
      Server.digest deps vkey public_values := by
  rw [messageHash, hkeccak]
  rfl

/-- `ecrecover` undoes the host's shift of the recovery id. -/
theorem ecrecover_add_27 (keccak256 : Bytes → Bytes32)
    (recover : Bytes32 → ℕ → Bytes32 → Bytes32 → Option PublicKey) {digest r s : Bytes32}
    {recovery_id : UInt8} (hid : recovery_id = 0 ∨ recovery_id = 1) {key : PublicKey}
    (hrecover : recover digest recovery_id.toNat r s = some key) :
    (Evm.ofRecover keccak256 recover).ecrecover digest (recovery_id + 27) r s =
      key.address keccak256 := by
  have hv : recovery_id + 27 = 27 ∨ recovery_id + 27 = 28 := by
    rcases hid with rfl | rfl <;> decide
  have hback : (recovery_id + 27).toNat - 27 = recovery_id.toNat := by
    rcases hid with rfl | rfl <;> rfl
  simp only [Evm.ofRecover, if_pos hv, hback, hrecover]

/-- The client's proof is accepted exactly if its signer is registered. -/
theorem accepts_clientProof_iff {evm : Evm} {c : SP1TeeVerifier} {SP1_TEE_VERSION : UInt32}
    {response : Host.TEEResponse} {inner : Bytes} {vkey : Bytes32} {public_values : Bytes}
    {address : Address} (hv : response.recovery_id = 27 ∨ response.recovery_id = 28)
    (hsigner : (clientProof evm SP1_TEE_VERSION response inner).signer evm vkey public_values =
      address) :
    Accepts evm c vkey public_values (clientProof evm SP1_TEE_VERSION response inner) ↔
      address ≠ 0 ∧ c.isSigner address = true := by
  subst hsigner
  constructor
  · intro h
    exact ⟨h.signer_ne_zero, h.isSigner⟩
  · rintro ⟨hzero, hsigner⟩
    refine ⟨rfl, ?_, hv, hzero, hsigner⟩
    rw [clientProof, length_leBytes]
    decide

/-- What the enclave signs, the contract accepts exactly if the enclave's address is
registered. -/
theorem verifyProof_clientProofBytes_iff {K Stdin : Type} (deps : Deps K)
    (recover : Bytes32 → ℕ → Bytes32 → Bytes32 → Option PublicKey)
    (hrecover : ∀ key digest signature recovery_id,
      deps.signDigestRecoverable key digest = some (signature, recovery_id) →
      recovery_id = 0 ∨ recovery_id = 1 →
      recover digest recovery_id.toNat signature.r signature.s = some (deps.verifyingKey key))
    (server : Server K) (prover : Prover Stdin) (stdin : Stdin) (program : Bytes)
    (cycle_limit : UInt64) (vkey : Bytes32) (public_values : Bytes) (signature : Signature)
    (recovery_id : UInt8)
    (hexecute : server.execute deps prover stdin program cycle_limit =
      .ok (.SignedPublicValues vkey public_values signature recovery_id))
    (hid : recovery_id = 0 ∨ recovery_id = 1) (staticcall : GatewayCall → Except Bytes Unit)
    (chain : Chain) (hreach : Reachable chain) (inner : Bytes)
    (hinner : staticcall ⟨chain.contract.gateway, vkey, public_values, inner⟩ = .ok ()) :
    let evm := Evm.ofRecover deps.keccak256 recover
    ∃ response address,
      Host.executeInner (.SignedPublicValues vkey public_values signature recovery_id) =
        .ok response ∧
      Host.getAddress deps.keccak256 (.PublicKey (server.getPublicKey deps)) = .ok address ∧
      deps.signDigestRecoverable server.signing_key
          (messageHash evm (leBytes 4 deps.SP1_TEE_VERSION.toNat) response.vkey
            response.public_values) = some (signature, recovery_id) ∧
      evm.ecrecover
          (messageHash evm (leBytes 4 deps.SP1_TEE_VERSION.toNat) response.vkey
            response.public_values)
          response.recovery_id response.signature.r response.signature.s = address ∧
      (verifyProof evm staticcall chain.contract response.vkey response.public_values
          (clientProofBytes evm deps.SP1_TEE_VERSION response inner) = .ok () ↔
        address ∈ chain.contract.getSigners) := by
  intro evm
  let response : Host.TEEResponse := ⟨vkey, public_values, signature, recovery_id + 27⟩
  let address := (deps.verifyingKey server.signing_key).address deps.keccak256
  have hkeccak : evm.keccak256 = deps.keccak256 := rfl
  obtain ⟨-, -, -, hsign⟩ := (Server.execute_eq_signed_iff deps).mp hexecute
  rw [← messageHash_eq_digest deps hkeccak] at hsign
  have haddress := ecrecover_add_27 deps.keccak256 recover hid (hrecover _ _ _ _ hsign hid)
  refine ⟨response, address, rfl, ?_, hsign, haddress, ?_⟩
  · rw [Host.getAddress, Server.getPublicKey,
      Host.ethereumAddressFromEncodedPoint_ofPublicKey]
  · have hv : response.recovery_id = 27 ∨ response.recovery_id = 28 := by
      rcases hid with rfl | rfl
      · exact Or.inl rfl
      · exact Or.inr rfl
    have haccepts : Accepts evm chain.contract vkey public_values
        (clientProof evm deps.SP1_TEE_VERSION response inner) ↔
        address ≠ 0 ∧ chain.contract.isSigner address = true := accepts_clientProof_iff hv haddress
    rw [← encode_clientProof, verifyProof_eq_ok_iff_exists]
    constructor
    · rintro ⟨q, hq, hq', -⟩
      obtain rfl := TeeProof.encode_injective hq
      exact hreach.sound.isSigner_iff.mp (haccepts.mp hq').2
    · intro hmem
      refine ⟨_, rfl, haccepts.mpr ⟨?_, ?_⟩, hinner⟩
      · exact fun hzero => hreach.sound.zero_notMem (hzero ▸ hmem)
      · exact hreach.sound.isSigner_iff.mpr hmem

/-! An enclave with the test signer as its key, which signs one digest. -/

namespace Fixture

open SP1TeeVerifier.Fixture

def digest : Bytes32 :=
  .ofNat 32 0xc2af8a91df9469cdf70c259244578d99fed00dfa79d2b38c64682f9e9936b83d

def signature : Signature where
  r := .ofNat 32 0x507be33951ef4cc37e9cd5f014815cacc43379b62164c9a5c74256f552332a46
  s := .ofNat 32 0x64f4db0e02746e21e936b5174073b7bb13d24e598247c31df503df0c2c771bc8

def deps : Deps ℕ :=
  .standard (fun key h => if key = realSigner ∧ h = digest then some (signature, 1) else none) 1

def prover : Prover Unit where
  setup program := if program = [1, 2, 3] then .ok VKEY else .error (some "no such program")
  run _ _ cycle_limit :=
    if cycle_limit = 1000 then .ok (.ok VALID_PUBLIC_VALUES) else .ok (.error "ExceededCycleLimit")

theorem execute_deps :
    (Server.new realSigner).execute deps prover () [1, 2, 3] 1000 =
      .ok (.SignedPublicValues VKEY VALID_PUBLIC_VALUES signature 1) := by decide +kernel

theorem address_realSigner :
    (deps.verifyingKey realSigner).address Keccak.keccak256 = messageSigner := by
  decide +kernel

theorem recover_deps (key : ℕ) (h : Bytes32) (sig : Signature) (recovery_id : UInt8)
    (hsign : deps.signDigestRecoverable key h = some (sig, recovery_id)) :
    Secp256k1.recover h recovery_id.toNat sig.r sig.s = some (deps.verifyingKey key) := by
  simp only [deps, Deps.standard] at hsign
  split at hsign
  · next hkey =>
    obtain ⟨rfl, rfl⟩ := hkey
    obtain ⟨rfl, rfl⟩ := Prod.mk.inj (Option.some.inj hsign)
    decide +kernel
  · cases hsign

end Fixture

open Fixture SP1TeeVerifier.Fixture in
theorem verifyProof_clientProofBytes_setUp :
    verifyProof ethereum acceptProof setUp.contract VKEY VALID_PUBLIC_VALUES
      (clientProofBytes ethereum 1 ⟨VKEY, VALID_PUBLIC_VALUES, signature, 28⟩ proof) = .ok () := by
  obtain ⟨response, address, hresponse, hget, -, -, hiff⟩ :=
    verifyProof_clientProofBytes_iff deps Secp256k1.recover
      (fun key h sig recovery_id hsign _ => recover_deps key h sig recovery_id hsign)
      (Server.new realSigner) prover () [1, 2, 3] 1000 VKEY VALID_PUBLIC_VALUES signature 1
      execute_deps (Or.inr rfl) acceptProof setUp reachable_setUp proof (by decide +kernel)
  have haddress : Host.getAddress deps.keccak256
      (.PublicKey ((Server.new realSigner).getPublicKey deps)) = .ok messageSigner := by
    rw [Host.getAddress, Server.getPublicKey, Host.ethereumAddressFromEncodedPoint_ofPublicKey]
    exact congrArg Except.ok address_realSigner
  obtain rfl : messageSigner = address := Except.ok.inj (haddress.symm.trans hget)
  obtain rfl := Except.ok.inj hresponse
  exact hiff.mpr messageSigner_mem

end Sp1Tee
