import Sp1Tee.Contracts.SP1TeeVerifier.WireFormat

/-!
# Soundness and completeness of `verifyProof`

Over every reachable contract, `verifyProof` accepts nothing but the encoding of
a proof that a registered signer signed, and it accepts the output of the test
helper `signedProofBytes` exactly for versions of at most 185 bytes: the length
byte would allow 255, but the `uint8` sum `70 + version_len` panics from 186 on.
The concrete proofs below use the values of the contract's own test.
-/

namespace Sp1Tee

open Foundation Foundation.Solidity

namespace SP1TeeVerifier

/-! ## The test fixture -/

namespace Fixture

/-- The secret key `uint256(keccak256("messageSigner"))`. -/
def realSigner : ℕ := 0xe320d0070cf0dd5b8afc838751a5a237b9baa4271e689f7dbeefbbda1a454457

def messageSigner : Address := .ofNat 20 0xa727226ce836c2a3cb4598a0f46716cc7dc344cf

def VKEY : Bytes32 :=
  .ofNat 32 0x001a070fe7311e5f070f87db45bc58157414b4fef11ae3be1735d6c908ccafeb

def VALID_PUBLIC_VALUES : Bytes := [0x0a, 0, 0, 0, 0x37, 0, 0, 0, 0x59, 0, 0, 0]

def VERSION : Bytes := "4.0.0-rc.3".toUTF8.toList

/-- The selector of the inner verifier, standing for an inner proof. -/
def proof : Bytes := [0x1b, 0x34, 0xfe, 0x11]

def owner : Address := .ofNat 20 1

def gateway : Address := .ofNat 20 2

/-- The test contract: one owner and the message signer. -/
def setUp : Chain :=
  run { contract := { owner := owner, signersMap := SignersMap.empty, gateway := gateway }
        log := [.OwnershipTransferred 0 owner] } [⟨owner, .addSigner messageSigner⟩]

theorem reachable_setUp : Reachable setUp :=
  ⟨gateway, owner, _, _, deploy_of_ne_zero gateway (by decide), rfl⟩

def acceptOnly (call : GatewayCall) : GatewayCall → Except Bytes Unit :=
  fun c => if c = call then .ok () else .error []

def acceptProof : GatewayCall → Except Bytes Unit :=
  acceptOnly ⟨gateway, VKEY, VALID_PUBLIC_VALUES, proof⟩

/-- Signing with a fixed nonce, in the form `(v, r, s)`. -/
def vmSign (nonce secret : ℕ) (digest : Bytes32) : UInt8 × Signature :=
  match Secp256k1.sign nonce secret digest with
  | some (signature, recoveryId) => (UInt8.ofNat (27 + recoveryId), signature)
  | none => (0, ⟨0, 0⟩)

def nonce : ℕ := 0xfffb73a4a35e0d80e3ec6d92d505b883148a95957a3db81f9bb64cc8fa59ff23

def r : Bytes32 := .ofNat 32 0x37ba8502441187bcce11d881722b274f85850c6e165d001250eb1d53d763d739

def s : Bytes32 := .ofNat 32 0x60f8a0b1410c64cf2d221504ec3e33fe5df56a076d056fa526d59e7966d53890

/-- The proof of the test `testVerifyTEEProof`. -/
def signed : TeeProof where
  selector := expectedSelector ethereum
  v := 27
  r := r
  s := s
  version := VERSION
  length_version_lt := by decide +kernel
  inner := proof

theorem recover_signed :
    ethereum.ecrecover (messageHash ethereum VERSION VKEY VALID_PUBLIC_VALUES) 27 r s =
      messageSigner := by
  decide +kernel

theorem messageSigner_mem : messageSigner ∈ setUp.contract.getSigners := by decide +kernel

theorem signer_signed (evm : Evm) (programVKey : Bytes32) (publicValues : Bytes) :
    signed.signer evm programVKey publicValues =
      evm.ecrecover (messageHash evm VERSION programVKey publicValues) 27 r s := rfl

theorem accepts_signed : Accepts ethereum setUp.contract VKEY VALID_PUBLIC_VALUES signed := by
  have hsigner : signed.signer ethereum VKEY VALID_PUBLIC_VALUES = messageSigner :=
    (signer_signed ethereum VKEY VALID_PUBLIC_VALUES).trans recover_signed
  refine ⟨rfl, by decide +kernel, Or.inl rfl, ?_, ?_⟩
  · rw [hsigner]
    decide
  · rw [hsigner]
    exact reachable_setUp.sound.isSigner_iff.mpr messageSigner_mem

/-- A version one byte too long for the sum `70 + version_len`. -/
def longVersion : Bytes := List.replicate 186 0x34

def longNonce : ℕ := 0x6c82732005f9e89a478afc17a7afd9e7e04a6716185a4c91492c165791919fc9

def longR : Bytes32 :=
  .ofNat 32 0x505ab7cb161d5fcd23055ea5b22e76cd31c81d88d1926a78c8d8f9eed955b49b

def longS : Bytes32 :=
  .ofNat 32 0x11a87b98711d0457918642fda8f4cb922d45645a0521c9318508a6ad6572d436

end Fixture

/-! ## Soundness -/

/-- What `verifyProof` accepts is, in exactly one way, an encoded proof of a
registered signer whose inner proof the gateway accepts; and a removed signer's
proofs are refused until it is added again. -/
theorem verifyProof_sound (evm : Evm) (staticcall : GatewayCall → Except Bytes Unit)
    (chain : Chain) (hreach : Reachable chain) :
    (∀ (programVKey : Bytes32) (publicValues proofBytes : Bytes),
      verifyProof evm staticcall chain.contract programVKey publicValues proofBytes = .ok () →
      ∃ p : TeeProof, p.encode = proofBytes ∧ (∀ q : TeeProof, q.encode = proofBytes → q = p) ∧
        p.selector = FixedBytes.ofBytes 4 (VERIFIER_HASH evm).toBytes ∧
        (p.v = 27 ∨ p.v = 28) ∧
        evm.ecrecover (messageHash evm p.version programVKey publicValues) p.v p.r p.s ≠ 0 ∧
        evm.ecrecover (messageHash evm p.version programVKey publicValues) p.v p.r p.s ∈
          chain.contract.getSigners ∧
        delegate evm chain.contract programVKey publicValues proofBytes =
          .ok ⟨chain.contract.gateway, programVKey, publicValues, p.inner⟩ ∧
        staticcall ⟨chain.contract.gateway, programVKey, publicValues, p.inner⟩ = .ok ()) ∧
    (∀ (sender a : Address) (r : SP1TeeVerifier × List Event) (later : List Tx),
      chain.contract.call ⟨sender, .removeSigner a⟩ = .ok r →
      let removed := exec chain ⟨sender, .removeSigner a⟩
      .SignerAdded a ∉ newEvents removed (run removed later) →
      ∀ (programVKey : Bytes32) (publicValues : Bytes) (p : TeeProof),
        evm.ecrecover (messageHash evm p.version programVKey publicValues) p.v p.r p.s = a →
        verifyProof evm staticcall (run removed later).contract programVKey publicValues p.encode
          ≠ .ok ()) := by
  have hsound := hreach.sound
  refine ⟨fun programVKey publicValues proofBytes h => ?_, ?_⟩
  · obtain ⟨p, hencode, haccepts, hstatic⟩ := verifyProof_eq_ok_iff_exists.mp h
    refine ⟨p, hencode, fun q hq => TeeProof.encode_injective (hq.trans hencode.symm),
      haccepts.selector, haccepts.recoveryId, haccepts.signer_ne_zero,
      hsound.isSigner_iff.mp haccepts.isSigner, ?_, hstatic⟩
    rw [← hencode]
    exact delegate_encode_eq_ok_iff.mpr ⟨haccepts, rfl⟩
  · intro sender a r later hremove removed hlater programVKey publicValues p hsigner h
    obtain ⟨q, hencode, haccepts, -⟩ := verifyProof_eq_ok_iff_exists.mp h
    obtain rfl := TeeProof.encode_injective hencode
    have hmem := (sound_of_run (sound_of_exec hsound _) later).isSigner_iff.mp haccepts.isSigner
    rw [TeeProof.signer, hsigner] at hmem
    exact notMem_signers_of_removed hsound hremove hlater hmem

theorem verifyProof_sound_signed :
    verifyProof ethereum Fixture.acceptProof Fixture.setUp.contract Fixture.VKEY
        Fixture.VALID_PUBLIC_VALUES Fixture.signed.encode = .ok () ∧
      ∃ p : TeeProof, p.encode = Fixture.signed.encode ∧
        ethereum.ecrecover (messageHash ethereum p.version Fixture.VKEY
          Fixture.VALID_PUBLIC_VALUES) p.v p.r p.s ∈ Fixture.setUp.contract.getSigners := by
  have hok : verifyProof ethereum Fixture.acceptProof Fixture.setUp.contract Fixture.VKEY
      Fixture.VALID_PUBLIC_VALUES Fixture.signed.encode = .ok () :=
    verifyProof_eq_ok_iff_exists.mpr
      ⟨Fixture.signed, rfl, Fixture.accepts_signed, by decide +kernel⟩
  obtain ⟨p, hencode, -, -, -, -, hmem, -⟩ :=
    (verifyProof_sound ethereum Fixture.acceptProof Fixture.setUp Fixture.reachable_setUp).1
      Fixture.VKEY Fixture.VALID_PUBLIC_VALUES Fixture.signed.encode hok
  exact ⟨hok, p, hencode, hmem⟩

/-! ## Completeness -/

/-- The test helper that signs and encodes a proof, for any version. `vmSign` is
the signing cheatcode of the test harness. -/
def signedProofBytes {K : Type} (evm : Evm) (vmSign : K → Bytes32 → UInt8 × Signature)
    (signer : K) (vkey : Bytes32) (publicValues version proof : Bytes) : Bytes :=
  let selector := FixedBytes.ofBytes 4 (VERIFIER_HASH evm).toBytes
  let publicValuesHash := evm.keccak256 publicValues
  let versionHash := evm.keccak256 version
  let message_hash :=
    evm.keccak256 (versionHash.toBytes ++ vkey.toBytes ++ publicValuesHash.toBytes)
  let (v, signature) := vmSign signer message_hash
  selector.toBytes ++ [v] ++ signature.r.toBytes ++ signature.s.toBytes ++
    [UInt8.ofNat version.length] ++ version ++ proof

theorem signedProofBytes_eq_encode {K : Type} {evm : Evm} {vmSign : K → Bytes32 → UInt8 × Signature}
    {key : K} {programVKey : Bytes32} {publicValues version : Bytes} {v : UInt8} {r s : Bytes32}
    (hversion : version.length < 256)
    (hsign : vmSign key (messageHash evm version programVKey publicValues) = (v, ⟨r, s⟩))
    (inner : Bytes) :
    signedProofBytes evm vmSign key programVKey publicValues version inner =
      TeeProof.encode
        { selector := expectedSelector evm, v := v, r := r, s := s, version := version,
          length_version_lt := hversion, inner := inner } := by
  have hpair : vmSign key (evm.keccak256 ((evm.keccak256 version).toBytes ++
      programVKey.toBytes ++ (evm.keccak256 publicValues).toBytes)) = (v, ⟨r, s⟩) := hsign
  simp only [signedProofBytes, hpair]
  rfl

/-- The proof of a registered signer is accepted exactly if its version has at
most 185 bytes. -/
theorem verifyProof_signedProofBytes_iff {K : Type} (evm : Evm)
    (vmSign : K → Bytes32 → UInt8 × Signature) (staticcall : GatewayCall → Except Bytes Unit)
    (chain : Chain) (hreach : Reachable chain) (key : K) (signer : Address)
    (hsigner : signer ∈ chain.contract.getSigners) (programVKey : Bytes32)
    (publicValues version inner : Bytes) (hversion : version.length ≤ 255) (v : UInt8)
    (r s : Bytes32) (hsign : vmSign key (messageHash evm version programVKey publicValues) =
      (v, ⟨r, s⟩)) (hv : v = 27 ∨ v = 28)
    (hrecover : evm.ecrecover (messageHash evm version programVKey publicValues) v r s = signer)
    (hgateway : staticcall ⟨chain.contract.gateway, programVKey, publicValues, inner⟩ = .ok ()) :
    verifyProof evm staticcall chain.contract programVKey publicValues
        (signedProofBytes evm vmSign key programVKey publicValues version inner) = .ok () ↔
      version.length ≤ 185 := by
  have hsound := hreach.sound
  let p : TeeProof :=
    { selector := expectedSelector evm, v := v, r := r, s := s, version := version,
      length_version_lt := by omega, inner := inner }
  have hencode : signedProofBytes evm vmSign key programVKey publicValues version inner =
      p.encode := signedProofBytes_eq_encode p.length_version_lt hsign inner
  rw [hencode, verifyProof_eq_ok_iff_exists]
  constructor
  · rintro ⟨q, hq, haccepts, -⟩
    obtain rfl := TeeProof.encode_injective hq
    exact haccepts.length_version_le
  · intro hlength
    have hne : signer ≠ 0 := by
      rintro rfl
      exact hsound.zero_notMem hsigner
    refine ⟨p, rfl, ⟨rfl, hlength, hv, ?_, ?_⟩, hgateway⟩
    · exact fun hzero => hne (hrecover.symm.trans hzero)
    · have hrec : p.signer evm programVKey publicValues = signer := hrecover
      rw [hrec]
      exact hsound.isSigner_iff.mpr hsigner

theorem verifyProof_signedProofBytes_VERSION :
    verifyProof ethereum Fixture.acceptProof Fixture.setUp.contract Fixture.VKEY
        Fixture.VALID_PUBLIC_VALUES
        (signedProofBytes ethereum (Fixture.vmSign Fixture.nonce) Fixture.realSigner Fixture.VKEY
          Fixture.VALID_PUBLIC_VALUES Fixture.VERSION Fixture.proof) = .ok () :=
  (verifyProof_signedProofBytes_iff ethereum (Fixture.vmSign Fixture.nonce) Fixture.acceptProof
    Fixture.setUp Fixture.reachable_setUp Fixture.realSigner Fixture.messageSigner
    Fixture.messageSigner_mem Fixture.VKEY Fixture.VALID_PUBLIC_VALUES Fixture.VERSION
    Fixture.proof (by decide +kernel) 27 Fixture.r Fixture.s (by decide +kernel) (by decide)
    Fixture.recover_signed (by decide +kernel)).mpr (by decide +kernel)

/-- From 186 bytes on, the version is too long for the sum `70 + version_len`. -/
theorem verifyProof_encode_of_long (evm : Evm) (staticcall : GatewayCall → Except Bytes Unit)
    (self : SP1TeeVerifier) (programVKey : Bytes32) (publicValues : Bytes) {p : TeeProof}
    (hselector : p.selector = expectedSelector evm) (h : 186 ≤ p.version.length) :
    verifyProof evm staticcall self programVKey publicValues p.encode =
      .error (.panic 0x11) := by
  rw [verifyProof, delegate_encode, if_neg (not_not.mpr hselector), if_pos h, error_bind]

theorem Fixture.vmSign_longVersion :
    Fixture.vmSign Fixture.longNonce Fixture.realSigner
        (messageHash ethereum Fixture.longVersion Fixture.VKEY Fixture.VALID_PUBLIC_VALUES) =
      (27, ⟨Fixture.longR, Fixture.longS⟩) := by
  decide +kernel

/-- A registered signer's proof with a version of 186 bytes runs into the
overflow of `70 + version_len`. -/
theorem verifyProof_signedProofBytes_longVersion :
    Reachable Fixture.setUp ∧ Fixture.messageSigner ∈ Fixture.setUp.contract.getSigners ∧
      Fixture.longVersion.length ≤ 255 ∧
      Fixture.vmSign Fixture.longNonce Fixture.realSigner
          (messageHash ethereum Fixture.longVersion Fixture.VKEY Fixture.VALID_PUBLIC_VALUES) =
        (27, ⟨Fixture.longR, Fixture.longS⟩) ∧
      ethereum.ecrecover
          (messageHash ethereum Fixture.longVersion Fixture.VKEY Fixture.VALID_PUBLIC_VALUES) 27
          Fixture.longR Fixture.longS = Fixture.messageSigner ∧
      Fixture.acceptProof ⟨Fixture.setUp.contract.gateway, Fixture.VKEY,
        Fixture.VALID_PUBLIC_VALUES, Fixture.proof⟩ = .ok () ∧
      verifyProof ethereum Fixture.acceptProof Fixture.setUp.contract Fixture.VKEY
        Fixture.VALID_PUBLIC_VALUES
        (signedProofBytes ethereum (Fixture.vmSign Fixture.longNonce) Fixture.realSigner
          Fixture.VKEY Fixture.VALID_PUBLIC_VALUES Fixture.longVersion Fixture.proof) =
        .error (.panic 0x11) := by
  refine ⟨Fixture.reachable_setUp, Fixture.messageSigner_mem, by decide +kernel,
    Fixture.vmSign_longVersion, by decide +kernel, by decide +kernel, ?_⟩
  rw [signedProofBytes_eq_encode (by decide +kernel) Fixture.vmSign_longVersion]
  exact verifyProof_encode_of_long _ _ _ _ _ rfl (by decide +kernel)

end SP1TeeVerifier

end Sp1Tee
