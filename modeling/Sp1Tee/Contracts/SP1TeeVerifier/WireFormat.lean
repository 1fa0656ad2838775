import Sp1Tee.Contracts.SP1TeeVerifier.Reachable
import Sp1Tee.Contracts.SP1TeeVerifier.VerifyProof

/-!
# The wire format of a TEE proof

A TEE proof is a selector, a recoverable signature, a version of at most 255
bytes behind its length, and an inner proof. `TeeProof.encode` lays these fields
out, injectively, and `verifyProof` is described by them: what it accepts is an
encoded proof of a registered signer around an inner proof that the gateway
accepts, and of the encoded proofs it accepts those whose version has at most
185 bytes.
-/

namespace Sp1Tee

open Foundation Foundation.Solidity

/-- The fields of a TEE proof. The length of the version fits its length
byte. -/
structure TeeProof where
  selector : Bytes4
  v : UInt8
  r : Bytes32
  s : Bytes32
  version : Bytes
  length_version_lt : version.length < 256
  inner : Bytes

namespace TeeProof

open SP1TeeVerifier

def versionLen (p : TeeProof) : UInt8 := UInt8.ofNat p.version.length

/-- `selector || v || r || s || uint8(len(version)) || version || inner`. -/
def encode (p : TeeProof) : Bytes :=
  p.selector.toBytes ++ [p.v] ++ p.r.toBytes ++ p.s.toBytes ++ [p.versionLen] ++ p.version ++
    p.inner

def signer (evm : Evm) (p : TeeProof) (programVKey : Bytes32) (publicValues : Bytes) : Address :=
  evm.ecrecover (messageHash evm p.version programVKey publicValues) p.v p.r p.s

@[simp] theorem toNat_versionLen (p : TeeProof) : p.versionLen.toNat = p.version.length := by
  simpa [versionLen] using Nat.mod_eq_of_lt p.length_version_lt

theorem encode_eq_header (p : TeeProof) :
    p.encode = header p.selector p.v p.r p.s p.versionLen (p.version ++ p.inner) := by
  simp [encode, header]

theorem length_encode (p : TeeProof) :
    p.encode.length = 70 + p.version.length + p.inner.length := by
  rw [encode_eq_header, length_header, List.length_append, Nat.add_assoc]

/-- Proof bytes are split in at most one way. -/
theorem encode_injective : Function.Injective encode := by
  intro p q h
  rw [encode_eq_header, encode_eq_header] at h
  obtain ⟨hselector, hv, hr, hs, hlen, hrest⟩ := header_inj h
  have hlength : p.version.length = q.version.length := by
    rw [← p.toNat_versionLen, ← q.toNat_versionLen, hlen]
  obtain ⟨hversion, hinner⟩ := List.append_inj hrest hlength
  cases p
  cases q
  simp_all

theorem exists_encode_eq_header (selector : Bytes4) (v : UInt8) (r s : Bytes32) {n : UInt8}
    {rest : Bytes} (h : n.toNat ≤ rest.length) :
    ∃ p : TeeProof, p.encode = header selector v r s n rest := by
  have hlength : (rest.take n.toNat).length = n.toNat := List.length_take_of_le h
  have hlt : n.toNat < 256 := n.toNat_lt
  refine ⟨⟨selector, v, r, s, rest.take n.toNat, by omega, rest.drop n.toNat⟩, ?_⟩
  rw [encode_eq_header]
  simp only [versionLen, hlength, UInt8.ofNat_toNat, List.take_append_drop]

end TeeProof

namespace SP1TeeVerifier

theorem delegate_encode (evm : Evm) (self : SP1TeeVerifier) (programVKey : Bytes32)
    (publicValues : Bytes) (p : TeeProof) :
    delegate evm self programVKey publicValues p.encode =
      if p.selector ≠ expectedSelector evm then
        .error (.custom (.WrongVerifierSelector p.selector (expectedSelector evm)))
      else if 186 ≤ p.version.length then .error (.panic 0x11)
      else if p.v ≠ 27 ∧ p.v ≠ 28 then .error (.custom (.InvalidRecoveryId p.v))
      else
        let signer := p.signer evm programVKey publicValues
        if signer = 0 ∨ self.isSigner signer = false then
          .error (.custom (.InvalidSignature signer))
        else
          .ok { gateway := self.gateway, programVKey := programVKey,
                publicValues := publicValues, proofBytes := p.inner } := by
  have hshort : ¬ (p.version ++ p.inner).length < p.version.length := by
    rw [List.length_append]
    omega
  rw [p.encode_eq_header, delegate_header, p.toNat_versionLen, if_neg hshort, List.take_left,
    List.drop_left]
  rfl

/-- The conditions on which an encoded proof reaches the gateway. -/
structure Accepts (evm : Evm) (c : SP1TeeVerifier) (programVKey : Bytes32)
    (publicValues : Bytes) (p : TeeProof) : Prop where
  selector : p.selector = expectedSelector evm
  length_version_le : p.version.length ≤ 185
  recoveryId : p.v = 27 ∨ p.v = 28
  signer_ne_zero : p.signer evm programVKey publicValues ≠ 0
  isSigner : c.isSigner (p.signer evm programVKey publicValues) = true

theorem delegate_encode_eq_ok_iff {evm : Evm} {self : SP1TeeVerifier} {programVKey : Bytes32}
    {publicValues : Bytes} {p : TeeProof} {call : GatewayCall} :
    delegate evm self programVKey publicValues p.encode = .ok call ↔
      Accepts evm self programVKey publicValues p ∧
        call = ⟨self.gateway, programVKey, publicValues, p.inner⟩ := by
  rw [delegate_encode]
  constructor
  · intro h
    split at h
    · cases h
    · next hselector =>
      split at h
      · cases h
      · next hlength =>
        split at h
        · cases h
        · next hv =>
          dsimp only at h
          split at h
          · cases h
          · next hsigner =>
            rw [not_or] at hsigner
            cases h
            exact ⟨⟨not_not.mp hselector, by omega, by tauto, hsigner.1,
              Bool.not_eq_false _ ▸ hsigner.2⟩, rfl⟩
  · rintro ⟨⟨hselector, hlength, hv, hzero, hsigner⟩, rfl⟩
    have hv' : ¬ (p.v ≠ 27 ∧ p.v ≠ 28) := by tauto
    rw [if_neg (not_not.mpr hselector), if_neg (by omega), if_neg hv']
    simp [hzero, hsigner]

/-- Whatever reaches the gateway is an encoded proof. -/
theorem exists_encode_of_delegate {evm : Evm} {self : SP1TeeVerifier} {programVKey : Bytes32}
    {publicValues proofBytes : Bytes} {call : GatewayCall}
    (h : delegate evm self programVKey publicValues proofBytes = .ok call) :
    ∃ p : TeeProof, p.encode = proofBytes := by
  by_cases hshort : proofBytes.length < 70
  · rw [delegate, if_pos hshort] at h
    cases h
  · obtain ⟨selector, v, r, s, n, rest, rfl⟩ := exists_header (Nat.not_lt.mp hshort)
    by_cases hrest : n.toNat ≤ rest.length
    · exact TeeProof.exists_encode_eq_header selector v r s hrest
    · rw [delegate_header] at h
      split at h
      · cases h
      · split at h
        · cases h
        · rw [if_pos (by omega)] at h
          cases h

theorem verifyProof_eq_ok_iff_exists {evm : Evm} {staticcall : GatewayCall → Except Bytes Unit}
    {self : SP1TeeVerifier} {programVKey : Bytes32} {publicValues proofBytes : Bytes} :
    verifyProof evm staticcall self programVKey publicValues proofBytes = .ok () ↔
      ∃ p : TeeProof, p.encode = proofBytes ∧ Accepts evm self programVKey publicValues p ∧
        staticcall ⟨self.gateway, programVKey, publicValues, p.inner⟩ = .ok () := by
  rw [verifyProof_eq_ok_iff]
  constructor
  · rintro ⟨call, hcall, hstatic⟩
    obtain ⟨p, rfl⟩ := exists_encode_of_delegate hcall
    obtain ⟨haccepts, rfl⟩ := delegate_encode_eq_ok_iff.mp hcall
    exact ⟨p, rfl, haccepts, hstatic⟩
  · rintro ⟨p, rfl, haccepts, hstatic⟩
    exact ⟨_, delegate_encode_eq_ok_iff.mpr ⟨haccepts, rfl⟩, hstatic⟩

end SP1TeeVerifier

end Sp1Tee
