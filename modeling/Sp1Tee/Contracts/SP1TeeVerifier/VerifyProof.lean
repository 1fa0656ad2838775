import Mathlib.Data.Set.Function
import Sp1Tee.Contracts.SP1TeeVerifier.Basic
import Sp1Tee.Foundation.Evm

/-!
# Verifying a proof

`verifyProof` cuts a signature and a version out of the proof bytes, checks that
a registered signer signed the digest of version, verification key and public
values, and hands what is left of the proof to the gateway. `delegate` is
everything before that last statement: its value is the call the contract makes.
The offsets `70 + version_len` are `uint8` sums, since both operands are.

The proof bytes that are long enough are those of the form `header`, and
`delegate_header` runs the function on that form once and for all.
-/

namespace Sp1Tee

open Foundation Foundation.Solidity

/-- The arguments of the external call that ends `verifyProof`, and its callee. -/
structure GatewayCall where
  gateway : Address
  programVKey : Bytes32
  publicValues : Bytes
  proofBytes : Bytes
deriving DecidableEq

namespace SP1TeeVerifier

/-- The constant by which the gateway identifies this verifier. -/
def VERIFIER_HASH (evm : Evm) : Bytes32 := evm.keccak256 "SP1TeeVerifier".toUTF8.toList

def expectedSelector (evm : Evm) : Bytes4 := FixedBytes.ofBytes 4 (VERIFIER_HASH evm).toBytes

def messageHash (evm : Evm) (version : Bytes) (programVKey : Bytes32) (publicValues : Bytes) :
    Bytes32 :=
  evm.keccak256 ((evm.keccak256 version).toBytes ++ programVKey.toBytes ++
    (evm.keccak256 publicValues).toBytes)

/-- The strings that are hashed for a digest. -/
def hashed (evm : Evm) (version : Bytes) (programVKey : Bytes32) (publicValues : Bytes) :
    Set Bytes :=
  {version, publicValues, (evm.keccak256 version).toBytes ++ programVKey.toBytes ++
    (evm.keccak256 publicValues).toBytes}

/-- Without collisions, a digest is one of a single version, key and output, of any
lengths. -/
theorem messageHash_inj {evm : Evm} {strings : Set Bytes}
    (hinj : Set.InjOn evm.keccak256 strings) {version version' : Bytes}
    {programVKey programVKey' : Bytes32} {publicValues publicValues' : Bytes}
    (hsub : hashed evm version programVKey publicValues ⊆ strings)
    (hsub' : hashed evm version' programVKey' publicValues' ⊆ strings)
    (h : messageHash evm version programVKey publicValues =
      messageHash evm version' programVKey' publicValues') :
    version = version' ∧ programVKey = programVKey' ∧ publicValues = publicValues' := by
  have hconcat := hinj (hsub (by simp [hashed])) (hsub' (by simp [hashed])) h
  rw [List.append_assoc, List.append_assoc] at hconcat
  obtain ⟨hversion, hrest⟩ := FixedBytes.append_inj hconcat
  obtain ⟨hvkey, hvalues⟩ := FixedBytes.append_inj hrest
  refine ⟨hinj (hsub (by simp [hashed])) (hsub' (by simp [hashed])) hversion, hvkey, ?_⟩
  exact hinj (hsub (by simp [hashed])) (hsub' (by simp [hashed]))
    (FixedBytes.toBytes_injective hvalues)

/-- `verifyProof` up to the external call. -/
def delegate (evm : Evm) (self : SP1TeeVerifier) (programVKey : Bytes32)
    (publicValues proofBytes : Bytes) : Except (Revert VerifierError) GatewayCall :=
  if proofBytes.length < 70 then
    .error (.custom (.ProofBytesTooShort proofBytes.length 70))
  else do
    let selector ← slice proofBytes 0 4
    let receivedSelector := FixedBytes.ofBytes 4 selector
    let expectedSelector := expectedSelector evm
    if receivedSelector ≠ expectedSelector then
      .error (.custom (.WrongVerifierSelector receivedSelector expectedSelector))
    else do
      let v ← readAt proofBytes 4
      let r ← slice proofBytes 5 37
      let r := FixedBytes.ofBytes 32 r
      let s ← slice proofBytes 37 69
      let s := FixedBytes.ofBytes 32 s
      let version_len ← readAt proofBytes 69
      let stop ← checkedAddUint8 70 version_len
      let version ← slice proofBytes 70 stop.toNat
      let message_hash := messageHash evm version programVKey publicValues
      if v ≠ 27 ∧ v ≠ 28 then
        .error (.custom (.InvalidRecoveryId v))
      else
        let signer := evm.ecrecover message_hash v r s
        if signer = 0 then
          .error (.custom (.InvalidSignature signer))
        else if !self.isSigner signer then
          .error (.custom (.InvalidSignature signer))
        else do
          let start ← checkedAddUint8 70 version_len
          let inner ← sliceFrom proofBytes start.toNat
          .ok { gateway := self.gateway, programVKey := programVKey,
                publicValues := publicValues, proofBytes := inner }

/-- `verifyProof`, where `staticcall` is what the call to the gateway comes to:
it returns, or reverts with some data that this contract passes on. -/
def verifyProof (evm : Evm) (staticcall : GatewayCall → Except Bytes Unit)
    (self : SP1TeeVerifier) (programVKey : Bytes32) (publicValues proofBytes : Bytes) :
    Except (Revert VerifierError) Unit := do
  let call ← delegate evm self programVKey publicValues proofBytes
  match staticcall call with
  | .ok () => .ok ()
  | .error data => .error (.bubbled data)

theorem verifyProof_eq_ok_iff {evm : Evm} {staticcall : GatewayCall → Except Bytes Unit}
    {self : SP1TeeVerifier} {programVKey : Bytes32} {publicValues proofBytes : Bytes} :
    verifyProof evm staticcall self programVKey publicValues proofBytes = .ok () ↔
      ∃ call, delegate evm self programVKey publicValues proofBytes = .ok call ∧
        staticcall call = .ok () := by
  rw [verifyProof, bind_eq_ok]
  refine exists_congr fun call => and_congr_right fun _ => ?_
  cases staticcall call <;> simp

/-! ## The header -/

/-- Proof bytes of at least 70 bytes: selector, signature, length byte and the
rest. -/
def header (selector : Bytes4) (v : UInt8) (r s : Bytes32) (version_len : UInt8) (rest : Bytes) :
    Bytes :=
  selector.toBytes ++ v :: (r.toBytes ++ (s.toBytes ++ version_len :: rest))

theorem length_header (selector : Bytes4) (v : UInt8) (r s : Bytes32) (version_len : UInt8)
    (rest : Bytes) : (header selector v r s version_len rest).length = 70 + rest.length := by
  simp [header]
  omega

theorem exists_header {bs : Bytes} (h : 70 ≤ bs.length) :
    ∃ selector v r s version_len rest, bs = header selector v r s version_len rest := by
  have hv : 4 < bs.length := by omega
  have hn : 69 < bs.length := by omega
  refine ⟨⟨bs.take 4, by simp; omega⟩, bs[4], ⟨(bs.drop 5).take 32, by simp; omega⟩,
    ⟨(bs.drop 37).take 32, by simp; omega⟩, bs[69], bs.drop 70, ?_⟩
  have hs : (bs.drop 37).take 32 ++ bs[69] :: bs.drop 70 = bs.drop 37 := by
    rw [← List.drop_eq_getElem_cons hn]
    exact take_drop_append_drop bs 37 32
  have hr : (bs.drop 5).take 32 ++ bs.drop 37 = bs.drop 5 := take_drop_append_drop bs 5 32
  rw [header, hs, hr, ← List.drop_eq_getElem_cons hv, List.take_append_drop]

theorem header_inj {selector selector' : Bytes4} {v v' : UInt8} {r r' s s' : Bytes32}
    {n n' : UInt8} {rest rest' : Bytes}
    (h : header selector v r s n rest = header selector' v' r' s' n' rest') :
    selector = selector' ∧ v = v' ∧ r = r' ∧ s = s' ∧ n = n' ∧ rest = rest' := by
  obtain ⟨hselector, h⟩ := FixedBytes.append_inj h
  obtain ⟨hv, h⟩ := List.cons.inj h
  obtain ⟨hr, h⟩ := FixedBytes.append_inj h
  obtain ⟨hs, h⟩ := FixedBytes.append_inj h
  obtain ⟨hn, hrest⟩ := List.cons.inj h
  exact ⟨hselector, hv, hr, hs, hn, hrest⟩

/-! The accesses of `verifyProof`, each on a header. -/

section Access

variable {ε : Type} (selector : Bytes4) (v : UInt8) (r s : Bytes32) (n : UInt8) (rest : Bytes)

theorem drop_header (k : ℕ) : (header selector v r s n rest).drop (70 + k) = rest.drop k := by
  rw [← List.drop_drop]
  simp [header, List.drop_append]

theorem slice_header_selector :
    (slice (header selector v r s n rest) 0 4 : Except (Revert ε) Bytes) =
      .ok selector.toBytes := by
  rw [slice_of_le (by omega) (by rw [length_header]; omega)]
  simp [header]

theorem readAt_header_v :
    (readAt (header selector v r s n rest) 4 : Except (Revert ε) UInt8) = .ok v := by
  simp [readAt, header]

theorem slice_header_r :
    (slice (header selector v r s n rest) 5 37 : Except (Revert ε) Bytes) = .ok r.toBytes := by
  rw [slice_of_le (by omega) (by rw [length_header]; omega)]
  simp [header, List.drop_append]

theorem slice_header_s :
    (slice (header selector v r s n rest) 37 69 : Except (Revert ε) Bytes) = .ok s.toBytes := by
  rw [slice_of_le (by omega) (by rw [length_header]; omega)]
  simp [header, List.drop_append]

theorem readAt_header_version_len :
    (readAt (header selector v r s n rest) 69 : Except (Revert ε) UInt8) = .ok n := by
  simp [readAt, header, List.getElem?_append_right]

theorem slice_header_version (k : ℕ) :
    (slice (header selector v r s n rest) 70 (70 + k) : Except (Revert ε) Bytes) =
      if rest.length < k then .error .empty else .ok (rest.take k) := by
  have hdrop := drop_header selector v r s n rest 0
  rw [slice, length_header]
  split
  · rw [if_neg (by omega)]
    simpa using congrArg (List.take k) hdrop
  · rw [if_pos (by omega)]

theorem sliceFrom_header_inner {k : ℕ} (h : k ≤ rest.length) :
    (sliceFrom (header selector v r s n rest) (70 + k) : Except (Revert ε) Bytes) =
      .ok (rest.drop k) := by
  rw [sliceFrom_of_le (by rw [length_header]; omega), drop_header]

end Access

/-- What `verifyProof` does on a header, check by check. The sum `70 +
version_len` overflows from `186` on, before the length of the proof bytes is
looked at again. -/
theorem delegate_header (evm : Evm) (self : SP1TeeVerifier) (programVKey : Bytes32)
    (publicValues : Bytes) (selector : Bytes4) (v : UInt8) (r s : Bytes32) (n : UInt8)
    (rest : Bytes) :
    delegate evm self programVKey publicValues (header selector v r s n rest) =
      if selector ≠ expectedSelector evm then
        .error (.custom (.WrongVerifierSelector selector (expectedSelector evm)))
      else if 186 ≤ n.toNat then .error (.panic 0x11)
      else if rest.length < n.toNat then .error .empty
      else if v ≠ 27 ∧ v ≠ 28 then .error (.custom (.InvalidRecoveryId v))
      else
        let signer :=
          evm.ecrecover (messageHash evm (rest.take n.toNat) programVKey publicValues) v r s
        if signer = 0 ∨ self.isSigner signer = false then
          .error (.custom (.InvalidSignature signer))
        else
          .ok { gateway := self.gateway, programVKey := programVKey,
                publicValues := publicValues, proofBytes := rest.drop n.toNat } := by
  have hlength : ¬ (header selector v r s n rest).length < 70 := by
    rw [length_header]
    omega
  rw [delegate, if_neg hlength]
  simp only [slice_header_selector, readAt_header_v, slice_header_r, slice_header_s,
    readAt_header_version_len, ok_bind, FixedBytes.ofBytes_toBytes]
  split
  · rfl
  by_cases hn : 186 ≤ n.toNat
  · have hsum : (checkedAddUint8 70 n : Except (Revert VerifierError) UInt8) =
        .error (.panic 0x11) := checkedAddUint8_of_le (by simp; omega)
    rw [if_pos hn, hsum, error_bind]
  have hlt : (70 : UInt8).toNat + n.toNat < 256 := by simp; omega
  have hstop : (70 + n : UInt8).toNat = 70 + n.toNat := by
    rw [UInt8.toNat_add, Nat.mod_eq_of_lt hlt]
    rfl
  rw [if_neg hn, checkedAddUint8_of_lt hlt, ok_bind, ok_bind, hstop, slice_header_version]
  split
  · rfl
  · next hrest =>
    rw [ok_bind]
    split
    · rfl
    rw [sliceFrom_header_inner selector v r s n rest (by omega), ok_bind]
    generalize evm.ecrecover (messageHash evm (List.take n.toNat rest) programVKey publicValues)
      v r s = signer
    by_cases hzero : signer = 0
    · simp [hzero]
    · by_cases hsigner : self.isSigner signer <;> simp [hzero, hsigner]

end SP1TeeVerifier

end Sp1Tee
