import Sp1Tee.Contracts.SP1TeeVerifier.Verification

/-!
# The rejections of `verifyProof`

Each error that the contract declares belongs to a check. `declared` is the result that
the errors promise: that of the first check that fails, or what the gateway answers if
none does. `verifyProof` has it as long as it gets past the version: whether the proof
bytes contain the version that they declare is left to the `uint8` sum and to the slice,
which revert without a declared error.
-/

namespace Sp1Tee

open Foundation Foundation.Solidity

namespace SP1TeeVerifier

/-! ## The declared errors -/

def versionLen (proofBytes : Bytes) : ℕ := (proofBytes.getD 69 0).toNat

/-- What the proof bytes are checked for. -/
inductive Check
  | headerLength
  | selector
  | versionLength
  | recoveryId
  | signature
deriving DecidableEq

/-- The selector is looked at as soon as there is one. -/
def codeOrder : List Check := [.headerLength, .selector, .versionLength, .recoveryId, .signature]

/-- The selector is looked at when the proof bytes are known to be whole. -/
def lengthFirst : List Check := [.headerLength, .versionLength, .selector, .recoveryId, .signature]

section Declared

variable (evm : Evm) (staticcall : GatewayCall → Except Bytes Unit) (self : SP1TeeVerifier)
  (programVKey : Bytes32) (publicValues proofBytes : Bytes)

def Check.failure : Check → Option VerifierError
  | .headerLength =>
      if proofBytes.length < 70 then some (.ProofBytesTooShort proofBytes.length 70) else none
  | .selector =>
      let receivedSelector := FixedBytes.ofBytes 4 proofBytes
      if receivedSelector ≠ expectedSelector evm then
        some (.WrongVerifierSelector receivedSelector (expectedSelector evm))
      else none
  | .versionLength =>
      let requiredLength := 70 + versionLen proofBytes
      if proofBytes.length < requiredLength then
        some (.ProofBytesTooShort proofBytes.length requiredLength)
      else none
  | .recoveryId =>
      let v := proofBytes.getD 4 0
      if v ≠ 27 ∧ v ≠ 28 then some (.InvalidRecoveryId v) else none
  | .signature =>
      let version := (proofBytes.drop 70).take (versionLen proofBytes)
      let signer := evm.ecrecover (messageHash evm version programVKey publicValues)
        (proofBytes.getD 4 0) (.ofBytes 32 (proofBytes.drop 5)) (.ofBytes 32 (proofBytes.drop 37))
      if signer = 0 ∨ self.isSigner signer = false then some (.InvalidSignature signer) else none

/-- The error of the first check that fails, or what comes of the gateway if none
does. -/
def declared (checks : List Check) : Except (Revert VerifierError) Unit :=
  match checks.findSome? (Check.failure evm self programVKey publicValues proofBytes) with
  | some e => .error (.custom e)
  | none =>
      (staticcall ⟨self.gateway, programVKey, publicValues,
        proofBytes.drop (70 + versionLen proofBytes)⟩).mapError .bubbled

variable {evm self programVKey publicValues proofBytes} in
theorem declared_cons {check : Check} {p : Prop} [Decidable p] {e : VerifierError}
    (h : check.failure evm self programVKey publicValues proofBytes = if p then some e else none)
    (checks : List Check) :
    declared evm staticcall self programVKey publicValues proofBytes (check :: checks) =
      if p then .error (.custom e)
      else declared evm staticcall self programVKey publicValues proofBytes checks := by
  rw [declared, List.findSome?_cons]
  by_cases hp : p
  · rw [if_pos hp] at h ⊢
    simp only [h]
  · rw [if_neg hp] at h ⊢
    simp only [h]
    rfl

theorem declared_cases (checks : List Check) :
    declared evm staticcall self programVKey publicValues proofBytes checks = .ok () ∨
      (∃ data, declared evm staticcall self programVKey publicValues proofBytes checks =
        .error (.bubbled data)) ∨
      ∃ e, declared evm staticcall self programVKey publicValues proofBytes checks =
        .error (.custom e) := by
  rw [declared]
  split
  · exact Or.inr (Or.inr ⟨_, rfl⟩)
  · cases staticcall _ with
    | ok _ => exact Or.inl rfl
    | error data => exact Or.inr (Or.inl ⟨data, rfl⟩)

end Declared

/-! ## The checks of a header -/

section Header

variable (evm : Evm) (staticcall : GatewayCall → Except Bytes Unit) (self : SP1TeeVerifier)
  (programVKey : Bytes32) (publicValues : Bytes) (sel : Bytes4) (v : UInt8) (r s : Bytes32)
  (n : UInt8) (rest : Bytes)

@[simp] theorem versionLen_header : versionLen (header sel v r s n rest) = n.toNat := by
  simp [versionLen, header, List.getElem?_append_right]

@[simp] theorem ofBytes_header : FixedBytes.ofBytes 4 (header sel v r s n rest) = sel := by
  rw [header, FixedBytes.ofBytes_append]

theorem failure_selector_header :
    Check.selector.failure evm self programVKey publicValues (header sel v r s n rest) =
      if sel ≠ expectedSelector evm then
        some (.WrongVerifierSelector sel (expectedSelector evm))
      else none := by
  rw [Check.failure, ofBytes_header]

theorem failure_versionLength_header :
    Check.versionLength.failure evm self programVKey publicValues (header sel v r s n rest) =
      if rest.length < n.toNat then
        some (.ProofBytesTooShort (70 + rest.length) (70 + n.toNat))
      else none := by
  simp [Check.failure, length_header]

theorem failure_recoveryId_header :
    Check.recoveryId.failure evm self programVKey publicValues (header sel v r s n rest) =
      if v ≠ 27 ∧ v ≠ 28 then some (.InvalidRecoveryId v) else none := by
  simp [Check.failure, header]

theorem failure_signature_header :
    Check.signature.failure evm self programVKey publicValues (header sel v r s n rest) =
      let signer :=
        evm.ecrecover (messageHash evm (rest.take n.toNat) programVKey publicValues) v r s
      if signer = 0 ∨ self.isSigner signer = false then some (.InvalidSignature signer)
      else none := by
  have hv : (header sel v r s n rest).getD 4 0 = v := by simp [header]
  have hr : FixedBytes.ofBytes 32 ((header sel v r s n rest).drop 5) = r := by
    simp [header, List.drop_append]
  have hs : FixedBytes.ofBytes 32 ((header sel v r s n rest).drop 37) = s := by
    simp [header, List.drop_append]
  have hrest : (header sel v r s n rest).drop 70 = rest := drop_header sel v r s n rest 0
  simp only [Check.failure, versionLen_header, hv, hr, hs, hrest]

/-- What `verifyProof` does on a header: behind the slice it keeps to the declared
errors. -/
theorem verifyProof_header :
    verifyProof evm staticcall self programVKey publicValues (header sel v r s n rest) =
      if sel ≠ expectedSelector evm then
        .error (.custom (.WrongVerifierSelector sel (expectedSelector evm)))
      else if 186 ≤ n.toNat then .error (.panic 0x11)
      else if rest.length < n.toNat then .error .empty
      else declared evm staticcall self programVKey publicValues (header sel v r s n rest)
        [.recoveryId, .signature] := by
  rw [verifyProof, delegate_header]
  split
  · rfl
  split
  · rfl
  split
  · rfl
  rw [declared_cons _ (failure_recoveryId_header ..)]
  split
  · rfl
  rw [declared_cons _ (failure_signature_header ..)]
  dsimp only
  split
  · rfl
  rw [declared, List.findSome?_nil, versionLen_header, drop_header, ok_bind]
  cases staticcall _ <;> rfl

theorem declared_headerLength_header (checks : List Check) :
    declared evm staticcall self programVKey publicValues (header sel v r s n rest)
        (.headerLength :: checks) =
      declared evm staticcall self programVKey publicValues (header sel v r s n rest) checks := by
  rw [declared_cons _ rfl, if_neg]
  rw [length_header]
  omega

theorem declared_codeOrder_header :
    declared evm staticcall self programVKey publicValues (header sel v r s n rest) codeOrder =
      if sel ≠ expectedSelector evm then
        .error (.custom (.WrongVerifierSelector sel (expectedSelector evm)))
      else if rest.length < n.toNat then
        .error (.custom (.ProofBytesTooShort (70 + rest.length) (70 + n.toNat)))
      else declared evm staticcall self programVKey publicValues (header sel v r s n rest)
        [.recoveryId, .signature] := by
  rw [codeOrder, declared_headerLength_header, declared_cons _ (failure_selector_header ..),
    declared_cons _ (failure_versionLength_header ..)]

theorem declared_lengthFirst_header :
    declared evm staticcall self programVKey publicValues (header sel v r s n rest) lengthFirst =
      if rest.length < n.toNat then
        .error (.custom (.ProofBytesTooShort (70 + rest.length) (70 + n.toNat)))
      else if sel ≠ expectedSelector evm then
        .error (.custom (.WrongVerifierSelector sel (expectedSelector evm)))
      else declared evm staticcall self programVKey publicValues (header sel v r s n rest)
        [.recoveryId, .signature] := by
  rw [lengthFirst, declared_headerLength_header, declared_cons _ (failure_versionLength_header ..),
    declared_cons _ (failure_selector_header ..)]

end Header

/-! ## When the declared error is reported -/

section Rejection

variable {evm : Evm} {staticcall : GatewayCall → Except Bytes Unit} {self : SP1TeeVerifier}
  {programVKey : Bytes32} {publicValues proofBytes : Bytes}

theorem declared_ne_panic (checks : List Check) (code : ℕ) :
    declared evm staticcall self programVKey publicValues proofBytes checks ≠
      .error (.panic code) := by
  rcases declared_cases evm staticcall self programVKey publicValues proofBytes checks with
    h | ⟨data, h⟩ | ⟨e, h⟩
  · simp [h]
  · simp [h]
  · simp [h]

theorem verifyProof_of_short (h : proofBytes.length < 70) (checks : List Check) :
    verifyProof evm staticcall self programVKey publicValues proofBytes =
      declared evm staticcall self programVKey publicValues proofBytes
        (.headerLength :: checks) := by
  rw [verifyProof, delegate, if_pos h, error_bind, declared_cons _ rfl, if_pos h]

/-- In the order of the code, the first failing check is reported exactly if it stands
before the version, or the version is there and its end is a `uint8`. -/
theorem verifyProof_eq_declared_codeOrder_iff :
    verifyProof evm staticcall self programVKey publicValues proofBytes =
        declared evm staticcall self programVKey publicValues proofBytes codeOrder ↔
      proofBytes.length < 70 ∨ FixedBytes.ofBytes 4 proofBytes ≠ expectedSelector evm ∨
        (versionLen proofBytes ≤ 185 ∧ 70 + versionLen proofBytes ≤ proofBytes.length) := by
  by_cases hshort : proofBytes.length < 70
  · exact iff_of_true (verifyProof_of_short hshort _) (Or.inl hshort)
  · obtain ⟨sel, v, r, s, n, rest, rfl⟩ := exists_header (Nat.not_lt.mp hshort)
    rw [or_iff_right hshort, verifyProof_header, declared_codeOrder_header, ofBytes_header,
      versionLen_header, length_header]
    by_cases hsel : sel = expectedSelector evm
    · rw [if_neg (not_not.mpr hsel), if_neg (not_not.mpr hsel), or_iff_right (not_not.mpr hsel)]
      by_cases hsum : 186 ≤ n.toNat
      · rw [if_pos hsum]
        refine iff_of_false (fun h => ?_) (by omega)
        split at h
        · cases h
        · exact declared_ne_panic _ _ h.symm
      · rw [if_neg hsum]
        by_cases hrest : rest.length < n.toNat
        · rw [if_pos hrest, if_pos hrest]
          exact iff_of_false (fun h => by cases h) (by omega)
        · rw [if_neg hrest, if_neg hrest]
          exact iff_of_true rfl (by omega)
    · rw [if_pos hsel, if_pos hsel]
      exact iff_of_true rfl (Or.inl hsel)

/-- If the whole length is to be looked at first, then the proof bytes must be whole
also for the selector to be reported. -/
theorem verifyProof_eq_declared_lengthFirst_iff :
    verifyProof evm staticcall self programVKey publicValues proofBytes =
        declared evm staticcall self programVKey publicValues proofBytes lengthFirst ↔
      proofBytes.length < 70 ∨ (70 + versionLen proofBytes ≤ proofBytes.length ∧
        (FixedBytes.ofBytes 4 proofBytes ≠ expectedSelector evm ∨
          versionLen proofBytes ≤ 185)) := by
  by_cases hshort : proofBytes.length < 70
  · exact iff_of_true (verifyProof_of_short hshort _) (Or.inl hshort)
  · obtain ⟨sel, v, r, s, n, rest, rfl⟩ := exists_header (Nat.not_lt.mp hshort)
    rw [or_iff_right hshort, verifyProof_header, declared_lengthFirst_header, ofBytes_header,
      versionLen_header, length_header]
    by_cases hrest : rest.length < n.toNat
    · rw [if_pos hrest]
      refine iff_of_false (fun h => ?_) (by omega)
      split at h
      · cases h
      · split at h <;> cases h
    · rw [if_neg hrest, if_neg hrest, and_iff_right (by omega)]
      by_cases hsel : sel = expectedSelector evm
      · rw [if_neg (not_not.mpr hsel), if_neg (not_not.mpr hsel), or_iff_right (not_not.mpr hsel)]
        by_cases hsum : 186 ≤ n.toNat
        · rw [if_pos hsum]
          exact iff_of_false (fun h => declared_ne_panic _ _ h.symm) (by omega)
        · rw [if_neg hsum]
          exact iff_of_true rfl (by omega)
      · rw [if_pos hsel, if_pos hsel]
        exact iff_of_true rfl (Or.inl hsel)

end Rejection

/-- For each order of the two checks, when `verifyProof` reports the first one that
fails. Otherwise the `uint8` sum panics, or the slice reverts without data, or a wrong
selector is reported for proof bytes that are not whole. -/
theorem verifyProof_eq_declared_iff (evm : Evm) (staticcall : GatewayCall → Except Bytes Unit)
    (self : SP1TeeVerifier) (programVKey : Bytes32) (publicValues proofBytes : Bytes) :
    (verifyProof evm staticcall self programVKey publicValues proofBytes =
        declared evm staticcall self programVKey publicValues proofBytes codeOrder ↔
      proofBytes.length < 70 ∨ FixedBytes.ofBytes 4 proofBytes ≠ expectedSelector evm ∨
        (versionLen proofBytes ≤ 185 ∧ 70 + versionLen proofBytes ≤ proofBytes.length)) ∧
    (verifyProof evm staticcall self programVKey publicValues proofBytes =
        declared evm staticcall self programVKey publicValues proofBytes lengthFirst ↔
      proofBytes.length < 70 ∨ (70 + versionLen proofBytes ≤ proofBytes.length ∧
        (FixedBytes.ofBytes 4 proofBytes ≠ expectedSelector evm ∨
          versionLen proofBytes ≤ 185))) :=
  ⟨verifyProof_eq_declared_codeOrder_iff, verifyProof_eq_declared_lengthFirst_iff⟩

namespace Fixture

def cut : Bytes := signed.encode.take 75

/-- The header of the test proof with a longer version. -/
def overflowing : Bytes :=
  header (expectedSelector ethereum) 27 r s 186 (List.replicate 186 0x34)

end Fixture

open Fixture in
/-- A cut proof reverts without data, and a version of 186 bytes in a panic, in either
order of the checks. -/
theorem verifyProof_ne_declared :
    verifyProof ethereum acceptProof setUp.contract VKEY VALID_PUBLIC_VALUES cut =
        .error .empty ∧
      (∀ checks ∈ [codeOrder, lengthFirst],
        declared ethereum acceptProof setUp.contract VKEY VALID_PUBLIC_VALUES cut checks =
          .error (.custom (.ProofBytesTooShort 75 80))) ∧
      verifyProof ethereum acceptProof setUp.contract VKEY VALID_PUBLIC_VALUES overflowing =
        .error (.panic 0x11) ∧
      ∀ checks ∈ [codeOrder, lengthFirst],
        verifyProof ethereum acceptProof setUp.contract VKEY VALID_PUBLIC_VALUES overflowing ≠
          declared ethereum acceptProof setUp.contract VKEY VALID_PUBLIC_VALUES overflowing
            checks := by
  have hoverflow : verifyProof ethereum acceptProof setUp.contract VKEY VALID_PUBLIC_VALUES
      overflowing = .error (.panic 0x11) := by decide +kernel
  refine ⟨by decide +kernel, by decide +kernel, hoverflow, fun checks _ h => ?_⟩
  exact declared_ne_panic checks 0x11 (h.symm.trans hoverflow)

end SP1TeeVerifier

end Sp1Tee
