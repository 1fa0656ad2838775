import Sp1Tee.Contracts.SP1TeeVerifier.Verification

/-!
# The gateway and the verifier behind it

The gateway is not part of this repository. What is used of it is its routing: the
first four proof bytes name a verifier, which is called with the same three
arguments. The TEE verifier is itself such a route and calls the gateway back on
its inner proof, so the two are mutually recursive. `Gateway.verifyProof` unrolls
at most `layers` of these calls back; `Gateway.answer` unrolls as many as the
length of the proof bytes allows, and solves the recursion.
-/

namespace Sp1Tee

open Foundation Foundation.Solidity SP1TeeVerifier

/-- A verifier behind the gateway: the TEE verifier, or one that answers without
calling the gateway. -/
inductive Route
  | tee
  | other (verify : Bytes32 → Bytes → Bytes → Except Bytes Unit)

/-- The registered routes that are not frozen, and the revert data when there is
none for the given proof bytes. -/
structure Gateway where
  routes : Bytes4 → Option Route
  noRoute : Bytes → Bytes

namespace Gateway

def selector (proofBytes : Bytes) : Bytes4 := FixedBytes.ofBytes 4 (proofBytes.take 4)

def route (g : Gateway) (proofBytes : Bytes) : Option Route :=
  if proofBytes.length < 4 then none else g.routes (selector proofBytes)

/-- What a call to the gateway comes to if calls to the TEE verifier come to
`tee`. -/
def dispatch (g : Gateway) (tee : Bytes32 → Bytes → Bytes → Except Bytes Unit)
    (programVKey : Bytes32) (publicValues proofBytes : Bytes) : Except Bytes Unit :=
  match g.route proofBytes with
  | none => .error (g.noRoute proofBytes)
  | some (.other verify) => verify programVKey publicValues proofBytes
  | some .tee => tee programVKey publicValues proofBytes

def revertData (abiEncode : Revert VerifierError → Bytes) : Revert VerifierError → Bytes
  | .bubbled data => data
  | e => abiEncode e

section Recursion

variable (evm : Evm) (abiEncode : Revert VerifierError → Bytes) (g : Gateway)
  (c : SP1TeeVerifier)

/-- The gateway with the TEE verifier `c` behind it, or `none` if `c` would call
back more than `layers` times. -/
def verifyProof : ℕ → Bytes32 → Bytes → Bytes → Option (Except Bytes Unit)
  | layers, programVKey, publicValues, proofBytes =>
    match g.route proofBytes with
    | none => some (.error (g.noRoute proofBytes))
    | some (.other verify) => some (verify programVKey publicValues proofBytes)
    | some .tee =>
      match delegate evm c programVKey publicValues proofBytes with
      | .error e => some (.error (revertData abiEncode e))
      | .ok call =>
        match layers with
        | 0 => none
        | layers + 1 => verifyProof layers call.programVKey call.publicValues call.proofBytes

/-- The gateway with as many calls back as there can be. -/
def answer (programVKey : Bytes32) (publicValues proofBytes : Bytes) : Except Bytes Unit :=
  (verifyProof evm abiEncode g c (proofBytes.length / 70) programVKey publicValues
    proofBytes).getD (.error [])

end Recursion

theorem length_delegate {evm : Evm} {c : SP1TeeVerifier} {programVKey : Bytes32}
    {publicValues proofBytes : Bytes} {call : GatewayCall}
    (h : delegate evm c programVKey publicValues proofBytes = .ok call) :
    70 + call.proofBytes.length ≤ proofBytes.length := by
  obtain ⟨p, rfl⟩ := exists_encode_of_delegate h
  obtain ⟨-, rfl⟩ := delegate_encode_eq_ok_iff.mp h
  rw [p.length_encode]
  exact Nat.add_le_add_right (Nat.le_add_right 70 _) _

section Termination

variable (evm : Evm) (abiEncode : Revert VerifierError → Bytes) (g : Gateway)
  (c : SP1TeeVerifier)

/-- A call to the gateway either is answered without a call back, and accepted
only by another verifier, or it is a TEE proof that is passed on to the gateway
again. -/
theorem verifyProof_cases (programVKey : Bytes32) (publicValues proofBytes : Bytes) :
    (∃ r, (∀ layers,
        verifyProof evm abiEncode g c layers programVKey publicValues proofBytes = some r) ∧
      (r = .ok () → ∃ verify, g.route proofBytes = some (.other verify) ∧
        verify programVKey publicValues proofBytes = .ok ())) ∨
    ∃ call, g.route proofBytes = some .tee ∧
      delegate evm c programVKey publicValues proofBytes = .ok call ∧
      verifyProof evm abiEncode g c 0 programVKey publicValues proofBytes = none ∧
      ∀ layers, verifyProof evm abiEncode g c (layers + 1) programVKey publicValues proofBytes =
        verifyProof evm abiEncode g c layers call.programVKey call.publicValues
          call.proofBytes := by
  cases hroute : g.route proofBytes with
  | none =>
      left
      exact ⟨_, fun layers => by rw [verifyProof, hroute], fun h => by cases h⟩
  | some route =>
      cases route with
      | other verify =>
          left
          exact ⟨_, fun layers => by rw [verifyProof, hroute], fun h => ⟨verify, rfl, h⟩⟩
      | tee =>
          cases hcall : delegate evm c programVKey publicValues proofBytes with
          | error e =>
              left
              exact ⟨_, fun layers => by rw [verifyProof, hroute, hcall], fun h => by cases h⟩
          | ok call =>
              right
              refine ⟨call, rfl, rfl, ?_, fun layers => ?_⟩ <;> rw [verifyProof, hroute, hcall]

/-- The recursion ends within one layer for each 70 bytes, whatever more is
allowed. -/
theorem exists_verifyProof_eq_some {n : ℕ} (programVKey : Bytes32)
    (publicValues proofBytes : Bytes) (hn : proofBytes.length / 70 ≤ n) :
    ∃ r, ∀ layers, n ≤ layers →
      verifyProof evm abiEncode g c layers programVKey publicValues proofBytes = some r := by
  induction n generalizing programVKey publicValues proofBytes with
  | zero =>
      rcases verifyProof_cases evm abiEncode g c programVKey publicValues proofBytes with
        ⟨r, hr, -⟩ | ⟨call, -, hcall, -⟩
      · exact ⟨r, fun layers _ => hr layers⟩
      · have hlength := length_delegate hcall
        omega
  | succ n ih =>
      rcases verifyProof_cases evm abiEncode g c programVKey publicValues proofBytes with
        ⟨r, hr, -⟩ | ⟨call, -, hcall, -, hstep⟩
      · exact ⟨r, fun layers _ => hr layers⟩
      · have hlength := length_delegate hcall
        obtain ⟨r, hr⟩ := ih call.programVKey call.publicValues call.proofBytes (by omega)
        refine ⟨r, fun layers hlayers => ?_⟩
        cases layers with
        | zero => omega
        | succ layers => exact (hstep layers).trans (hr layers (by omega))

theorem verifyProof_eq_some_answer {layers : ℕ} (programVKey : Bytes32)
    (publicValues proofBytes : Bytes) (h : proofBytes.length / 70 ≤ layers) :
    verifyProof evm abiEncode g c layers programVKey publicValues proofBytes =
      some (answer evm abiEncode g c programVKey publicValues proofBytes) := by
  obtain ⟨r, hr⟩ := exists_verifyProof_eq_some evm abiEncode g c programVKey publicValues
    proofBytes (Nat.le_refl _)
  rw [answer, hr _ (Nat.le_refl _), hr _ h]
  rfl

/-- `answer` solves the recursion: the gateway dispatches to a TEE verifier whose
calls back are answered by the gateway. -/
theorem answer_eq_dispatch (programVKey : Bytes32) (publicValues proofBytes : Bytes) :
    answer evm abiEncode g c programVKey publicValues proofBytes =
      g.dispatch (fun programVKey publicValues proofBytes =>
        (SP1TeeVerifier.verifyProof evm (fun call =>
            answer evm abiEncode g c call.programVKey call.publicValues call.proofBytes)
          c programVKey publicValues proofBytes).mapError (revertData abiEncode))
        programVKey publicValues proofBytes := by
  have hsome := verifyProof_eq_some_answer evm abiEncode g c programVKey publicValues proofBytes
    (Nat.le_succ _)
  rw [verifyProof] at hsome
  rw [dispatch]
  cases hroute : g.route proofBytes with
  | none => simpa [hroute] using hsome.symm
  | some route =>
      cases route with
      | other verify => simpa [hroute] using hsome.symm
      | tee =>
          cases hcall : delegate evm c programVKey publicValues proofBytes with
          | error e =>
              rw [hroute, hcall] at hsome
              simp only [SP1TeeVerifier.verifyProof, hcall, error_bind]
              exact (Option.some.inj hsome).symm
          | ok call =>
              have hlength := length_delegate hcall
              have hinner := verifyProof_eq_some_answer evm abiEncode g c call.programVKey
                call.publicValues call.proofBytes
                (show call.proofBytes.length / 70 ≤ proofBytes.length / 70 by omega)
              rw [hroute, hcall] at hsome
              have heq : answer evm abiEncode g c call.programVKey call.publicValues
                  call.proofBytes = answer evm abiEncode g c programVKey publicValues proofBytes :=
                Option.some.inj (hinner.symm.trans hsome)
              simp only [SP1TeeVerifier.verifyProof, hcall, ok_bind, heq]
              cases answer evm abiEncode g c programVKey publicValues proofBytes <;> rfl

end Termination

/-! ## Stacks of TEE layers -/

/-- Proof bytes made of TEE layers, outermost first, around an innermost proof. -/
def IsStack : List TeeProof → Bytes → Bytes → Prop
  | [], innermost, proofBytes => proofBytes = innermost
  | p :: ps, innermost, proofBytes => proofBytes = p.encode ∧ IsStack ps innermost p.inner

theorem length_of_isStack {ps : List TeeProof} {innermost proofBytes : Bytes}
    (h : IsStack ps innermost proofBytes) :
    70 * ps.length + innermost.length ≤ proofBytes.length := by
  induction ps generalizing proofBytes with
  | nil =>
      obtain rfl := h
      simp
  | cons p ps ih =>
      obtain ⟨rfl, htail⟩ := h
      have hlength := ih htail
      rw [p.length_encode, List.length_cons]
      omega

/-- What the gateway accepts is a stack of accepted TEE layers around a proof
that another verifier accepted, all for the same key and public values. -/
theorem exists_isStack_of_verifyProof {evm : Evm} {abiEncode : Revert VerifierError → Bytes}
    {g : Gateway} {c : SP1TeeVerifier} {layers : ℕ} {programVKey : Bytes32}
    {publicValues proofBytes : Bytes}
    (h : verifyProof evm abiEncode g c layers programVKey publicValues proofBytes =
      some (.ok ())) :
    ∃ ps innermost, IsStack ps innermost proofBytes ∧
      (∀ p ∈ ps, Accepts evm c programVKey publicValues p) ∧
      ∃ verify, g.route innermost = some (.other verify) ∧
        verify programVKey publicValues innermost = .ok () := by
  induction layers generalizing proofBytes with
  | zero =>
      rcases verifyProof_cases evm abiEncode g c programVKey publicValues proofBytes with
        ⟨r, hr, hother⟩ | ⟨call, -, -, hnone, -⟩
      · rw [hr, Option.some_inj] at h
        exact ⟨[], proofBytes, rfl, by simp, hother h⟩
      · rw [hnone] at h
        cases h
  | succ layers ih =>
      rcases verifyProof_cases evm abiEncode g c programVKey publicValues proofBytes with
        ⟨r, hr, hother⟩ | ⟨call, -, hcall, -, hstep⟩
      · rw [hr, Option.some_inj] at h
        exact ⟨[], proofBytes, rfl, by simp, hother h⟩
      · rw [hstep] at h
        obtain ⟨p, rfl⟩ := exists_encode_of_delegate hcall
        obtain ⟨haccepts, rfl⟩ := delegate_encode_eq_ok_iff.mp hcall
        obtain ⟨ps, innermost, hstack, hps, hinnermost⟩ := ih h
        exact ⟨p :: ps, innermost, ⟨rfl, hstack⟩, List.forall_mem_cons.mpr ⟨haccepts, hps⟩,
          hinnermost⟩

theorem selector_encode (p : TeeProof) : selector p.encode = p.selector := by
  rw [p.encode_eq_header, selector, header, FixedBytes.take_append, FixedBytes.ofBytes_toBytes]

theorem route_encode (g : Gateway) (p : TeeProof) : g.route p.encode = g.routes p.selector := by
  rw [route, if_neg (by rw [p.length_encode]; omega), selector_encode]

theorem answer_encode_of_accepts {evm : Evm} (abiEncode : Revert VerifierError → Bytes)
    {g : Gateway} (hroute : g.routes (expectedSelector evm) = some .tee) {c : SP1TeeVerifier}
    {programVKey : Bytes32} {publicValues : Bytes} {p : TeeProof}
    (h : Accepts evm c programVKey publicValues p) :
    answer evm abiEncode g c programVKey publicValues p.encode =
      answer evm abiEncode g c programVKey publicValues p.inner := by
  have htee : g.route p.encode = some .tee := by rw [route_encode, h.selector, hroute]
  have hcall := delegate_encode_eq_ok_iff.mpr ⟨h, rfl⟩
  rw [answer_eq_dispatch, dispatch, htee]
  simp only [SP1TeeVerifier.verifyProof, hcall, ok_bind]
  cases answer evm abiEncode g c programVKey publicValues p.inner <;> rfl

theorem accepts_of_inner {evm : Evm} {c : SP1TeeVerifier} {programVKey : Bytes32}
    {publicValues : Bytes} {p : TeeProof} (h : Accepts evm c programVKey publicValues p)
    (inner : Bytes) : Accepts evm c programVKey publicValues { p with inner := inner } :=
  ⟨h.selector, h.length_version_le, h.recoveryId, h.signer_ne_zero, h.isSigner⟩

theorem answer_of_isStack {evm : Evm} (abiEncode : Revert VerifierError → Bytes) {g : Gateway}
    (hroute : g.routes (expectedSelector evm) = some .tee) {c : SP1TeeVerifier}
    {programVKey : Bytes32} {ps : List TeeProof} {publicValues innermost proofBytes : Bytes}
    (hstack : IsStack ps innermost proofBytes)
    (hps : ∀ p ∈ ps, Accepts evm c programVKey publicValues p) :
    answer evm abiEncode g c programVKey publicValues proofBytes =
      answer evm abiEncode g c programVKey publicValues innermost := by
  induction ps generalizing proofBytes with
  | nil =>
      obtain rfl := hstack
      rfl
  | cons p ps ih =>
      obtain ⟨rfl, htail⟩ := hstack
      obtain ⟨hp, hps⟩ := List.forall_mem_cons.mp hps
      rw [answer_encode_of_accepts abiEncode hroute hp, ih htail hps]

theorem verifyProof_ne_ok_of_isStack {evm : Evm} {abiEncode : Revert VerifierError → Bytes}
    {g : Gateway} (hroute : g.routes (expectedSelector evm) = some .tee) {c : SP1TeeVerifier}
    {layers : ℕ} {programVKey : Bytes32} {ps : List TeeProof}
    {publicValues innermost proofBytes : Bytes} (hstack : IsStack ps innermost proofBytes)
    (hinnermost : innermost.length < 4) (hps : ∀ p ∈ ps, p.selector = expectedSelector evm) :
    verifyProof evm abiEncode g c layers programVKey publicValues proofBytes ≠ some (.ok ()) := by
  induction ps generalizing layers proofBytes with
  | nil =>
      obtain rfl := hstack
      have hnone : g.route proofBytes = none := by rw [route, if_pos hinnermost]
      simp [verifyProof, hnone]
  | cons p ps ih =>
      obtain ⟨rfl, htail⟩ := hstack
      obtain ⟨hselector, hps⟩ := List.forall_mem_cons.mp hps
      have htee : g.route p.encode = some .tee := by rw [route_encode, hselector, hroute]
      rcases verifyProof_cases evm abiEncode g c programVKey publicValues p.encode with
        ⟨r, hr, hother⟩ | ⟨call, -, hcall, hnone, hstep⟩
      · rw [hr]
        rintro hok
        obtain ⟨verify, hverify, -⟩ := hother (Option.some.inj hok)
        rw [htee] at hverify
        cases hverify
      · obtain ⟨-, rfl⟩ := delegate_encode_eq_ok_iff.mp hcall
        cases layers with
        | zero => simp [hnone]
        | succ layers =>
            rw [hstep]
            exact ih htail hps

/-- The second factor never replaces the first: the recursion between the gateway
and the TEE verifier ends, and what it accepts was accepted by a verifier that is
not the TEE verifier, under layers of registered signers. -/
theorem answer_sound (evm : Evm) (abiEncode : Revert VerifierError → Bytes) (g : Gateway)
    (hroute : g.routes (expectedSelector evm) = some .tee) (chain : Chain)
    (hreach : Reachable chain) (programVKey : Bytes32) (publicValues proofBytes : Bytes) :
    (∀ layers, proofBytes.length / 70 ≤ layers →
      verifyProof evm abiEncode g chain.contract layers programVKey publicValues proofBytes =
        some (answer evm abiEncode g chain.contract programVKey publicValues proofBytes)) ∧
    (answer evm abiEncode g chain.contract programVKey publicValues proofBytes = .ok () →
      ∃ ps innermost, IsStack ps innermost proofBytes ∧ ps.length ≤ proofBytes.length / 70 ∧
        (∀ p ∈ ps, p.selector = expectedSelector evm ∧ (p.v = 27 ∨ p.v = 28) ∧
          p.signer evm programVKey publicValues ≠ 0 ∧
          p.signer evm programVKey publicValues ∈ chain.contract.getSigners) ∧
        4 ≤ innermost.length ∧ selector innermost ≠ expectedSelector evm ∧
        ∃ verify, g.routes (selector innermost) = some (.other verify) ∧
          verify programVKey publicValues innermost = .ok ()) ∧
    (∀ ps innermost, IsStack ps innermost proofBytes → innermost.length < 4 →
      (∀ p ∈ ps, p.selector = expectedSelector evm) →
      answer evm abiEncode g chain.contract programVKey publicValues proofBytes ≠ .ok ()) := by
  have hsome : ∀ layers, proofBytes.length / 70 ≤ layers →
      verifyProof evm abiEncode g chain.contract layers programVKey publicValues proofBytes =
        some (answer evm abiEncode g chain.contract programVKey publicValues proofBytes) :=
    fun layers => verifyProof_eq_some_answer evm abiEncode g _ programVKey publicValues proofBytes
  refine ⟨hsome, fun hok => ?_, fun ps innermost hstack hinnermost hps hok => ?_⟩
  · have hlayers := hsome _ (Nat.le_refl _)
    rw [hok] at hlayers
    obtain ⟨ps, innermost, hstack, hps, verify, hverify, haccept⟩ :=
      exists_isStack_of_verifyProof hlayers
    have hlength := length_of_isStack hstack
    rw [route] at hverify
    split at hverify
    · cases hverify
    · next hinnermost =>
      refine ⟨ps, innermost, hstack, by omega, fun p hp => ?_, Nat.not_lt.mp hinnermost, ?_,
        verify, hverify, haccept⟩
      · have haccepts := hps p hp
        exact ⟨haccepts.selector, haccepts.recoveryId, haccepts.signer_ne_zero,
          hreach.sound.isSigner_iff.mp haccepts.isSigner⟩
      · intro hselector
        rw [hselector, hroute] at hverify
        cases hverify
  · have hlayers := hsome _ (Nat.le_refl _)
    rw [hok] at hlayers
    exact verifyProof_ne_ok_of_isStack hroute hstack hinnermost hps hlayers

def fixture : Gateway where
  routes sel :=
    if sel = expectedSelector ethereum then some .tee
    else if sel = selector Fixture.proof then
      some (.other fun programVKey publicValues proofBytes =>
        Fixture.acceptProof ⟨Fixture.gateway, programVKey, publicValues, proofBytes⟩)
    else none
  noRoute _ := []

/-- The test proof under two layers of the test signer. -/
def nested : TeeProof := { Fixture.signed with inner := Fixture.signed.encode }

theorem answer_sound_nested :
    answer ethereum (fun _ => []) fixture Fixture.setUp.contract Fixture.VKEY
        Fixture.VALID_PUBLIC_VALUES nested.encode = .ok () ∧
      ∃ ps innermost, IsStack ps innermost nested.encode ∧
        selector innermost ≠ expectedSelector ethereum ∧
        ∀ p ∈ ps, p.signer ethereum Fixture.VKEY Fixture.VALID_PUBLIC_VALUES ∈
          Fixture.setUp.contract.getSigners := by
  have hok : answer ethereum (fun _ => []) fixture Fixture.setUp.contract Fixture.VKEY
      Fixture.VALID_PUBLIC_VALUES nested.encode = .ok () := by
    have hlayers : ∀ p ∈ [nested, Fixture.signed], Accepts ethereum Fixture.setUp.contract
        Fixture.VKEY Fixture.VALID_PUBLIC_VALUES p :=
      List.forall_mem_cons.mpr ⟨accepts_of_inner Fixture.accepts_signed _,
        List.forall_mem_singleton.mpr Fixture.accepts_signed⟩
    have hstack : IsStack [nested, Fixture.signed] Fixture.proof nested.encode := ⟨rfl, rfl, rfl⟩
    rw [answer_of_isStack _ (if_pos rfl) hstack hlayers]
    decide +kernel
  obtain ⟨ps, innermost, hstack, -, hps, -, hselector, -⟩ :=
    (answer_sound ethereum (fun _ => []) fixture (if_pos rfl) Fixture.setUp
      Fixture.reachable_setUp Fixture.VKEY Fixture.VALID_PUBLIC_VALUES nested.encode).2.1 hok
  exact ⟨hok, ps, innermost, hstack, hselector, fun p hp => (hps p hp).2.2.2⟩

end Gateway

end Sp1Tee
