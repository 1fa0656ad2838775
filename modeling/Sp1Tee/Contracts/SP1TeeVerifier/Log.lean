import Sp1Tee.Contracts.SP1TeeVerifier.Verification
import Sp1Tee.Foundation.Journal

/-!
# What the log tells of the signers

The events of the contract are a journal of its signers: whoever replays them gets the
list that `getSigners` returns, in the same order. `verifyProof` depends on the storage
only through the gateway, which never changes, and the signer that it recovers, so that
the log says when its verdict on a proof can change.
-/

namespace Sp1Tee

open Foundation Foundation.Solidity

namespace SP1TeeVerifier

def change : Event → Option (Change Address)
  | .SignerAdded signer => some (.added signer)
  | .SignerRemoved signer => some (.removed signer)
  | .OwnershipTransferred _ _ => none
  | .OwnershipRenounced _ => none

def changes (log : List Event) : List (Change Address) := log.filterMap change

/-- The log of a chain is a journal of its signers. -/
structure Journaled (chain : Chain) : Prop where
  sound : chain.contract.Sound
  valid : Journal.Valid (changes chain.log)
  signers : chain.contract.getSigners = Journal.replay (changes chain.log)

theorem signerIndex_eq_idxOf {s : SignersMap} (h : s.WellFormed) {a : Address}
    (ha : a ∈ s.signers) : s.signerIndex a = s.signers.idxOf a := by
  have hlt : s.signers.idxOf a < s.signers.length := List.idxOf_lt_length_iff.mpr ha
  have hposition := h.positions _ hlt
  rwa [List.getElem_idxOf] at hposition

theorem changes_append (log log' : List Event) :
    changes (log ++ log') = changes log ++ changes log' := List.filterMap_append

theorem Journaled.snoc {chain chain' : Chain} (h : Journaled chain) (hsound : chain'.contract.Sound)
    {c : Change Address} (heffective : c.Effective chain.contract.getSigners)
    (hsigners : chain'.contract.getSigners = c.apply chain.contract.getSigners)
    (hlog : changes chain'.log = changes chain.log ++ [c]) : Journaled chain' where
  sound := hsound
  valid := by
    rw [hlog]
    exact h.valid.snoc (h.signers ▸ heffective)
  signers := by
    rw [hlog, Journal.replay_snoc, ← h.signers, hsigners]

theorem Journaled.keep {chain chain' : Chain} (h : Journaled chain)
    (hsigners : chain'.contract.signersMap = chain.contract.signersMap)
    (hlog : changes chain'.log = changes chain.log) : Journaled chain' where
  sound := ⟨hsigners ▸ h.sound.wellFormed, hsigners ▸ h.sound.zero_notMem⟩
  valid := hlog ▸ h.valid
  signers := by
    rw [hlog, ← h.signers, getSigners, hsigners]
    rfl

theorem journaled_of_exec {chain : Chain} (h : Journaled chain) (tx : Tx) :
    Journaled (exec chain tx) := by
  have hsound := sound_of_exec h.sound tx
  have hwf := h.sound.wellFormed
  rcases exec_cases chain tx with hsame | ⟨c', events, hcall, hexec⟩
  · rwa [hsame]
  · rw [hexec] at hsound ⊢
    rcases call_cases hcall with
      ⟨-, ⟨a, m, -, -, hm, rfl, rfl⟩ | ⟨a, m, -, hm, rfl, rfl⟩ | ⟨n, -, -, rfl, rfl⟩ |
        ⟨-, rfl, rfl⟩⟩
    · rw [IterableMap.addSigner_eq hwf] at hm
      split at hm
      · cases hm
      · next hnew =>
        cases hm
        exact h.snoc hsound (c := .added a) hnew rfl (changes_append _ _)
    · rw [IterableMap.removeSigner_eq hwf] at hm
      split at hm
      · next hold =>
        cases hm
        refine h.snoc hsound (c := .removed a) hold ?_ (changes_append _ _)
        change swapPop chain.contract.signersMap.signers _ = swapPop _ _
        rw [signerIndex_eq_idxOf hwf hold]
        rfl
      · cases hm
    · exact h.keep rfl ((changes_append _ _).trans (List.append_nil _))
    · exact h.keep rfl ((changes_append _ _).trans (List.append_nil _))

theorem journaled_of_run {chain : Chain} (h : Journaled chain) (txs : List Tx) :
    Journaled (run chain txs) := by
  induction txs generalizing chain with
  | nil => exact h
  | cons tx txs ih => exact ih (journaled_of_exec h tx)

theorem journaled_of_deploy {gateway owner : Address} {start : Chain}
    (h : deploy gateway owner = .ok start) : Journaled start := by
  have hsound := sound_of_deploy h
  by_cases howner : owner = 0
  · rw [howner, deploy, SP1TeeVerifier.new, SimpleOwnable.new, if_pos rfl] at h
    cases h
  · rw [deploy_of_ne_zero gateway howner] at h
    cases h
    exact ⟨hsound, .nil, rfl⟩

theorem Reachable.journaled {chain : Chain} (h : Reachable chain) : Journaled chain := by
  obtain ⟨gateway, owner, start, txs, hstart, rfl⟩ := h
  exact journaled_of_run (journaled_of_deploy hstart) txs

theorem Reachable.run {chain : Chain} (h : Reachable chain) (txs : List Tx) :
    Reachable (run chain txs) := by
  obtain ⟨gateway, owner, start, txs', hstart, rfl⟩ := h
  exact ⟨gateway, owner, start, txs' ++ txs, hstart, List.foldl_append⟩

/-- The log of every reachable contract replays to the list that `getSigners` returns, order
included. In it every address is in turn added and removed, and it is a signer after an odd
number of such events. -/
theorem getSigners_eq_replay {chain : Chain} (hreach : Reachable chain) :
    chain.contract.getSigners = Journal.replay (changes chain.log) ∧
      ∀ a, let events := Journal.changesOf a (changes chain.log)
        events = Journal.alternating a events.length ∧
          (chain.contract.isSigner a = true ↔ Odd events.length) := by
  have h := hreach.journaled
  refine ⟨h.signers, fun a => ?_⟩
  obtain ⟨halternating, hmem⟩ := h.valid.alternates a
  exact ⟨halternating, by rw [h.sound.isSigner_iff, h.signers, hmem]⟩

namespace Fixture

def removals : List Tx := List.replicate 2 ⟨owner, .removeSigner messageSigner⟩

/-- The owner has removed the signer, and has tried to do so again. -/
def revoked : Chain := run setUp removals

def second : Address := .ofBytes 20 [2]

def third : Address := .ofBytes 20 [3]

/-- Two signers come. The first one goes, is not removed again, and comes back. -/
def rotated : Chain :=
  run setUp ([⟨owner, .addSigner second⟩, ⟨owner, .addSigner third⟩] ++ removals ++
    [⟨owner, .addSigner messageSigner⟩, ⟨owner, .removeSigner third⟩])

theorem reachable_rotated : Reachable rotated := reachable_setUp.run _

theorem changes_rotated : changes rotated.log =
    [.added messageSigner, .added second, .added third, .removed messageSigner,
      .added messageSigner, .removed third] := by
  decide +kernel

end Fixture

open Fixture in
/-- The last signer takes the place of the one that is removed. -/
theorem getSigners_eq_replay_rotated :
    rotated.contract.getSigners = [messageSigner, second] ∧
      rotated.contract.isSigner messageSigner = true ∧ rotated.contract.isSigner third = false := by
  obtain ⟨hreplay, hevents⟩ := getSigners_eq_replay reachable_rotated
  rw [changes_rotated] at hreplay hevents
  refine ⟨hreplay.trans (by decide +kernel), (hevents messageSigner).2.mpr (by decide +kernel), ?_⟩
  rw [Bool.eq_false_iff, Ne, (hevents third).2]
  decide +kernel

/-! ## The verdict on a proof -/

theorem gateway_of_exec (chain : Chain) (tx : Tx) :
    (exec chain tx).contract.gateway = chain.contract.gateway := by
  rcases exec_cases chain tx with hsame | ⟨c', events, hcall, hexec⟩
  · rw [hsame]
  · rw [hexec]
    rcases call_cases hcall with
      ⟨-, ⟨a, m, -, -, -, rfl, -⟩ | ⟨a, m, -, -, rfl, -⟩ | ⟨n, -, -, rfl, -⟩ | ⟨-, rfl, -⟩⟩ <;> rfl

theorem gateway_of_run (chain : Chain) (txs : List Tx) :
    (run chain txs).contract.gateway = chain.contract.gateway := by
  induction txs generalizing chain with
  | nil => rfl
  | cons tx txs ih => exact (ih (exec chain tx)).trans (gateway_of_exec chain tx)

section Verdict

variable {evm : Evm} {c c' : SP1TeeVerifier} {programVKey : Bytes32}
  {publicValues proofBytes : Bytes} {p : TeeProof}

theorem delegate_congr (hgateway : c'.gateway = c.gateway)
    (h : ∀ p : TeeProof, p.encode = proofBytes →
      c'.isSigner (p.signer evm programVKey publicValues) =
        c.isSigner (p.signer evm programVKey publicValues)) :
    delegate evm c' programVKey publicValues proofBytes =
      delegate evm c programVKey publicValues proofBytes := by
  by_cases hshort : proofBytes.length < 70
  · rw [delegate, delegate, if_pos hshort, if_pos hshort]
  · obtain ⟨selector, v, r, s, n, rest, rfl⟩ := exists_header (Nat.not_lt.mp hshort)
    by_cases hrest : n.toNat ≤ rest.length
    · obtain ⟨p, hp⟩ := TeeProof.exists_encode_eq_header selector v r s hrest
      rw [← hp, delegate_encode, delegate_encode, hgateway]
      simp only [h p hp]
    · have hlt : rest.length < n.toNat := Nat.not_le.mp hrest
      rw [delegate_header, delegate_header, if_pos hlt, if_pos hlt]

/-- A proof that would be accepted from a registered signer is refused otherwise. -/
theorem delegate_of_not_isSigner (haccepts : Accepts evm c programVKey publicValues p)
    (h : c'.isSigner (p.signer evm programVKey publicValues) = false) :
    delegate evm c' programVKey publicValues p.encode =
      .error (.custom (.InvalidSignature (p.signer evm programVKey publicValues))) := by
  have hlength := haccepts.length_version_le
  have hv : ¬ (p.v ≠ 27 ∧ p.v ≠ 28) := by
    have := haccepts.recoveryId
    tauto
  rw [delegate_encode, if_neg (not_not.mpr haccepts.selector), if_neg (by omega), if_neg hv]
  simp [h]

end Verdict

theorem changes_of_run (chain : Chain) (txs : List Tx) :
    changes (run chain txs).log =
      changes chain.log ++ changes (newEvents chain (run chain txs)) := by
  rw [← changes_append, newEvents, ← List.prefix_append_drop (log_prefix_run chain txs)]

/-- Whether a signer is registered changes with an odd number of events about it. -/
theorem isSigner_of_later {chain : Chain} (h : Journaled chain) (txs : List Tx) (a : Address) :
    ((run chain txs).contract.isSigner a = chain.contract.isSigner a) ↔
      Even (Journal.changesOf a (changes (newEvents chain (run chain txs)))).length := by
  have hlater := journaled_of_run h txs
  have hvalid := hlater.valid
  have hsigners := hlater.signers
  rw [changes_of_run] at hvalid hsigners
  rw [← Journal.mem_replay_append_iff h.valid hvalid, ← hsigners, ← h.signers,
    ← hlater.sound.isSigner_iff, ← h.sound.isSigner_iff, Bool.eq_iff_iff]

/-- A signer stays registered as long as no event tells of its removal. -/
theorem mem_getSigners_of_later {chain : Chain} (h : Journaled chain) {txs : List Tx} {a : Address}
    (ha : a ∈ chain.contract.getSigners)
    (hnot : .SignerRemoved a ∉ newEvents chain (run chain txs)) :
    a ∈ (run chain txs).contract.getSigners := by
  have hlater := journaled_of_run h txs
  have hvalid := hlater.valid
  rw [hlater.signers]
  rw [changes_of_run] at hvalid ⊢
  refine Journal.mem_replay_of_not_removed hvalid (h.signers ▸ ha) fun hmem => hnot ?_
  obtain ⟨e, he, hchange⟩ := List.mem_filterMap.mp hmem
  cases e with
  | SignerRemoved b =>
      cases hchange
      exact he
  | _ => cases hchange

/-- Later transactions do not change the verdict on a proof, whatever it is, if the log has
an even number of new events about the signer that it recovers. After an odd number of
them an accepted proof is refused with this signer. -/
theorem verifyProof_of_later (evm : Evm) (staticcall : GatewayCall → Except Bytes Unit)
    {chain : Chain} (hreach : Reachable chain) (txs : List Tx) (programVKey : Bytes32)
    (publicValues proofBytes : Bytes) :
    let later := run chain txs
    let verdict := fun chain : Chain =>
      verifyProof evm staticcall chain.contract programVKey publicValues proofBytes
    let news := fun p : TeeProof => Journal.changesOf (p.signer evm programVKey publicValues)
      (changes (newEvents chain later))
    ((∀ p : TeeProof, p.encode = proofBytes → Even (news p).length) →
      verdict later = verdict chain) ∧
    ∀ p : TeeProof, p.encode = proofBytes → Odd (news p).length → verdict chain = .ok () →
      verdict later =
        .error (.custom (.InvalidSignature (p.signer evm programVKey publicValues))) := by
  intro later verdict news
  have h := hreach.journaled
  have hgateway : later.contract.gateway = chain.contract.gateway := gateway_of_run chain txs
  refine ⟨fun heven => ?_, fun p hp hodd hok => ?_⟩
  · have hsame : delegate evm later.contract programVKey publicValues proofBytes =
        delegate evm chain.contract programVKey publicValues proofBytes :=
      delegate_congr hgateway fun p hp => (isSigner_of_later h txs _).mpr (heven p hp)
    change verifyProof _ _ _ _ _ _ = verifyProof _ _ _ _ _ _
    rw [verifyProof, hsame]
    rfl
  · subst hp
    obtain ⟨q, hq, haccepts, -⟩ := verifyProof_eq_ok_iff_exists.mp hok
    obtain rfl := TeeProof.encode_injective hq
    have hsigner : later.contract.isSigner (q.signer evm programVKey publicValues) = false := by
      have hne := mt (isSigner_of_later h txs _).mp (Nat.not_even_iff_odd.mpr hodd)
      rw [haccepts.isSigner] at hne
      exact Bool.eq_false_of_not_eq_true hne
    change verifyProof _ _ _ _ _ _ = _
    rw [verifyProof, delegate_of_not_isSigner haccepts hsigner]
    rfl

open Fixture in
/-- The signed proof of the test, before and after its signer is removed. -/
theorem verifyProof_of_later_revoked :
    verifyProof ethereum acceptProof revoked.contract VKEY VALID_PUBLIC_VALUES signed.encode =
      .error (.custom (.InvalidSignature (signed.signer ethereum VKEY VALID_PUBLIC_VALUES))) := by
  have hok : verifyProof ethereum acceptProof setUp.contract VKEY VALID_PUBLIC_VALUES
      signed.encode = .ok () :=
    verifyProof_eq_ok_iff_exists.mpr ⟨signed, rfl, accepts_signed, by decide +kernel⟩
  refine (verifyProof_of_later ethereum acceptProof reachable_setUp removals VKEY
    VALID_PUBLIC_VALUES signed.encode).2 signed rfl ?_ hok
  decide +kernel

end SP1TeeVerifier

end Sp1Tee
