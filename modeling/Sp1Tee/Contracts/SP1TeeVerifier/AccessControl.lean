import Sp1Tee.Contracts.SP1TeeVerifier.Basic
import Sp1Tee.Contracts.SignersMap.Refinement

/-!
# Who may change the verifier

The contract is meant to be a finite set of signers under the control of at most
one owner. `OwnedRegistry` is that machine: `owner` is `none` once the role has
been renounced, and a transaction is allowed for the current owner when its
argument is admissible. The events are the machine's own journal, read back by
`replay`. The storage `Represents` a state of the machine, and a transaction on
one is a transaction on the other.
-/

namespace Sp1Tee

open Foundation Foundation.Solidity SP1TeeVerifier

/-- A signer set and the owner it is under, if there still is one. -/
@[ext] structure OwnedRegistry where
  owner : Option Address
  signers : Finset Address
deriving DecidableEq

namespace OwnedRegistry

def empty : OwnedRegistry := ⟨none, ∅⟩

def Admissible (m : OwnedRegistry) : Call → Prop
  | .addSigner signer => signer ≠ 0 ∧ signer ∉ m.signers
  | .removeSigner signer => signer ∈ m.signers
  | .transferOwnership newOwner => newOwner ≠ 0
  | .renounceOwnership => True

instance (m : OwnedRegistry) (c : Call) : Decidable (m.Admissible c) := by
  cases c <;> unfold Admissible <;> infer_instance

/-- A transaction of the current owner with an admissible argument. -/
def Allowed (m : OwnedRegistry) (tx : Tx) : Prop :=
  m.owner = some tx.sender ∧ m.Admissible tx.call

instance (m : OwnedRegistry) (tx : Tx) : Decidable (m.Allowed tx) :=
  inferInstanceAs (Decidable (_ ∧ _))

def apply (m : OwnedRegistry) : Call → OwnedRegistry
  | .addSigner signer => { m with signers := insert signer m.signers }
  | .removeSigner signer => { m with signers := m.signers.erase signer }
  | .transferOwnership newOwner => { m with owner := some newOwner }
  | .renounceOwnership => { m with owner := none }

def step (m : OwnedRegistry) (tx : Tx) : OwnedRegistry :=
  if m.Allowed tx then m.apply tx.call else m

def run (m : OwnedRegistry) (txs : List Tx) : OwnedRegistry := txs.foldl step m

def replay (m : OwnedRegistry) : Event → OwnedRegistry
  | .SignerAdded signer => { m with signers := insert signer m.signers }
  | .SignerRemoved signer => { m with signers := m.signers.erase signer }
  | .OwnershipTransferred _ newOwner => { m with owner := some newOwner }
  | .OwnershipRenounced _ => { m with owner := none }

/-- The state that a log of events tells of. -/
def ofLog (log : List Event) : OwnedRegistry := log.foldl replay empty

theorem step_of_allowed {m : OwnedRegistry} {tx : Tx} (h : m.Allowed tx) :
    m.step tx = m.apply tx.call := if_pos h

theorem step_of_not_allowed {m : OwnedRegistry} {tx : Tx} (h : ¬ m.Allowed tx) :
    m.step tx = m := if_neg h

end OwnedRegistry

namespace SP1TeeVerifier

/-- The storage is a copy of the machine's state: an absent owner is the zero
address, which owns nothing and is no signer. -/
structure Represents (c : SP1TeeVerifier) (m : OwnedRegistry) : Prop where
  owner : c.owner = m.owner.getD 0
  owner_ne_zero : m.owner ≠ some 0
  signersMap : IterableMap.Represents c.signersMap m.signers
  zero_notMem : 0 ∉ m.signers

theorem Represents.mem_signers {c : SP1TeeVerifier} {m : OwnedRegistry} (h : c.Represents m)
    {a : Address} : a ∈ c.signersMap.signers ↔ a ∈ m.signers := by
  rw [← h.signersMap.toFinset_signers, List.mem_toFinset]

theorem Represents.owner_iff {c : SP1TeeVerifier} {m : OwnedRegistry} (h : c.Represents m)
    {sender : Address} (hsender : sender ≠ 0) : sender = c.owner ↔ m.owner = some sender := by
  rw [h.owner]
  cases hm : m.owner with
  | none => simp [hsender]
  | some o => simp [eq_comm]

theorem onlyOwner_self {ε : Type*} {α : Type*} (o : SimpleOwnable)
    (body : Except (Revert ε) α) : o.onlyOwner o.owner body = body := by
  simp [SimpleOwnable.onlyOwner]

theorem onlyOwner_of_ne {ε : Type*} {α : Type*} {o : SimpleOwnable} {sender : Address}
    (h : sender ≠ o.owner) (body : Except (Revert ε) α) :
    o.onlyOwner sender body = .error (.error "Only the owner can call this function") :=
  if_pos h

/-- Whatever the call, anyone but the stored owner is turned away. -/
theorem call_of_not_owner {c : SP1TeeVerifier} {tx : Tx} (h : tx.sender ≠ c.owner) :
    c.call tx = .error (.error "Only the owner can call this function") := by
  obtain ⟨sender, call⟩ := tx
  cases call <;>
    simp [SP1TeeVerifier.call, addSigner, removeSigner, inherited,
      SimpleOwnable.transferOwnership, SimpleOwnable.renounceOwnership, onlyOwner_of_ne h]

/-- An allowed transaction succeeds, does to the storage what the machine does,
and its events tell exactly that. -/
theorem call_of_allowed {c : SP1TeeVerifier} {m : OwnedRegistry} (h : c.Represents m) {tx : Tx}
    (htx : m.Allowed tx) (hsender : tx.sender ≠ 0) :
    ∃ c' events, c.call tx = .ok (c', events) ∧ c'.Represents (m.apply tx.call) ∧
      events.foldl OwnedRegistry.replay m = m.apply tx.call := by
  obtain ⟨sender, call⟩ := tx
  obtain ⟨howner, hadm⟩ := htx
  have hself : sender = c.owner := (h.owner_iff hsender).mpr howner
  subst hself
  have hwf := h.signersMap.wellFormed
  cases call with
  | addSigner a =>
      obtain ⟨ha, hmem⟩ := hadm
      have hnew : a ∉ c.signersMap.signers := fun hc => hmem (h.mem_signers.mp hc)
      refine ⟨{ c with signersMap := IterableMap.added c.signersMap a }, [.SignerAdded a], ?_, ?_,
        rfl⟩
      · simp [SP1TeeVerifier.call, addSigner, onlyOwner_self, ha,
          IterableMap.addSigner_eq hwf, hnew]
      · refine ⟨h.owner, h.owner_ne_zero, ?_, ?_⟩
        · have hexec := IterableMap.exec_represents h.signersMap (.addSigner a)
          rwa [IterableMap.exec_addSigner hwf, if_neg hnew] at hexec
        · rw [OwnedRegistry.apply, Finset.mem_insert, not_or]
          exact ⟨ha.symm, h.zero_notMem⟩
  | removeSigner a =>
      have hold : a ∈ c.signersMap.signers := h.mem_signers.mpr hadm
      refine ⟨{ c with signersMap := IterableMap.removed c.signersMap a }, [.SignerRemoved a], ?_,
        ?_, rfl⟩
      · simp [SP1TeeVerifier.call, removeSigner, onlyOwner_self,
          IterableMap.removeSigner_eq hwf, hold]
      · refine ⟨h.owner, h.owner_ne_zero, ?_, ?_⟩
        · have hexec := IterableMap.exec_represents h.signersMap (.removeSigner a)
          rwa [IterableMap.exec_removeSigner hwf, if_pos hold] at hexec
        · exact fun hzero => h.zero_notMem (Finset.mem_of_mem_erase hzero)
  | transferOwnership n =>
      refine ⟨{ c with owner := n }, [.OwnershipTransferred c.owner n], ?_, ?_, rfl⟩
      · have hn : n ≠ 0 := hadm
        simp [SP1TeeVerifier.call, inherited, SimpleOwnable.transferOwnership, onlyOwner_self, hn]
      · exact ⟨rfl, fun hn => hadm (Option.some.inj hn), h.signersMap, h.zero_notMem⟩
  | renounceOwnership =>
      refine ⟨{ c with owner := 0 }, [.OwnershipRenounced c.owner], ?_, ?_, rfl⟩
      · simp [SP1TeeVerifier.call, inherited, SimpleOwnable.renounceOwnership, onlyOwner_self]
      · exact ⟨rfl, by simp [OwnedRegistry.apply], h.signersMap, h.zero_notMem⟩

theorem call_of_not_allowed {c : SP1TeeVerifier} {m : OwnedRegistry} (h : c.Represents m)
    {tx : Tx} (htx : ¬ m.Allowed tx) (hsender : tx.sender ≠ 0) : ∃ e, c.call tx = .error e := by
  by_cases howner : tx.sender = c.owner
  · obtain ⟨sender, call⟩ := tx
    have hadm : ¬ m.Admissible call := fun hadm => htx ⟨(h.owner_iff hsender).mp howner, hadm⟩
    change sender = c.owner at howner
    subst howner
    have hwf := h.signersMap.wellFormed
    cases call with
    | addSigner a =>
        simp only [SP1TeeVerifier.call, addSigner, onlyOwner_self]
        by_cases ha : a = 0
        · exact ⟨_, if_pos ha⟩
        · have hold : a ∈ c.signersMap.signers := by
            by_contra hnew
            exact hadm ⟨ha, fun hmem => hnew (h.mem_signers.mpr hmem)⟩
          rw [if_neg ha, IterableMap.addSigner_eq hwf, if_pos hold]
          exact ⟨_, rfl⟩
    | removeSigner a =>
        have hnew : a ∉ c.signersMap.signers := fun hold => hadm (h.mem_signers.mp hold)
        simp only [SP1TeeVerifier.call, removeSigner, onlyOwner_self,
          IterableMap.removeSigner_eq hwf, if_neg hnew]
        exact ⟨_, rfl⟩
    | transferOwnership n =>
        have hn : n = 0 := not_not.mp hadm
        simp only [SP1TeeVerifier.call, inherited, SimpleOwnable.transferOwnership,
          onlyOwner_self, if_pos hn]
        exact ⟨_, rfl⟩
    | renounceOwnership => exact (hadm trivial).elim
  · exact ⟨_, call_of_not_owner howner⟩

theorem call_succeeds_iff {c : SP1TeeVerifier} {m : OwnedRegistry} (h : c.Represents m) {tx : Tx}
    (hsender : tx.sender ≠ 0) : (∃ r, c.call tx = .ok r) ↔ m.Allowed tx := by
  constructor
  · rintro ⟨r, hr⟩
    by_contra htx
    obtain ⟨e, he⟩ := call_of_not_allowed h htx hsender
    rw [he] at hr
    cases hr
  · intro htx
    obtain ⟨c', events, hcall, -, -⟩ := call_of_allowed h htx hsender
    exact ⟨_, hcall⟩

/-! ## Runs -/

/-- The storage and the log both tell of the machine's state. -/
structure Chain.Represents (chain : Chain) (m : OwnedRegistry) : Prop where
  contract : chain.contract.Represents m
  ofLog : OwnedRegistry.ofLog chain.log = m

theorem deploy_represents {gateway owner : Address} (h : owner ≠ 0) {start : Chain}
    (hstart : deploy gateway owner = .ok start) : start.Represents ⟨some owner, ∅⟩ := by
  rw [deploy_of_ne_zero gateway h] at hstart
  cases hstart
  refine ⟨⟨rfl, fun ho => h (Option.some.inj ho), IterableMap.represents_empty,
    Finset.notMem_empty 0⟩, rfl⟩

theorem exec_of_error {chain : Chain} {tx : Tx} {e : Revert VerifierError}
    (h : chain.contract.call tx = .error e) : exec chain tx = chain := by
  simp [exec, h]

theorem exec_represents {chain : Chain} {m : OwnedRegistry} (h : chain.Represents m) {tx : Tx}
    (hsender : tx.sender ≠ 0) : (exec chain tx).Represents (m.step tx) := by
  by_cases htx : m.Allowed tx
  · obtain ⟨c', events, hcall, hc', hevents⟩ := call_of_allowed h.contract htx hsender
    rw [OwnedRegistry.step_of_allowed htx]
    refine ⟨?_, ?_⟩
    · simpa [exec, hcall] using hc'
    · have hlog : (exec chain tx).log = chain.log ++ events := by simp [exec, hcall]
      rw [hlog, OwnedRegistry.ofLog, List.foldl_append]
      change events.foldl OwnedRegistry.replay (OwnedRegistry.ofLog chain.log) = _
      rw [h.ofLog, hevents]
  · obtain ⟨e, he⟩ := call_of_not_allowed h.contract htx hsender
    rw [OwnedRegistry.step_of_not_allowed htx, exec_of_error he]
    exact h

theorem run_represents {chain : Chain} {m : OwnedRegistry} (h : chain.Represents m)
    {txs : List Tx} (hsenders : ∀ tx ∈ txs, tx.sender ≠ 0) :
    (run chain txs).Represents (m.run txs) :=
  List.foldl_rel h fun tx htx _ _ hrel => exec_represents hrel (hsenders tx htx)

/-- Once the owner is not `o`, it stays so as long as nobody hands the contract
over to `o`. -/
theorem owner_ne_of_run {chain : Chain} {m : OwnedRegistry} (h : chain.Represents m)
    {o : Address} (ho : m.owner ≠ some o) {txs : List Tx} (hsenders : ∀ tx ∈ txs, tx.sender ≠ 0)
    (htxs : ∀ tx ∈ txs, tx.call ≠ .transferOwnership o) : (m.run txs).owner ≠ some o := by
  induction txs generalizing chain m with
  | nil => exact ho
  | cons tx txs ih =>
      have hstep : (m.step tx).owner ≠ some o := by
        have hcall := htxs tx List.mem_cons_self
        by_cases htx : m.Allowed tx
        · rw [OwnedRegistry.step_of_allowed htx]
          cases hc : tx.call with
          | transferOwnership n =>
              intro hn
              exact hcall (by rw [hc, Option.some.inj hn])
          | renounceOwnership => simp [OwnedRegistry.apply]
          | addSigner a => exact ho
          | removeSigner a => exact ho
        · rwa [OwnedRegistry.step_of_not_allowed htx]
      exact ih (exec_represents h (hsenders tx List.mem_cons_self)) hstep
        (fun t ht => hsenders t (List.mem_cons_of_mem _ ht))
        (fun t ht => htxs t (List.mem_cons_of_mem _ ht))

theorem run_of_owner_none {chain : Chain} {m : OwnedRegistry} (h : chain.Represents m)
    (hm : m.owner = none) {txs : List Tx} (hsenders : ∀ tx ∈ txs, tx.sender ≠ 0) :
    run chain txs = chain := by
  induction txs with
  | nil => rfl
  | cons tx txs ih =>
      have htx : ¬ m.Allowed tx := fun htx => absurd htx.1 (by simp [hm])
      obtain ⟨e, he⟩ := call_of_not_allowed h.contract htx (hsenders tx List.mem_cons_self)
      have hexec : exec chain tx = chain := exec_of_error he
      rw [run, List.foldl_cons, hexec]
      exact ih fun t ht => hsenders t (List.mem_cons_of_mem _ ht)

/-- Handing the contract over ends the power of the previous owner, until it is
handed back. -/
theorem former_owner_reverts {chain : Chain} {m : OwnedRegistry} (h : chain.Represents m)
    {o n : Address} (ho : m.owner = some o) (hn : n ≠ 0) (hno : n ≠ o) {later : List Tx}
    (hlater : ∀ tx ∈ later, tx.sender ≠ 0 ∧ tx.call ≠ .transferOwnership o) (call : Call) :
    ∃ e, (run (exec chain ⟨o, .transferOwnership n⟩) later).contract.call ⟨o, call⟩ = .error e := by
  have hozero : o ≠ 0 := fun hzero => h.contract.owner_ne_zero (hzero ▸ ho)
  have hstep : m.step ⟨o, .transferOwnership n⟩ = { m with owner := some n } :=
    OwnedRegistry.step_of_allowed ⟨ho, hn⟩
  have hexec : (exec chain ⟨o, .transferOwnership n⟩).Represents { m with owner := some n } :=
    hstep ▸ exec_represents h hozero
  have hrun := run_represents hexec fun tx htx => (hlater tx htx).1
  have hne := owner_ne_of_run hexec (fun hsome => hno (Option.some.inj hsome))
    (fun tx htx => (hlater tx htx).1) (fun tx htx => (hlater tx htx).2)
  exact call_of_not_allowed hrun.contract (fun hallowed => hne hallowed.1) hozero

/-- Renouncing freezes the contract. -/
theorem renounced_forever {chain : Chain} {m : OwnedRegistry} (h : chain.Represents m)
    {o : Address} (ho : m.owner = some o) {later : List Tx}
    (hlater : ∀ tx ∈ later, tx.sender ≠ 0) :
    run (exec chain ⟨o, .renounceOwnership⟩) later = exec chain ⟨o, .renounceOwnership⟩ ∧
      (exec chain ⟨o, .renounceOwnership⟩).contract.owner = 0 ∧
      (exec chain ⟨o, .renounceOwnership⟩).contract.getSigners = chain.contract.getSigners := by
  have hozero : o ≠ 0 := fun hzero => h.contract.owner_ne_zero (hzero ▸ ho)
  have hstep : m.step ⟨o, .renounceOwnership⟩ = { m with owner := none } :=
    OwnedRegistry.step_of_allowed ⟨ho, trivial⟩
  have hexec : (exec chain ⟨o, .renounceOwnership⟩).Represents { m with owner := none } :=
    hstep ▸ exec_represents h hozero
  refine ⟨run_of_owner_none hexec rfl hlater, hexec.contract.owner, ?_⟩
  have hself : o = chain.contract.owner := (h.contract.owner_iff hozero).mpr ho
  subst hself
  simp [exec, SP1TeeVerifier.call, inherited, SimpleOwnable.renounceOwnership, onlyOwner_self,
    getSigners]

/-- The contract is the owned registry: over every run of transactions from
non-zero callers it answers as the machine does, and its log replays to the
machine's state. -/
theorem run_refines_ownedRegistry (gateway owner : Address) (howner : owner ≠ 0) :
    ∃ start, deploy gateway owner = .ok start ∧
      ∀ txs : List Tx, (∀ tx ∈ txs, tx.sender ≠ 0) →
        let chain := run start txs
        let m := OwnedRegistry.run ⟨some owner, ∅⟩ txs
        chain.contract.owner = m.owner.getD 0 ∧
        chain.contract.getSigners.toFinset = m.signers ∧
        OwnedRegistry.ofLog chain.log = m ∧
        0 ∉ chain.contract.getSigners ∧
        (∀ tx : Tx, tx.sender ≠ 0 → ((∃ r, chain.contract.call tx = .ok r) ↔ m.Allowed tx)) ∧
        (∀ tx : Tx, tx.sender ≠ chain.contract.owner → exec chain tx = chain) ∧
        (∀ (o n : Address) (later : List Tx) (call : Call), m.owner = some o → n ≠ 0 → n ≠ o →
          (∀ tx ∈ later, tx.sender ≠ 0 ∧ tx.call ≠ .transferOwnership o) →
          ∃ e, (run (exec chain ⟨o, .transferOwnership n⟩) later).contract.call ⟨o, call⟩ =
            .error e) ∧
        (∀ (o : Address) (later : List Tx), m.owner = some o → (∀ tx ∈ later, tx.sender ≠ 0) →
          let renounced := exec chain ⟨o, .renounceOwnership⟩
          run renounced later = renounced ∧ renounced.contract.owner = 0 ∧
            renounced.contract.getSigners = chain.contract.getSigners) := by
  refine ⟨_, deploy_of_ne_zero gateway howner, fun txs hsenders => ?_⟩
  have h := run_represents (deploy_represents howner (deploy_of_ne_zero gateway howner)) hsenders
  refine ⟨h.contract.owner, h.contract.signersMap.toFinset_signers, h.ofLog, ?_, ?_, ?_, ?_, ?_⟩
  · exact fun hzero => h.contract.zero_notMem (h.contract.mem_signers.mp hzero)
  · exact fun tx hsender => call_succeeds_iff h.contract hsender
  · exact fun tx hne => exec_of_error (call_of_not_owner hne)
  · exact fun o n later call ho hn hno hlater => former_owner_reverts h ho hn hno hlater call
  · exact fun o later ho hlater => renounced_forever h ho hlater

/-- The owner `1` registers `2` and hands over to `3`, whose removal of `2` is
the last thing that happens. -/
theorem run_refines_ownedRegistry_handover :
    ∃ start, deploy 0 (.ofBytes 20 [1]) = .ok start ∧
      OwnedRegistry.ofLog (run start
        [⟨.ofBytes 20 [1], .addSigner (.ofBytes 20 [2])⟩,
          ⟨.ofBytes 20 [1], .transferOwnership (.ofBytes 20 [3])⟩,
          ⟨.ofBytes 20 [1], .addSigner (.ofBytes 20 [4])⟩,
          ⟨.ofBytes 20 [3], .removeSigner (.ofBytes 20 [2])⟩]).log =
        ⟨some (.ofBytes 20 [3]), ∅⟩ := by
  obtain ⟨start, hstart, hruns⟩ := run_refines_ownedRegistry 0 (.ofBytes 20 [1]) (by decide)
  refine ⟨start, hstart, ?_⟩
  rw [(hruns _ (by decide)).2.2.1]
  decide

end SP1TeeVerifier

end Sp1Tee
