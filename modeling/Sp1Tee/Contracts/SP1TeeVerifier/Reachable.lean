import Sp1Tee.Contracts.SP1TeeVerifier.Basic
import Sp1Tee.Contracts.SignersMap.Registry
import Sp1Tee.Foundation.Machine

/-!
# The registry of a reachable verifier

What a transaction can do is said once, in `call_cases`. From it every reachable
contract, whoever called it, has a well-formed registry without the zero
address, and an address gets into the registry only with a `SignerAdded` event.
-/

namespace Sp1Tee

open Foundation Foundation.Solidity

namespace SP1TeeVerifier

theorem onlyOwner_eq_ok {α : Type} {o : SimpleOwnable} {sender : Address}
    {body : Except (Revert VerifierError) α} {a : α} :
    o.onlyOwner sender body = .ok a ↔ sender = o.owner ∧ body = .ok a := by
  by_cases h : sender = o.owner <;> simp [SimpleOwnable.onlyOwner, h]

theorem call_cases {c c' : SP1TeeVerifier} {tx : Tx} {events : List Event}
    (h : c.call tx = .ok (c', events)) :
    tx.sender = c.owner ∧
      ((∃ a m, tx.call = .addSigner a ∧ a ≠ 0 ∧
          (IterableMap.addSigner c.signersMap a : Except (Revert VerifierError) _) = .ok m ∧
          c' = { c with signersMap := m } ∧ events = [.SignerAdded a]) ∨
        (∃ a m, tx.call = .removeSigner a ∧
          (IterableMap.removeSigner c.signersMap a : Except (Revert VerifierError) _) = .ok m ∧
          c' = { c with signersMap := m } ∧ events = [.SignerRemoved a]) ∨
        (∃ n, tx.call = .transferOwnership n ∧ n ≠ 0 ∧ c' = { c with owner := n } ∧
          events = [.OwnershipTransferred c.owner n]) ∨
        (tx.call = .renounceOwnership ∧ c' = { c with owner := 0 } ∧
          events = [.OwnershipRenounced c.owner])) := by
  obtain ⟨sender, call⟩ := tx
  cases call with
  | addSigner a =>
      obtain ⟨hsender, hbody⟩ := onlyOwner_eq_ok.mp h
      by_cases ha : a = 0
      · simp [ha] at hbody
      · rw [if_neg ha, bind_eq_ok] at hbody
        obtain ⟨m, hm, hpair⟩ := hbody
        obtain ⟨rfl, rfl⟩ := Prod.mk.inj (Except.ok.inj hpair)
        exact ⟨hsender, Or.inl ⟨a, m, rfl, ha, hm, rfl, rfl⟩⟩
  | removeSigner a =>
      obtain ⟨hsender, hbody⟩ := onlyOwner_eq_ok.mp h
      obtain ⟨m, hm, hpair⟩ := bind_eq_ok.mp hbody
      obtain ⟨rfl, rfl⟩ := Prod.mk.inj (Except.ok.inj hpair)
      exact ⟨hsender, Or.inr (Or.inl ⟨a, m, rfl, hm, rfl, rfl⟩)⟩
  | transferOwnership n =>
      obtain ⟨⟨o, evs⟩, ho, hpair⟩ := bind_eq_ok.mp h
      obtain ⟨hsender, hbody⟩ := onlyOwner_eq_ok.mp ho
      by_cases hn : n = 0
      · simp [hn] at hbody
      · rw [if_neg hn] at hbody
        obtain ⟨rfl, rfl⟩ := Prod.mk.inj (Except.ok.inj hbody)
        obtain ⟨rfl, rfl⟩ := Prod.mk.inj (Except.ok.inj hpair)
        exact ⟨hsender, Or.inr (Or.inr (Or.inl ⟨n, rfl, hn, rfl, rfl⟩))⟩
  | renounceOwnership =>
      obtain ⟨⟨o, evs⟩, ho, hpair⟩ := bind_eq_ok.mp h
      obtain ⟨hsender, hbody⟩ := onlyOwner_eq_ok.mp ho
      obtain ⟨rfl, rfl⟩ := Prod.mk.inj (Except.ok.inj hbody)
      obtain ⟨rfl, rfl⟩ := Prod.mk.inj (Except.ok.inj hpair)
      exact ⟨hsender, Or.inr (Or.inr (Or.inr ⟨rfl, rfl, rfl⟩))⟩

/-- A transaction either leaves the chain alone or is one of the four calls,
whose events are appended to the log. -/
theorem exec_cases (chain : Chain) (tx : Tx) :
    exec chain tx = chain ∨ ∃ c' events, chain.contract.call tx = .ok (c', events) ∧
      exec chain tx = { contract := c', log := chain.log ++ events } := by
  cases h : chain.contract.call tx with
  | error e => exact Or.inl (by simp [exec, h])
  | ok r => exact Or.inr ⟨r.1, r.2, rfl, by simp [exec, h]⟩

/-- The registry is a set of non-zero addresses. -/
structure Sound (c : SP1TeeVerifier) : Prop where
  wellFormed : c.signersMap.WellFormed
  zero_notMem : 0 ∉ c.signersMap.signers

theorem sound_of_call {c c' : SP1TeeVerifier} (h : c.Sound) {tx : Tx} {events : List Event}
    (hcall : c.call tx = .ok (c', events)) : c'.Sound := by
  obtain ⟨hwf, hzero⟩ := h
  rcases call_cases hcall with
    ⟨-, ⟨a, m, -, ha, hm, rfl, -⟩ | ⟨a, m, -, hm, rfl, -⟩ | ⟨n, -, -, rfl, -⟩ | ⟨-, rfl, -⟩⟩
  · rw [IterableMap.addSigner_eq hwf] at hm
    split at hm
    · cases hm
    · next hnew =>
      cases hm
      refine ⟨IterableMap.wellFormed_added hwf hnew, ?_⟩
      rw [IterableMap.mem_signers_added, not_or]
      exact ⟨ha.symm, hzero⟩
  · rw [IterableMap.removeSigner_eq hwf] at hm
    split at hm
    · next hold =>
      cases hm
      refine ⟨IterableMap.wellFormed_removed hwf hold, fun hmem => hzero ?_⟩
      exact ((IterableMap.mem_signers_removed hwf hold).mp hmem).2
    · cases hm
  · exact ⟨hwf, hzero⟩
  · exact ⟨hwf, hzero⟩

theorem sound_of_exec {chain : Chain} (h : chain.contract.Sound) (tx : Tx) :
    (exec chain tx).contract.Sound := by
  rcases exec_cases chain tx with hsame | ⟨c', events, hcall, hexec⟩
  · rwa [hsame]
  · rw [hexec]
    exact sound_of_call h hcall

theorem sound_of_run {chain : Chain} (h : chain.contract.Sound) (txs : List Tx) :
    (run chain txs).contract.Sound := by
  induction txs generalizing chain with
  | nil => exact h
  | cons tx txs ih => exact ih (sound_of_exec h tx)

theorem sound_of_deploy {gateway owner : Address} {start : Chain}
    (h : deploy gateway owner = .ok start) : start.contract.Sound := by
  obtain ⟨⟨c, events⟩, hnew, hstart⟩ := bind_eq_ok.mp h
  obtain ⟨⟨o, evs⟩, -, hc⟩ := bind_eq_ok.mp hnew
  obtain ⟨rfl, rfl⟩ := Prod.mk.inj (Except.ok.inj hc)
  cases hstart
  exact ⟨SignersMap.wellFormed_empty, List.not_mem_nil⟩

theorem getSigners_of_deploy {gateway owner : Address} {start : Chain}
    (h : deploy gateway owner = .ok start) : start.contract.getSigners = [] := by
  obtain ⟨⟨c, events⟩, hnew, hstart⟩ := bind_eq_ok.mp h
  obtain ⟨⟨o, evs⟩, -, hc⟩ := bind_eq_ok.mp hnew
  obtain ⟨rfl, rfl⟩ := Prod.mk.inj (Except.ok.inj hc)
  cases hstart
  rfl

theorem Reachable.sound {chain : Chain} (h : Reachable chain) : chain.contract.Sound := by
  obtain ⟨gateway, owner, start, txs, hstart, rfl⟩ := h
  exact sound_of_run (sound_of_deploy hstart) txs

theorem Sound.isSigner_iff {c : SP1TeeVerifier} (h : c.Sound) {a : Address} :
    c.isSigner a = true ↔ a ∈ c.getSigners :=
  h.wellFormed.map_iff a

theorem Sound.nodup {c : SP1TeeVerifier} (h : c.Sound) : c.getSigners.Nodup := h.wellFormed.nodup

theorem call_addSigner_of_new {c : SP1TeeVerifier} (h : c.Sound) {a : Address} (ha : a ≠ 0)
    (hnew : a ∉ c.getSigners) :
    ∃ c', c.call ⟨c.owner, .addSigner a⟩ = .ok (c', [.SignerAdded a]) ∧ c'.owner = c.owner ∧
      c'.getSigners = c.getSigners ++ [a] := by
  have hbody : (IterableMap.addSigner c.signersMap a : Except (Revert VerifierError) SignersMap) =
      .ok (IterableMap.added c.signersMap a) := by
    rw [IterableMap.addSigner_eq h.wellFormed]
    exact if_neg hnew
  refine ⟨{ c with signersMap := IterableMap.added c.signersMap a }, ?_, rfl, rfl⟩
  simp [SP1TeeVerifier.call, SP1TeeVerifier.addSigner, SimpleOwnable.onlyOwner, ha, hbody]

def newEvents (chain chain' : Chain) : List Event := chain'.log.drop chain.log.length

theorem log_prefix_exec (chain : Chain) (tx : Tx) : chain.log <+: (exec chain tx).log := by
  rcases exec_cases chain tx with hsame | ⟨c', events, -, hexec⟩
  · rw [hsame]
  · rw [hexec]
    exact List.prefix_append _ _

theorem log_prefix_run (chain : Chain) (txs : List Tx) : chain.log <+: (run chain txs).log := by
  induction txs generalizing chain with
  | nil => exact List.prefix_refl _
  | cons tx txs ih => exact (log_prefix_exec chain tx).trans (ih (exec chain tx))

theorem newEvents_append {c₁ c₂ c₃ : Chain} (h : c₁.log <+: c₂.log) (h' : c₂.log <+: c₃.log) :
    newEvents c₁ c₃ = newEvents c₁ c₂ ++ newEvents c₂ c₃ := by
  obtain ⟨es, hes⟩ := h
  obtain ⟨es', hes'⟩ := h'
  rw [newEvents, newEvents, newEvents, ← hes', ← hes]
  simp

theorem mem_signers_of_exec {chain : Chain} (h : chain.contract.Sound) {tx : Tx} {a : Address}
    (ha : a ∈ (exec chain tx).contract.getSigners) :
    a ∈ chain.contract.getSigners ∨ .SignerAdded a ∈ newEvents chain (exec chain tx) := by
  rcases exec_cases chain tx with hsame | ⟨c', events, hcall, hexec⟩
  · rw [hsame] at ha
    exact Or.inl ha
  · rw [hexec] at ha
    have hnew : newEvents chain (exec chain tx) = events := by
      rw [hexec, newEvents, List.drop_left]
    rw [hnew]
    rcases call_cases hcall with
      ⟨-, ⟨b, m, -, -, hm, rfl, rfl⟩ | ⟨b, m, -, hm, rfl, rfl⟩ | ⟨n, -, -, rfl, rfl⟩ |
        ⟨-, rfl, rfl⟩⟩
    · rw [IterableMap.addSigner_eq h.wellFormed] at hm
      split at hm
      · cases hm
      · cases hm
        rcases IterableMap.mem_signers_added.mp ha with rfl | hold
        · exact Or.inr List.mem_cons_self
        · exact Or.inl hold
    · rw [IterableMap.removeSigner_eq h.wellFormed] at hm
      split at hm
      · next hold =>
        cases hm
        exact Or.inl ((IterableMap.mem_signers_removed h.wellFormed hold).mp ha).2
      · cases hm
    · exact Or.inl ha
    · exact Or.inl ha

/-- Only a `SignerAdded` event brings an address into the registry. -/
theorem mem_signers_of_run {chain : Chain} (h : chain.contract.Sound) {txs : List Tx}
    {a : Address} (ha : a ∈ (run chain txs).contract.getSigners) :
    a ∈ chain.contract.getSigners ∨ .SignerAdded a ∈ newEvents chain (run chain txs) := by
  induction txs generalizing chain with
  | nil => exact Or.inl ha
  | cons tx txs ih =>
      have happend : newEvents chain (run chain (tx :: txs)) =
          newEvents chain (exec chain tx) ++ newEvents (exec chain tx) (run (exec chain tx) txs) :=
        newEvents_append (log_prefix_exec chain tx) (log_prefix_run (exec chain tx) txs)
      rw [happend, List.mem_append]
      rcases ih (sound_of_exec h tx) ha with hexec | hevent
      · exact (mem_signers_of_exec h hexec).imp id Or.inl
      · exact Or.inr (Or.inr hevent)

theorem notMem_signers_of_removed {chain : Chain} (h : chain.contract.Sound) {sender a : Address}
    {r : SP1TeeVerifier × List Event}
    (hremove : chain.contract.call ⟨sender, .removeSigner a⟩ = .ok r) {later : List Tx}
    (hlater : .SignerAdded a ∉ newEvents (exec chain ⟨sender, .removeSigner a⟩)
      (run (exec chain ⟨sender, .removeSigner a⟩) later)) :
    a ∉ (run (exec chain ⟨sender, .removeSigner a⟩) later).contract.getSigners := by
  intro ha
  refine (mem_signers_of_run (sound_of_exec h _) ha).elim ?_ hlater
  obtain ⟨c', events⟩ := r
  have hexec : (exec chain ⟨sender, .removeSigner a⟩).contract = c' := by simp [exec, hremove]
  rw [hexec]
  rcases call_cases hremove with ⟨-, ⟨b, m, hb, -⟩ | ⟨b, m, hb, hm, rfl, -⟩ | ⟨n, hn, -⟩ | ⟨hr, -⟩⟩
  · cases hb
  · cases hb
    rw [IterableMap.removeSigner_eq h.wellFormed] at hm
    split at hm
    · next hold =>
      cases hm
      exact fun hmem => ((IterableMap.mem_signers_removed h.wellFormed hold).mp hmem).1 rfl
    · cases hm
  · cases hn
  · cases hr

/-! ## The contract as a machine -/

def machine : Machine Chain Tx Event where
  step chain tx := some (exec chain tx, newEvents chain (exec chain tx))

theorem run_of_machine {chain chain' : Chain} {txs : List Tx} {es : List Event}
    (h : machine.run chain txs = some (chain', es)) :
    chain' = run chain txs ∧ es = newEvents chain chain' := by
  induction txs generalizing chain es with
  | nil =>
      obtain ⟨rfl, rfl⟩ := Machine.run_nil_eq_some.mp h
      exact ⟨rfl, by simp [newEvents]⟩
  | cons tx txs ih =>
      obtain ⟨chain₁, es₁, es₂, hstep, hrun, rfl⟩ := Machine.run_cons_eq_some.mp h
      obtain ⟨rfl, rfl⟩ := Prod.mk.inj (Option.some.inj hstep)
      obtain ⟨rfl, rfl⟩ := ih hrun
      exact ⟨rfl, (newEvents_append (log_prefix_exec chain tx) (log_prefix_run _ txs)).symm⟩

end SP1TeeVerifier

end Sp1Tee
