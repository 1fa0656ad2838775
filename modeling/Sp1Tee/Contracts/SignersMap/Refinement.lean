import Sp1Tee.Contracts.SignersMap.Registry

/-!
# Runs of the registry

A transaction sequence is a list of calls, each committed or rolled back as a
whole. `Represents s S` relates the storage to the finite set it stands for; one
call preserves it when the set is changed by the same insertion or deletion, and
so does a run.
-/

namespace Sp1Tee

open Foundation Foundation.Solidity

namespace IterableMap

inductive Call
  | addSigner (signer : Address)
  | removeSigner (signer : Address)
deriving DecidableEq

def call {ε : Type*} (self : SignersMap) : Call → Except (Revert ε) SignersMap
  | .addSigner signer => addSigner self signer
  | .removeSigner signer => removeSigner self signer

/-- The storage after a call. The library declares no custom error. -/
def exec (self : SignersMap) (c : Call) : SignersMap :=
  commit self (call self c : Except (Revert Empty) SignersMap)

def run (calls : List Call) : SignersMap := calls.foldl exec SignersMap.empty

/-- The same call on the set that the registry stands for. -/
def setExec (S : Finset Address) : Call → Finset Address
  | .addSigner signer => insert signer S
  | .removeSigner signer => S.erase signer

def setRun (calls : List Call) : Finset Address := calls.foldl setExec ∅

structure Represents (s : SignersMap) (S : Finset Address) : Prop where
  wellFormed : s.WellFormed
  toFinset_signers : s.signers.toFinset = S

theorem represents_empty : Represents SignersMap.empty ∅ :=
  ⟨SignersMap.wellFormed_empty, rfl⟩

theorem exec_addSigner {s : SignersMap} (h : s.WellFormed) (a : Address) :
    exec s (.addSigner a) = if a ∈ s.signers then s else added s a := by
  rw [exec, call, addSigner_eq h]
  split <;> rfl

theorem exec_removeSigner {s : SignersMap} (h : s.WellFormed) (a : Address) :
    exec s (.removeSigner a) = if a ∈ s.signers then removed s a else s := by
  rw [exec, call, removeSigner_eq h]
  split <;> rfl

theorem exec_represents {s : SignersMap} {S : Finset Address} (h : Represents s S) (c : Call) :
    Represents (exec s c) (setExec S c) := by
  obtain ⟨hwf, rfl⟩ := h
  cases c with
  | addSigner a =>
      rw [exec_addSigner hwf]
      split
      · next ha => exact ⟨hwf, (Finset.insert_eq_of_mem (List.mem_toFinset.mpr ha)).symm⟩
      · next ha =>
          refine ⟨wellFormed_added hwf ha, ?_⟩
          ext b
          simp [setExec, mem_signers_added]
  | removeSigner a =>
      rw [exec_removeSigner hwf]
      split
      · next ha =>
          refine ⟨wellFormed_removed hwf ha, ?_⟩
          ext b
          simp [setExec, mem_signers_removed hwf ha]
      · next ha =>
          refine ⟨hwf, ?_⟩
          rw [setExec, Finset.erase_eq_of_notMem (by simpa using ha)]

theorem run_represents (calls : List Call) : Represents (run calls) (setRun calls) :=
  List.foldl_rel represents_empty fun c _ _ _ h => exec_represents h c

/-- The registry refines a finite set: over every sequence of calls its three
copies agree, its functions revert exactly where insertion and deletion would
have nothing to do, with the declared reason, and its list is the set. -/
theorem run_refines_set (calls : List Call) :
    (run calls).signers.Nodup ∧
    (∀ a, (run calls).map a = true ↔ a ∈ (run calls).signers) ∧
    (∀ i (h : i < (run calls).signers.length),
      (run calls).signerIndex (run calls).signers[i] = i) ∧
    (∀ a, a ∉ (run calls).signers → (run calls).signerIndex a = 0) ∧
    (∀ (ε : Type) (a : Address) (e : Revert ε), addSigner (run calls) a = .error e ↔
      a ∈ (run calls).signers ∧ e = .error "Signer already exists") ∧
    (∀ (ε : Type) (a : Address) (e : Revert ε), removeSigner (run calls) a = .error e ↔
      a ∉ (run calls).signers ∧ e = .error "Signer does not exist") ∧
    (run calls).signers.toFinset = setRun calls := by
  obtain ⟨hwf, hset⟩ := run_represents calls
  refine ⟨hwf.nodup, hwf.map_iff, hwf.positions, hwf.index_absent, ?_, ?_, hset⟩
  · intro ε a e
    rw [addSigner_eq hwf]
    by_cases ha : a ∈ (run calls).signers <;> simp [ha, eq_comm]
  · intro ε a e
    rw [removeSigner_eq hwf]
    by_cases ha : a ∈ (run calls).signers <;> simp [ha, eq_comm]

end IterableMap

end Sp1Tee
