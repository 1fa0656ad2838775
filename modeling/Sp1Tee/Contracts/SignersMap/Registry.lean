import Mathlib.Data.Finset.Card
import Mathlib.Data.Finset.Insert
import Mathlib.Data.List.Basic
import Sp1Tee.Contracts.SignersMap.Basic
import Sp1Tee.Foundation.SwapPop

/-!
# The registry is a set

`SignersMap.WellFormed` says that the three copies of the signer set agree. It
holds of fresh storage and is kept by every call, so it holds after any
sequence of calls, and there the registry is a finite set: its two functions
revert exactly on the arguments a set would refuse, and otherwise insert and
erase.
-/

namespace Sp1Tee

open Foundation Foundation.Solidity

namespace SignersMap

/-- The membership map, the list and the positions describe one set. -/
structure WellFormed (s : SignersMap) : Prop where
  nodup : s.signers.Nodup
  map_iff : ∀ a, s.map a = true ↔ a ∈ s.signers
  positions : Positions s.signerIndex s.signers
  index_absent : ∀ a, a ∉ s.signers → s.signerIndex a = 0

theorem wellFormed_empty : empty.WellFormed where
  nodup := List.nodup_nil
  map_iff _ := by simp [empty]
  positions := positions_nil _
  index_absent _ _ := rfl

/-- Distinct addresses are fewer than `2 ^ 256`, so that lengths and indices
never leave `uint256`. -/
theorem WellFormed.length_signers_lt {s : SignersMap} (h : s.WellFormed) :
    s.signers.length < 2 ^ 256 :=
  Nat.lt_of_le_of_lt (FixedBytes.length_le_of_nodup h.nodup) (by decide)

/-- A member splits the list at its stored position: it is either the last
signer or stands strictly before it. -/
theorem WellFormed.split {s : SignersMap} (h : s.WellFormed) {a : Address}
    (ha : a ∈ s.signers) :
    ∃ ys l, s.signers = ys ++ [l] ∧ s.signers[s.signerIndex a]? = some a ∧
      ((a = l ∧ s.signerIndex a = ys.length) ∨ s.signerIndex a < ys.length) := by
  obtain ⟨i, hi, rfl⟩ := List.getElem_of_mem ha
  have hindex : s.signerIndex s.signers[i] = i := h.positions i hi
  obtain ⟨ys, l, hs⟩ := s.signers.eq_nil_or_concat'.resolve_left (List.ne_nil_of_mem ha)
  refine ⟨ys, l, hs, ?_, ?_⟩
  · rw [hindex, List.getElem?_eq_getElem hi]
  · rw [hindex]
    rcases Nat.lt_or_ge i ys.length with hlt | hge
    · exact Or.inr hlt
    · have hlast : i = ys.length := by
        rw [hs, List.length_append, List.length_singleton] at hi
        omega
      refine Or.inl ⟨?_, hlast⟩
      simp [hs, hlast]

end SignersMap

namespace IterableMap

variable {ε : Type*}

/-! ## One call -/

/-- What a successful `addSigner` leaves behind. -/
def added (s : SignersMap) (a : Address) : SignersMap where
  map := Function.update s.map a true
  signers := s.signers ++ [a]
  signerIndex := Function.update s.signerIndex a s.signers.length

/-- What a successful `removeSigner` leaves behind. The index of the former last
signer `l` is only written when `l` is moved. -/
def removed (s : SignersMap) (a : Address) : SignersMap where
  map := Function.update s.map a false
  signers := swapPop s.signers (s.signerIndex a)
  signerIndex :=
    match s.signers.getLast? with
    | none => s.signerIndex
    | some l =>
        if a = l then Function.update s.signerIndex a 0
        else Function.update (Function.update s.signerIndex a 0) l (s.signerIndex a)

theorem addSigner_eq {s : SignersMap} (h : s.WellFormed) (a : Address) :
    (addSigner s a : Except (Revert ε) SignersMap) =
      if a ∈ s.signers then .error (.error "Signer already exists") else .ok (added s a) := by
  by_cases ha : a ∈ s.signers
  · rw [if_pos ha, addSigner_of_map ((h.map_iff a).mpr ha)]
  · have hmap : s.map a = false := by
      rw [← Bool.not_eq_true, h.map_iff a]
      exact ha
    rw [if_neg ha, addSigner_of_not_map hmap]
    rfl

theorem removeSigner_eq {s : SignersMap} (h : s.WellFormed) (a : Address) :
    (removeSigner s a : Except (Revert ε) SignersMap) =
      if a ∈ s.signers then .ok (removed s a) else .error (.error "Signer does not exist") := by
  by_cases ha : a ∈ s.signers
  · have hmap : s.map a = true := (h.map_iff a).mpr ha
    rw [if_pos ha]
    rcases h.split ha with ⟨ys, l, hs, hget, ⟨rfl, hindex⟩ | hindex⟩
    · rw [removeSigner_last hmap hs hindex]
      simp [removed, hs, hindex, List.set_eq_of_length_le]
    · have hne : a ≠ l := by
        rintro rfl
        have hnodup := h.nodup
        rw [hs, List.getElem?_append_left hindex] at hget
        rw [hs, List.nodup_append] at hnodup
        exact hnodup.2.2 a (List.mem_of_getElem? hget) a (by simp) rfl
      rw [removeSigner_inner hmap hs hindex]
      simp [removed, hs, hne]
  · have hmap : s.map a = false := by
      rw [← Bool.not_eq_true, h.map_iff a]
      exact ha
    rw [if_neg ha, removeSigner_of_not_map hmap]

theorem mem_signers_added {s : SignersMap} {a b : Address} :
    b ∈ (added s a).signers ↔ b = a ∨ b ∈ s.signers := by
  simp [added, or_comm]

theorem mem_signers_removed {s : SignersMap} (h : s.WellFormed) {a b : Address}
    (ha : a ∈ s.signers) : b ∈ (removed s a).signers ↔ b ≠ a ∧ b ∈ s.signers := by
  obtain ⟨ys, l, -, hget, -⟩ := h.split ha
  obtain ⟨hi, hentry⟩ := List.getElem?_eq_some_iff.mp hget
  change b ∈ swapPop s.signers (s.signerIndex a) ↔ _
  rw [mem_swapPop h.nodup hi, hentry]
  exact and_comm

theorem wellFormed_added {s : SignersMap} (h : s.WellFormed) {a : Address}
    (ha : a ∉ s.signers) : (added s a).WellFormed where
  nodup := by
    rw [added, List.nodup_append]
    refine ⟨h.nodup, List.nodup_singleton a, ?_⟩
    rintro b hb c hc rfl
    exact ha (List.mem_singleton.mp hc ▸ hb)
  map_iff b := by
    rw [mem_signers_added]
    by_cases hb : b = a
    · simp [added, hb]
    · simp [added, hb, h.map_iff b]
  positions := by
    refine positions_append_singleton.mpr ⟨h.positions.congr fun b hb => ?_, by simp [added]⟩
    have hne : b ≠ a := fun hba => ha (hba ▸ hb)
    simp [added, Function.update_of_ne hne]
  index_absent b hb := by
    rw [mem_signers_added, not_or] at hb
    simp [added, Function.update_of_ne hb.1, h.index_absent b hb.2]

/-! The index after a removal: zero at the removed signer, the freed position
at the moved one, unchanged elsewhere. -/

theorem signerIndex_removed_self {s : SignersMap} {ys : List Address} {a l : Address}
    (hs : s.signers = ys ++ [l]) : (removed s a).signerIndex a = 0 := by
  by_cases hal : a = l
  · simp [removed, hs, hal]
  · simp [removed, hs, hal]

theorem signerIndex_removed_last {s : SignersMap} {ys : List Address} {a l : Address}
    (hs : s.signers = ys ++ [l]) (hal : a ≠ l) :
    (removed s a).signerIndex l = s.signerIndex a := by
  simp [removed, hs, hal]

theorem signerIndex_removed_of_ne {s : SignersMap} {ys : List Address} {a b l : Address}
    (hs : s.signers = ys ++ [l]) (hba : b ≠ a) (hbl : b ≠ l) :
    (removed s a).signerIndex b = s.signerIndex b := by
  by_cases hal : a = l
  · simp [removed, hs, hal, hbl]
  · simp [removed, hs, hal, hba, hbl]

theorem positions_removed {s : SignersMap} (h : s.WellFormed) {a : Address}
    (ha : a ∈ s.signers) : Positions (removed s a).signerIndex (removed s a).signers := by
  obtain ⟨ys, l, hs, hget, -⟩ := h.split ha
  obtain ⟨hys, hl⟩ := positions_append_singleton.mp (hs ▸ h.positions)
  have hnotMem : l ∉ ys := fun hmem =>
    (List.nodup_append.mp (hs ▸ h.nodup)).2.2 l hmem l (by simp) rfl
  have hmoved : Positions (Function.update s.signerIndex l (s.signerIndex a))
      (removed s a).signers := by
    simpa [removed, hs] using hys.set hnotMem
  refine hmoved.congr fun b hb => ?_
  have hba : b ≠ a := ((mem_signers_removed h ha).mp hb).1
  by_cases hbl : b = l
  · subst hbl
    rw [signerIndex_removed_last hs hba.symm, Function.update_self]
  · rw [signerIndex_removed_of_ne hs hba hbl, Function.update_of_ne hbl]

theorem wellFormed_removed {s : SignersMap} (h : s.WellFormed) {a : Address}
    (ha : a ∈ s.signers) : (removed s a).WellFormed where
  nodup := by
    obtain ⟨ys, l, -, hget, -⟩ := h.split ha
    exact nodup_swapPop h.nodup (List.getElem?_eq_some_iff.mp hget).1
  map_iff b := by
    rw [mem_signers_removed h ha]
    by_cases hb : b = a
    · simp [removed, hb]
    · simp [removed, hb, h.map_iff b]
  positions := positions_removed h ha
  index_absent b hb := by
    obtain ⟨ys, l, hs, -, -⟩ := h.split ha
    rw [mem_signers_removed h ha] at hb
    by_cases hba : b = a
    · rw [hba, signerIndex_removed_self hs]
    · have habsent : b ∉ s.signers := fun hmem => hb ⟨hba, hmem⟩
      have hbl : b ≠ l := fun hbl => habsent (by rw [hs, hbl]; simp)
      rw [signerIndex_removed_of_ne hs hba hbl, h.index_absent b habsent]

end IterableMap

end Sp1Tee
