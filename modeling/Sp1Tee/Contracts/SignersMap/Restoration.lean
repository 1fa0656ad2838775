import Sp1Tee.Contracts.SignersMap.Refinement

/-!
# What a removal touches, and how additions are undone

A removal moves one signer, the last one, and leaves the others where they are.
Added signers stand at the end of the list, so removing them in the reverse order
moves nobody and gives back the storage as it was. In any other order the list may
come back permuted. That it is a list of the same signers is a fact about finite
sets: `Effective` sequences of calls succeed on the storage, and what becomes of an
address depends on the calls on this address alone.
-/

namespace Sp1Tee

open Foundation Foundation.Solidity

namespace IterableMap

variable {ε : Type} {s : SignersMap}

/-! ## One removal -/

/-- What a removal of the signer at position `i` leaves behind: the last signer has
taken its place, and nothing else has moved. -/
structure SwappedOut (s : SignersMap) (i : ℕ) (s' : SignersMap) : Prop where
  last : i + 1 = s.signers.length → s'.signers = s.signers.dropLast
  inner : ∀ l, s.signers.getLast? = some l → i + 1 < s.signers.length →
    s'.signers = s.signers.dropLast.set i l
  position : ∀ j, j ≠ i → j + 1 < s.signers.length → s'.signers[j]? = s.signers[j]?
  signerIndex : ∀ b, s.signers[i]? ≠ some b → s.signers.getLast? ≠ some b →
    s'.signerIndex b = s.signerIndex b
  map : ∀ b, s.signers[i]? ≠ some b → s'.map b = s.map b

theorem swappedOut_removed (h : s.WellFormed) {i : ℕ} (hi : i < s.signers.length) :
    SwappedOut s i (removed s s.signers[i]) := by
  have hindex : s.signerIndex s.signers[i] = i := h.positions i hi
  have hsigners : (removed s s.signers[i]).signers = swapPop s.signers i := by
    rw [removed, hindex]
  have hne : ∀ b, s.signers[i]? ≠ some b → b ≠ s.signers[i] := by
    rintro b hb rfl
    exact hb (List.getElem?_eq_getElem hi)
  refine ⟨fun hlast => ?_, fun l hl _ => ?_, fun j hne hj => ?_, fun b hb hbl => ?_,
    fun b hb => ?_⟩
  · rw [hsigners, swapPop_last hlast]
  · rw [hsigners, swapPop_eq_set hl]
  · rw [hsigners, getElem?_swapPop_of_ne hne hj]
  · obtain ⟨ys, l, hs, -, -⟩ := h.split (List.getElem_mem hi)
    refine signerIndex_removed_of_ne hs (hne b hb) fun hl => hbl ?_
    rw [hs, hl, List.getLast?_concat]
  · exact Function.update_of_ne (hne b hb) _ _

/-! ## Sequences of calls that all succeed -/

/-- The storage after a sequence of calls, or the error of the first that reverts. -/
def callAll (self : SignersMap) (calls : List Call) : Except (Revert ε) SignersMap :=
  calls.foldlM call self

@[simp] theorem callAll_nil : (callAll s [] : Except (Revert ε) SignersMap) = .ok s := rfl

theorem callAll_cons (c : Call) (cs : List Call) :
    (callAll s (c :: cs) : Except (Revert ε) SignersMap) =
      call s c >>= fun s' => callAll s' cs := rfl

theorem callAll_append (cs cs' : List Call) :
    (callAll s (cs ++ cs') : Except (Revert ε) SignersMap) =
      callAll s cs >>= fun s' => callAll s' cs' :=
  List.foldlM_append

theorem call_addSigner_of_notMem (h : s.WellFormed) {a : Address} (ha : a ∉ s.signers) :
    (call s (.addSigner a) : Except (Revert ε) SignersMap) = .ok (added s a) := by
  rw [call, addSigner_eq h, if_neg ha]

theorem call_removeSigner_of_mem (h : s.WellFormed) {a : Address} (ha : a ∈ s.signers) :
    (call s (.removeSigner a) : Except (Revert ε) SignersMap) = .ok (removed s a) := by
  rw [call, removeSigner_eq h, if_pos ha]

/-! ## In reverse order -/

theorem removed_added (h : s.WellFormed) {a : Address} (ha : a ∉ s.signers) :
    removed (added s a) a = s := by
  have hmap : s.map a = false := by
    rw [← Bool.not_eq_true, h.map_iff a]
    exact ha
  have hindex : s.signerIndex a = 0 := h.index_absent a ha
  have hmap' : Function.update (Function.update s.map a true) a false = s.map := by
    rw [Function.update_idem, ← hmap, Function.update_eq_self]
  have hindex' : Function.update (Function.update s.signerIndex a s.signers.length) a 0 =
      s.signerIndex := by
    rw [Function.update_idem, ← hindex, Function.update_eq_self]
  simp [removed, added, hmap', hindex', List.set_eq_of_length_le]

theorem callAll_add_remove_reverse (h : s.WellFormed) {as : List Address} (hnodup : as.Nodup)
    (hnew : ∀ a ∈ as, a ∉ s.signers) :
    (callAll s (as.map .addSigner ++ as.reverse.map .removeSigner) :
      Except (Revert ε) SignersMap) = .ok s := by
  induction as generalizing s with
  | nil => rfl
  | cons a as ih =>
      obtain ⟨ha, hnodup⟩ := List.nodup_cons.mp hnodup
      obtain ⟨hnewa, hnew⟩ := List.forall_mem_cons.mp hnew
      have hsplit : (a :: as).map Call.addSigner ++ (a :: as).reverse.map .removeSigner =
          .addSigner a :: ((as.map .addSigner ++ as.reverse.map .removeSigner) ++
            [.removeSigner a]) := by
        simp
      have hwf : (added s a).WellFormed := wellFormed_added h hnewa
      have hnew' : ∀ b ∈ as, b ∉ (added s a).signers := by
        intro b hb
        rw [mem_signers_added, not_or]
        exact ⟨fun hba => ha (hba ▸ hb), hnew b hb⟩
      have hmem : a ∈ (added s a).signers := mem_signers_added.mpr (Or.inl rfl)
      rw [hsplit, callAll_cons, call_addSigner_of_notMem h hnewa, ok_bind, callAll_append,
        ih hwf hnodup hnew', ok_bind, callAll_cons, call_removeSigner_of_mem hwf hmem, ok_bind,
        removed_added h hnewa, callAll_nil]

/-! ## In any order -/

def Call.signer : Call → Address
  | .addSigner signer => signer
  | .removeSigner signer => signer

def callsOn (a : Address) (cs : List Call) : List Call := cs.filter fun c => c.signer = a

theorem callsOn_cons_self (c : Call) (cs : List Call) :
    callsOn c.signer (c :: cs) = c :: callsOn c.signer cs :=
  List.filter_cons_of_pos (by simp)

theorem callsOn_cons_of_ne {a : Address} {c : Call} (h : c.signer ≠ a) (cs : List Call) :
    callsOn a (c :: cs) = callsOn a cs :=
  List.filter_cons_of_neg (by simpa using h)

/-- Every call of the sequence changes the set. -/
def Effective (S : Finset Address) : List Call → Prop
  | [] => True
  | .addSigner a :: cs => a ∉ S ∧ Effective (insert a S) cs
  | .removeSigner a :: cs => a ∈ S ∧ Effective (S.erase a) cs

/-- Effective sequences succeed, and do to the storage what they do to the set. -/
theorem callAll_of_effective {S : Finset Address} {cs : List Call} (h : Represents s S)
    (hcs : Effective S cs) :
    ∃ s', (callAll s cs : Except (Revert ε) SignersMap) = .ok s' ∧
      Represents s' (cs.foldl setExec S) := by
  induction cs generalizing s S with
  | nil => exact ⟨s, rfl, h⟩
  | cons c cs ih =>
      have hnext := exec_represents h c
      obtain ⟨hwf, rfl⟩ := h
      cases c with
      | addSigner a =>
          obtain ⟨ha, hcs⟩ := hcs
          rw [List.mem_toFinset] at ha
          rw [exec_addSigner hwf, if_neg ha] at hnext
          obtain ⟨s', hrun, hs'⟩ := ih hnext hcs
          refine ⟨s', ?_, hs'⟩
          rw [callAll_cons, call_addSigner_of_notMem hwf ha, ok_bind, hrun]
      | removeSigner a =>
          obtain ⟨ha, hcs⟩ := hcs
          rw [List.mem_toFinset] at ha
          rw [exec_removeSigner hwf, if_pos ha] at hnext
          obtain ⟨s', hrun, hs'⟩ := ih hnext hcs
          refine ⟨s', ?_, hs'⟩
          rw [callAll_cons, call_removeSigner_of_mem hwf ha, ok_bind, hrun]

/-- The sequence adds each of the addresses once and removes it later, and does nothing
else. -/
def Interleaves (as : List Address) (cs : List Call) : Prop :=
  ∀ a, callsOn a cs = if a ∈ as then [.addSigner a, .removeSigner a] else []

/-- A sequence that will leave nothing of the addresses it is about: such an address is
still to be added and removed, or has been added and is still to be removed. -/
def Pending (S : Finset Address) (cs : List Call) : Prop :=
  ∀ a, callsOn a cs = [] ∨ (a ∈ S ∧ callsOn a cs = [.removeSigner a]) ∨
    (a ∉ S ∧ callsOn a cs = [.addSigner a, .removeSigner a])

theorem pending_of_interleaves {S : Finset Address} {as : List Address} {cs : List Call}
    (h : Interleaves as cs) (hnew : ∀ a ∈ as, a ∉ S) : Pending S cs := by
  intro a
  rw [h a]
  by_cases ha : a ∈ as
  · rw [if_pos ha]
    exact Or.inr (Or.inr ⟨hnew a ha, rfl⟩)
  · rw [if_neg ha]
    exact Or.inl rfl

theorem pending_of_cons {S S' : Finset Address} {c : Call} {cs : List Call}
    (h : Pending S (c :: cs)) (hother : ∀ b, b ≠ c.signer → (b ∈ S' ↔ b ∈ S))
    (hself : callsOn c.signer cs = [] ∨
      (c.signer ∈ S' ∧ callsOn c.signer cs = [.removeSigner c.signer])) : Pending S' cs := by
  intro b
  by_cases hb : b = c.signer
  · subst hb
    exact hself.imp id Or.inl
  · have hbS := h b
    rwa [callsOn_cons_of_ne (Ne.symm hb), ← hother b hb] at hbS

/-- A pending sequence is effective, and leaves the addresses that it is not about. -/
theorem effective_of_pending {S : Finset Address} {cs : List Call} (h : Pending S cs) :
    Effective S cs ∧ ∀ b, b ∈ cs.foldl setExec S ↔ b ∈ S ∧ callsOn b cs = [] := by
  induction cs generalizing S with
  | nil => exact ⟨trivial, fun b => (and_iff_left rfl).symm⟩
  | cons c cs ih =>
      have hc := h c.signer
      rw [callsOn_cons_self] at hc
      cases c with
      | addSigner a =>
          obtain ⟨ha, hrest⟩ : a ∉ S ∧ callsOn a cs = [.removeSigner a] := by
            simpa [Call.signer] using hc
          have hpending : Pending (insert a S) cs :=
            pending_of_cons h (fun b hb => Finset.mem_insert.trans (or_iff_right hb))
              (Or.inr ⟨Finset.mem_insert_self a S, hrest⟩)
          obtain ⟨heffective, hmem⟩ := ih hpending
          refine ⟨⟨ha, heffective⟩, fun b => (hmem b).trans ?_⟩
          by_cases hb : b = a
          · subst hb
            simp [hrest, ha]
          · rw [callsOn_cons_of_ne (Ne.symm hb), Finset.mem_insert, or_iff_right hb]
      | removeSigner a =>
          obtain ⟨ha, hrest⟩ : a ∈ S ∧ callsOn a cs = [] := by
            simpa [Call.signer] using hc
          have hpending : Pending (S.erase a) cs :=
            pending_of_cons h (fun b hb => Finset.mem_erase.trans (and_iff_right hb))
              (Or.inl hrest)
          obtain ⟨heffective, hmem⟩ := ih hpending
          refine ⟨⟨ha, heffective⟩, fun b => (hmem b).trans ?_⟩
          by_cases hb : b = a
          · subst hb
            have hself := callsOn_cons_self (.removeSigner b) cs
            simp only [Call.signer] at hself
            simp [hself]
          · rw [callsOn_cons_of_ne (Ne.symm hb), Finset.mem_erase, and_iff_right hb]

/-- The same set of signers, listed in some order. -/
structure SameSet (s s' : SignersMap) : Prop where
  map : s'.map = s.map
  perm : s'.signers.Perm s.signers

/-- In whatever order new signers are added and removed, the set is as before. -/
theorem callAll_of_interleaves (h : s.WellFormed) {as : List Address} {cs : List Call}
    (hcs : Interleaves as cs) (hnew : ∀ a ∈ as, a ∉ s.signers) :
    ∃ s', (callAll s cs : Except (Revert ε) SignersMap) = .ok s' ∧ SameSet s s' := by
  have hnew' : ∀ a ∈ as, a ∉ s.signers.toFinset := fun a ha =>
    fun hmem => hnew a ha (List.mem_toFinset.mp hmem)
  obtain ⟨heffective, hrest⟩ := effective_of_pending (pending_of_interleaves hcs hnew')
  obtain ⟨s', hrun, hwf', hset⟩ := callAll_of_effective (ε := ε) ⟨h, rfl⟩ heffective
  have hmem : ∀ b, b ∈ s'.signers ↔ b ∈ s.signers := by
    intro b
    rw [← List.mem_toFinset, hset, hrest b, List.mem_toFinset, hcs b]
    refine and_iff_left_of_imp fun hb => if_neg fun hbas => hnew b hbas hb
  refine ⟨s', hrun, ?_, (List.perm_ext_iff_of_nodup hwf'.nodup h.nodup).mpr hmem⟩
  funext b
  rw [Bool.eq_iff_iff, hwf'.map_iff b, h.map_iff b, hmem b]

theorem callsOn_map {f : Address → Call} (hf : ∀ b, (f b).signer = b) {as : List Address}
    (h : as.Nodup) (a : Address) : callsOn a (as.map f) = if a ∈ as then [f a] else [] := by
  have hcomp : (fun c : Call => decide (c.signer = a)) ∘ f = fun b => decide (b = a) := by
    funext b
    simp [hf b]
  rw [callsOn, List.filter_map, hcomp, List.filter_eq, h.count]
  split <;> rfl

theorem interleaves_append {as adds removes : List Address} (h : as.Nodup)
    (hadds : adds.Perm as) (hremoves : removes.Perm as) :
    Interleaves as (adds.map .addSigner ++ removes.map .removeSigner) := by
  intro a
  have happend : callsOn a (adds.map .addSigner ++ removes.map .removeSigner) =
      callsOn a (adds.map .addSigner) ++ callsOn a (removes.map .removeSigner) :=
    List.filter_append _ _
  rw [happend, callsOn_map (fun _ => rfl) (hadds.nodup_iff.mpr h),
    callsOn_map (fun _ => rfl) (hremoves.nodup_iff.mpr h)]
  simp only [hadds.mem_iff, hremoves.mem_iff]
  split <;> rfl

/-- Over every sequence of calls, a removal touches the removed signer and the last one,
and the removals of new signers undo their additions: exactly if they come in the reverse
order, and up to the order of the list in any other, also if they are interleaved with
the additions. -/
theorem removeSigner_restores (ε : Type) (calls : List Call) :
    let s := run calls
    (∀ i (h : i < s.signers.length), ∃ s',
      (removeSigner s s.signers[i] : Except (Revert ε) SignersMap) = .ok s' ∧
        SwappedOut s i s') ∧
    ∀ as : List Address, as.Nodup → (∀ a ∈ as, a ∉ s.signers) →
      (callAll s (as.map .addSigner ++ as.reverse.map .removeSigner) :
        Except (Revert ε) SignersMap) = .ok s ∧
      (∀ adds removes : List Address, adds.Perm as → removes.Perm as → ∃ s',
        (callAll s (adds.map .addSigner ++ removes.map .removeSigner) :
          Except (Revert ε) SignersMap) = .ok s' ∧ SameSet s s') ∧
      ∀ cs, Interleaves as cs → ∃ s',
        (callAll s cs : Except (Revert ε) SignersMap) = .ok s' ∧ SameSet s s' := by
  intro s
  have hwf : s.WellFormed := (run_represents calls).wellFormed
  refine ⟨fun i h => ⟨removed s s.signers[i], ?_, swappedOut_removed hwf h⟩,
    fun as hnodup hnew => ⟨callAll_add_remove_reverse hwf hnodup hnew, ?_, ?_⟩⟩
  · rw [removeSigner_eq hwf, if_pos (List.getElem_mem h)]
  · intro adds removes hadds hremoves
    exact callAll_of_interleaves hwf (interleaves_append hnodup hadds hremoves) hnew
  · intro cs hcs
    exact callAll_of_interleaves hwf hcs hnew

/-! Ten signers, as in the test `testAddManyThenRemoveOne`. -/

namespace TenSigners

def signer (n : ℕ) : Address := .ofNat 20 n

def calls : List Call := (List.range 10).map fun n => .addSigner (signer n)

theorem signers_run : (run calls).signers = (List.range 10).map signer := by decide +kernel

end TenSigners

open TenSigners in
theorem removeSigner_restores_tenSigners :
    (∃ s', (removeSigner (run calls) (signer 1) : Except (Revert Empty) SignersMap) = .ok s' ∧
      s'.signers[1]? = some (signer 9)) ∧
    (callAll (run calls) [.addSigner (signer 10), .addSigner (signer 11),
      .removeSigner (signer 11), .removeSigner (signer 10)] :
        Except (Revert Empty) SignersMap) = .ok (run calls) ∧
    ∃ s', (callAll (run calls) [.addSigner (signer 11), .addSigner (signer 10),
      .removeSigner (signer 11), .removeSigner (signer 10)] :
        Except (Revert Empty) SignersMap) = .ok s' ∧ s'.signers.Perm (run calls).signers := by
  obtain ⟨hone, hnew⟩ := removeSigner_restores Empty calls
  obtain ⟨hreverse, hphases, -⟩ := hnew [signer 10, signer 11] (by decide +kernel) (by
    rw [signers_run]
    decide +kernel)
  refine ⟨?_, hreverse, ?_⟩
  · have hlt : 1 < (run calls).signers.length := by rw [signers_run]; decide
    have hget : (run calls).signers[1] = signer 1 := by simp [signers_run]
    obtain ⟨s', hremove, hswapped⟩ := hone 1 hlt
    refine ⟨s', hget ▸ hremove, ?_⟩
    rw [hswapped.inner (signer 9) (by rw [signers_run]; decide +kernel)
      (by rw [signers_run]; decide), signers_run]
    decide +kernel
  · obtain ⟨s', hrun, hsame⟩ := hphases [signer 11, signer 10] [signer 11, signer 10]
      (List.Perm.swap _ _ _) (List.Perm.swap _ _ _)
    exact ⟨s', hrun, hsame.perm⟩

end IterableMap

end Sp1Tee
