import Mathlib.Logic.Function.Basic

/-!
# A section that a guard protects

`holder i` is the token with which `i` is in a section, if it is there. The section
is protected by a guard if the guard is taken exactly by what is in the section, so
that at most one is. This is kept when one enters while the guard is free and takes
it, and when one leaves and frees it.
-/

namespace Foundation

/-- The guard is taken exactly by the one that is in the section. -/
structure Guarded {ι τ : Type} (holder : ι → Option τ) (guard : Option τ) : Prop where
  guard_of_holder : ∀ {i t}, holder i = some t → guard = some t
  exists_holder : ∀ {t}, guard = some t → ∃ i, holder i = some t
  holder_unique : ∀ {i j t u}, holder i = some t → holder j = some u → i = j

namespace Guarded

variable {ι τ : Type} {holder : ι → Option τ} {guard : Option τ}

theorem empty : Guarded (fun _ : ι => (none : Option τ)) none where
  guard_of_holder h := by cases h
  exists_holder h := by cases h
  holder_unique h := by cases h

theorem holder_eq_none (h : Guarded holder none) (i : ι) : holder i = none := by
  cases hi : holder i with
  | none => rfl
  | some t => cases h.guard_of_holder hi

variable [DecidableEq ι]

/-- One enters while the guard is free, and takes it. -/
theorem enter (h : Guarded holder none) (i : ι) (t : τ) :
    Guarded (Function.update holder i (some t)) (some t) := by
  have honly : ∀ {j u}, Function.update holder i (some t) j = some u → j = i ∧ u = t := by
    intro j u hj
    by_cases hji : j = i
    · rw [hji, Function.update_self] at hj
      exact ⟨hji, (Option.some.inj hj).symm⟩
    · rw [Function.update_of_ne hji, h.holder_eq_none] at hj
      cases hj
  refine ⟨fun hj => ?_, fun hu => ⟨i, ?_⟩, fun hj hk => ?_⟩
  · rw [(honly hj).2]
  · rw [Function.update_self, ← hu]
  · rw [(honly hj).1, (honly hk).1]

/-- The one in the section leaves it and frees the guard. -/
theorem leave (h : Guarded holder guard) {i : ι} (hi : (holder i).isSome) :
    Guarded (Function.update holder i none) none := by
  obtain ⟨t, hi⟩ := Option.isSome_iff_exists.mp hi
  have hnone : ∀ j, Function.update holder i none j = none := by
    intro j
    by_cases hji : j = i
    · rw [hji, Function.update_self]
    · rw [Function.update_of_ne hji]
      cases hj : holder j with
      | none => rfl
      | some u => exact absurd (h.holder_unique hj hi) hji
  refine ⟨fun hj => ?_, fun hu => ?_, fun hj => ?_⟩
  · rw [hnone] at hj
    cases hj
  · cases hu
  · rw [hnone] at hj
    cases hj

/-- One that is not in the section moves outside of it. -/
theorem outside (h : Guarded holder guard) {i : ι} (hi : holder i = none) :
    Guarded (Function.update holder i none) guard := by
  rwa [← hi, Function.update_eq_self]

/-- The one in the section stays there. -/
theorem stay (h : Guarded holder guard) (i : ι) :
    Guarded (Function.update holder i (holder i)) guard := by
  rwa [Function.update_eq_self]

end Guarded

end Foundation
