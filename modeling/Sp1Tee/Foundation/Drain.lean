import Mathlib.Algebra.Order.BigOperators.Group.Finset
import Sp1Tee.Foundation.Machine

/-!
# Machines that come to rest

A rank that goes down with every step of some kind bounds the runs of such steps. If
such a step is possible whenever some work is left, then finitely many of them bring all
work to its end. What is owed in the meantime is part of the invariant, which may speak
of the events.

The rank of many components is the sum of theirs over a finite set.
-/

namespace Foundation

namespace Machine

variable {σ α ε : Type} {m : Machine σ α ε}

theorem run_append_eq_some {s t : σ} {as bs : List α} {es : List ε} :
    m.run s (as ++ bs) = some (t, es) ↔
      ∃ s' es₁ es₂, m.run s as = some (s', es₁) ∧ m.run s' bs = some (t, es₂) ∧
        es = es₁ ++ es₂ := by
  induction as generalizing s es with
  | nil =>
      rw [List.nil_append]
      constructor
      · intro h
        exact ⟨s, [], es, rfl, h, rfl⟩
      · rintro ⟨s', es₁, es₂, hnil, h, rfl⟩
        obtain ⟨rfl, rfl⟩ := run_nil_eq_some.mp hnil
        exact h
  | cons a as ih =>
      rw [List.cons_append, run_cons_eq_some]
      constructor
      · rintro ⟨s₁, es₁, es₂, ha, hrun, rfl⟩
        obtain ⟨s₂, es₃, es₄, has, hbs, rfl⟩ := ih.mp hrun
        exact ⟨s₂, es₁ ++ es₃, es₄, run_cons_eq_some.mpr ⟨s₁, es₁, es₃, ha, has, rfl⟩, hbs,
          (List.append_assoc es₁ es₃ es₄).symm⟩
      · rintro ⟨s₂, es₃, es₄, has, hbs, rfl⟩
        obtain ⟨s₁, es₁, es₅, ha, has', rfl⟩ := run_cons_eq_some.mp has
        exact ⟨s₁, es₁, es₅ ++ es₄, ha, ih.mpr ⟨s₂, es₅, es₄, has', hbs, rfl⟩,
          List.append_assoc es₁ es₅ es₄⟩

/-- Steps that lower a rank are not taken more often than the rank allows. -/
theorem length_add_rank_le {I : σ → Prop} {P : α → Prop} {rank : σ → ℕ}
    (hstep : ∀ {s s' : σ} {a : α} {es : List ε}, I s → P a → m.step s a = some (s', es) →
      I s' ∧ rank s' < rank s)
    {s s' : σ} {as : List α} {es : List ε} (h : I s) (has : ∀ a ∈ as, P a)
    (hrun : m.run s as = some (s', es)) : as.length + rank s' ≤ rank s := by
  induction as generalizing s es with
  | nil =>
      obtain ⟨rfl, -⟩ := run_nil_eq_some.mp hrun
      simp
  | cons a as ih =>
      obtain ⟨t, es₁, es₂, ha, hrun', -⟩ := run_cons_eq_some.mp hrun
      obtain ⟨haction, hactions⟩ := List.forall_mem_cons.mp has
      obtain ⟨hinv, hlt⟩ := hstep h haction ha
      have hrest := ih hinv hactions hrun'
      rw [List.length_cons]
      omega

/-- If some step lowers the rank as long as work is left, then steps lead to a state where
none is. -/
theorem exists_drain {β : Type} [LT β] [WellFoundedLT β] {I : σ → List ε → Prop} {D : σ → Prop}
    {P : α → Prop} {rank : σ → β}
    (hstep : ∀ {s : σ} {past : List ε}, I s past → ¬ D s →
      ∃ a s' es, P a ∧ m.step s a = some (s', es) ∧ I s' (past ++ es) ∧ rank s' < rank s)
    {s : σ} {past : List ε} (h : I s past) :
    ∃ as s' es, (∀ a ∈ as, P a) ∧ m.run s as = some (s', es) ∧ I s' (past ++ es) ∧ D s' := by
  induction hrank : rank s using WellFoundedLT.induction generalizing s past with
  | ind n ih =>
    by_cases hdone : D s
    · exact ⟨[], s, [], List.forall_mem_nil _, rfl, by rwa [List.append_nil], hdone⟩
    · obtain ⟨a, t, es₁, ha, hone, hinv, hlt⟩ := hstep h hdone
      obtain ⟨as, s', es₂, has, hrun, hinv', hdone'⟩ := ih (rank t) (hrank ▸ hlt) hinv rfl
      refine ⟨a :: as, s', es₁ ++ es₂, List.forall_mem_cons.mpr ⟨ha, has⟩,
        run_cons_eq_some.mpr ⟨t, es₁, es₂, hone, hrun, rfl⟩, ?_, hdone'⟩
      rwa [← List.append_assoc]

end Machine

/-! ## Sums over components -/

variable {ι α : Type} [DecidableEq ι]

theorem sum_update_lt {cs : Finset ι} {f : ι → α} {w : α → ℕ} {i : ι} {x : α} (hi : i ∈ cs)
    (hx : w x < w (f i)) : ∑ c ∈ cs, w (Function.update f i x c) < ∑ c ∈ cs, w (f c) := by
  refine Finset.sum_lt_sum (fun c _ => ?_) ⟨i, hi, by rwa [Function.update_self]⟩
  by_cases hc : c = i
  · rw [hc, Function.update_self]
    exact hx.le
  · rw [Function.update_of_ne hc]

end Foundation
