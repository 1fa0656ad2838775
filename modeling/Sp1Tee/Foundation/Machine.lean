import Mathlib.Data.Nat.Notation
import Mathlib.Logic.Function.Basic

/-!
# Machines, their runs and their histories

A `Machine` takes a step under an action, if the action is enabled, and emits
events. A run collects the events of its steps, and an invariant may speak of the
state together with all the events so far. A machine that contains another one as
a component is related to it by `run_project`: what a run of the whole does to the
component is a run of the component. Machines run side by side as a `family` or as
an `interleave`. `Blocks` is how a trace looks in which nobody interrupts another.
-/

namespace Foundation

/-- A guarded step function with events. -/
structure Machine (σ α ε : Type) where
  step : σ → α → Option (σ × List ε)

namespace Machine

variable {σ α ε σ' α' ε' : Type}

/-- The state after some actions, if they are enabled in turn, and their events. -/
def run (m : Machine σ α ε) : σ → List α → Option (σ × List ε)
  | s, [] => some (s, [])
  | s, a :: as =>
    match m.step s a with
    | none => none
    | some (s', es) =>
      match run m s' as with
      | none => none
      | some (s'', es') => some (s'', es ++ es')

variable {m : Machine σ α ε} {m' : Machine σ' α' ε'}

theorem run_nil_eq_some {s s' : σ} {es : List ε} :
    m.run s [] = some (s', es) ↔ s = s' ∧ es = [] := by
  rw [run, Option.some_inj, Prod.mk.injEq, eq_comm (a := [])]

theorem run_cons_eq_some {s s'' : σ} {a : α} {as : List α} {es : List ε} :
    m.run s (a :: as) = some (s'', es) ↔
      ∃ s' es₁ es₂, m.step s a = some (s', es₁) ∧ m.run s' as = some (s'', es₂) ∧
        es = es₁ ++ es₂ := by
  rw [run]
  cases hstep : m.step s a with
  | none => simp
  | some r =>
      obtain ⟨s', es₁⟩ := r
      simp only
      cases hrun : m.run s' as with
      | none =>
          simp only [reduceCtorEq, false_iff]
          rintro ⟨t, es₁', es₂, hpair, hrun', -⟩
          cases hpair
          rw [hrun] at hrun'
          cases hrun'
      | some r =>
          obtain ⟨t, es₂⟩ := r
          constructor
          · intro h
            cases h
            exact ⟨s', es₁, es₂, rfl, hrun, rfl⟩
          · rintro ⟨t', es₁', es₂', hpair, hrun', rfl⟩
            cases hpair
            rw [hrun] at hrun'
            cases hrun'
            rfl

/-- What every step under an action of some kind preserves, given all events so far,
holds after every run of such actions. -/
theorem run_invariant_of_forall {I : σ → List ε → Prop} {P : α → Prop}
    (hstep : ∀ {s s' : σ} {a : α} {past es : List ε}, I s past → P a →
      m.step s a = some (s', es) → I s' (past ++ es))
    {s s' : σ} {as : List α} {past es : List ε} (h : I s past) (has : ∀ a ∈ as, P a)
    (hrun : m.run s as = some (s', es)) : I s' (past ++ es) := by
  induction as generalizing s past es with
  | nil =>
      obtain ⟨rfl, rfl⟩ := run_nil_eq_some.mp hrun
      rwa [List.append_nil]
  | cons a as ih =>
      obtain ⟨t, es₁, es₂, ha, hrun', rfl⟩ := run_cons_eq_some.mp hrun
      obtain ⟨haction, hactions⟩ := List.forall_mem_cons.mp has
      rw [← List.append_assoc]
      exact ih (hstep h haction ha) hactions hrun'

theorem run_invariant {I : σ → List ε → Prop}
    (hstep : ∀ {s s' : σ} {a : α} {past es : List ε}, I s past → m.step s a = some (s', es) →
      I s' (past ++ es))
    {s s' : σ} {as : List α} {past es : List ε} (h : I s past)
    (hrun : m.run s as = some (s', es)) : I s' (past ++ es) :=
  run_invariant_of_forall (P := fun _ => True) (fun h _ => hstep h) h (fun _ _ => trivial) hrun

theorem run_preserves_of_forall {I : σ → Prop} {P : α → Prop}
    (hstep : ∀ {s s' : σ} {a : α} {es : List ε}, I s → P a → m.step s a = some (s', es) → I s')
    {s s' : σ} {as : List α} {es : List ε} (h : I s) (has : ∀ a ∈ as, P a)
    (hrun : m.run s as = some (s', es)) : I s' :=
  @run_invariant_of_forall _ _ _ m (fun t _ => I t) P (fun h => hstep h) s s' as [] es h has hrun

theorem run_preserves {I : σ → Prop}
    (hstep : ∀ {s s' : σ} {a : α} {es : List ε}, I s → m.step s a = some (s', es) → I s')
    {s s' : σ} {as : List α} {es : List ε} (h : I s) (hrun : m.run s as = some (s', es)) :
    I s' :=
  run_preserves_of_forall (P := fun _ => True) (fun h _ => hstep h) h (fun _ _ => trivial) hrun

/-- If every step of `m` leaves a component alone or is a step of `m'` on it, then a
run of `m` is a run of `m'` on the component. -/
theorem run_project (f : σ → σ') (p : ε → Option ε')
    (hstep : ∀ {s s' : σ} {a : α} {es : List ε}, m.step s a = some (s', es) →
      (f s' = f s ∧ es.filterMap p = []) ∨
        ∃ a', m'.step (f s) a' = some (f s', es.filterMap p))
    {s s' : σ} {as : List α} {es : List ε} (hrun : m.run s as = some (s', es)) :
    ∃ as', m'.run (f s) as' = some (f s', es.filterMap p) := by
  induction as generalizing s es with
  | nil =>
      obtain ⟨rfl, rfl⟩ := run_nil_eq_some.mp hrun
      exact ⟨[], rfl⟩
  | cons a as ih =>
      obtain ⟨t, es₁, es₂, ha, hrun', rfl⟩ := run_cons_eq_some.mp hrun
      obtain ⟨as', has'⟩ := ih hrun'
      rw [List.filterMap_append]
      rcases hstep ha with ⟨hsame, hnone⟩ | ⟨a', ha'⟩
      · rw [hsame] at has'
        exact ⟨as', by rwa [hnone, List.nil_append]⟩
      · exact ⟨a' :: as', run_cons_eq_some.mpr ⟨f t, _, _, ha', has', rfl⟩⟩

/-- Every state on the way has the property, the first one and the last one included. -/
def Throughout (m : Machine σ α ε) (P : σ → Prop) : σ → List α → Prop
  | s, [] => P s
  | s, a :: as =>
    P s ∧
      match m.step s a with
      | none => True
      | some (s', _) => m.Throughout P s' as

instance decidableThroughout {P : σ → Prop} [DecidablePred P] :
    (s : σ) → (as : List α) → Decidable (m.Throughout P s as)
  | s, [] => inferInstanceAs (Decidable (P s))
  | s, a :: as =>
    match h : m.step s a with
    | none => decidable_of_iff (P s) (by simp [Throughout, h])
    | some (s', _) =>
      have : Decidable (m.Throughout P s' as) := decidableThroughout s' as
      decidable_of_iff (P s ∧ m.Throughout P s' as) (by simp [Throughout, h])

theorem Throughout.of_cons {P : σ → Prop} {s s' : σ} {a : α} {as : List α} {es : List ε}
    (h : m.Throughout P s (a :: as)) (hstep : m.step s a = some (s', es)) :
    P s ∧ m.Throughout P s' as := by
  simpa only [Throughout, hstep] using h

theorem Throughout.last {P : σ → Prop} {s s' : σ} {as : List α} {es : List ε}
    (h : m.Throughout P s as) (hrun : m.run s as = some (s', es)) : P s' := by
  induction as generalizing s es with
  | nil =>
      obtain ⟨rfl, -⟩ := run_nil_eq_some.mp hrun
      exact h
  | cons a as ih =>
      obtain ⟨t, es₁, es₂, ha, hrun', -⟩ := run_cons_eq_some.mp hrun
      exact ih (h.of_cons ha).2 hrun'

/-- What every step between states with the property preserves, given all events so far. -/
theorem run_invariant_of_throughout {I : σ → List ε → Prop} {P : σ → Prop}
    (hstep : ∀ {s s' : σ} {a : α} {past es : List ε}, I s past → P s →
      m.step s a = some (s', es) → I s' (past ++ es))
    {s s' : σ} {as : List α} {past es : List ε} (h : I s past) (hP : m.Throughout P s as)
    (hrun : m.run s as = some (s', es)) : I s' (past ++ es) := by
  induction as generalizing s past es with
  | nil =>
      obtain ⟨rfl, rfl⟩ := run_nil_eq_some.mp hrun
      rwa [List.append_nil]
  | cons a as ih =>
      obtain ⟨t, es₁, es₂, ha, hrun', rfl⟩ := run_cons_eq_some.mp hrun
      obtain ⟨hs, hrest⟩ := hP.of_cons ha
      rw [← List.append_assoc]
      exact ih (hstep h hs ha) hrest hrun'

theorem run_project_throughout (f : σ → σ') (p : ε → Option ε') {P : σ' → Prop}
    (hstep : ∀ {s s' : σ} {a : α} {es : List ε}, m.step s a = some (s', es) →
      (f s' = f s ∧ es.filterMap p = []) ∨
        ∃ a', m'.step (f s) a' = some (f s', es.filterMap p))
    {s s' : σ} {as : List α} {es : List ε} (hP : m.Throughout (fun s => P (f s)) s as)
    (hrun : m.run s as = some (s', es)) :
    ∃ as', m'.run (f s) as' = some (f s', es.filterMap p) ∧ m'.Throughout P (f s) as' := by
  induction as generalizing s es with
  | nil =>
      obtain ⟨rfl, rfl⟩ := run_nil_eq_some.mp hrun
      exact ⟨[], rfl, hP⟩
  | cons a as ih =>
      obtain ⟨t, es₁, es₂, ha, hrun', rfl⟩ := run_cons_eq_some.mp hrun
      obtain ⟨hs, hrest⟩ := hP.of_cons ha
      obtain ⟨as', has', hP'⟩ := ih hrest hrun'
      rw [List.filterMap_append]
      rcases hstep ha with ⟨hsame, hnone⟩ | ⟨a', ha'⟩
      · rw [hsame] at has' hP'
        exact ⟨as', by rwa [hnone, List.nil_append], hP'⟩
      · refine ⟨a' :: as', run_cons_eq_some.mpr ⟨f t, _, _, ha', has', rfl⟩, hs, ?_⟩
        simpa only [ha'] using hP'

/-! ## Machines side by side -/

/-- A machine for each index; an action names the one that steps. -/
def family {ι : Type} [DecidableEq ι] (m : ι → Machine σ α ε) :
    Machine (ι → σ) (ι × α) (ι × ε) where
  step s a :=
    match (m a.1).step (s a.1) a.2 with
    | none => none
    | some (s', es) => some (Function.update s a.1 s', es.map fun e => (a.1, e))

def ofIndex {ι : Type} [DecidableEq ι] (i : ι) (e : ι × ε) : Option ε :=
  if e.1 = i then some e.2 else none

theorem filterMap_ofIndex_map {ι : Type} [DecidableEq ι] (i j : ι) (es : List ε) :
    (es.map fun e => (j, e)).filterMap (ofIndex i) = if j = i then es else [] := by
  rw [List.filterMap_map]
  by_cases h : j = i
  · subst h
    have hsome : (ofIndex j ∘ fun e : ε => (j, e)) = some := by
      funext e
      simp [ofIndex]
    rw [hsome, List.filterMap_some, if_pos rfl]
  · have hnone : (ofIndex i ∘ fun e : ε => (j, e)) = fun _ => none := by
      funext e
      simp [ofIndex, h]
    rw [hnone, if_neg h]
    simp

theorem mem_filterMap_ofIndex_iff {ι : Type} [DecidableEq ι] {i : ι} {e : ε} {es : List (ι × ε)} :
    e ∈ es.filterMap (ofIndex i) ↔ (i, e) ∈ es := by
  rw [List.mem_filterMap]
  constructor
  · rintro ⟨⟨j, e'⟩, hmem, hindex⟩
    simp only [ofIndex, Option.ite_none_right_eq_some, Option.some.injEq] at hindex
    obtain ⟨rfl, rfl⟩ := hindex
    exact hmem
  · exact fun h => ⟨(i, e), h, if_pos rfl⟩

theorem run_family {ι : Type} [DecidableEq ι] {m : ι → Machine σ α ε} {s s' : ι → σ}
    {as : List (ι × α)} {es : List (ι × ε)} (hrun : (family m).run s as = some (s', es)) (i : ι) :
    ∃ as', (m i).run (s i) as' = some (s' i, es.filterMap (ofIndex i)) := by
  refine run_project (fun s => s i) (ofIndex i) (fun {s s' a es} hstep => ?_) hrun
  obtain ⟨j, a⟩ := a
  simp only [family] at hstep
  cases hj : (m j).step (s j) a with
  | none => simp [hj] at hstep
  | some r =>
      rw [hj] at hstep
      obtain ⟨rfl, rfl⟩ := Prod.mk.inj (Option.some.inj hstep)
      rw [filterMap_ofIndex_map]
      by_cases hji : j = i
      · subst hji
        exact Or.inr ⟨a, by simp [hj]⟩
      · exact Or.inl ⟨Function.update_of_ne (Ne.symm hji) _ _, if_neg hji⟩

/-- Two machines that take turns. -/
def interleave (m : Machine σ α ε) (m' : Machine σ' α' ε') :
    Machine (σ × σ') (α ⊕ α') (ε ⊕ ε') where
  step s a :=
    match a with
    | .inl a =>
      match m.step s.1 a with
      | none => none
      | some (t, es) => some ((t, s.2), es.map .inl)
    | .inr a =>
      match m'.step s.2 a with
      | none => none
      | some (t, es) => some ((s.1, t), es.map .inr)

theorem interleave_inl_eq_some {s s' : σ × σ'} {a : α} {es : List (ε ⊕ ε')}
    (h : (interleave m m').step s (.inl a) = some (s', es)) :
    ∃ t es', m.step s.1 a = some (t, es') ∧ s' = (t, s.2) ∧ es = es'.map .inl := by
  simp only [interleave] at h
  cases ha : m.step s.1 a with
  | none => simp [ha] at h
  | some r =>
      rw [ha] at h
      obtain ⟨rfl, rfl⟩ := Prod.mk.inj (Option.some.inj h)
      exact ⟨r.1, r.2, rfl, rfl, rfl⟩

theorem interleave_inr_eq_some {s s' : σ × σ'} {a : α'} {es : List (ε ⊕ ε')}
    (h : (interleave m m').step s (.inr a) = some (s', es)) :
    ∃ t es', m'.step s.2 a = some (t, es') ∧ s' = (s.1, t) ∧ es = es'.map .inr := by
  simp only [interleave] at h
  cases ha : m'.step s.2 a with
  | none => simp [ha] at h
  | some r =>
      rw [ha] at h
      obtain ⟨rfl, rfl⟩ := Prod.mk.inj (Option.some.inj h)
      exact ⟨r.1, r.2, rfl, rfl, rfl⟩

theorem run_interleave_left {s s' : σ × σ'} {as : List (α ⊕ α')} {es : List (ε ⊕ ε')}
    (hrun : (interleave m m').run s as = some (s', es)) :
    ∃ as', m.run s.1 as' = some (s'.1, es.filterMap Sum.getLeft?) := by
  refine run_project Prod.fst Sum.getLeft? (fun {s s' a es} hstep => ?_) hrun
  cases a with
  | inl a =>
      obtain ⟨t, es', ha, rfl, rfl⟩ := interleave_inl_eq_some hstep
      exact Or.inr ⟨a, by simp [ha, List.filterMap_map, Function.comp_def]⟩
  | inr a =>
      obtain ⟨t, es', -, rfl, rfl⟩ := interleave_inr_eq_some hstep
      exact Or.inl ⟨rfl, by simp [List.filterMap_map, Function.comp_def]⟩

theorem run_interleave_right {s s' : σ × σ'} {as : List (α ⊕ α')} {es : List (ε ⊕ ε')}
    (hrun : (interleave m m').run s as = some (s', es)) :
    ∃ as', m'.run s.2 as' = some (s'.2, es.filterMap Sum.getRight?) := by
  refine run_project Prod.snd Sum.getRight? (fun {s s' a es} hstep => ?_) hrun
  cases a with
  | inl a =>
      obtain ⟨t, es', -, rfl, rfl⟩ := interleave_inl_eq_some hstep
      exact Or.inl ⟨rfl, by simp [List.filterMap_map, Function.comp_def]⟩
  | inr a =>
      obtain ⟨t, es', ha, rfl, rfl⟩ := interleave_inr_eq_some hstep
      exact Or.inr ⟨a, by simp [ha, List.filterMap_map, Function.comp_def]⟩

end Machine

/-! ## Traces of blocks -/

/-- A trace that consists of whole blocks, each of another owner, with their owners in order. -/
inductive Blocks {ι ε : Type} (Whole : ι → List ε → Prop) : List ι → List ε → Prop
  | nil : Blocks Whole [] []
  | snoc {owners : List ι} {trace block : List ε} {i : ι} (h : Blocks Whole owners trace)
      (hblock : Whole i block) (hi : i ∉ owners) : Blocks Whole (owners ++ [i]) (trace ++ block)

end Foundation
