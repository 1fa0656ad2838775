import Mathlib.Data.List.Induction
import Mathlib.Data.List.Nodup
import Mathlib.Data.List.Perm.Basic
import Mathlib.Logic.Function.Basic

/-!
# Swap and pop

Removing position `i` of a list in constant time: the last entry is moved to
position `i` and the last position is dropped. Read on a list `ys ++ [l]` this
is `ys.set i l`, and a `set` beyond the end changes nothing, so the case in
which the removed entry is itself the last one needs no branch of its own.

`Positions f xs` says that `f` names the position of every entry of `xs`. It is
the index that makes the removal constant-time, and it survives an append and a
swap-and-pop once it is updated at one entry.
-/

namespace Foundation

/-- The list without the entry at position `i`, whose place is taken by the
last entry. -/
def swapPop {α : Type*} (xs : List α) (i : ℕ) : List α :=
  match xs.getLast? with
  | none => []
  | some l => xs.dropLast.set i l

@[simp] theorem swapPop_append_singleton {α : Type*} (ys : List α) (l : α) (i : ℕ) :
    swapPop (ys ++ [l]) i = ys.set i l := by
  simp [swapPop]

theorem swapPop_last {α : Type*} {xs : List α} {i : ℕ} (h : i + 1 = xs.length) :
    swapPop xs i = xs.dropLast := by
  rcases xs.eq_nil_or_concat' with rfl | ⟨ys, l, rfl⟩
  · simp at h
  · rw [swapPop_append_singleton, List.dropLast_concat]
    rw [List.length_append, List.length_singleton] at h
    exact List.set_eq_of_length_le (by omega)

theorem swapPop_eq_set {α : Type*} {xs : List α} {l : α} (h : xs.getLast? = some l) (i : ℕ) :
    swapPop xs i = xs.dropLast.set i l := by
  rw [swapPop, h]

theorem getElem?_swapPop_of_ne {α : Type*} {xs : List α} {i j : ℕ} (hne : j ≠ i)
    (hj : j + 1 < xs.length) : (swapPop xs i)[j]? = xs[j]? := by
  rcases xs.eq_nil_or_concat' with rfl | ⟨ys, l, rfl⟩
  · simp at hj
  · rw [List.length_append, List.length_singleton] at hj
    rw [swapPop_append_singleton, List.getElem?_set_ne (Ne.symm hne),
      List.getElem?_append_left (by omega)]

theorem swapPop_perm_eraseIdx {α : Type*} {xs : List α} {i : ℕ} (h : i < xs.length) :
    (swapPop xs i).Perm (xs.eraseIdx i) := by
  rcases xs.eq_nil_or_concat' with rfl | ⟨ys, l, rfl⟩
  · simp at h
  · rw [swapPop_append_singleton]
    rcases Nat.lt_or_ge i ys.length with hi | hi
    · have hset : (ys.set i l).Perm (l :: ys.eraseIdx i) := List.set_perm_cons_eraseIdx hi l
      rw [List.eraseIdx_append_of_lt_length hi]
      exact hset.trans (List.perm_append_singleton l _).symm
    · have hlast : i = ys.length := by
        simp only [List.length_append, List.length_singleton] at h
        omega
      rw [List.set_eq_of_length_le hi, List.eraseIdx_append_of_length_le hi, hlast]
      simp

theorem nodup_swapPop {α : Type*} {xs : List α} {i : ℕ} (hxs : xs.Nodup)
    (h : i < xs.length) : (swapPop xs i).Nodup :=
  (swapPop_perm_eraseIdx h).nodup_iff.mpr (hxs.eraseIdx i)

/-- Swap-and-pop removes exactly the entry at position `i`. -/
theorem mem_swapPop {α : Type*} {xs : List α} {i : ℕ} (hxs : xs.Nodup)
    (h : i < xs.length) {a : α} : a ∈ swapPop xs i ↔ a ∈ xs ∧ a ≠ xs[i] := by
  classical
  rw [(swapPop_perm_eraseIdx h).mem_iff, ← hxs.erase_getElem i h, hxs.mem_erase_iff]
  exact and_comm

/-! ## The index of positions -/

/-- `f` names the position of every entry of `xs`. -/
def Positions {α : Type*} (f : α → ℕ) (xs : List α) : Prop :=
  ∀ i (h : i < xs.length), f xs[i] = i

theorem positions_nil {α : Type*} (f : α → ℕ) : Positions f [] :=
  fun _ h => absurd h (Nat.not_lt_zero _)

theorem Positions.congr {α : Type*} {f g : α → ℕ} {xs : List α} (h : Positions f xs)
    (hfg : ∀ a ∈ xs, g a = f a) : Positions g xs :=
  fun i hi => (hfg _ (List.getElem_mem hi)).trans (h i hi)

theorem positions_append_singleton {α : Type*} {f : α → ℕ} {ys : List α} {l : α} :
    Positions f (ys ++ [l]) ↔ Positions f ys ∧ f l = ys.length := by
  constructor
  · intro h
    refine ⟨fun i hi => ?_, ?_⟩
    · have hi' : i < (ys ++ [l]).length := by simp; omega
      simpa [List.getElem_append_left hi] using h i hi'
    · simpa using h ys.length (by simp)
  · rintro ⟨hys, hl⟩ i hi
    rcases Nat.lt_or_ge i ys.length with hlt | hge
    · simpa [List.getElem_append_left hlt] using hys i hlt
    · have hlast : i = ys.length := by
        simp only [List.length_append, List.length_singleton] at hi
        omega
      subst hlast
      simpa using hl

/-- Moving `l` to position `i` only asks for the index of `l` to be updated. -/
theorem Positions.set {α : Type*} [DecidableEq α] {f : α → ℕ} {ys : List α} {l : α} {i : ℕ}
    (h : Positions f ys) (hl : l ∉ ys) : Positions (Function.update f l i) (ys.set i l) := by
  intro j hj
  rw [List.length_set] at hj
  rw [List.getElem_set]
  split
  · next hij => simp [hij]
  · have hne : ys[j] ≠ l := fun heq => hl (heq ▸ List.getElem_mem hj)
    rw [Function.update_of_ne hne]
    exact h j hj

end Foundation
