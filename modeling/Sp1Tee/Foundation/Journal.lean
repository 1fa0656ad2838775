import Mathlib.Algebra.Ring.Parity
import Mathlib.Data.List.Nodup
import Sp1Tee.Foundation.SwapPop

/-!
# The journal of a list without duplicates

A journal tells of the entries that were appended to a list, and of those that were
removed by swap-and-pop. `Journal.Valid` says that every change has changed something.
Then the journal tells exactly what is in the list, order included, and for each entry
its changes alternate, so that counting them decides whether it is in the list.
-/

namespace Foundation

inductive Change (α : Type)
  | added (a : α)
  | removed (a : α)
deriving DecidableEq

namespace Change

variable {α : Type}

def entry : Change α → α
  | added a => a
  | removed a => a

variable [DecidableEq α]

def apply (xs : List α) : Change α → List α
  | added a => xs ++ [a]
  | removed a => swapPop xs (xs.idxOf a)

/-- An entry is added if it is not there, and removed if it is. -/
def Effective (xs : List α) : Change α → Prop
  | added a => a ∉ xs
  | removed a => a ∈ xs

end Change

namespace Journal

variable {α : Type} [DecidableEq α]

/-- The list that a journal tells of. -/
def replay (changes : List (Change α)) : List α := changes.foldl Change.apply []

/-- Every change has changed something. -/
inductive Valid : List (Change α) → Prop
  | nil : Valid []
  | snoc {changes : List (Change α)} {change : Change α} (h : Valid changes)
      (heffective : change.Effective (replay changes)) : Valid (changes ++ [change])

def changesOf (a : α) (changes : List (Change α)) : List (Change α) :=
  changes.filter fun change => change.entry = a

def alternating (a : α) : ℕ → List (Change α)
  | 0 => []
  | n + 1 => alternating a n ++ [if Even n then .added a else .removed a]

variable {changes changes' : List (Change α)} {change : Change α} {a : α}

theorem replay_snoc (changes : List (Change α)) (change : Change α) :
    replay (changes ++ [change]) = change.apply (replay changes) := by
  rw [replay, List.foldl_append]
  rfl

theorem changesOf_append (a : α) (changes changes' : List (Change α)) :
    changesOf a (changes ++ changes') = changesOf a changes ++ changesOf a changes' :=
  List.filter_append ..

theorem nodup_apply {xs : List α} (h : xs.Nodup) (heffective : change.Effective xs) :
    (change.apply xs).Nodup := by
  cases change with
  | added a =>
      rw [Change.apply, ← List.concat_eq_append]
      exact h.concat heffective
  | removed a => exact nodup_swapPop h (List.idxOf_lt_length_iff.mpr heffective)

theorem mem_apply_iff {xs : List α} (h : xs.Nodup) (heffective : change.Effective xs) :
    a ∈ change.apply xs ↔ if change.entry = a then a ∉ xs else a ∈ xs := by
  cases change with
  | added b =>
      by_cases hba : b = a
      · subst hba
        have hnew : b ∉ xs := heffective
        simp [Change.apply, Change.entry, hnew]
      · simp [Change.apply, Change.entry, hba, Ne.symm hba]
  | removed b =>
      have hlt : xs.idxOf b < xs.length := List.idxOf_lt_length_iff.mpr heffective
      rw [Change.apply, mem_swapPop h hlt, List.getElem_idxOf, Change.entry]
      by_cases hba : b = a
      · subst hba
        have hold : b ∈ xs := heffective
        simp [hold]
      · simp [hba, Ne.symm hba]

theorem Valid.nodup (h : Valid changes) : (replay changes).Nodup := by
  induction h with
  | nil => exact List.nodup_nil
  | snoc h heffective ih =>
      rw [replay_snoc]
      exact nodup_apply ih heffective

/-- The changes of an entry alternate, and it is in the list after an odd number of them. -/
theorem Valid.alternates (h : Valid changes) (a : α) :
    changesOf a changes = alternating a (changesOf a changes).length ∧
      (a ∈ replay changes ↔ Odd (changesOf a changes).length) := by
  induction h with
  | nil => simp [changesOf, alternating, replay]
  | @snoc changes change h heffective ih =>
      obtain ⟨halternating, hmem⟩ := ih
      rw [replay_snoc, mem_apply_iff h.nodup heffective, changesOf_append]
      by_cases ha : change.entry = a
      · have hsingle : changesOf a [change] = [change] := by simp [changesOf, ha]
        rw [hsingle, if_pos ha, List.length_append, List.length_singleton, hmem, alternating,
          ← halternating, Nat.odd_add_one]
        refine ⟨?_, Iff.rfl⟩
        -- the next change is the one that has an effect
        cases change with
        | added b =>
            obtain rfl : b = a := ha
            rw [Change.Effective, hmem, Nat.not_odd_iff_even] at heffective
            rw [if_pos heffective]
        | removed b =>
            obtain rfl : b = a := ha
            rw [Change.Effective, hmem, ← Nat.not_even_iff_odd] at heffective
            rw [if_neg heffective]
      · have hnone : changesOf a [change] = [] := by simp [changesOf, ha]
        rw [hnone, if_neg ha, List.append_nil]
        exact ⟨halternating, hmem⟩

/-- What happens between two states of a list turns the membership of an entry around as
often as it is about this entry. -/
theorem mem_replay_append_iff (h : Valid changes) (h' : Valid (changes ++ changes')) :
    (a ∈ replay (changes ++ changes') ↔ a ∈ replay changes) ↔
      Even (changesOf a changes').length := by
  rw [(h'.alternates a).2, (h.alternates a).2, changesOf_append, List.length_append,
    Nat.odd_add]
  by_cases hodd : Odd (changesOf a changes).length
  · simp [hodd]
  · simp [hodd]

theorem valid_snoc_iff :
    Valid (changes ++ [change]) ↔ Valid changes ∧ change.Effective (replay changes) := by
  constructor
  · intro h
    generalize hall : changes ++ [change] = all at h
    cases h with
    | nil => simp at hall
    | snoc h heffective =>
        obtain ⟨rfl, hlast⟩ := List.append_inj' hall rfl
        cases hlast
        exact ⟨h, heffective⟩
  · rintro ⟨h, heffective⟩
    exact h.snoc heffective

theorem mem_replay_of_not_removed (h : Valid (changes ++ changes')) (ha : a ∈ replay changes)
    (hnot : .removed a ∉ changes') : a ∈ replay (changes ++ changes') := by
  induction changes' using List.reverseRecOn with
  | nil => rwa [List.append_nil]
  | append_singleton changes' change ih =>
      rw [← List.append_assoc] at h ⊢
      obtain ⟨hvalid, heffective⟩ := valid_snoc_iff.mp h
      have hold := ih hvalid fun hmem => hnot (List.mem_append_left _ hmem)
      rw [replay_snoc, mem_apply_iff hvalid.nodup heffective]
      split
      · next hentry =>
        cases change with
        | added b =>
            obtain rfl : b = a := hentry
            exact heffective
        | removed b =>
            obtain rfl : b = a := hentry
            exact absurd (List.mem_append_right changes' (List.mem_singleton_self _)) hnot
      · exact hold

end Journal

end Foundation
