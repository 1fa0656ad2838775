import Mathlib.Data.List.Basic
import Mathlib.Data.Nat.Notation
import Mathlib.Logic.Function.Basic

/-!
# Stores with writes in flight

A store has at most one object under a key. A write that is confirmed is stored at once.
One that is not confirmed is left in flight: it is stored at some later time, behind
whatever was written in between, or never.

What holds of every write holds of every object, and a key that has an object keeps one.
-/

namespace Foundation

structure ObjectStore (κ ν : Type) where
  objects : κ → Option ν
  /-- The writes that nobody knows of whether they are stored. -/
  inFlight : List (κ × ν)

namespace ObjectStore

variable {κ ν : Type}

def empty : ObjectStore κ ν where
  objects _ := none
  inFlight := []

/-- A write that is not confirmed. -/
def leave (store : ObjectStore κ ν) (key : κ) (value : ν) : ObjectStore κ ν :=
  { store with inFlight := store.inFlight ++ [(key, value)] }

variable [DecidableEq κ]

/-- A write that is confirmed. -/
def write (store : ObjectStore κ ν) (key : κ) (value : ν) : ObjectStore κ ν :=
  { store with objects := Function.update store.objects key (some value) }

/-- The `n`-th write in flight is stored. -/
def land (store : ObjectStore κ ν) (n : ℕ) : Option (ObjectStore κ ν) :=
  match store.inFlight[n]? with
  | none => none
  | some (key, value) => some ({ store with inFlight := store.inFlight.eraseIdx n }.write key value)

structure All (P : κ → ν → Prop) (store : ObjectStore κ ν) : Prop where
  object : ∀ key value, store.objects key = some value → P key value
  inFlight : ∀ write ∈ store.inFlight, P write.1 write.2

variable {P : κ → ν → Prop} {store store' : ObjectStore κ ν} {key : κ} {value : ν} {n : ℕ}

theorem objects_write (store : ObjectStore κ ν) (key : κ) (value : ν) :
    (store.write key value).objects = Function.update store.objects key (some value) := rfl

omit [DecidableEq κ] in
theorem all_empty : (empty : ObjectStore κ ν).All P where
  object _ _ h := by cases h
  inFlight := List.forall_mem_nil _

theorem All.write (h : store.All P) (hvalue : P key value) : (store.write key value).All P where
  object key' value' hobject := by
    rw [objects_write] at hobject
    by_cases hkey : key' = key
    · subst hkey
      rw [Function.update_self] at hobject
      exact Option.some.inj hobject ▸ hvalue
    · rw [Function.update_of_ne hkey] at hobject
      exact h.object key' value' hobject
  inFlight := h.inFlight

omit [DecidableEq κ] in
theorem All.leave (h : store.All P) (hvalue : P key value) : (store.leave key value).All P where
  object := h.object
  inFlight := List.forall_mem_append.mpr ⟨h.inFlight, List.forall_mem_singleton.mpr hvalue⟩

theorem land_eq_some (h : store.land n = some store') :
    ∃ key value, (key, value) ∈ store.inFlight ∧
      store' = { store with inFlight := store.inFlight.eraseIdx n }.write key value := by
  rw [land] at h
  split at h
  · cases h
  · next key value hwrite =>
    cases h
    exact ⟨key, value, List.mem_of_getElem? hwrite, rfl⟩

theorem All.land (h : store.All P) (hland : store.land n = some store') : store'.All P := by
  obtain ⟨key, value, hmem, rfl⟩ := land_eq_some hland
  have hrest : { store with inFlight := store.inFlight.eraseIdx n }.All P :=
    ⟨h.object, fun write hwrite => h.inFlight write (List.eraseIdx_subset hwrite)⟩
  exact hrest.write (h.inFlight _ hmem)

/-! ## Keys that have an object -/

theorem isSome_write_self : ((store.write key value).objects key).isSome := by
  rw [objects_write, Function.update_self]
  rfl

theorem isSome_write {key' : κ} (h : (store.objects key').isSome) :
    ((store.write key value).objects key').isSome := by
  by_cases hkey : key' = key
  · subst hkey
    exact isSome_write_self
  · rwa [objects_write, Function.update_of_ne hkey]

theorem isSome_land (h : (store.objects key).isSome) (hland : store.land n = some store') :
    (store'.objects key).isSome := by
  obtain ⟨key', value', -, rfl⟩ := land_eq_some hland
  have hrest : (({ store with inFlight := store.inFlight.eraseIdx n } :
      ObjectStore κ ν).objects key).isSome := h
  exact isSome_write hrest

end ObjectStore

end Foundation
