import Sp1Tee.Foundation.Bytes

/-!
# Solidity calls that may revert

A call either returns or reverts, so a Solidity function is a computation in
`Except (Revert ε)`, where `ε` lists the custom errors the contract declares.
The operations below are the ones that Solidity 0.8 checks: unsigned arithmetic,
array accesses and calldata slices. Each has one lemma that says when it
returns, and `commit` is the transaction rule: a reverted call leaves no trace.
-/

namespace Foundation

abbrev Bytes4 := FixedBytes 4

abbrev Bytes32 := FixedBytes 32

abbrev Address := FixedBytes 20

namespace Solidity

/-- What a reverting call hands back: the reason of a `revert("...")`, a `Panic`
code, nothing at all (an out-of-range calldata slice), one of the declared
errors, or the data a reverting callee returned. -/
inductive Revert (ε : Type*)
  | error (message : String)
  | panic (code : ℕ)
  | empty
  | custom (e : ε)
  | bubbled (data : Bytes)
deriving DecidableEq

universe u

variable {ε : Type*}

theorem bind_eq_ok {α β : Type u} {x : Except (Revert ε) α} {f : α → Except (Revert ε) β}
    {b : β} : (x >>= f) = .ok b ↔ ∃ a, x = .ok a ∧ f a = .ok b := by
  cases x <;> simp [bind, Except.bind]

@[simp] theorem ok_bind {α β : Type u} (a : α) (f : α → Except (Revert ε) β) :
    ((.ok a : Except (Revert ε) α) >>= f) = f a := rfl

@[simp] theorem error_bind {α β : Type u} (e : Revert ε) (f : α → Except (Revert ε) β) :
    ((.error e : Except (Revert ε) α) >>= f) = .error e := rfl

/-! ## Checked arithmetic -/

/-- `a - b` on `uint256`, with the underflow check. -/
def checkedSub (a b : ℕ) : Except (Revert ε) ℕ :=
  if b ≤ a then .ok (a - b) else .error (.panic 0x11)

@[simp] theorem checkedSub_add_right (a b : ℕ) :
    (checkedSub (a + b) b : Except (Revert ε) ℕ) = .ok a := by
  simp [checkedSub]

/-- `a + b` on `uint8`, with the overflow check. -/
def checkedAddUint8 (a b : UInt8) : Except (Revert ε) UInt8 :=
  if a.toNat + b.toNat < 256 then .ok (a + b) else .error (.panic 0x11)

theorem checkedAddUint8_of_lt {a b : UInt8} (h : a.toNat + b.toNat < 256) :
    (checkedAddUint8 a b : Except (Revert ε) UInt8) = .ok (a + b) :=
  if_pos h

theorem checkedAddUint8_of_le {a b : UInt8} (h : 256 ≤ a.toNat + b.toNat) :
    (checkedAddUint8 a b : Except (Revert ε) UInt8) = .error (.panic 0x11) :=
  if_neg (by omega)

/-! ## Arrays -/

/-- `xs[i]`. -/
def readAt {α : Type*} (xs : List α) (i : ℕ) : Except (Revert ε) α :=
  match xs[i]? with
  | some x => .ok x
  | none => .error (.panic 0x32)

@[simp] theorem readAt_append_length {α : Type*} (ys : List α) (l : α) :
    (readAt (ys ++ [l]) ys.length : Except (Revert ε) α) = .ok l := by
  simp [readAt]

/-- `xs[i] = x`. -/
def writeAt {α : Type*} (xs : List α) (i : ℕ) (x : α) : Except (Revert ε) (List α) :=
  if i < xs.length then .ok (xs.set i x) else .error (.panic 0x32)

theorem writeAt_of_lt {α : Type*} {xs : List α} {i : ℕ} (h : i < xs.length) (x : α) :
    (writeAt xs i x : Except (Revert ε) (List α)) = .ok (xs.set i x) :=
  if_pos h

/-- `xs.pop()`. -/
def pop {α : Type*} (xs : List α) : Except (Revert ε) (List α) :=
  match xs with
  | [] => .error (.panic 0x31)
  | x :: xs => .ok (x :: xs).dropLast

@[simp] theorem pop_append_singleton {α : Type*} (ys : List α) (l : α) :
    (pop (ys ++ [l]) : Except (Revert ε) (List α)) = .ok ys := by
  cases ys with
  | nil => rfl
  | cons y ys =>
      change Except.ok ((y :: ys) ++ [l]).dropLast = _
      rw [List.dropLast_concat]

/-! ## Calldata slices -/

/-- `bs[start:stop]`. -/
def slice (bs : Bytes) (start stop : ℕ) : Except (Revert ε) Bytes :=
  if start ≤ stop ∧ stop ≤ bs.length then .ok ((bs.drop start).take (stop - start))
  else .error .empty

theorem slice_of_le {bs : Bytes} {start stop : ℕ} (h : start ≤ stop) (h' : stop ≤ bs.length) :
    (slice bs start stop : Except (Revert ε) Bytes) =
      .ok ((bs.drop start).take (stop - start)) :=
  if_pos ⟨h, h'⟩

/-- `bs[start:]`. -/
def sliceFrom (bs : Bytes) (start : ℕ) : Except (Revert ε) Bytes :=
  slice bs start bs.length

theorem sliceFrom_of_le {bs : Bytes} {start : ℕ} (h : start ≤ bs.length) :
    (sliceFrom bs start : Except (Revert ε) Bytes) = .ok (bs.drop start) := by
  rw [sliceFrom, slice_of_le h (Nat.le_refl _), List.take_of_length_le (by simp)]

/-! ## Transactions -/

/-- The state after a call on `s`: a call that reverts is rolled back. -/
def commit {σ : Type*} (s : σ) (result : Except (Revert ε) σ) : σ :=
  match result with
  | .ok s' => s'
  | .error _ => s

@[simp] theorem commit_ok {σ : Type*} (s s' : σ) :
    commit s (.ok s' : Except (Revert ε) σ) = s' := rfl

@[simp] theorem commit_error {σ : Type*} (s : σ) (e : Revert ε) :
    commit s (.error e) = s := rfl

end Solidity

end Foundation
