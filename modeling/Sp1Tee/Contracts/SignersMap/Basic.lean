import Mathlib.Logic.Function.Basic
import Sp1Tee.Foundation.Solidity

/-!
# The signer registry

A `SignersMap` stores the registered signers three times: as a membership map,
as the list that `getSigners` returns, and as the position of every signer in
that list. The library `IterableMap` keeps the three in step; a removal moves
the last signer into the place of the removed one, so that it takes constant
time. The functions are translated statement by statement, with the checks that
Solidity makes on lengths and indices.
-/

namespace Sp1Tee

open Foundation Foundation.Solidity

/-- An iterable map of signers. -/
structure SignersMap where
  /-- Whether the address is a signer. -/
  map : Address → Bool
  /-- The list of signers. -/
  signers : List Address
  /-- The index of the signer in the `signers` array. -/
  signerIndex : Address → ℕ

namespace SignersMap

/-- Fresh storage: every mapping and the array read as zero. -/
def empty : SignersMap := ⟨fun _ => false, [], fun _ => 0⟩

end SignersMap

namespace IterableMap

variable {ε : Type*}

def addSigner (self : SignersMap) (signer : Address) : Except (Revert ε) SignersMap :=
  if self.map signer then
    .error (.error "Signer already exists")
  else do
    let self := { self with map := Function.update self.map signer true }
    let self := { self with signers := self.signers ++ [signer] }
    let index ← checkedSub self.signers.length 1
    .ok { self with signerIndex := Function.update self.signerIndex signer index }

def removeSigner (self : SignersMap) (signer : Address) : Except (Revert ε) SignersMap :=
  if !self.map signer then
    .error (.error "Signer does not exist")
  else do
    let self := { self with map := Function.update self.map signer false }
    let indexToRemove := self.signerIndex signer
    let self := { self with signerIndex := Function.update self.signerIndex signer 0 }
    let length := self.signers.length
    let last ← checkedSub length 1
    if indexToRemove = last then do
      -- the removed signer is the last one, so the list is just popped
      let signers ← pop self.signers
      .ok { self with signers := signers }
    else do
      let last ← checkedSub length 1
      let lastSigner ← readAt self.signers last
      let signers ← writeAt self.signers indexToRemove lastSigner
      let signerIndex := Function.update self.signerIndex lastSigner indexToRemove
      let signers ← pop signers
      .ok { self with signers := signers, signerIndex := signerIndex }

def isSigner (self : SignersMap) (signer : Address) : Bool := self.map signer

def getSigners (self : SignersMap) : List Address := self.signers

def getSignersLength (self : SignersMap) : ℕ := self.signers.length

/-! ## What the two functions compute

One equation for each way through the functions. They are all that later proofs
know about the bodies. -/

theorem addSigner_of_map {self : SignersMap} {signer : Address}
    (h : self.map signer = true) :
    (addSigner self signer : Except (Revert ε) SignersMap) =
      .error (.error "Signer already exists") := by
  simp [addSigner, h]

theorem addSigner_of_not_map {self : SignersMap} {signer : Address}
    (h : self.map signer = false) :
    (addSigner self signer : Except (Revert ε) SignersMap) =
      .ok { map := Function.update self.map signer true
            signers := self.signers ++ [signer]
            signerIndex := Function.update self.signerIndex signer self.signers.length } := by
  simp [addSigner, h]

theorem removeSigner_of_not_map {self : SignersMap} {signer : Address}
    (h : self.map signer = false) :
    (removeSigner self signer : Except (Revert ε) SignersMap) =
      .error (.error "Signer does not exist") := by
  simp [removeSigner, h]

/-- Removing the last signer pops the list. -/
theorem removeSigner_last {self : SignersMap} {signer : Address} {ys : List Address}
    (h : self.map signer = true) (hsigners : self.signers = ys ++ [signer])
    (hindex : self.signerIndex signer = ys.length) :
    (removeSigner self signer : Except (Revert ε) SignersMap) =
      .ok { map := Function.update self.map signer false
            signers := ys
            signerIndex := Function.update self.signerIndex signer 0 } := by
  simp [removeSigner, h, hsigners, hindex]

/-- Removing any other signer moves the last one into its place. -/
theorem removeSigner_inner {self : SignersMap} {signer l : Address} {ys : List Address}
    (h : self.map signer = true) (hsigners : self.signers = ys ++ [l])
    (hindex : self.signerIndex signer < ys.length) :
    (removeSigner self signer : Except (Revert ε) SignersMap) =
      .ok { map := Function.update self.map signer false
            signers := ys.set (self.signerIndex signer) l
            signerIndex := Function.update (Function.update self.signerIndex signer 0) l
              (self.signerIndex signer) } := by
  have hne : self.signerIndex signer ≠ ys.length := Nat.ne_of_lt hindex
  have hwrite : self.signerIndex signer < (ys ++ [l]).length := by
    rw [List.length_append, List.length_singleton]
    omega
  simp [removeSigner, h, hsigners, hne, writeAt_of_lt hwrite, List.set_append_left _ _ hindex]

end IterableMap

end Sp1Tee
