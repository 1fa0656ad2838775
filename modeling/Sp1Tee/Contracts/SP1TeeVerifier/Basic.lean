import Sp1Tee.Contracts.SignersMap.Basic

/-!
# The verifier contract: storage, ownership and the signer calls

`SimpleOwnable` holds the owner and `SP1TeeVerifier` inherits from it, adding the
signer registry and the immutable gateway. An external function takes the
caller `msgSender`, and on success returns the storage together with the events
it emitted. `exec` runs one transaction on the chain, where a reverted call
leaves neither storage nor events behind.
-/

namespace Sp1Tee

open Foundation Foundation.Solidity

inductive VerifierError
  | WrongVerifierSelector (receivedSelector expectedSelector : Bytes4)
  | InvalidSignature (signer : Address)
  | InvalidRecoveryId (v : UInt8)
  | ProofBytesTooShort (receivedLength expectedLength : ℕ)
deriving DecidableEq

inductive Event
  | SignerAdded (signer : Address)
  | SignerRemoved (signer : Address)
  | OwnershipTransferred (previousOwner newOwner : Address)
  | OwnershipRenounced (previousOwner : Address)
deriving DecidableEq

structure SimpleOwnable where
  /-- The owner of the contract. -/
  owner : Address

namespace SimpleOwnable

variable {ε : Type*}

def new (owner : Address) : Except (Revert ε) (SimpleOwnable × List Event) :=
  if owner = 0 then
    .error (.error "Owner cannot be the zero address")
  else
    .ok (⟨owner⟩, [.OwnershipTransferred 0 owner])

/-- The modifier in front of every owner function: `body` runs only for the
owner. -/
def onlyOwner {α : Type*} (self : SimpleOwnable) (msgSender : Address)
    (body : Except (Revert ε) α) : Except (Revert ε) α :=
  if msgSender ≠ self.owner then
    .error (.error "Only the owner can call this function")
  else
    body

def transferOwnership (self : SimpleOwnable) (msgSender newOwner : Address) :
    Except (Revert ε) (SimpleOwnable × List Event) :=
  self.onlyOwner msgSender <|
    if newOwner = 0 then
      .error (.error "New owner cannot be the zero address")
    else
      let previousOwner := self.owner
      .ok ({ self with owner := newOwner }, [.OwnershipTransferred previousOwner newOwner])

def renounceOwnership (self : SimpleOwnable) (msgSender : Address) :
    Except (Revert ε) (SimpleOwnable × List Event) :=
  self.onlyOwner msgSender <|
    let previousOwner := self.owner
    .ok ({ self with owner := 0 }, [.OwnershipRenounced previousOwner])

end SimpleOwnable

/-- The storage of the verifier, and its immutable gateway. -/
structure SP1TeeVerifier extends SimpleOwnable where
  /-- The signers map. -/
  signersMap : SignersMap
  /-- The verifier gateway to delegate to. -/
  gateway : Address

namespace SP1TeeVerifier

def new (gateway owner : Address) :
    Except (Revert VerifierError) (SP1TeeVerifier × List Event) := do
  let (ownable, events) ← SimpleOwnable.new owner
  .ok ({ toSimpleOwnable := ownable, signersMap := SignersMap.empty, gateway := gateway }, events)

def addSigner (self : SP1TeeVerifier) (msgSender signer : Address) :
    Except (Revert VerifierError) (SP1TeeVerifier × List Event) :=
  self.onlyOwner msgSender <|
    if signer = 0 then
      .error (.error "Signer cannot be the zero address")
    else do
      let signersMap ← IterableMap.addSigner self.signersMap signer
      .ok ({ self with signersMap := signersMap }, [.SignerAdded signer])

def removeSigner (self : SP1TeeVerifier) (msgSender signer : Address) :
    Except (Revert VerifierError) (SP1TeeVerifier × List Event) :=
  self.onlyOwner msgSender <| do
    let signersMap ← IterableMap.removeSigner self.signersMap signer
    .ok ({ self with signersMap := signersMap }, [.SignerRemoved signer])

def getSigners (self : SP1TeeVerifier) : List Address := IterableMap.getSigners self.signersMap

def isSigner (self : SP1TeeVerifier) (signer : Address) : Bool :=
  IterableMap.isSigner self.signersMap signer

/-! ## Transactions -/

inductive Call
  | addSigner (signer : Address)
  | removeSigner (signer : Address)
  | transferOwnership (newOwner : Address)
  | renounceOwnership
deriving DecidableEq

/-- A call together with its `msg.sender`. -/
structure Tx where
  sender : Address
  call : Call
deriving DecidableEq

/-- The ownership functions are inherited, so they leave the other storage
alone. -/
def inherited (self : SP1TeeVerifier)
    (result : Except (Revert VerifierError) (SimpleOwnable × List Event)) :
    Except (Revert VerifierError) (SP1TeeVerifier × List Event) := do
  let (ownable, events) ← result
  .ok ({ self with toSimpleOwnable := ownable }, events)

def call (self : SP1TeeVerifier) (tx : Tx) :
    Except (Revert VerifierError) (SP1TeeVerifier × List Event) :=
  match tx.call with
  | .addSigner signer => self.addSigner tx.sender signer
  | .removeSigner signer => self.removeSigner tx.sender signer
  | .transferOwnership newOwner =>
      self.inherited (self.toSimpleOwnable.transferOwnership tx.sender newOwner)
  | .renounceOwnership => self.inherited (self.toSimpleOwnable.renounceOwnership tx.sender)

/-- The contract on the chain: its storage and all the events it has emitted. -/
structure Chain where
  contract : SP1TeeVerifier
  log : List Event

def exec (chain : Chain) (tx : Tx) : Chain :=
  commit chain <| do
    let (contract, events) ← chain.contract.call tx
    .ok { contract := contract, log := chain.log ++ events }

def deploy (gateway owner : Address) : Except (Revert VerifierError) Chain := do
  let (contract, events) ← SP1TeeVerifier.new gateway owner
  .ok { contract := contract, log := events }

theorem deploy_of_ne_zero (gateway : Address) {owner : Address} (h : owner ≠ 0) :
    deploy gateway owner = .ok
      { contract := { owner := owner, signersMap := SignersMap.empty, gateway := gateway }
        log := [.OwnershipTransferred 0 owner] } := by
  simp [deploy, SP1TeeVerifier.new, SimpleOwnable.new, h]

def run (chain : Chain) (txs : List Tx) : Chain := txs.foldl exec chain

/-- A chain some deployment and some transactions lead to. -/
def Reachable (chain : Chain) : Prop :=
  ∃ gateway owner start txs, deploy gateway owner = .ok start ∧ run start txs = chain

end SP1TeeVerifier

end Sp1Tee
