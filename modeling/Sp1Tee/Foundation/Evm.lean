import Sp1Tee.Foundation.Keccak
import Sp1Tee.Foundation.Secp256k1
import Sp1Tee.Foundation.Solidity

/-!
# Hashing and signer recovery of the EVM

A contract sees two primitives, `keccak256` and `ecrecover`, collected in `Evm`.
Results about contracts hold for any such pair. The precompile at address 1 is
`Evm.ofRecover`: it recovers a public key and returns its address, or the zero
address. `ethereum` is the pair in use, Keccak-256 and secp256k1, and can be
evaluated at concrete inputs.
-/

namespace Foundation

/-- The primitives that a contract hashes and recovers signers with. -/
structure Evm where
  keccak256 : Bytes → Bytes32
  /-- The address whose key signed the digest, or the zero address. -/
  ecrecover : Bytes32 → UInt8 → Bytes32 → Bytes32 → Address

namespace PublicKey

/-- The address of a public key: the last 20 bytes of the hash of its
coordinates. -/
def address (keccak256 : Bytes → Bytes32) (key : PublicKey) : Address :=
  FixedBytes.ofBytes 20 ((keccak256 (key.x.toBytes ++ key.y.toBytes)).toBytes.drop 12)

end PublicKey

namespace Evm

/-- The precompile over a public key recovery: `v` must be 27 or 28, and what
does not recover is the zero address. -/
def ofRecover (keccak256 : Bytes → Bytes32)
    (recover : Bytes32 → ℕ → Bytes32 → Bytes32 → Option PublicKey) : Evm where
  keccak256 := keccak256
  ecrecover digest v r s :=
    if v = 27 ∨ v = 28 then
      match recover digest (v.toNat - 27) r s with
      | some key => key.address keccak256
      | none => 0
    else 0

end Evm

/-- The primitives of Ethereum. -/
def ethereum : Evm := Evm.ofRecover Keccak.keccak256 Secp256k1.recover

end Foundation
