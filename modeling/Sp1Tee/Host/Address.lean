import Sp1Tee.Common.Messages
import Sp1Tee.Foundation.Evm
import Sp1Tee.Foundation.Hex

/-!
# Addresses of enclave keys

The host derives an Ethereum address from the SEC1 bytes of a public key, which
must be uncompressed. On the uncompressed form of a key this is the key's
address on the chain. An address is printed with the capitals of its checksum, and
parsed with or without them.
-/

namespace Sp1Tee

open Foundation Foundation.Solidity

namespace Host

/-- The last 20 bytes of the hash of the coordinates. -/
def fromRawPublicKey (keccak256 : Bytes → Bytes32) (coordinates : Bytes) : Address :=
  FixedBytes.ofBytes 20 ((keccak256 coordinates).toBytes.drop 12)

def ethereumAddressFromSec1Bytes (keccak256 : Bytes → Bytes32) (public_key : Bytes) :
    Option Address :=
  if public_key.length ≠ 65 then none
  else if public_key.head? ≠ some 0x04 then none
  else some (fromRawPublicKey keccak256 (public_key.drop 1))

def ethereumAddressFromEncodedPoint (keccak256 : Bytes → Bytes32) (encoded_point : EncodedPoint) :
    Option Address :=
  if encoded_point.isIdentity || encoded_point.isCompact || encoded_point.isCompressed then none
  else ethereumAddressFromSec1Bytes keccak256 encoded_point.asBytes

theorem ethereumAddressFromSec1Bytes_ofPublicKey (keccak256 : Bytes → Bytes32) (key : PublicKey) :
    ethereumAddressFromSec1Bytes keccak256 (EncodedPoint.ofPublicKey key).asBytes =
      some (key.address keccak256) := by
  have hlength : (EncodedPoint.ofPublicKey key).asBytes.length = 65 := by
    simp [EncodedPoint.ofPublicKey, EncodedPoint.asBytes]
  have hhead : (EncodedPoint.ofPublicKey key).asBytes.head? = some 0x04 := rfl
  rw [ethereumAddressFromSec1Bytes, if_neg (not_not.mpr hlength), if_neg (not_not.mpr hhead)]
  rfl

theorem ethereumAddressFromEncodedPoint_ofPublicKey (keccak256 : Bytes → Bytes32)
    (key : PublicKey) :
    ethereumAddressFromEncodedPoint keccak256 (.ofPublicKey key) =
      some (key.address keccak256) :=
  ethereumAddressFromSec1Bytes_ofPublicKey keccak256 key

/-- The bytes that have an address are those of an uncompressed key. -/
theorem ethereumAddressFromSec1Bytes_eq_some_iff {keccak256 : Bytes → Bytes32}
    {public_key : Bytes} {address : Address} :
    ethereumAddressFromSec1Bytes keccak256 public_key = some address ↔
      public_key.length = 65 ∧ public_key.head? = some 0x04 ∧
        fromRawPublicKey keccak256 (public_key.drop 1) = address := by
  rw [ethereumAddressFromSec1Bytes]
  by_cases hlength : public_key.length = 65
  · by_cases hhead : public_key.head? = some 0x04
    · simp [hlength, hhead]
    · simp [hlength, hhead]
  · simp [hlength]

/-! ## Printed addresses -/

/-- The half bytes of a string, the high one of each byte first. -/
def nibbles (bs : Bytes) : List ℕ := bs.flatMap fun b => [b.toNat / 16, b.toNat % 16]

@[simp] theorem length_nibbles (bs : Bytes) : (nibbles bs).length = 2 * bs.length := by
  induction bs with
  | nil => rfl
  | cons b bs ih =>
      have hcons : nibbles (b :: bs) = b.toNat / 16 :: b.toNat % 16 :: nibbles bs := rfl
      rw [hcons, List.length_cons, List.length_cons, ih, List.length_cons]
      omega

/-- The printed form of an address. The hash of its digits says which letters are
capitals. -/
def toChecksum (keccak256 : Bytes → Bytes32) (address : Address) : String :=
  let chars := Hex.encodeChars address.toBytes
  let hash := keccak256 (chars.map fun c => UInt8.ofNat c.toNat)
  String.ofList ('0' :: 'x' ::
    chars.zipWith (fun c nibble => if 8 ≤ nibble then c.toUpper else c) (nibbles hash.toBytes))

def stripPrefix : List Char → List Char
  | '0' :: 'x' :: cs => cs
  | cs => cs

/-- Forty digits, with or without `0x` in front. -/
def parseAddress (key : String) : Option Address :=
  match Hex.decodeChars (stripPrefix key.toList) with
  | some bs => if h : bs.length = 20 then some ⟨bs, h⟩ else none
  | none => none

theorem map_toLower_zipWith {chars : List Char} {ns : List ℕ} (h : ∀ c ∈ chars, c ∈ Hex.digits)
    (hlength : chars.length ≤ ns.length) :
    (chars.zipWith (fun c n => if 8 ≤ n then c.toUpper else c) ns).map Char.toLower = chars := by
  induction chars generalizing ns with
  | nil => rfl
  | cons c chars ih =>
      cases ns with
      | nil => cases hlength
      | cons n ns =>
          have hc : c ∈ Hex.digits := h c List.mem_cons_self
          have hchars := ih (fun d hd => h d (List.mem_cons_of_mem c hd))
            (Nat.le_of_succ_le_succ hlength)
          have hlower : (if 8 ≤ n then c.toUpper else c).toLower = c := by
            split
            · exact Hex.toLower_toUpper_of_mem_digits hc
            · exact Hex.toLower_of_mem_digits hc
          rw [List.zipWith_cons_cons, List.map_cons, hchars, hlower]

theorem parseAddress_toChecksum (keccak256 : Bytes → Bytes32) (address : Address) :
    parseAddress (toChecksum keccak256 address) = some address := by
  have hdecode : Hex.decodeChars (stripPrefix (toChecksum keccak256 address).toList) =
      some address.toBytes := by
    rw [toChecksum, String.toList_ofList, stripPrefix, Hex.decodeChars_eq_some_iff]
    exact map_toLower_zipWith (fun c hc => Hex.mem_digits_of_mem_encodeChars hc) (by simp)
  rw [parseAddress, hdecode]
  exact dif_pos address.length_toBytes

/-- Different addresses are printed differently. -/
theorem toChecksum_injective (keccak256 : Bytes → Bytes32) :
    Function.Injective (toChecksum keccak256) := by
  intro a b h
  have hparse := parseAddress_toChecksum keccak256 a
  rw [h, parseAddress_toChecksum] at hparse
  exact (Option.some.inj hparse).symm

end Host

end Sp1Tee
