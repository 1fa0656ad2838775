import Sp1Tee.Foundation.Bytes

/-!
# Public key recovery on secp256k1

The curve `y ^ 2 = x ^ 3 + 7` over the prime field of size `p`, with points in
Jacobian coordinates, and the recovery of the public key from an ECDSA
signature. Everything is arithmetic on natural numbers, so that a concrete
signature can be checked by evaluation.
-/

namespace Foundation

/-- The affine coordinates of a public key. -/
structure PublicKey where
  x : FixedBytes 32
  y : FixedBytes 32
deriving DecidableEq

/-- The two halves of an ECDSA signature. -/
structure Signature where
  r : FixedBytes 32
  s : FixedBytes 32
deriving DecidableEq

namespace Secp256k1

/-- The size of the field. -/
def p : ℕ := 2 ^ 256 - 2 ^ 32 - 977

/-- The order of the group. -/
def n : ℕ := 0xFFFFFFFFFFFFFFFFFFFFFFFFFFFFFFFEBAAEDCE6AF48A03BBFD25E8CD0364141

/-- The binary digits of a 256-bit number, most significant first. -/
def bits (e : ℕ) : List Bool := ((List.range 256).map fun i => e.testBit i).reverse

def powMod (m b e : ℕ) : ℕ :=
  (bits e).foldl (fun acc bit => if bit then acc * acc % m * b % m else acc * acc % m) 1

def invMod (m a : ℕ) : ℕ := powMod m a (m - 2)

def sub (a b : ℕ) : ℕ := (a + (p - b)) % p

/-- A point `(x / z ^ 2, y / z ^ 3)`; the point at infinity has `z = 0`. -/
structure Point where
  x : ℕ
  y : ℕ
  z : ℕ

namespace Point

def infinity : Point := ⟨1, 1, 0⟩

def generator : Point where
  x := 0x79BE667EF9DCBBAC55A06295CE870B07029BFCDB2DCE28D959F2815B16F81798
  y := 0x483ADA7726A3C4655DA4FBFC0E1108A8FD17B448A68554199C47D08FFB10D4B8
  z := 1

def double (P : Point) : Point :=
  let a := P.x * P.x % p
  let b := P.y * P.y % p
  let c := b * b % p
  let d := 2 * sub (sub ((P.x + b) * (P.x + b) % p) a) c % p
  let e := 3 * a % p
  let x := sub (e * e % p) (2 * d % p)
  ⟨x, sub (e * sub d x % p) (8 * c % p), 2 * P.y * P.z % p⟩

def add (P Q : Point) : Point :=
  if P.z = 0 then Q
  else if Q.z = 0 then P
  else
    let u₁ := P.x * (Q.z * Q.z % p) % p
    let u₂ := Q.x * (P.z * P.z % p) % p
    let s₁ := P.y * Q.z % p * (Q.z * Q.z % p) % p
    let s₂ := Q.y * P.z % p * (P.z * P.z % p) % p
    if u₁ = u₂ then
      if s₁ = s₂ then P.double else infinity
    else
      let h := sub u₂ u₁
      let r := sub s₂ s₁
      let h₂ := h * h % p
      let h₃ := h * h₂ % p
      let v := u₁ * h₂ % p
      let x := sub (sub (r * r % p) h₃) (2 * v % p)
      ⟨x, sub (r * sub v x % p) (s₁ * h₃ % p), P.z * Q.z % p * h % p⟩

def smul (k : ℕ) (P : Point) : Point :=
  (bits k).foldl (fun acc bit => if bit then acc.double.add P else acc.double) infinity

def toPublicKey (P : Point) : Option PublicKey :=
  if P.z = 0 then none
  else
    let inv := invMod p P.z
    let inv₂ := inv * inv % p
    some ⟨.ofNat 32 (P.x * inv₂ % p), .ofNat 32 (P.y * inv₂ % p * inv % p)⟩

/-- The point with abscissa `x` whose ordinate has the given parity. -/
def lift (x : ℕ) (odd : Bool) : Option Point :=
  let square := (x * x % p * x + 7) % p
  let y := powMod p square ((p + 1) / 4)
  if x < p ∧ y * y % p = square then
    some ⟨x, if (y % 2 == 1) = odd then y else p - y, 1⟩
  else none

end Point

def publicKey (secret : ℕ) : Option PublicKey := (Point.generator.smul secret).toPublicKey

/-- The signature of `digest` with the given nonce, with the smaller of the two
values of `s`, and its recovery id. -/
def sign (nonce secret : ℕ) (digest : FixedBytes 32) : Option (Signature × ℕ) := do
  let R ← (Point.generator.smul nonce).toPublicKey
  let x := ofBeBytes R.x.toBytes
  let y := ofBeBytes R.y.toBytes
  let r := x % n
  let s := invMod n nonce * (ofBeBytes digest.toBytes + r * secret) % n
  let high := if n ≤ x then 2 else 0
  if 2 * s ≤ n then some (⟨.ofNat 32 r, .ofNat 32 s⟩, high + y % 2)
  else some (⟨.ofNat 32 r, .ofNat 32 (n - s)⟩, high + (y + 1) % 2)

/-- The public key under which `(r, s)` is a signature of `digest`. The two bits
of the recovery id are the parity of the signature point's ordinate and whether
its abscissa was reduced modulo `n`. -/
def recover (digest : FixedBytes 32) (recoveryId : ℕ) (r s : FixedBytes 32) : Option PublicKey :=
  let z := ofBeBytes digest.toBytes
  let r := ofBeBytes r.toBytes
  let s := ofBeBytes s.toBytes
  if r = 0 ∨ n ≤ r ∨ s = 0 ∨ n ≤ s then none
  else do
    let R ← Point.lift (if recoveryId / 2 = 1 then r + n else r) (recoveryId % 2 == 1)
    let inv := invMod n r
    let u₁ := (n - z % n) * inv % n
    let u₂ := s * inv % n
    ((Point.generator.smul u₁).add (R.smul u₂)).toPublicKey

end Secp256k1

end Foundation
