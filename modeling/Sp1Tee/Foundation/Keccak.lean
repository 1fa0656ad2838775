import Sp1Tee.Foundation.Bytes

/-!
# Keccak-256

The sponge over Keccak-f[1600] with rate 136 and the original padding, as the
EVM and the `sha3` crate compute it. The 25 lanes of 64 bits are the base-`2^64`
digits of one natural number, lane `x + 5 y` at position `x + 5 y`, so that a
concrete digest is a computation on numerals.
-/

namespace Foundation

namespace Keccak

/-- Lane `i` of the state. -/
def lane (s i : ℕ) : ℕ := (s >>> (64 * i)) % 2 ^ 64

/-- The number whose lanes below `k` are `f`. -/
def pack (k : ℕ) (f : ℕ → ℕ) : ℕ := (List.range k).foldr (fun i acc => acc <<< 64 + f i) 0

def rotate (a r : ℕ) : ℕ := (a <<< r) % 2 ^ 64 + a >>> (64 - r)

/-- The rotation of lane `x + 5 y`. -/
def rotations : List ℕ :=
  [0, 1, 62, 28, 27, 36, 44, 6, 55, 20, 3, 10, 43, 25, 39, 41, 45, 15, 21, 8, 18, 2, 61, 56, 14]

def roundConstants : List ℕ :=
  [0x0000000000000001, 0x0000000000008082, 0x800000000000808A, 0x8000000080008000,
    0x000000000000808B, 0x0000000080000001, 0x8000000080008081, 0x8000000000008009,
    0x000000000000008A, 0x0000000000000088, 0x0000000080008009, 0x000000008000000A,
    0x000000008000808B, 0x800000000000008B, 0x8000000000008089, 0x8000000000008003,
    0x8000000000008002, 0x8000000000000080, 0x000000000000800A, 0x800000008000000A,
    0x8000000080008081, 0x8000000000008080, 0x0000000080000001, 0x8000000080008008]

def theta (s : ℕ) : ℕ :=
  let c := pack 5 fun x =>
    lane s x ^^^ lane s (x + 5) ^^^ lane s (x + 10) ^^^ lane s (x + 15) ^^^ lane s (x + 20)
  let d := pack 5 fun x => lane c ((x + 4) % 5) ^^^ rotate (lane c ((x + 1) % 5)) 1
  s ^^^ pack 25 fun i => lane d (i % 5)

/-- The steps rho and pi: lane `(y, 2 x + 3 y)` is the rotated lane `(x, y)`. -/
def rhoPi (s : ℕ) : ℕ :=
  pack 25 fun i =>
    let source := (i % 5 + 3 * (i / 5)) % 5 + 5 * (i % 5)
    rotate (lane s source) (rotations.getD source 0)

def chi (s : ℕ) : ℕ :=
  pack 25 fun i =>
    let row := 5 * (i / 5)
    lane s i ^^^ ((2 ^ 64 - 1 - lane s ((i + 1) % 5 + row)) &&& lane s ((i + 2) % 5 + row))

/-- The permutation Keccak-f[1600]. -/
def permute (s : ℕ) : ℕ :=
  roundConstants.foldl (fun s constant => chi (rhoPi (theta s)) ^^^ constant) s

/-- The message extended to a multiple of the rate. -/
def pad (bs : Bytes) : Bytes :=
  let missing := 136 - bs.length % 136
  if missing = 1 then bs ++ [0x81] else bs ++ 0x01 :: List.replicate (missing - 2) 0 ++ [0x80]

def absorb (padded : Bytes) : ℕ :=
  (List.range (padded.length / 136)).foldl
    (fun s i => permute (s ^^^ ofLeBytes ((padded.drop (136 * i)).take 136))) 0

def keccak256 (bs : Bytes) : FixedBytes 32 := ⟨leBytes 32 (absorb (pad bs)), by simp⟩

/-- The digest of the empty string. -/
example : keccak256 [] =
    .ofNat 32 0xc5d2460186f7233c927e7db2dcc703c0e500b653ca82273b7bfad8045d85a470 := by
  decide +kernel

end Keccak

end Foundation
