import Mathlib.Algebra.Group.Nat.Defs
import Mathlib.Data.Nat.Notation
import Mathlib.Data.Finset.Card
import Mathlib.Data.Finset.Range
import Mathlib.Data.List.Basic
import Mathlib.Order.Basic

/-!
# Byte strings

`Bytes` is a finite byte string and `FixedBytes n` is one whose length is known,
so a 32-byte word or a 20-byte address of the wrong length cannot be built. The
little-endian digits of a natural number are `leBytes w x`, read back by
`ofLeBytes`; the big-endian forms are the reversed ones. No index arithmetic is
needed: both are structural recursions.
-/

namespace Foundation

abbrev Bytes := List UInt8

theorem take_drop_append_drop {α : Type*} (xs : List α) (i k : ℕ) :
    (xs.drop i).take k ++ xs.drop (i + k) = xs.drop i := by
  rw [← List.drop_drop, List.take_append_drop]

/-- A byte string of the fixed length `n`. -/
structure FixedBytes (n : ℕ) where
  toBytes : Bytes
  length_toBytes : toBytes.length = n
deriving DecidableEq

namespace FixedBytes

@[ext] theorem ext {n : ℕ} {a b : FixedBytes n} (h : a.toBytes = b.toBytes) : a = b := by
  cases a
  cases b
  simpa using h

theorem toBytes_injective {n : ℕ} :
    Function.Injective (toBytes : FixedBytes n → Bytes) :=
  fun _ _ h => ext h

attribute [simp] length_toBytes

def zero (n : ℕ) : FixedBytes n := ⟨List.replicate n 0, List.length_replicate⟩

instance (n : ℕ) : Zero (FixedBytes n) := ⟨zero n⟩

/-- The first `n` bytes of `bs`, padded with zeros on the right when `bs` is
shorter. -/
def ofBytes (n : ℕ) (bs : Bytes) : FixedBytes n :=
  ⟨(bs ++ List.replicate n 0).take n, by simp⟩

theorem toBytes_ofBytes {n : ℕ} (bs : Bytes) (h : bs.length = n) :
    (ofBytes n bs).toBytes = bs := by
  subst h
  simp [ofBytes]

@[simp] theorem ofBytes_toBytes {n : ℕ} (a : FixedBytes n) : ofBytes n a.toBytes = a :=
  ext (toBytes_ofBytes _ a.length_toBytes)

@[simp] theorem ofBytes_append {n : ℕ} (a : FixedBytes n) (bs : Bytes) :
    ofBytes n (a.toBytes ++ bs) = a :=
  ext (by simp [ofBytes])

@[simp] theorem take_append {n : ℕ} (a : FixedBytes n) (bs : Bytes) :
    (a.toBytes ++ bs).take n = a.toBytes := by
  rw [List.take_append_of_le_length (by simp), List.take_of_length_le (by simp)]

@[simp] theorem drop_append {n : ℕ} (a : FixedBytes n) (bs : Bytes) :
    (a.toBytes ++ bs).drop n = bs :=
  List.drop_left' a.length_toBytes

@[simp] theorem drop_toBytes_of_le {n k : ℕ} (a : FixedBytes n) (h : n ≤ k) :
    a.toBytes.drop k = [] :=
  List.drop_of_length_le (by simpa using h)

theorem append_inj {n : ℕ} {a b : FixedBytes n} {as bs : Bytes}
    (h : a.toBytes ++ as = b.toBytes ++ bs) : a = b ∧ as = bs := by
  obtain ⟨hhead, htail⟩ := List.append_inj h (by simp)
  exact ⟨ext hhead, htail⟩

end FixedBytes

/-! ## Little-endian and big-endian digits -/

/-- The `w` low base-256 digits of `x`, least significant first. -/
def leBytes : ℕ → ℕ → Bytes
  | 0, _ => []
  | w + 1, x => UInt8.ofNat x :: leBytes w (x / 256)

/-- The number whose base-256 digits are `bs`, least significant first. -/
def ofLeBytes : Bytes → ℕ
  | [] => 0
  | b :: bs => b.toNat + 256 * ofLeBytes bs

/-- The `w` low base-256 digits of `x`, most significant first. -/
def beBytes (w x : ℕ) : Bytes := (leBytes w x).reverse

/-- The number whose base-256 digits are `bs`, most significant first. -/
def ofBeBytes (bs : Bytes) : ℕ := ofLeBytes bs.reverse

@[simp] theorem length_leBytes (w x : ℕ) : (leBytes w x).length = w := by
  induction w generalizing x with
  | zero => rfl
  | succ w ih => simp [leBytes, ih]

@[simp] theorem length_beBytes (w x : ℕ) : (beBytes w x).length = w := by
  simp [beBytes]

/-- The big-endian string of length `n` of a number. -/
def FixedBytes.ofNat (n x : ℕ) : FixedBytes n := ⟨beBytes n x, length_beBytes n x⟩

theorem ofLeBytes_leBytes {w x : ℕ} (h : x < 256 ^ w) : ofLeBytes (leBytes w x) = x := by
  induction w generalizing x with
  | zero =>
      have hx : x = 0 := by simpa using h
      simp [leBytes, ofLeBytes, hx]
  | succ w ih =>
      have hdiv : x / 256 < 256 ^ w := by
        rw [Nat.div_lt_iff_lt_mul (by decide)]
        simpa [Nat.pow_succ] using h
      have hbyte : (UInt8.ofNat x).toNat = x % 256 := by simp
      rw [leBytes, ofLeBytes, ih hdiv, hbyte]
      exact Nat.mod_add_div x 256

theorem ofBeBytes_beBytes {w x : ℕ} (h : x < 256 ^ w) : ofBeBytes (beBytes w x) = x := by
  rw [ofBeBytes, beBytes, List.reverse_reverse, ofLeBytes_leBytes h]

theorem ofBeBytes_append_singleton (bs : Bytes) (b : UInt8) :
    ofBeBytes (bs ++ [b]) = b.toNat + 256 * ofBeBytes bs := by
  rw [ofBeBytes, List.reverse_append]
  rfl

theorem ofLeBytes_lt (bs : Bytes) : ofLeBytes bs < 256 ^ bs.length := by
  induction bs with
  | nil => simp [ofLeBytes]
  | cons b bs ih =>
      have hb : b.toNat < 256 := b.toNat_lt
      rw [ofLeBytes, List.length_cons, Nat.pow_succ]
      omega

theorem leBytes_ofLeBytes (bs : Bytes) : leBytes bs.length (ofLeBytes bs) = bs := by
  induction bs with
  | nil => rfl
  | cons b bs ih =>
      have hb : b.toNat < 256 := b.toNat_lt
      have hlow : UInt8.ofNat (b.toNat + 256 * ofLeBytes bs) = b := by
        apply UInt8.toNat_inj.mp
        simp
      have hhigh : (b.toNat + 256 * ofLeBytes bs) / 256 = ofLeBytes bs := by omega
      rw [ofLeBytes, List.length_cons, leBytes, hlow, hhigh, ih]

theorem beBytes_ofBeBytes (bs : Bytes) : beBytes bs.length (ofBeBytes bs) = bs := by
  have h := leBytes_ofLeBytes bs.reverse
  rw [List.length_reverse] at h
  rw [beBytes, ofBeBytes, h, List.reverse_reverse]

theorem ofBeBytes_lt (bs : Bytes) : ofBeBytes bs < 256 ^ bs.length := by
  have h := ofLeBytes_lt bs.reverse
  rwa [List.length_reverse] at h

namespace FixedBytes

theorem ofLeBytes_toBytes_lt {n : ℕ} (a : FixedBytes n) : ofLeBytes a.toBytes < 256 ^ n := by
  have h := ofLeBytes_lt a.toBytes
  rwa [a.length_toBytes] at h

theorem ofLeBytes_toBytes_injective {n : ℕ} :
    Function.Injective fun a : FixedBytes n => ofLeBytes a.toBytes := by
  intro a b (hab : ofLeBytes a.toBytes = ofLeBytes b.toBytes)
  apply ext
  calc a.toBytes = leBytes a.toBytes.length (ofLeBytes a.toBytes) := (leBytes_ofLeBytes _).symm
    _ = leBytes b.toBytes.length (ofLeBytes b.toBytes) := by
        rw [hab, length_toBytes, length_toBytes]
    _ = b.toBytes := leBytes_ofLeBytes _

/-- There are at most `256 ^ n` distinct strings of length `n`. -/
theorem length_le_of_nodup {n : ℕ} {xs : List (FixedBytes n)} (h : xs.Nodup) :
    xs.length ≤ 256 ^ n := by
  let digits : List ℕ := xs.map fun a => ofLeBytes a.toBytes
  have hsub : digits.toFinset ⊆ Finset.range (256 ^ n) := by
    intro x hx
    obtain ⟨a, -, rfl⟩ := List.mem_map.mp (List.mem_toFinset.mp hx)
    exact Finset.mem_range.mpr a.ofLeBytes_toBytes_lt
  have hcard := Finset.card_le_card hsub
  rwa [List.toFinset_card_of_nodup (h.map ofLeBytes_toBytes_injective), Finset.card_range,
    List.length_map] at hcard

end FixedBytes

end Foundation
