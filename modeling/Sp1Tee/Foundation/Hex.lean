import Sp1Tee.Foundation.Bytes

/-!
# Hexadecimal texts

`encode` writes two lower-case digits for each byte, and `decode` reads digits of
either case back. So a text decodes to some bytes exactly if its lower-case form is
what they encode to. `removeMark` drops every `0x` from a text, wherever it stands.
-/

namespace Foundation

namespace Hex

def digits : List Char :=
  ['0', '1', '2', '3', '4', '5', '6', '7', '8', '9', 'a', 'b', 'c', 'd', 'e', 'f']

def encodeDigit (n : ℕ) : Char := digits.getD n '0'

/-- The value of a digit of either case. -/
def decodeDigit (c : Char) : Option ℕ := digits.findIdx? fun d => d == c.toLower

def encodeByte (b : UInt8) : List Char :=
  [encodeDigit (b.toNat / 16), encodeDigit (b.toNat % 16)]

def encodeChars (bs : Bytes) : List Char := bs.flatMap encodeByte

def decodeChars : List Char → Option Bytes
  | [] => some []
  | [_] => none
  | a :: b :: cs => do
    let high ← decodeDigit a
    let low ← decodeDigit b
    let bs ← decodeChars cs
    some (UInt8.ofNat (16 * high + low) :: bs)

def encode (bs : Bytes) : String := String.ofList (encodeChars bs)

def decode (s : String) : Option Bytes := decodeChars s.toList

/-! ## Digits -/

theorem decodeDigit_encodeDigit {n : ℕ} (h : n < 16) : decodeDigit (encodeDigit n) = some n := by
  have hall : ∀ n ∈ List.range 16, decodeDigit (encodeDigit n) = some n := by decide
  exact hall n (List.mem_range.mpr h)

theorem toLower_of_mem_digits {c : Char} (h : c ∈ digits) : c.toLower = c := by
  have hmap : digits.map Char.toLower = digits.map id := by decide +kernel
  exact List.map_inj_left.mp hmap c h

theorem toLower_toUpper_of_mem_digits {c : Char} (h : c ∈ digits) : c.toUpper.toLower = c := by
  have hmap : digits.map (fun c => c.toUpper.toLower) = digits.map id := by decide +kernel
  exact List.map_inj_left.mp hmap c h

theorem encodeDigit_mem_digits {n : ℕ} (h : n < 16) : encodeDigit n ∈ digits := by
  have hall : ∀ n ∈ List.range 16, encodeDigit n ∈ digits := by decide
  exact hall n (List.mem_range.mpr h)

theorem decodeDigit_eq_some_iff {c : Char} {n : ℕ} :
    decodeDigit c = some n ↔ n < 16 ∧ c.toLower = encodeDigit n := by
  constructor
  · intro h
    obtain ⟨hlt, hdigit, -⟩ := List.findIdx?_eq_some_iff_getElem.mp h
    refine ⟨hlt, ?_⟩
    have hget : encodeDigit n = digits[n] := by
      rw [encodeDigit, List.getD_eq_getElem?_getD, List.getElem?_eq_getElem hlt, Option.getD_some]
    rw [hget]
    exact (beq_iff_eq.mp hdigit).symm
  · rintro ⟨hlt, hc⟩
    have hdigit := decodeDigit_encodeDigit hlt
    rw [decodeDigit, toLower_of_mem_digits (encodeDigit_mem_digits hlt), ← hc] at hdigit
    exact hdigit

/-! ## Bytes -/

@[simp] theorem encodeChars_nil : encodeChars [] = [] := rfl

theorem encodeChars_cons (b : UInt8) (bs : Bytes) :
    encodeChars (b :: bs) =
      encodeDigit (b.toNat / 16) :: encodeDigit (b.toNat % 16) :: encodeChars bs := rfl

theorem mem_digits_of_mem_encodeChars {bs : Bytes} {c : Char} (h : c ∈ encodeChars bs) :
    c ∈ digits := by
  obtain ⟨b, -, hc⟩ := List.mem_flatMap.mp h
  have hb : b.toNat < 256 := b.toNat_lt
  rcases List.mem_cons.mp hc with rfl | hc
  · exact encodeDigit_mem_digits (by omega)
  · rw [List.mem_singleton.mp hc]
    exact encodeDigit_mem_digits (by omega)

@[simp] theorem length_encodeChars (bs : Bytes) : (encodeChars bs).length = 2 * bs.length := by
  induction bs with
  | nil => rfl
  | cons b bs ih =>
      rw [encodeChars_cons, List.length_cons, List.length_cons, ih, List.length_cons]
      omega

/-- A text decodes to the bytes that its lower-case form encodes. -/
theorem decodeChars_eq_some_iff {cs : List Char} {bs : Bytes} :
    decodeChars cs = some bs ↔ cs.map Char.toLower = encodeChars bs := by
  induction cs using decodeChars.induct generalizing bs with
  | case1 =>
      cases bs with
      | nil => simp [decodeChars]
      | cons b bs => simp [decodeChars, encodeChars_cons]
  | case2 c =>
      cases bs with
      | nil => simp [decodeChars]
      | cons b bs => simp [decodeChars, encodeChars_cons]
  | case3 a b cs ih =>
      cases bs with
      | nil => simp [decodeChars, Option.bind_eq_some_iff]
      | cons byte bs =>
          have hbyte : byte.toNat < 256 := byte.toNat_lt
          simp only [decodeChars, Option.bind_eq_bind, Option.bind_eq_some_iff,
            Option.some.injEq, List.cons.injEq, decodeDigit_eq_some_iff, ih, encodeChars_cons,
            List.map_cons]
          constructor
          · rintro ⟨high, ⟨hhigh, ha⟩, low, ⟨hlow, hb⟩, bs', hbs, hvalue, rfl⟩
            have hnat : byte.toNat = 16 * high + low := by
              rw [← hvalue, UInt8.toNat_ofNat']
              omega
            refine ⟨?_, ?_, hbs⟩
            · rw [ha, show byte.toNat / 16 = high by omega]
            · rw [hb, show byte.toNat % 16 = low by omega]
          · rintro ⟨ha, hb, hbs⟩
            refine ⟨byte.toNat / 16, ⟨by omega, ha⟩, byte.toNat % 16, ⟨by omega, hb⟩, bs, hbs, ?_,
              rfl⟩
            rw [show 16 * (byte.toNat / 16) + byte.toNat % 16 = byte.toNat by omega]
            exact UInt8.ofNat_toNat

theorem map_toLower_encodeChars (bs : Bytes) :
    (encodeChars bs).map Char.toLower = encodeChars bs :=
  (List.map_congr_left fun _ hc =>
    toLower_of_mem_digits (mem_digits_of_mem_encodeChars hc)).trans (List.map_id _)

@[simp] theorem toList_encode (bs : Bytes) : (encode bs).toList = encodeChars bs :=
  String.toList_ofList

theorem decode_eq_some_iff {s : String} {bs : Bytes} :
    decode s = some bs ↔ s.toList.map Char.toLower = encodeChars bs :=
  decodeChars_eq_some_iff

@[simp] theorem decode_encode (bs : Bytes) : decode (encode bs) = some bs :=
  decode_eq_some_iff.mpr (by rw [toList_encode, map_toLower_encodeChars])

theorem encode_injective : Function.Injective encode := by
  intro as bs h
  have hdecode := decode_encode as
  rw [h, decode_encode] at hdecode
  exact (Option.some.inj hdecode).symm

/-! ## Marks -/

/-- The text without any `0x`, read from the left. -/
def removeMark : List Char → List Char
  | a :: b :: cs =>
    if a = '0' ∧ b = 'x' then removeMark cs else a :: removeMark (b :: cs)
  | cs => cs

/-- Whether `0x` stands somewhere in the text. -/
def HasMark (cs : List Char) : Prop := ['0', 'x'] <:+: cs

@[simp] theorem removeMark_mark (cs : List Char) : removeMark ('0' :: 'x' :: cs) = removeMark cs :=
  if_pos ⟨rfl, rfl⟩

theorem removeMark_of_not_hasMark {cs : List Char} (h : ¬ HasMark cs) : removeMark cs = cs := by
  induction cs using removeMark.induct with
  | case1 a b cs hab ih =>
      obtain ⟨rfl, rfl⟩ := hab
      exact absurd ⟨[], cs, rfl⟩ h
  | case2 a b cs hab ih =>
      rw [removeMark, if_neg hab, ih fun hmark => h (hmark.trans (List.suffix_cons a _).isInfix)]
  | case3 cs hcs =>
      unfold removeMark
      split
      · next a b cs => exact absurd rfl (hcs a b cs)
      · rfl

theorem mem_of_hasMark {cs : List Char} (h : HasMark cs) : 'x' ∈ cs :=
  h.subset (by decide)

theorem not_hasMark_encodeChars (bs : Bytes) : ¬ HasMark (encodeChars bs) := by
  intro h
  have hx := mem_digits_of_mem_encodeChars (mem_of_hasMark h)
  revert hx
  decide

end Hex

end Foundation
