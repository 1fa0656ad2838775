import Sp1Tee.Foundation.Bytes

/-!
# Texts from bytes

`fromUtf8` reads a byte string as a text. Bytes of single-byte characters behind a
string do not change whether it can be read, since no such byte is part of a longer
character.
-/

namespace Foundation

/-- The text with these UTF-8 bytes, if there is one. -/
def fromUtf8 (bs : Bytes) : Option String := String.fromUTF8? ⟨bs.toArray⟩

theorem isSome_fromUtf8_iff {bs : Bytes} :
    (fromUtf8 bs).isSome ↔ ∃ cs : List Char, bs = cs.flatMap String.utf8EncodeChar := by
  have hvalid : (fromUtf8 bs).isSome ↔ ByteArray.IsValidUTF8 ⟨bs.toArray⟩ := by
    rw [fromUtf8, String.fromUTF8?]
    split
    · next h => exact iff_of_true rfl h
    · next h => exact iff_of_false (by simp) h
  rw [hvalid]
  constructor
  · rintro ⟨cs, hcs⟩
    refine ⟨cs, ?_⟩
    have hdata := congrArg (fun b : ByteArray => b.data.toList) hcs
    simpa [List.utf8Encode] using hdata
  · rintro ⟨cs, rfl⟩
    refine ⟨cs, ?_⟩
    apply ByteArray.ext
    simp [List.utf8Encode]

theorem le_of_mem_utf8EncodeChar {c : Char} (h : (String.utf8EncodeChar c).length ≠ 1) {b : UInt8}
    (hb : b ∈ String.utf8EncodeChar c) : 128 ≤ b.toNat := by
  unfold String.utf8EncodeChar at h hb
  simp only at h hb
  split at hb
  · next hv => exact absurd (by rw [if_pos hv]; rfl) h
  · split at hb
    · simp only [List.mem_cons, List.not_mem_nil, or_false] at hb
      rcases hb with rfl | rfl <;> rw [UInt8.toNat_ofNat'] <;> omega
    · split at hb
      · simp only [List.mem_cons, List.not_mem_nil, or_false] at hb
        rcases hb with rfl | rfl | rfl <;> rw [UInt8.toNat_ofNat'] <;> omega
      · simp only [List.mem_cons, List.not_mem_nil, or_false] at hb
        rcases hb with rfl | rfl | rfl | rfl <;> rw [UInt8.toNat_ofNat'] <;> omega

theorem utf8EncodeChar_ofNat {b : UInt8} (h : b.toNat < 128) :
    String.utf8EncodeChar (Char.ofNat b.toNat) = [b] := by
  have hval : (Char.ofNat b.toNat).val.toNat = b.toNat := by
    rw [Char.ofNat, dif_pos (Or.inl (by omega))]
    rfl
  have hle : (Char.ofNat b.toNat).val.toNat ≤ 127 := by omega
  rw [String.utf8EncodeChar]
  simp only [hval, if_pos (show b.toNat ≤ 127 by omega), UInt8.ofNat_toNat]

/-- What stands in front of single-byte characters is a text if the whole is. -/
theorem isSome_fromUtf8_append_iff {as bs : Bytes} (h : ∀ b ∈ bs, b.toNat < 128) :
    (fromUtf8 (as ++ bs)).isSome ↔ (fromUtf8 as).isSome := by
  rw [isSome_fromUtf8_iff, isSome_fromUtf8_iff]
  constructor
  · rintro ⟨cs, hcs⟩
    induction cs generalizing as with
    | nil =>
        exact ⟨[], (List.append_eq_nil_iff.mp hcs).1⟩
    | cons c cs ih =>
        rw [List.flatMap_cons] at hcs
        rcases List.append_eq_append_iff.mp hcs with ⟨rest, hc, hbs⟩ | ⟨rest, rfl, hrest⟩
        · -- the character reaches beyond `as`
          cases as with
          | nil => exact ⟨[], rfl⟩
          | cons a as =>
              cases rest with
              | nil => exact ⟨[c], by rw [List.append_nil] at hc; simp [hc]⟩
              | cons b rest =>
                  have hlong : (String.utf8EncodeChar c).length ≠ 1 := by
                    rw [hc]
                    simp
                  have hb : b.toNat < 128 := h b (hbs ▸ List.mem_cons_self)
                  have hmem : b ∈ String.utf8EncodeChar c :=
                    hc ▸ List.mem_append_right _ List.mem_cons_self
                  exact absurd (le_of_mem_utf8EncodeChar hlong hmem) (Nat.not_le.mpr hb)
        · obtain ⟨cs', rfl⟩ := ih hrest.symm
          exact ⟨c :: cs', rfl⟩
  · rintro ⟨cs, rfl⟩
    refine ⟨cs ++ bs.map fun b => Char.ofNat b.toNat, ?_⟩
    have hbs : (bs.map fun b => Char.ofNat b.toNat).flatMap String.utf8EncodeChar = bs := by
      rw [List.flatMap_map]
      calc bs.flatMap (fun b => String.utf8EncodeChar (Char.ofNat b.toNat))
          = bs.flatMap fun b => [b] :=
            List.flatMap_congr fun b hb => utf8EncodeChar_ofNat (h b hb)
        _ = bs := by simp
    rw [List.flatMap_append, hbs]

end Foundation
