import Sp1Tee.Foundation.Bincode

/-!
# Formats that read only what they write

`Format.decode_encode` says that what is written is read back. A format is `Canonical`
if also the converse holds: what is read is a valid value, and it stood there as it would
be written. Formats that are put together from canonical formats are canonical.
-/

namespace Foundation

namespace Format

/-- Whatever is read is the encoding of a valid value. -/
def Canonical {α : Type} (F : Format α) : Prop :=
  ∀ ⦃bs : Bytes⦄ ⦃a : α⦄ ⦃rest : Bytes⦄, F.decode bs = some (a, rest) →
    F.Valid a ∧ bs = F.encode a ++ rest

variable {α β : Type} {F : Format α} {G : Format β}

theorem Canonical.decode_iff (hF : F.Canonical) {bs rest : Bytes} {a : α} :
    F.decode bs = some (a, rest) ↔ F.Valid a ∧ bs = F.encode a ++ rest := by
  constructor
  · exact fun h => hF h
  · rintro ⟨ha, rfl⟩
    exact F.decode_encode ha rest

theorem canonical_le (w : ℕ) : (le w).Canonical := by
  intro bs x rest h
  simp only [le, Option.ite_none_right_eq_some, Option.some.injEq, Prod.mk.injEq] at h
  obtain ⟨hlength, rfl, rfl⟩ := h
  have htake : (bs.take w).length = w := List.length_take_of_le hlength
  refine ⟨?_, ?_⟩
  · have hlt := ofLeBytes_lt (bs.take w)
    rwa [htake] at hlt
  · have hdigits := leBytes_ofLeBytes (bs.take w)
    rw [htake] at hdigits
    calc bs = bs.take w ++ bs.drop w := (List.take_append_drop w bs).symm
      _ = leBytes w (ofLeBytes (bs.take w)) ++ bs.drop w := by rw [hdigits]

theorem canonical_fixed (n : ℕ) : (fixed n).Canonical := by
  intro bs a rest h
  simp only [fixed, Option.ite_none_right_eq_some, Option.some.injEq, Prod.mk.injEq] at h
  obtain ⟨hlength, rfl, rfl⟩ := h
  have htake := FixedBytes.toBytes_ofBytes (bs.take n) (List.length_take_of_le hlength)
  refine ⟨trivial, ?_⟩
  calc bs = bs.take n ++ bs.drop n := (List.take_append_drop n bs).symm
    _ = (FixedBytes.ofBytes n (bs.take n)).toBytes ++ bs.drop n := by rw [htake]

theorem Canonical.pair (hF : F.Canonical) (hG : G.Canonical) : (F.pair G).Canonical := by
  intro bs p rest h
  simp only [Format.pair, Option.bind_eq_bind, Option.bind_eq_some_iff, Option.some.injEq,
    Prod.mk.injEq] at h
  obtain ⟨⟨a, middle⟩, ha, ⟨b, rest'⟩, hb, rfl, rfl⟩ := h
  obtain ⟨hvalid, rfl⟩ := hF ha
  obtain ⟨hvalid', rfl⟩ := hG hb
  exact ⟨⟨hvalid, hvalid'⟩, by rw [encode_pair, List.append_assoc]⟩

/-- If what is recognized in a value represents it again. -/
theorem Canonical.recognize (hF : F.Canonical) {f : α → Option β} {g : β → α}
    (hfg : ∀ {a b}, F.Valid a → f a = some b → g b = a) : (F.recognize f g).Canonical := by
  intro bs b rest h
  simp only [Format.recognize, Option.bind_eq_bind, Option.bind_eq_some_iff, Option.some.injEq,
    Prod.mk.injEq] at h
  obtain ⟨⟨a, rest'⟩, ha, b', hb, rfl, rfl⟩ := h
  obtain ⟨hvalid, rfl⟩ := hF ha
  obtain rfl := hfg hvalid hb
  exact ⟨⟨hvalid, hb⟩, rfl⟩

theorem canonical_vec : vec.Canonical := by
  intro bs v rest h
  simp only [vec, Option.bind_eq_bind, Option.bind_eq_some_iff, Option.ite_none_right_eq_some,
    Option.some.injEq, Prod.mk.injEq] at h
  obtain ⟨⟨n, bs'⟩, hn, hlength, rfl, rfl⟩ := h
  obtain ⟨hvalid, rfl⟩ := canonical_le 8 hn
  have htake : (bs'.take n).length = n := List.length_take_of_le hlength
  refine ⟨valid_vec (by rw [htake]; exact hvalid), ?_⟩
  calc leBytes 8 n ++ bs' = leBytes 8 n ++ (bs'.take n ++ bs'.drop n) := by
        rw [List.take_append_drop]
    _ = leBytes 8 (bs'.take n).length ++ bs'.take n ++ bs'.drop n := by
        rw [htake, List.append_assoc]

theorem canonical_string : string.Canonical :=
  canonical_vec.recognize fun {v s} _ h => by
    rw [String.fromUTF8?, Option.dite_none_right_eq_some] at h
    obtain ⟨_, h⟩ := h
    obtain rfl := Option.some.inj h
    rfl

theorem canonical_uint8 : uint8.Canonical :=
  (canonical_le 1).recognize fun {x b} hvalid h => by
    obtain rfl := Option.some.inj h
    have hlt : x < 256 ^ 1 := hvalid
    rw [UInt8.toNat_ofNat', Nat.mod_eq_of_lt (by simpa using hlt)]

/-- If every variant that is read stood there as it would be written. -/
theorem canonical_tagged {tag : α → ℕ} {payload : α → Bytes}
    {read : ℕ → Bytes → Option (α × Bytes)} {Valid : α → Prop} {htag : ∀ a, tag a < 256 ^ 4}
    {hread : ∀ a, Valid a → ∀ rest, read (tag a) (payload a ++ rest) = some (a, rest)}
    (h : ∀ {n bs a rest}, read n bs = some (a, rest) →
      Valid a ∧ tag a = n ∧ bs = payload a ++ rest) :
    (tagged tag payload read Valid htag hread).Canonical := by
  intro bs a rest hdecode
  simp only [tagged, Option.bind_eq_bind, Option.bind_eq_some_iff] at hdecode
  obtain ⟨⟨n, bs'⟩, hn, ha⟩ := hdecode
  obtain ⟨-, rfl⟩ := canonical_le 4 hn
  obtain ⟨hvalid, rfl, rfl⟩ := h ha
  refine ⟨hvalid, ?_⟩
  rw [tagged, List.append_assoc]
  rfl

theorem Canonical.readAs (hF : F.Canonical) {variant : α → β} {bs rest : Bytes} {b : β}
    (h : F.readAs variant bs = some (b, rest)) :
    ∃ a, b = variant a ∧ F.Valid a ∧ bs = F.encode a ++ rest := by
  rw [Format.readAs, Option.map_eq_some_iff] at h
  obtain ⟨⟨a, rest'⟩, ha, hpair⟩ := h
  obtain ⟨rfl, rfl⟩ := Prod.mk.inj hpair
  exact ⟨a, rfl, hF ha⟩

end Format

end Foundation
