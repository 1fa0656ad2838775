import Sp1Tee.Host.Setup

/-!
# Two checks of one measurement

The setup tool decodes the given PCR0 and compares bytes. `verifyAttestationForSigner`
removes every `0x` from it and compares texts. On a value that is the measurement in
hexadecimal, the first wants no `0x` and the second wants no capitals, so they agree
exactly on the values that are not written in one of these two ways.
-/

namespace Sp1Tee

open Foundation Host

/-- The value is the measurement in hexadecimal, with capitals among the digits. -/
def WithCapitals (pcr0 : String) (actual : Bytes) : Prop :=
  pcr0.toList.map Char.toLower = Hex.encodeChars actual ∧ ∃ c ∈ pcr0.toList, c.toLower ≠ c

/-- The value is the measurement in hexadecimal, with some `0x` in it. -/
def WithMark (pcr0 : String) (actual : Bytes) : Prop :=
  Hex.removeMark pcr0.toList = Hex.encodeChars actual ∧ Hex.HasMark pcr0.toList

variable {doc : AttestationDoc} {actual : Bytes} {pcr0 : String}

theorem checkPcr0_eq_ok_iff_toLower (h : doc.pcrs 0 = some actual) :
    checkPcr0 doc pcr0 = .ok () ↔ pcr0.toList.map Char.toLower = Hex.encodeChars actual := by
  rw [checkPcr0_eq_ok_iff, h, ← Hex.decode_eq_some_iff]
  constructor
  · rintro ⟨actual', hactual, hdecode⟩
    rw [Option.some.inj hactual, hdecode]
  · intro hdecode
    exact ⟨actual, rfl, hdecode⟩

theorem verifyPcr0_eq_ok_iff_removeMark (h : doc.pcrs 0 = some actual) :
    verifyPcr0 doc pcr0 = .ok () ↔ Hex.removeMark pcr0.toList = Hex.encodeChars actual := by
  have htext : Hex.encode actual = withoutMark pcr0 ↔
      Hex.removeMark pcr0.toList = Hex.encodeChars actual := by
    rw [Hex.encode, withoutMark, String.ofList_inj, eq_comm]
  rw [verifyPcr0_eq_ok_iff, HasPcr0, h, ← htext]
  constructor
  · rintro ⟨actual', hactual, heq⟩
    rw [Option.some.inj hactual, heq]
  · intro heq
    exact ⟨actual, rfl, heq⟩

theorem toLower_eq_removeMark {cs : List Char} (hlower : ∀ c ∈ cs, c.toLower = c)
    (hmark : ¬ Hex.HasMark cs) : cs.map Char.toLower = Hex.removeMark cs := by
  rw [Hex.removeMark_of_not_hasMark hmark, List.map_congr_left hlower, List.map_id']

theorem not_hasMark_of_toLower {cs : List Char}
    (h : cs.map Char.toLower = Hex.encodeChars actual) : ¬ Hex.HasMark cs := by
  intro hmark
  have hx : 'x'.toLower ∈ Hex.encodeChars actual := by
    rw [← h]
    exact List.mem_map_of_mem (Hex.mem_of_hasMark hmark)
  have hdigit := Hex.mem_digits_of_mem_encodeChars hx
  revert hdigit
  decide

/-- The two checks agree exactly on the values that are not the measurement written with
capitals or with a mark. -/
theorem checkPcr0_iff_verifyPcr0_iff (h : doc.pcrs 0 = some actual) :
    (checkPcr0 doc pcr0 = .ok () ↔ verifyPcr0 doc pcr0 = .ok ()) ↔
      ¬ WithCapitals pcr0 actual ∧ ¬ WithMark pcr0 actual := by
  rw [checkPcr0_eq_ok_iff_toLower h, verifyPcr0_eq_ok_iff_removeMark h]
  constructor
  · intro hagree
    refine ⟨?_, ?_⟩
    · rintro ⟨hlower, c, hc, hcapital⟩
      have htext := hagree.mp hlower
      rw [Hex.removeMark_of_not_hasMark (not_hasMark_of_toLower hlower)] at htext
      rw [htext] at hc
      exact hcapital (Hex.toLower_of_mem_digits (Hex.mem_digits_of_mem_encodeChars hc))
    · rintro ⟨htext, hmark⟩
      exact not_hasMark_of_toLower (hagree.mpr htext) hmark
  · rintro ⟨hcapitals, hmark⟩
    constructor
    · intro hlower
      have hall : ∀ c ∈ pcr0.toList, c.toLower = c := fun c hc => by
        by_contra hcapital
        exact hcapitals ⟨hlower, c, hc, hcapital⟩
      rw [← toLower_eq_removeMark hall (not_hasMark_of_toLower hlower), hlower]
    · intro htext
      have hno : ¬ Hex.HasMark pcr0.toList := fun hsome => hmark ⟨htext, hsome⟩
      rw [Hex.removeMark_of_not_hasMark hno] at htext
      rw [htext, Hex.map_toLower_encodeChars]

/-- The measurement as the build prints it. -/
theorem checkPcr0_iff_verifyPcr0_ab :
    checkPcr0 (Sample.doc 1) "ab" = .ok () ↔ verifyPcr0 (Sample.doc 1) "ab" = .ok () := by
  have hpcr : (Sample.doc 1).pcrs 0 = some [0xab] := rfl
  refine (checkPcr0_iff_verifyPcr0_iff hpcr).mpr ⟨?_, ?_⟩
  · rintro ⟨-, c, hc, hcapital⟩
    have hab : c = 'a' ∨ c = 'b' := by simpa using hc
    rcases hab with rfl | rfl
    · exact hcapital (by decide)
    · exact hcapital (by decide)
  · rintro ⟨-, hmark⟩
    exact absurd (Hex.mem_of_hasMark hmark) (by decide +kernel)

/-- With capitals only the setup tool accepts the measurement, and with `0x` in front of
it only the verification. -/
theorem checkPcr0_not_iff_verifyPcr0 :
    ¬ (checkPcr0 (Sample.doc 1) "AB" = .ok () ↔ verifyPcr0 (Sample.doc 1) "AB" = .ok ()) ∧
      ¬ (checkPcr0 (Sample.doc 1) "0xab" = .ok () ↔
        verifyPcr0 (Sample.doc 1) "0xab" = .ok ()) := by
  have hpcr : (Sample.doc 1).pcrs 0 = some [0xab] := rfl
  rw [checkPcr0_eq_ok_iff_toLower hpcr, checkPcr0_eq_ok_iff_toLower hpcr,
    verifyPcr0_eq_ok_iff_removeMark hpcr, verifyPcr0_eq_ok_iff_removeMark hpcr]
  decide +kernel

end Sp1Tee
