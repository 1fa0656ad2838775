import Sp1Tee.Host.Attestations

/-!
# Validating the signers of a contract

`validateContract` gets the signers of a contract and verifies the attestation of each.
It is expected that some signers are not for the requested version, and these are
skipped. On any other failure it panics.

A run that gets to its end has a reason for each report. Whether it gets there is
another matter: the measurement is checked before the version, so a signer of another
version stops the run if it runs another image.
-/

namespace Sp1Tee

open Foundation Foundation.Solidity

namespace Host

/-- The lines that are printed for a signer. -/
inductive Report
  | validated (signer : Address)
  | skipped (signer : Address) (version : UInt32)
deriving DecidableEq

def validateSigner (libs : Libraries) (client : S3Client) (version : UInt32) (pcr0 : String)
    (signer : Address) : Fallible Empty Report :=
  match verifyAttestationForSigner libs client signer version pcr0 with
  | .ok () => .ok (.validated signer)
  -- It is expected that some signers will not be for the given version.
  | .err (.VersionMismatch _ _) => .ok (.skipped signer version)
  | .err _ => .panic "Failed to validate signer"
  | .panic message => .panic message

/-- The reports of a run that gets to its end. -/
def validateContract (libs : Libraries) (client : S3Client)
    (getSigners : Except String (List Address)) (version : UInt32) (pcr0 : String) :
    Fallible Empty (List Report) := do
  let signers ← .expectOk getSigners "called Result::unwrap() on an Err value"
  Fallible.each (validateSigner libs client version pcr0) signers

/-- The document that is stored under the signer's address. It is a valid one. -/
def Stored (libs : Libraries) (client : S3Client) (signer : Address) (doc : AttestationDoc) :
    Prop :=
  ∃ bytes, fetch client (toChecksum libs.keccak256 signer) = .ok bytes ∧
    verifyAttestation libs bytes = .ok doc

section Validation

variable {libs : Libraries} {client : S3Client} {version : UInt32} {pcr0 : String}
  {signer : Address} {doc : AttestationDoc}

theorem Stored.unique {doc' : AttestationDoc} (h : Stored libs client signer doc)
    (h' : Stored libs client signer doc') : doc = doc' := by
  obtain ⟨bytes, hfetch, hdoc⟩ := h
  obtain ⟨bytes', hfetch', hdoc'⟩ := h'
  rw [hfetch] at hfetch'
  cases hfetch'
  rw [hdoc] at hdoc'
  exact Except.ok.inj hdoc'

/-! ## One signer -/

theorem validateSigner_cases (libs : Libraries) (client : S3Client) (version : UInt32)
    (pcr0 : String) (signer : Address) :
    (verifyAttestationForSigner libs client signer version pcr0 = .ok () ∧
      validateSigner libs client version pcr0 signer = .ok (.validated signer)) ∨
    (∃ expected found, verifyAttestationForSigner libs client signer version pcr0 =
        .err (.VersionMismatch expected found) ∧
      validateSigner libs client version pcr0 signer = .ok (.skipped signer version)) ∨
    (verifyAttestationForSigner libs client signer version pcr0 ≠ .ok () ∧
      (∀ expected found, verifyAttestationForSigner libs client signer version pcr0 ≠
        .err (.VersionMismatch expected found)) ∧
      ∃ message, validateSigner libs client version pcr0 signer = .panic message) := by
  cases hverify : verifyAttestationForSigner libs client signer version pcr0 with
  | ok _ => exact Or.inl ⟨rfl, by rw [validateSigner, hverify]⟩
  | panic message =>
      refine Or.inr (Or.inr ⟨nofun, nofun, message, ?_⟩)
      rw [validateSigner, hverify]
  | err e =>
      cases e with
      | VersionMismatch expected found =>
          exact Or.inr (Or.inl ⟨expected, found, rfl, by rw [validateSigner, hverify]⟩)
      | _ =>
          refine Or.inr (Or.inr ⟨nofun, nofun, "Failed to validate signer", ?_⟩)
          rw [validateSigner, hverify]

theorem validateSigner_eq_validated_iff :
    validateSigner libs client version pcr0 signer = .ok (.validated signer) ↔
      ∃ doc, Stored libs client signer doc ∧ HasPcr0 pcr0 doc ∧ HasVersion version doc ∧
        derivedAddress libs doc = some signer := by
  have hverified : verifyAttestationForSigner libs client signer version pcr0 = .ok () ↔
      ∃ doc, Stored libs client signer doc ∧ HasPcr0 pcr0 doc ∧ HasVersion version doc ∧
        derivedAddress libs doc = some signer := by
    rw [verifyAttestationForSigner_eq_ok_iff]
    constructor
    · rintro ⟨bytes, doc, hfetch, hdoc, hchecks⟩
      exact ⟨doc, ⟨bytes, hfetch, hdoc⟩, hchecks⟩
    · rintro ⟨doc, ⟨bytes, hfetch, hdoc⟩, hchecks⟩
      exact ⟨bytes, doc, hfetch, hdoc, hchecks⟩
  rw [← hverified]
  rcases validateSigner_cases libs client version pcr0 signer with
    ⟨hverify, hresult⟩ | ⟨expected, found, hverify, hresult⟩ | ⟨hnot, -, message, hresult⟩
  · simp [hverify, hresult]
  · simp [hverify, hresult]
  · simp [hnot, hresult]

theorem validateSigner_eq_skipped_iff :
    validateSigner libs client version pcr0 signer = .ok (.skipped signer version) ↔
      ∃ doc user_data, Stored libs client signer doc ∧ HasPcr0 pcr0 doc ∧
        doc.user_data = some user_data ∧ user_data ≠ versionBytes version ∧
        (fromUtf8 user_data).isSome := by
  have hmismatch : (∃ expected found, verifyAttestationForSigner libs client signer version pcr0 =
        .err (.VersionMismatch expected found)) ↔
      ∃ doc user_data, Stored libs client signer doc ∧ HasPcr0 pcr0 doc ∧
        doc.user_data = some user_data ∧ user_data ≠ versionBytes version ∧
        (fromUtf8 user_data).isSome := by
    constructor
    · rintro ⟨expected, found, h⟩
      obtain ⟨bytes, doc, user_data, hfetch, hdoc, hpcr0, hdata, hne, -, hfound⟩ :=
        verifyAttestationForSigner_eq_versionMismatch_iff.mp h
      exact ⟨doc, user_data, ⟨bytes, hfetch, hdoc⟩, hpcr0, hdata, hne, by rw [hfound]; rfl⟩
    · rintro ⟨doc, user_data, ⟨bytes, hfetch, hdoc⟩, hpcr0, hdata, hne, htext⟩
      obtain ⟨found, hfound⟩ := Option.isSome_iff_exists.mp htext
      exact ⟨toString version, found, verifyAttestationForSigner_eq_versionMismatch_iff.mpr
        ⟨bytes, doc, user_data, hfetch, hdoc, hpcr0, hdata, hne, rfl, hfound⟩⟩
  rw [← hmismatch]
  rcases validateSigner_cases libs client version pcr0 signer with
    ⟨hverify, hresult⟩ | ⟨expected, found, hverify, hresult⟩ | ⟨-, hnot, message, hresult⟩
  · simp [hverify, hresult]
  · simp [hverify, hresult]
  · simp [hnot, hresult]

/-! ## What a report stands for -/

/-- A 65-byte uncompressed key whose address is the signer. -/
def KeyOf (libs : Libraries) (signer : Address) (doc : AttestationDoc) : Prop :=
  ∃ public_key, doc.public_key = some public_key ∧ public_key.length = 65 ∧
    public_key.head? = some 0x04 ∧
    fromRawPublicKey libs.keccak256 (public_key.drop 1) = signer

/-- What is known of a signer with this report. -/
def Justified (libs : Libraries) (client : S3Client) (version : UInt32) (pcr0 : String)
    (signer : Address) : Report → Prop
  | .validated signer' => signer' = signer ∧ ∃ doc, Stored libs client signer doc ∧
      HasPcr0 pcr0 doc ∧ HasVersion version doc ∧ KeyOf libs signer doc
  | .skipped signer' version' => signer' = signer ∧ version' = version ∧
      ∃ doc, Stored libs client signer doc ∧ HasPcr0 pcr0 doc ∧ HasOtherVersion version doc

theorem derivedAddress_eq_some_iff :
    derivedAddress libs doc = some signer ↔ KeyOf libs signer doc := by
  rw [derivedAddress, Option.bind_eq_some_iff]
  exact exists_congr fun _ => and_congr_right fun _ => ethereumAddressFromSec1Bytes_eq_some_iff

theorem justified_of_validateSigner {report : Report}
    (h : validateSigner libs client version pcr0 signer = .ok report) :
    Justified libs client version pcr0 signer report := by
  rcases validateSigner_cases libs client version pcr0 signer with
    ⟨-, hresult⟩ | ⟨expected, found, -, hresult⟩ | ⟨-, -, message, hresult⟩
  · rw [h] at hresult
    cases hresult
    obtain ⟨doc, hstored, hpcr0, hversion, haddress⟩ := validateSigner_eq_validated_iff.mp h
    exact ⟨rfl, doc, hstored, hpcr0, hversion, derivedAddress_eq_some_iff.mp haddress⟩
  · rw [h] at hresult
    cases hresult
    obtain ⟨doc, user_data, hstored, hpcr0, hdata, hne, -⟩ := validateSigner_eq_skipped_iff.mp h
    exact ⟨rfl, rfl, doc, hstored, hpcr0, user_data, hdata, hne⟩
  · rw [h] at hresult
    cases hresult

/-- A run that gets to its end has reported on each signer of the contract once, in
turn, and every report is justified. -/
theorem validateContract_justified {getSigners : Except String (List Address)}
    {reports : List Report}
    (h : validateContract libs client getSigners version pcr0 = .ok reports) :
    ∃ signers, getSigners = .ok signers ∧
      List.Forall₂ (Justified libs client version pcr0) signers reports := by
  cases getSigners with
  | error e => cases h
  | ok signers =>
      refine ⟨signers, rfl, (Fallible.each_eq_ok_iff.mp h).imp ?_⟩
      exact fun _ _ hreport => justified_of_validateSigner hreport

/-! ## Signers of several versions -/

theorem validateContract_ok (signers : List Address) :
    validateContract libs client (.ok signers) version pcr0 =
      Fallible.each (validateSigner libs client version pcr0) signers := rfl

/-- The report that a signer of this version should get. -/
def expectedReport (version : UInt32) (versionOf : Address → UInt32) (signer : Address) :
    Report :=
  if versionOf signer = version then .validated signer else .skipped signer version

/-- The document of a signer that attests to its key and to some version. With the
requested version it has the requested measurement. -/
structure Attests (libs : Libraries) (client : S3Client) (version : UInt32) (pcr0 : String)
    (signer : Address) (signerVersion : UInt32) (doc : AttestationDoc) : Prop where
  stored : Stored libs client signer doc
  address : derivedAddress libs doc = some signer
  user_data : doc.user_data = some (versionBytes signerVersion)
  pcr0 : signerVersion = version → HasPcr0 pcr0 doc

theorem versionBytes_injective : Function.Injective versionBytes := by
  intro version version' h
  have hnat : version.toNat = version'.toNat :=
    calc version.toNat = ofLeBytes (versionBytes version) :=
          (ofLeBytes_leBytes version.toNat_lt).symm
      _ = ofLeBytes (versionBytes version') := by rw [h]
      _ = version'.toNat := ofLeBytes_leBytes version'.toNat_lt
  exact UInt32.toNat_inj.mp hnat

/-- A signer gets the report that it should get, exactly if it is of the requested
version or could be skipped. -/
theorem validateSigner_eq_expectedReport_iff {versionOf : Address → UInt32}
    (h : Attests libs client version pcr0 signer (versionOf signer) doc) :
    validateSigner libs client version pcr0 signer =
        .ok (expectedReport version versionOf signer) ↔
      (versionOf signer ≠ version →
        HasPcr0 pcr0 doc ∧ (fromUtf8 (versionBytes (versionOf signer))).isSome) := by
  by_cases hversion : versionOf signer = version
  · rw [expectedReport, if_pos hversion]
    refine iff_of_true ?_ fun hne => absurd hversion hne
    exact validateSigner_eq_validated_iff.mpr
      ⟨doc, h.stored, h.pcr0 hversion, by rw [HasVersion, h.user_data, hversion], h.address⟩
  · rw [expectedReport, if_neg hversion, validateSigner_eq_skipped_iff]
    constructor
    · rintro ⟨doc', user_data, hstored, hpcr0, hdata, -, htext⟩ -
      obtain rfl := hstored.unique h.stored
      rw [h.user_data] at hdata
      cases hdata
      exact ⟨hpcr0, htext⟩
    · intro hskip
      obtain ⟨hpcr0, htext⟩ := hskip hversion
      exact ⟨doc, versionBytes (versionOf signer), h.stored, hpcr0, h.user_data,
        fun heq => hversion (versionBytes_injective heq), htext⟩

/-- The run goes through a contract with signers of several versions, and reports on
each as it should, exactly if the signers of other versions have the requested
measurement too, and the bytes of their versions are texts. -/
theorem validateContract_expectedReport_iff {signers : List Address}
    {versionOf : Address → UInt32} {docOf : Address → AttestationDoc}
    (h : ∀ signer ∈ signers,
      Attests libs client version pcr0 signer (versionOf signer) (docOf signer)) :
    validateContract libs client (.ok signers) version pcr0 =
        .ok (signers.map (expectedReport version versionOf)) ↔
      ∀ signer ∈ signers, versionOf signer ≠ version →
        HasPcr0 pcr0 (docOf signer) ∧ (fromUtf8 (versionBytes (versionOf signer))).isSome := by
  rw [validateContract_ok, Fallible.each_eq_ok_map_iff]
  exact forall₂_congr fun signer hsigner => validateSigner_eq_expectedReport_iff (h signer hsigner)

end Validation

/-! Contracts with one signer, whose document is for version 1, 2 or 200, and one with three
signers, of which the second one is of version 2. -/

namespace Sample

theorem stored_doc (doc : AttestationDoc) : Stored (libs doc) client signer doc :=
  ⟨[1], fetch_client doc, verifyAttestation_libs doc⟩

theorem derivedAddress_doc (version : UInt32) :
    derivedAddress (libs (doc version)) (doc version) = some signer := by
  have hkey : (doc version).public_key = some public_key := rfl
  rw [derivedAddress, hkey, Option.bind_some, ethereumAddressFromSec1Bytes_eq_some_iff]
  exact ⟨rfl, rfl, rfl⟩

theorem attests_doc {version signerVersion : UInt32} (pcr0 : String) (h : signerVersion ≠ version) :
    Attests (libs (doc signerVersion)) client version pcr0 signer signerVersion
      (doc signerVersion) where
  stored := stored_doc _
  address := derivedAddress_doc _
  user_data := rfl
  pcr0 heq := absurd heq h

def signers : List Address :=
  [1, 2, 3].map fun n => fromRawPublicKey Keccak.keccak256 (List.replicate 64 n)

def versionOf (signer : Address) : UInt32 := if signers.idxOf signer = 1 then 2 else 1

/-- The document of a signer is stored as the number of the signer. -/
def docOf (n : ℕ) : AttestationDoc where
  pcrs i := if i = 0 then some [0xab] else none
  user_data := some (versionBytes (if n = 1 then 2 else 1))
  public_key := some (0x04 :: List.replicate 64 (UInt8.ofNat (n + 1)))

def signersLibs : Libraries where
  keccak256 := Keccak.keccak256
  validateAndParseAttestationDoc bytes :=
    match bytes with
    | [n] => .ok (docOf n.toNat)
    | _ => .error "invalid"
  SP1_TEE_VERSION := 1

def signersClient : S3Client :=
  .of ((List.range 3).map fun n =>
    (toChecksum Keccak.keccak256 (signers.getD n 0), [UInt8.ofNat n]))

theorem attests_signers : ∀ signer ∈ signers, Attests signersLibs signersClient 1 "ab" signer
    (versionOf signer) (docOf (signers.idxOf signer)) := by
  have hfetch : ∀ signer ∈ signers, fetch signersClient (toChecksum Keccak.keccak256 signer) =
      .ok [UInt8.ofNat (signers.idxOf signer)] := by decide +kernel
  have haddress : ∀ signer ∈ signers,
      derivedAddress signersLibs (docOf (signers.idxOf signer)) = some signer := by decide +kernel
  have hnumber : ∀ signer ∈ signers,
      (UInt8.ofNat (signers.idxOf signer)).toNat = signers.idxOf signer := by decide +kernel
  intro signer hsigner
  refine ⟨⟨_, hfetch signer hsigner, ?_⟩, haddress signer hsigner, rfl,
    fun _ => ⟨[0xab], rfl, by decide +kernel⟩⟩
  simp [verifyAttestation, signersLibs, hnumber signer hsigner]

end Sample

open Sample in
theorem validateContract_justified_signers :
    List.Forall₂ (Justified signersLibs signersClient 1 "ab") signers
      [.validated (signers.getD 0 0), .skipped (signers.getD 1 0) 1,
        .validated (signers.getD 2 0)] := by
  have hrun : validateContract signersLibs signersClient (.ok signers) 1 "ab" =
      .ok [.validated (signers.getD 0 0), .skipped (signers.getD 1 0) 1,
        .validated (signers.getD 2 0)] := by decide +kernel
  obtain ⟨signers', hsigners, hreports⟩ := validateContract_justified hrun
  cases hsigners
  exact hreports

open Sample in
/-- The signer of version 2 has the same image and is skipped. -/
theorem validateContract_expectedReport_signers :
    validateContract signersLibs signersClient (.ok signers) 1 "ab" =
        .ok (signers.map (expectedReport 1 versionOf)) ∧
      signers.map versionOf = [1, 2, 1] := by
  have htext : (fromUtf8 (versionBytes 2)).isSome := by decide +kernel
  refine ⟨(validateContract_expectedReport_iff attests_signers).mpr fun signer _ hversion =>
    ⟨⟨[0xab], rfl, by decide +kernel⟩, ?_⟩, by decide +kernel⟩
  rw [versionOf] at hversion ⊢
  by_cases hsecond : signers.idxOf signer = 1
  · rwa [if_pos hsecond]
  · exact absurd (if_neg hsecond) hversion

open Sample in
/-- A signer of version 2 with another image is not skipped, nor is one of version 200
with the same image: the bytes of this version are not a text. -/
theorem validateContract_ne_expectedReport :
    (Attests (libs (doc 2)) client 1 "cd" signer 2 (doc 2) ∧
      validateContract (libs (doc 2)) client (.ok [signer]) 1 "cd" ≠ .ok [.skipped signer 1]) ∧
    (Attests (libs (doc 200)) client 1 "ab" signer 200 (doc 200) ∧
      validateContract (libs (doc 200)) client (.ok [signer]) 1 "ab" ≠
        .ok [.skipped signer 1]) := by
  refine ⟨⟨attests_doc "cd" (by decide), fun hrun => ?_⟩,
    ⟨attests_doc "ab" (by decide), fun hrun => ?_⟩⟩
  · rw [validateContract_ok, Fallible.each_eq_ok_iff, List.forall₂_cons,
      validateSigner_eq_skipped_iff] at hrun
    obtain ⟨⟨doc', -, hstored, ⟨actual, hactual, hpcr0⟩, -⟩, -⟩ := hrun
    obtain rfl := hstored.unique (stored_doc (doc 2))
    cases hactual
    revert hpcr0
    decide +kernel
  · rw [validateContract_ok, Fallible.each_eq_ok_iff, List.forall₂_cons,
      validateSigner_eq_skipped_iff] at hrun
    obtain ⟨⟨doc', user_data, hstored, -, hdata, -, htext⟩, -⟩ := hrun
    obtain rfl := hstored.unique (stored_doc (doc 200))
    cases hdata
    revert htext
    decide +kernel

end Host

end Sp1Tee
