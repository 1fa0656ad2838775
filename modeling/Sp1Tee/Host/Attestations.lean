import Sp1Tee.Foundation.Keccak
import Sp1Tee.Foundation.Utf8
import Sp1Tee.Host.Bucket

/-!
# Verifying the attestation of a signer

`verifyAttestationForSigner` fetches the attestation that is stored under a signer's
address, validates the document, and checks the measurement of the enclave's image, the
version and the key, in this order. The validation of a document is that of a library
and enters through `Libraries`.

`VerifiedAs` says what should come of it. The function deviates from this in two places:
it panics if the document has no measurement at index 0, and if the version that it is
about to report as found is not a text.
-/

namespace Sp1Tee

open Foundation Foundation.Solidity

namespace Host

/-- The fields of an attestation document that the host looks at. -/
structure AttestationDoc where
  pcrs : ℕ → Option Bytes
  user_data : Option Bytes
  public_key : Option Bytes

abbrev AttestError := String

/-- What the host uses of its libraries. -/
structure Libraries where
  keccak256 : Bytes → Bytes32
  /-- Validates the certificates and the signature of a document. It knows no time: that
  certificates expire is left out. -/
  validateAndParseAttestationDoc : Bytes → Except AttestError AttestationDoc
  SP1_TEE_VERSION : UInt32

inductive AttestationVerificationError
  | VerificationError (e : AttestError)
  | Pcr0VerificationError (expected actual : String)
  | GetAttestationError (e : GetAttestationError)
  | MissingRequiredField (field : String)
  | AddressMismatch (expected found : Address)
  | VersionMismatch (expected found : String)
deriving DecidableEq

section Verification

variable (libs : Libraries)

def verifyAttestation (attestation : Bytes) : Except AttestError AttestationDoc :=
  libs.validateAndParseAttestationDoc attestation

/-- The version as an attestation carries it. -/
def versionBytes (version : UInt32) : Bytes := leBytes 4 version.toNat

/-- A measurement as it is given, without any `0x`. -/
def withoutMark (pcr0 : String) : String := String.ofList (Hex.removeMark pcr0.toList)

/-- The address that belongs to the key in a document. -/
def derivedAddress (doc : AttestationDoc) : Option Address :=
  doc.public_key.bind (ethereumAddressFromSec1Bytes libs.keccak256)

def verifyPcr0 (doc : AttestationDoc) (pcr0 : String) :
    Fallible AttestationVerificationError Unit := do
  let actual ← .expect (doc.pcrs 0) "no entry found for key"
  let doc_pcr0 := Hex.encode actual
  if doc_pcr0 ≠ withoutMark pcr0 then
    .err (.Pcr0VerificationError pcr0 doc_pcr0)
  else
    .ok ()

def verifyVersion (doc : AttestationDoc) (version : UInt32) :
    Fallible AttestationVerificationError Unit := do
  let user_data ← .okOr doc.user_data (.MissingRequiredField "user_data")
  if user_data ≠ versionBytes version then do
    let found ← .expect (fromUtf8 user_data) "called Result::unwrap() on an Err value"
    .err (.VersionMismatch (toString version) found)
  else
    .ok ()

def verifyAddress (doc : AttestationDoc) (signer : Address) :
    Fallible AttestationVerificationError Unit := do
  let derived_address ← .okOr (derivedAddress libs doc) (.MissingRequiredField "public_key")
  if derived_address ≠ signer then
    .err (.AddressMismatch signer derived_address)
  else
    .ok ()

def verifyAttestationForSigner (client : S3Client) (signer : Address) (version : UInt32)
    (pcr0 : String) : Fallible AttestationVerificationError Unit := do
  let bytes ← (fetch client (toChecksum libs.keccak256 signer)).mapErr .GetAttestationError
  let doc ← .ofExcept ((verifyAttestation libs bytes).mapError .VerificationError)
  verifyPcr0 doc pcr0
  verifyVersion doc version
  verifyAddress libs doc signer

/-! ## What is verified -/

def HasPcr0 (pcr0 : String) (doc : AttestationDoc) : Prop :=
  ∃ actual, doc.pcrs 0 = some actual ∧ Hex.encode actual = withoutMark pcr0

def HasVersion (version : UInt32) (doc : AttestationDoc) : Prop :=
  doc.user_data = some (versionBytes version)

/-- The document carries a version, but not this one. -/
def HasOtherVersion (version : UInt32) (doc : AttestationDoc) : Prop :=
  ∃ user_data, doc.user_data = some user_data ∧ user_data ≠ versionBytes version

/-- The first check that fails for a document is the one with this error. -/
def RefusedAs (signer : Address) (version : UInt32) (pcr0 : String) (doc : AttestationDoc) :
    AttestationVerificationError → Prop
  | .Pcr0VerificationError _ _ => ¬ HasPcr0 pcr0 doc
  | .MissingRequiredField field =>
      HasPcr0 pcr0 doc ∧ (field = "user_data" ∧ doc.user_data = none ∨
        field = "public_key" ∧ HasVersion version doc ∧ derivedAddress libs doc = none)
  | .VersionMismatch _ _ => HasPcr0 pcr0 doc ∧ HasOtherVersion version doc
  | .AddressMismatch expected found =>
      HasPcr0 pcr0 doc ∧ HasVersion version doc ∧ expected = signer ∧
        derivedAddress libs doc = some found ∧ found ≠ signer
  | _ => False

/-- The result that belongs to what the validation of a stored object gives. -/
def VerifiedAs (signer : Address) (version : UInt32) (pcr0 : String)
    (validated : Except AttestError AttestationDoc) :
    Fallible AttestationVerificationError Unit → Prop
  | .ok () => ∃ doc, validated = .ok doc ∧ HasPcr0 pcr0 doc ∧ HasVersion version doc ∧
      derivedAddress libs doc = some signer
  | .err (.VerificationError e) => validated = .error e
  | .err e => ∃ doc, validated = .ok doc ∧ RefusedAs libs signer version pcr0 doc e
  | .panic _ => False

variable {libs} {client : S3Client} {signer : Address} {version : UInt32} {pcr0 : String}
  {doc : AttestationDoc}

/-! ## One check -/

theorem verifyPcr0_cases (doc : AttestationDoc) (pcr0 : String) :
    (doc.pcrs 0 = none ∧ ¬ HasPcr0 pcr0 doc ∧
      verifyPcr0 doc pcr0 = .panic "no entry found for key") ∨
    (∃ actual, doc.pcrs 0 = some actual ∧ ¬ HasPcr0 pcr0 doc ∧
      verifyPcr0 doc pcr0 = .err (.Pcr0VerificationError pcr0 (Hex.encode actual))) ∨
    ((doc.pcrs 0).isSome ∧ HasPcr0 pcr0 doc ∧ verifyPcr0 doc pcr0 = .ok ()) := by
  cases hpcr : doc.pcrs 0 with
  | none => exact Or.inl ⟨rfl, by simp [HasPcr0, hpcr], by simp [verifyPcr0, hpcr]⟩
  | some actual =>
      by_cases heq : Hex.encode actual = withoutMark pcr0
      · exact Or.inr (Or.inr ⟨rfl, ⟨actual, hpcr, heq⟩, by simp [verifyPcr0, hpcr, heq]⟩)
      · exact Or.inr (Or.inl ⟨actual, rfl, by simp [HasPcr0, hpcr, heq],
          by simp [verifyPcr0, hpcr, heq]⟩)

theorem verifyVersion_cases (doc : AttestationDoc) (version : UInt32) :
    (doc.user_data = none ∧
      verifyVersion doc version = .err (.MissingRequiredField "user_data")) ∨
    (∃ user_data, doc.user_data = some user_data ∧ user_data ≠ versionBytes version ∧
      ((fromUtf8 user_data = none ∧
          verifyVersion doc version = .panic "called Result::unwrap() on an Err value") ∨
        ∃ found, fromUtf8 user_data = some found ∧
          verifyVersion doc version = .err (.VersionMismatch (toString version) found))) ∨
    (HasVersion version doc ∧ verifyVersion doc version = .ok ()) := by
  cases hdata : doc.user_data with
  | none => exact Or.inl ⟨rfl, by simp [verifyVersion, hdata]⟩
  | some user_data =>
      by_cases heq : user_data = versionBytes version
      · exact Or.inr (Or.inr ⟨by rw [HasVersion, hdata, heq], by simp [verifyVersion, hdata, heq]⟩)
      · refine Or.inr (Or.inl ⟨user_data, rfl, heq, ?_⟩)
        cases hfound : fromUtf8 user_data with
        | none => exact Or.inl ⟨rfl, by simp [verifyVersion, hdata, heq, hfound]⟩
        | some found => exact Or.inr ⟨found, rfl, by simp [verifyVersion, hdata, heq, hfound]⟩

theorem verifyAddress_cases (libs : Libraries) (doc : AttestationDoc) (signer : Address) :
    (derivedAddress libs doc = none ∧
      verifyAddress libs doc signer = .err (.MissingRequiredField "public_key")) ∨
    (∃ found, derivedAddress libs doc = some found ∧ found ≠ signer ∧
      verifyAddress libs doc signer = .err (.AddressMismatch signer found)) ∨
    (derivedAddress libs doc = some signer ∧ verifyAddress libs doc signer = .ok ()) := by
  cases hderived : derivedAddress libs doc with
  | none => exact Or.inl ⟨rfl, by simp [verifyAddress, hderived]⟩
  | some found =>
      by_cases heq : found = signer
      · exact Or.inr (Or.inr ⟨by rw [heq], by simp [verifyAddress, hderived, heq]⟩)
      · exact Or.inr (Or.inl ⟨found, rfl, heq, by simp [verifyAddress, hderived, heq]⟩)

theorem verifyPcr0_eq_ok_iff : verifyPcr0 doc pcr0 = .ok () ↔ HasPcr0 pcr0 doc := by
  rcases verifyPcr0_cases doc pcr0 with ⟨-, hnot, h⟩ | ⟨actual, -, hnot, h⟩ | ⟨-, hhas, h⟩
  · simp [h, hnot]
  · simp [h, hnot]
  · simp [h, hhas]

theorem verifyVersion_eq_ok_iff : verifyVersion doc version = .ok () ↔ HasVersion version doc := by
  rcases verifyVersion_cases doc version with
    ⟨hdata, h⟩ | ⟨user_data, hdata, hne, ⟨-, h⟩ | ⟨found, -, h⟩⟩ | ⟨hhas, h⟩
  · simp [h, HasVersion, hdata]
  · simp [h, HasVersion, hdata, hne]
  · simp [h, HasVersion, hdata, hne]
  · simp [h, hhas]

theorem verifyAddress_eq_ok_iff :
    verifyAddress libs doc signer = .ok () ↔ derivedAddress libs doc = some signer := by
  rcases verifyAddress_cases libs doc signer with
    ⟨hderived, h⟩ | ⟨found, hderived, hne, h⟩ | ⟨hderived, h⟩
  · simp [h, hderived]
  · simp [h, hderived, hne]
  · simp [h, hderived]

/-! ## All checks -/

/-- What can come of the checks of a document: the first one that fails decides. -/
inductive Checks (libs : Libraries) (signer : Address) (version : UInt32) (pcr0 : String)
    (doc : AttestationDoc) : Fallible AttestationVerificationError Unit → Prop
  | noPcr0 (hpcr : doc.pcrs 0 = none) :
      Checks libs signer version pcr0 doc (.panic "no entry found for key")
  | otherPcr0 (actual : Bytes) (hpcr : doc.pcrs 0 = some actual) (hnot : ¬ HasPcr0 pcr0 doc) :
      Checks libs signer version pcr0 doc (.err (.Pcr0VerificationError pcr0 (Hex.encode actual)))
  | noUserData (hpcr0 : HasPcr0 pcr0 doc) (hdata : doc.user_data = none) :
      Checks libs signer version pcr0 doc (.err (.MissingRequiredField "user_data"))
  | notText (hpcr0 : HasPcr0 pcr0 doc) (user_data : Bytes) (hdata : doc.user_data = some user_data)
      (hne : user_data ≠ versionBytes version) (htext : fromUtf8 user_data = none) :
      Checks libs signer version pcr0 doc (.panic "called Result::unwrap() on an Err value")
  | otherVersion (hpcr0 : HasPcr0 pcr0 doc) (user_data : Bytes)
      (hdata : doc.user_data = some user_data) (hne : user_data ≠ versionBytes version)
      (found : String) (htext : fromUtf8 user_data = some found) :
      Checks libs signer version pcr0 doc (.err (.VersionMismatch (toString version) found))
  | noKey (hpcr0 : HasPcr0 pcr0 doc) (hversion : HasVersion version doc)
      (hderived : derivedAddress libs doc = none) :
      Checks libs signer version pcr0 doc (.err (.MissingRequiredField "public_key"))
  | otherKey (hpcr0 : HasPcr0 pcr0 doc) (hversion : HasVersion version doc) (found : Address)
      (hderived : derivedAddress libs doc = some found) (hne : found ≠ signer) :
      Checks libs signer version pcr0 doc (.err (.AddressMismatch signer found))
  | passed (hpcr0 : HasPcr0 pcr0 doc) (hversion : HasVersion version doc)
      (hderived : derivedAddress libs doc = some signer) :
      Checks libs signer version pcr0 doc (.ok ())

theorem checks_of_doc (libs : Libraries) (signer : Address) (version : UInt32) (pcr0 : String)
    (doc : AttestationDoc) :
    Checks libs signer version pcr0 doc (do
      verifyPcr0 doc pcr0
      verifyVersion doc version
      verifyAddress libs doc signer) := by
  rcases verifyPcr0_cases doc pcr0 with
    ⟨hpcr, -, hcheck⟩ | ⟨actual, hpcr, hnot, hcheck⟩ | ⟨-, hpcr0, hcheck⟩
  · rw [hcheck]
    exact .noPcr0 hpcr
  · rw [hcheck]
    exact .otherPcr0 actual hpcr hnot
  · rw [hcheck, Fallible.ok_bind]
    rcases verifyVersion_cases doc version with
      ⟨hdata, hcheck⟩ | ⟨user_data, hdata, hne, ⟨htext, hcheck⟩ | ⟨found, htext, hcheck⟩⟩ |
        ⟨hversion, hcheck⟩
    · rw [hcheck]
      exact .noUserData hpcr0 hdata
    · rw [hcheck]
      exact .notText hpcr0 user_data hdata hne htext
    · rw [hcheck]
      exact .otherVersion hpcr0 user_data hdata hne found htext
    · rw [hcheck, Fallible.ok_bind]
      rcases verifyAddress_cases libs doc signer with
        ⟨hderived, hcheck⟩ | ⟨found, hderived, hne, hcheck⟩ | ⟨hderived, hcheck⟩
      · rw [hcheck]
        exact .noKey hpcr0 hversion hderived
      · rw [hcheck]
        exact .otherKey hpcr0 hversion found hderived hne
      · rw [hcheck]
        exact .passed hpcr0 hversion hderived

theorem verifyAttestationForSigner_of_doc {bytes : Bytes}
    (hfetch : fetch client (toChecksum libs.keccak256 signer) = .ok bytes)
    (hdoc : verifyAttestation libs bytes = .ok doc) :
    verifyAttestationForSigner libs client signer version pcr0 = (do
      verifyPcr0 doc pcr0
      verifyVersion doc version
      verifyAddress libs doc signer) := by
  rw [verifyAttestationForSigner, hfetch, Fallible.mapErr_ok, Fallible.ok_bind, hdoc]
  rfl

theorem verifyAttestationForSigner_of_invalid {bytes : Bytes} {e : AttestError}
    (hfetch : fetch client (toChecksum libs.keccak256 signer) = .ok bytes)
    (hdoc : verifyAttestation libs bytes = .error e) :
    verifyAttestationForSigner libs client signer version pcr0 = .err (.VerificationError e) := by
  rw [verifyAttestationForSigner, hfetch, Fallible.mapErr_ok, Fallible.ok_bind, hdoc]
  rfl

theorem verifyAttestationForSigner_of_fetch_err {e : GetAttestationError}
    (hfetch : fetch client (toChecksum libs.keccak256 signer) = .err e) :
    verifyAttestationForSigner libs client signer version pcr0 = .err (.GetAttestationError e) := by
  rw [verifyAttestationForSigner, hfetch]
  rfl

theorem fetch_ne_panic {key message : String} : fetch client key ≠ .panic message := by
  rw [fetch]
  cases client.getObject key with
  | error e => simp [Except.mapError]
  | ok body => cases body <;> simp [Except.mapError]

theorem verifyAttestationForSigner_cases (libs : Libraries) (client : S3Client) (signer : Address)
    (version : UInt32) (pcr0 : String) :
    (∃ e, fetch client (toChecksum libs.keccak256 signer) = .err e ∧
      verifyAttestationForSigner libs client signer version pcr0 = .err (.GetAttestationError e)) ∨
    ∃ bytes, fetch client (toChecksum libs.keccak256 signer) = .ok bytes ∧
      ((∃ e, verifyAttestation libs bytes = .error e ∧
          verifyAttestationForSigner libs client signer version pcr0 =
            .err (.VerificationError e)) ∨
        ∃ doc, verifyAttestation libs bytes = .ok doc ∧
          Checks libs signer version pcr0 doc
            (verifyAttestationForSigner libs client signer version pcr0)) := by
  cases hfetch : fetch client (toChecksum libs.keccak256 signer) with
  | panic message => exact absurd hfetch fetch_ne_panic
  | err e => exact Or.inl ⟨e, rfl, verifyAttestationForSigner_of_fetch_err hfetch⟩
  | ok bytes =>
      refine Or.inr ⟨bytes, rfl, ?_⟩
      cases hdoc : verifyAttestation libs bytes with
      | error e => exact Or.inl ⟨e, rfl, verifyAttestationForSigner_of_invalid hfetch hdoc⟩
      | ok doc =>
          refine Or.inr ⟨doc, rfl, ?_⟩
          rw [verifyAttestationForSigner_of_doc hfetch hdoc]
          exact checks_of_doc libs signer version pcr0 doc

/-- The function succeeds exactly if the object under the signer's address passes
every check. -/
theorem verifyAttestationForSigner_eq_ok_iff :
    verifyAttestationForSigner libs client signer version pcr0 = .ok () ↔
      ∃ bytes doc, fetch client (toChecksum libs.keccak256 signer) = .ok bytes ∧
        verifyAttestation libs bytes = .ok doc ∧ HasPcr0 pcr0 doc ∧ HasVersion version doc ∧
        derivedAddress libs doc = some signer := by
  constructor
  · intro h
    rcases verifyAttestationForSigner_cases libs client signer version pcr0 with
      ⟨e, -, hresult⟩ | ⟨bytes, hfetch, ⟨e, -, hresult⟩ | ⟨doc, hdoc, hchecks⟩⟩
    · rw [h] at hresult
      cases hresult
    · rw [h] at hresult
      cases hresult
    · rw [h] at hchecks
      cases hchecks with
      | passed hpcr0 hversion hderived =>
          exact ⟨bytes, doc, hfetch, hdoc, hpcr0, hversion, hderived⟩
  · rintro ⟨bytes, doc, hfetch, hdoc, hpcr0, hversion, haddress⟩
    rw [verifyAttestationForSigner_of_doc hfetch hdoc, verifyPcr0_eq_ok_iff.mpr hpcr0,
      Fallible.ok_bind, verifyVersion_eq_ok_iff.mpr hversion, Fallible.ok_bind]
    exact verifyAddress_eq_ok_iff.mpr haddress

/-- The function reports another version exactly if the measurement is the given one
and the other version is a text. -/
theorem verifyAttestationForSigner_eq_versionMismatch_iff {expected found : String} :
    verifyAttestationForSigner libs client signer version pcr0 =
        .err (.VersionMismatch expected found) ↔
      ∃ bytes doc user_data, fetch client (toChecksum libs.keccak256 signer) = .ok bytes ∧
        verifyAttestation libs bytes = .ok doc ∧ HasPcr0 pcr0 doc ∧
        doc.user_data = some user_data ∧ user_data ≠ versionBytes version ∧
        expected = toString version ∧ fromUtf8 user_data = some found := by
  constructor
  · intro h
    rcases verifyAttestationForSigner_cases libs client signer version pcr0 with
      ⟨e, -, hresult⟩ | ⟨bytes, hfetch, ⟨e, -, hresult⟩ | ⟨doc, hdoc, hchecks⟩⟩
    · rw [h] at hresult
      cases hresult
    · rw [h] at hresult
      cases hresult
    · rw [h] at hchecks
      cases hchecks with
      | otherVersion hpcr0 user_data hdata hne found htext =>
          exact ⟨bytes, doc, user_data, hfetch, hdoc, hpcr0, hdata, hne, rfl, htext⟩
  · rintro ⟨bytes, doc, user_data, hfetch, hdoc, hpcr0, hdata, hne, rfl, hfound⟩
    rw [verifyAttestationForSigner_of_doc hfetch hdoc, verifyPcr0_eq_ok_iff.mpr hpcr0,
      Fallible.ok_bind]
    simp [verifyVersion, hdata, hne, hfound]

/-- What the function can report on this document: it has a measurement at index 0,
and if only the version is another one, then this is a text. -/
def Reportable (version : UInt32) (pcr0 : String) (doc : AttestationDoc) : Prop :=
  (doc.pcrs 0).isSome ∧ (HasPcr0 pcr0 doc → ∀ user_data, doc.user_data = some user_data →
    user_data ≠ versionBytes version → (fromUtf8 user_data).isSome)

theorem reportable_of_not_hasOtherVersion (hpcr0 : HasPcr0 pcr0 doc)
    (h : ¬ HasOtherVersion version doc) : Reportable version pcr0 doc := by
  obtain ⟨actual, hpcr, -⟩ := hpcr0
  exact ⟨by rw [hpcr]; rfl, fun _ user_data hdata hne => absurd ⟨user_data, hdata, hne⟩ h⟩

/-- The result of the checks is the one that belongs to the document, exactly if the
document can be reported on. -/
theorem Checks.verifiedAs_iff {result : Fallible AttestationVerificationError Unit}
    (h : Checks libs signer version pcr0 doc result) :
    VerifiedAs libs signer version pcr0 (.ok doc) result ↔ Reportable version pcr0 doc := by
  have hsame : HasVersion version doc → ¬ HasOtherVersion version doc := by
    rintro hversion ⟨user_data, hdata, hne⟩
    rw [hversion] at hdata
    exact hne (Option.some.inj hdata).symm
  cases h with
  | noPcr0 hpcr =>
      refine iff_of_false id fun hreportable => ?_
      rw [Reportable, hpcr] at hreportable
      cases hreportable.1
  | otherPcr0 actual hpcr hnot =>
      refine iff_of_true ⟨doc, rfl, hnot⟩ ⟨?_, fun hhas => absurd hhas hnot⟩
      rw [hpcr]
      rfl
  | noUserData hpcr0 hdata =>
      refine iff_of_true ⟨doc, rfl, hpcr0, Or.inl ⟨rfl, hdata⟩⟩
        (reportable_of_not_hasOtherVersion hpcr0 ?_)
      rintro ⟨user_data, hsome, -⟩
      rw [hdata] at hsome
      cases hsome
  | notText hpcr0 user_data hdata hne htext =>
      refine iff_of_false id fun hreportable => ?_
      have hfound := hreportable.2 hpcr0 user_data hdata hne
      rw [htext] at hfound
      cases hfound
  | otherVersion hpcr0 user_data hdata hne found htext =>
      refine iff_of_true ⟨doc, rfl, hpcr0, user_data, hdata, hne⟩ ⟨?_, fun _ data h _ => ?_⟩
      · obtain ⟨actual, hpcr, -⟩ := hpcr0
        rw [hpcr]
        rfl
      · rw [hdata] at h
        rw [← Option.some.inj h, htext]
        rfl
  | noKey hpcr0 hversion hderived =>
      exact iff_of_true ⟨doc, rfl, hpcr0, Or.inr ⟨rfl, hversion, hderived⟩⟩
        (reportable_of_not_hasOtherVersion hpcr0 (hsame hversion))
  | otherKey hpcr0 hversion found hderived hne =>
      exact iff_of_true ⟨doc, rfl, hpcr0, hversion, rfl, hderived, hne⟩
        (reportable_of_not_hasOtherVersion hpcr0 (hsame hversion))
  | passed hpcr0 hversion hderived =>
      exact iff_of_true ⟨doc, rfl, hpcr0, hversion, hderived⟩
        (reportable_of_not_hasOtherVersion hpcr0 (hsame hversion))

/-- Exactly on documents that it can report on, the function gives the result that
belongs to the first check that fails. -/
theorem verifyAttestationForSigner_verifiedAs_iff {bytes : Bytes}
    (hfetch : fetch client (toChecksum libs.keccak256 signer) = .ok bytes) :
    VerifiedAs libs signer version pcr0 (verifyAttestation libs bytes)
        (verifyAttestationForSigner libs client signer version pcr0) ↔
      ∀ doc, verifyAttestation libs bytes = .ok doc → Reportable version pcr0 doc := by
  cases hdoc : verifyAttestation libs bytes with
  | error e =>
      rw [verifyAttestationForSigner_of_invalid hfetch hdoc]
      exact ⟨fun _ doc hok => (by cases hok), fun _ => rfl⟩
  | ok doc =>
      have hone : (∀ doc', (.ok doc : Except AttestError AttestationDoc) = .ok doc' →
          Reportable version pcr0 doc') ↔ Reportable version pcr0 doc :=
        ⟨fun hall => hall doc rfl, fun hone _ heq => Except.ok.inj heq ▸ hone⟩
      rw [verifyAttestationForSigner_of_doc hfetch hdoc, hone]
      exact (checks_of_doc libs signer version pcr0 doc).verifiedAs_iff

end Verification

/-! One key, and documents that attest to it for some version. -/

namespace Sample

def public_key : Bytes := 0x04 :: List.replicate 64 0x11

def signer : Address := fromRawPublicKey Keccak.keccak256 (List.replicate 64 0x11)

def doc (version : UInt32) : AttestationDoc where
  pcrs i := if i = 0 then some [0xab] else none
  user_data := some (versionBytes version)
  public_key := some public_key

/-- Only the object `[1]` is a valid document. -/
def libs (doc : AttestationDoc) : Libraries where
  keccak256 := Keccak.keccak256
  validateAndParseAttestationDoc bytes := if bytes = [1] then .ok doc else .error "invalid"
  SP1_TEE_VERSION := 1

def client : S3Client := .of [(toChecksum Keccak.keccak256 signer, [1])]

theorem fetch_client (doc : AttestationDoc) :
    fetch client (toChecksum (libs doc).keccak256 signer) = .ok [1] := by
  simp [fetch, client, libs, S3Client.of, Except.mapError]

theorem verifyAttestation_libs (doc : AttestationDoc) :
    verifyAttestation (libs doc) [1] = .ok doc := by
  simp [verifyAttestation, libs]

theorem reportable_doc : Reportable 2 "0xab" (doc 1) := by
  refine ⟨rfl, fun _ user_data hdata _ => ?_⟩
  cases hdata
  decide +kernel

end Sample

open Sample in
/-- A document for version 1 is refused as one for version 2. -/
theorem verifyAttestationForSigner_verifiedAs_doc :
    VerifiedAs (libs (doc 1)) signer 2 "0xab" (verifyAttestation (libs (doc 1)) [1])
      (verifyAttestationForSigner (libs (doc 1)) client signer 2 "0xab") := by
  rw [verifyAttestationForSigner_verifiedAs_iff (fetch_client (doc 1)), verifyAttestation_libs]
  intro d hd
  rw [← Except.ok.inj hd]
  exact reportable_doc

open Sample in
/-- A document for version 200 is not refused as one: the bytes of the version are not
a text. -/
theorem verifyAttestationForSigner_not_verifiedAs :
    fetch client (toChecksum (libs (doc 200)).keccak256 signer) = .ok [1] ∧
      verifyAttestation (libs (doc 200)) [1] = .ok (doc 200) ∧
      ¬ VerifiedAs (libs (doc 200)) signer 1 "ab" (.ok (doc 200))
        (verifyAttestationForSigner (libs (doc 200)) client signer 1 "ab") := by
  have hresult : verifyAttestationForSigner (libs (doc 200)) client signer 1 "ab" =
      .panic "called Result::unwrap() on an Err value" := by
    rw [verifyAttestationForSigner_of_doc (fetch_client _) (verifyAttestation_libs _)]
    decide +kernel
  refine ⟨fetch_client _, verifyAttestation_libs _, ?_⟩
  rw [hresult]
  exact id

end Host

end Sp1Tee
