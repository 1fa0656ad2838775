import Mathlib.Data.List.ReduceOption
import Sp1Tee.Host.Attestations
import Sp1Tee.Host.Execute

/-!
# The endpoint that lists the signers

`getSigners` answers with the addresses of all signers of its own version that the
bucket has a valid attestation for. It drops documents that do not validate and those
of other versions. A valid document without its fields is another matter: the handler
panics, or fails as a whole.
-/

namespace Sp1Tee

open Foundation Foundation.Solidity

namespace Host

/-- What the pipeline makes of one attestation: the address of a signer, or nothing. -/
def signerOf (libs : Libraries) (raw : RawAttestation) : Fallible ServerError (Option Address) :=
  match verifyAttestation libs raw.attestation with
  | .error _ => .ok none
  | .ok doc => do
    let user_data ← .expect doc.user_data "No user data found in attestation"
    if user_data = versionBytes libs.SP1_TEE_VERSION then do
      let public_key ← .expect doc.public_key "No public key found in attestation"
      let address ← .okOr (ethereumAddressFromSec1Bytes libs.keccak256 public_key)
        .FailedToConvertPublicKeyToAddress
      .ok (some address)
    else
      .ok none

/-- The pipeline. It is lazy, so that it ends with the first attestation that fails. -/
def collectSigners (libs : Libraries) (all_attestations : List RawAttestation) :
    Fallible ServerError (List Address) := do
  let signers ← Fallible.each (signerOf libs) all_attestations
  .ok signers.reduceOption

/-- The handler, with the serialization of its answer. -/
def getSigners (libs : Libraries) (serialize : List Address → Except String Bytes)
    (client : S3Client) : Fallible ServerError Bytes := do
  let all_attestations ← (getRawAttestations client).mapErr .FailedToGetAttestations
  let signers ← collectSigners libs all_attestations
  .expectOk (serialize signers) "failed to serialize signers"

/-! ## One attestation -/

/-- An attestation of the address as a signer of the host's version. -/
def ListedAs (libs : Libraries) (raw : RawAttestation) (address : Address) : Prop :=
  ∃ doc, verifyAttestation libs raw.attestation = .ok doc ∧
    HasVersion libs.SP1_TEE_VERSION doc ∧ derivedAddress libs doc = some address

/-- An attestation that the pipeline gets past: if it validates, it carries a version,
and if this is the host's version, then also a key. -/
def Passable (libs : Libraries) (raw : RawAttestation) : Prop :=
  ∀ doc, verifyAttestation libs raw.attestation = .ok doc →
    ∃ user_data, doc.user_data = some user_data ∧
      (user_data = versionBytes libs.SP1_TEE_VERSION → (derivedAddress libs doc).isSome)

section Pipeline

variable {libs : Libraries} {raw : RawAttestation}

theorem signerOf_cases (libs : Libraries) (raw : RawAttestation) :
    (Passable libs raw ∧ signerOf libs raw = .ok none) ∨
    (∃ address, Passable libs raw ∧ ListedAs libs raw address ∧
      signerOf libs raw = .ok (some address)) ∨
    (¬ Passable libs raw ∧ ∀ found, signerOf libs raw ≠ .ok found) := by
  cases hdoc : verifyAttestation libs raw.attestation with
  | error e =>
      refine Or.inl ⟨fun doc hok => ?_, by simp [signerOf, hdoc]⟩
      rw [hdoc] at hok
      cases hok
  | ok doc =>
      have hone : Passable libs raw ↔ ∃ user_data, doc.user_data = some user_data ∧
          (user_data = versionBytes libs.SP1_TEE_VERSION → (derivedAddress libs doc).isSome) := by
        rw [Passable, hdoc]
        exact ⟨fun hall => hall doc rfl, fun hone _ heq => Except.ok.inj heq ▸ hone⟩
      rw [hone]
      cases hdata : doc.user_data with
      | none => exact Or.inr (Or.inr ⟨by simp, by simp [signerOf, hdoc, hdata]⟩)
      | some user_data =>
          by_cases hversion : user_data = versionBytes libs.SP1_TEE_VERSION
          · cases hkey : doc.public_key with
            | none =>
                exact Or.inr (Or.inr ⟨by simp [hversion, derivedAddress, hkey],
                  by simp [signerOf, hdoc, hdata, hversion, hkey]⟩)
            | some public_key =>
                cases haddress : ethereumAddressFromSec1Bytes libs.keccak256 public_key with
                | none =>
                    exact Or.inr (Or.inr ⟨by simp [hversion, derivedAddress, hkey, haddress],
                      by simp [signerOf, hdoc, hdata, hversion, hkey, haddress]⟩)
                | some address =>
                    have hderived : derivedAddress libs doc = some address := by
                      rw [derivedAddress, hkey, Option.bind_some, haddress]
                    refine Or.inr (Or.inl ⟨address, ⟨user_data, rfl, fun _ => ?_⟩,
                      ⟨doc, hdoc, by rw [HasVersion, hdata, hversion], hderived⟩, ?_⟩)
                    · rw [hderived]
                      rfl
                    · simp [signerOf, hdoc, hdata, hversion, hkey, haddress]
          · exact Or.inl ⟨⟨user_data, rfl, fun heq => absurd heq hversion⟩,
              by simp [signerOf, hdoc, hdata, hversion]⟩

/-! ## One more attestation -/

/-- The answer with one more attestation: it has the addresses of the answer before, in
the same order, and at most the address of the new attestation, if it is one of the
host's version. -/
def Extends (libs : Libraries) (raw : RawAttestation) (signers : List Address) :
    Fallible ServerError (List Address) → Prop
  | .ok signers' => signers' = signers ∨ ∃ before after address, signers = before ++ after ∧
      signers' = before ++ address :: after ∧ ListedAs libs raw address
  | _ => False

theorem collectSigners_eq_ok_iff {attestations : List RawAttestation} {signers : List Address} :
    collectSigners libs attestations = .ok signers ↔
      ∃ found, Fallible.each (signerOf libs) attestations = .ok found ∧
        found.reduceOption = signers := by
  rw [collectSigners, Fallible.bind_eq_ok]
  simp only [Fallible.ok.injEq]

/-- One more attestation, wherever it is listed, leaves the answer as it was up to its
own address, exactly if the pipeline gets past it. -/
theorem collectSigners_extends_iff {before after : List RawAttestation} {signers : List Address}
    (h : collectSigners libs (before ++ after) = .ok signers) :
    Extends libs raw signers (collectSigners libs (before ++ raw :: after)) ↔
      Passable libs raw := by
  obtain ⟨found, hfound, rfl⟩ := collectSigners_eq_ok_iff.mp h
  rw [Fallible.each_append] at hfound
  obtain ⟨found₁, hbefore, hrest⟩ := Fallible.bind_eq_ok.mp hfound
  obtain ⟨found₂, hafter, heq⟩ := Fallible.bind_eq_ok.mp hrest
  cases heq
  have hresult : collectSigners libs (before ++ raw :: after) = (do
      let address ← signerOf libs raw
      .ok (found₁ ++ address :: found₂).reduceOption) := by
    rw [collectSigners, Fallible.each_append, hbefore, Fallible.ok_bind, Fallible.each_cons, hafter]
    cases signerOf libs raw <;> rfl
  rw [hresult, List.reduceOption_append]
  rcases signerOf_cases libs raw with
    ⟨hpassable, hsigner⟩ | ⟨address, hpassable, hlisted, hsigner⟩ | ⟨hnot, hsigner⟩
  · rw [hsigner, Fallible.ok_bind, List.reduceOption_append, List.reduceOption_cons_of_none]
    exact iff_of_true (Or.inl rfl) hpassable
  · rw [hsigner, Fallible.ok_bind, List.reduceOption_append, List.reduceOption_cons_of_some]
    exact iff_of_true (Or.inr ⟨_, _, address, rfl, rfl, hlisted⟩) hpassable
  · refine iff_of_false ?_ hnot
    cases hresult : signerOf libs raw with
    | ok found => exact absurd hresult (hsigner found)
    | err e => exact id
    | panic message => exact id

/-- The handler answers exactly with the signers of the attestations in the bucket. -/
theorem getSigners_eq_ok_iff {serialize : List Address → Except String Bytes}
    {client : S3Client} {answer : Bytes} :
    getSigners libs serialize client = .ok answer ↔
      ∃ attestations signers, getRawAttestations client = .ok attestations ∧
        collectSigners libs attestations = .ok signers ∧ serialize signers = .ok answer := by
  simp only [getSigners, Fallible.bind_eq_ok, Fallible.mapErr_eq_ok, Fallible.expectOk_eq_ok]
  constructor
  · rintro ⟨attestations, hattestations, signers, hsigners, hserialize⟩
    exact ⟨attestations, signers, hattestations, hsigners, hserialize⟩
  · rintro ⟨attestations, signers, hattestations, hsigners, hserialize⟩
    exact ⟨attestations, hattestations, signers, hsigners, hserialize⟩

end Pipeline

/-! A document for the host's version, and one that has lost its key. -/

namespace Sample

def keyless : AttestationDoc := { doc 1 with public_key := none }

def twoDocs : Libraries where
  keccak256 := Keccak.keccak256
  validateAndParseAttestationDoc bytes :=
    if bytes = [1] then .ok (doc 1) else if bytes = [2] then .ok keyless else .error "invalid"
  SP1_TEE_VERSION := 1

theorem collectSigners_doc : collectSigners twoDocs [⟨signer, [1]⟩] = .ok [signer] := by
  decide +kernel

end Sample

open Sample in
/-- An object that is not a document is dropped. -/
theorem collectSigners_extends_invalid :
    Extends twoDocs ⟨0, []⟩ [signer] (collectSigners twoDocs [⟨0, []⟩, ⟨signer, [1]⟩]) := by
  have hbefore : collectSigners twoDocs ([] ++ [⟨signer, [1]⟩]) = .ok [signer] :=
    collectSigners_doc
  refine (collectSigners_extends_iff hbefore).mpr fun doc hdoc => ?_
  cases hdoc

open Sample in
/-- A valid document without a key hides the signer that is listed before it. -/
theorem collectSigners_not_extends :
    collectSigners twoDocs [⟨signer, [1]⟩] = .ok [signer] ∧
      ¬ Extends twoDocs ⟨0, [2]⟩ [signer]
        (collectSigners twoDocs [⟨signer, [1]⟩, ⟨0, [2]⟩]) := by
  have hpanic : collectSigners twoDocs [⟨signer, [1]⟩, ⟨0, [2]⟩] =
      .panic "No public key found in attestation" := by
    decide +kernel
  refine ⟨collectSigners_doc, ?_⟩
  rw [hpanic]
  exact id

end Host

end Sp1Tee
