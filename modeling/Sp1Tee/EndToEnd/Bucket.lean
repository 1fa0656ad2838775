import Sp1Tee.EndToEnd.SavedAttestation
import Sp1Tee.Host.Fleet

/-!
# The bucket of a fleet

Hosts write the attestations of their enclaves to one bucket, in any order, with puts
that fail, or that are stored late. `Fleet.Kept` is what holds in every run nevertheless:
every object of the bucket is a valid attestation of the enclave whose address it is
stored under, and a host that was told once that its attestation is saved has one in the
bucket from then on. Documents do not expire here; `EndToEnd/Freshness` is about their age.

`Collected` says what this makes of the raw attestations that the tools fetch.
-/

namespace Sp1Tee

open Foundation Foundation.Solidity Host

namespace Fleet

variable {ι K Stdin : Type} (libs : Libraries) (deps : ι → Deps K) (key : ι → K)
  (pcrs : ι → ℕ → Option Bytes)

def address (i : ι) : Address := ((deps i).verifyingKey (key i)).address libs.keccak256

/-- What is in an attestation of this enclave. -/
def documentOf (i : ι) : AttestationDoc where
  pcrs := pcrs i
  user_data := some (versionBytes (deps i).SP1_TEE_VERSION)
  public_key := some (EncodedPoint.ofPublicKey ((deps i).verifyingKey (key i))).asBytes

/-- A valid attestation of the enclave of the host `i`, under its address. -/
structure Certifies (i : ι) (object_key : String) (body : Bytes) : Prop where
  object_key : object_key = toChecksum libs.keccak256 (address libs deps key i)
  document : verifyAttestation libs body = .ok (documentOf deps key pcrs i)

/-- The security modules of the host `i` have the measurements `pcrs i`. -/
def Action.Genuine : Action ι Stdin → Prop
  | .host i a => a.Genuine (Faithful libs (pcrs i))
  | .land _ => True

/-- The host `i` was told that an attestation is saved. -/
def Saved (i : ι) (es : List (ι × Saving.Event Stdin)) : Prop :=
  ∃ j, (i, .inr (j, .returned (.ok ()))) ∈ es

/-- What holds of every run of a fleet whose security modules are genuine. -/
structure Kept [DecidableEq ι] (f : Fleet ι K Stdin) (past : List (ι × Saving.Event Stdin)) :
    Prop where
  host : ∀ i, Saving.Sound (deps i) libs.keccak256 (Faithful libs (pcrs i)) (key i) (f.hosts i)
    (eventsOf i past)
  bucket : f.bucket.All fun object_key body => ∃ i, Certifies libs deps key pcrs i object_key body
  saved : ∀ i, Saved i past →
    (f.bucket.objects (toChecksum libs.keccak256 (address libs deps key i))).isSome

variable {libs deps key pcrs} {f f' : Fleet ι K Stdin} {past es : List (ι × Saving.Event Stdin)}
  {i : ι}

theorem derivedAddress_documentOf (i : ι) :
    derivedAddress libs (documentOf deps key pcrs i) = some (address libs deps key i) :=
  ethereumAddressFromSec1Bytes_ofPublicKey _ _

theorem certifies_of_saving {s : Saving K Stdin} {past : List (Saving.Event Stdin)}
    (h : Saving.Sound (deps i) libs.keccak256 (Faithful libs (pcrs i)) (key i) s past) {j c : ℕ}
    {object_key : String} {attestation : Bytes}
    (hstage : s.sessions j = .saving c object_key attestation) :
    Certifies libs deps key pcrs i object_key attestation := by
  have hrecorded := h.session j
  rw [hstage] at hrecorded
  obtain ⟨point, derived, hderived, rfl, htrace⟩ := hrecorded
  have hpoint : point = .ofPublicKey ((deps i).verifyingKey (key i)) :=
    h.received j (.PublicKey point) (by simp [htrace])
  have hattestation : (EnclaveResponse.SigningKeyAttestation attestation).Truthful (deps i)
      (Faithful libs (pcrs i)) (key i) :=
    h.received j (.SigningKeyAttestation attestation) (by simp [htrace])
  rw [hpoint, ethereumAddressFromEncodedPoint_ofPublicKey] at hderived
  exact ⟨by rw [address, Option.some.inj hderived], verifyAttestation_of_truthful hattestation⟩

variable [DecidableEq ι] {debugMode : ι → Bool}

theorem kept_start (task : ι → TaskId) :
    Kept libs deps key pcrs (start key task : Fleet ι K Stdin) [] where
  host i := Saving.sound_start (task i)
  bucket := ObjectStore.all_empty
  saved _ h := by
    obtain ⟨j, hmem⟩ := h
    cases hmem

omit [DecidableEq ι] in
theorem saved_append_map {i' : ι} {es : List (Saving.Event Stdin)}
    (h : Saved i (past ++ es.map fun e => (i', e))) :
    Saved i past ∨ i' = i ∧ ∃ j, .inr (j, .returned (.ok ())) ∈ es := by
  obtain ⟨j, hmem⟩ := h
  rcases List.mem_append.mp hmem with hold | hnew
  · exact Or.inl ⟨j, hold⟩
  · obtain ⟨e, he, heq⟩ := List.mem_map.mp hnew
    cases heq
    exact Or.inr ⟨rfl, j, he⟩

theorem Kept.step_host (h : Kept libs deps key pcrs f past) {a : Saving.Action Stdin}
    (ha : a.Genuine (Faithful libs (pcrs i))) {s : Saving K Stdin} {es : List (Saving.Event Stdin)}
    (hstep : (Saving.machine (deps i) (debugMode i) libs.keccak256).step (f.hosts i) a =
      some (s, es)) :
    Kept libs deps key pcrs
      { hosts := Function.update f.hosts i s, bucket := put f.bucket (f.hosts i) a }
      (past ++ es.map fun e => (i, e)) where
  host j := by
    rw [eventsOf_append, eventsOf_map]
    change Saving.Sound _ _ _ _ (Function.update f.hosts i s j) _
    by_cases hij : i = j
    · subst hij
      rw [if_pos rfl, Function.update_self]
      exact Saving.sound_of_step (h.host i) ha hstep
    · rw [if_neg hij, List.append_nil, Function.update_of_ne (Ne.symm hij)]
      exact h.host j
  bucket := by
    change (put f.bucket (f.hosts i) a).All _
    rcases put_cases f.bucket (f.hosts i) a with
      hput | ⟨j, c, object_key, attestation, hstage, hput | hput⟩
    · rw [hput]
      exact h.bucket
    · rw [hput]
      exact h.bucket.write ⟨i, certifies_of_saving (h.host i) hstage⟩
    · rw [hput]
      exact h.bucket.leave ⟨i, certifies_of_saving (h.host i) hstage⟩
  saved j hsaved := by
    rcases saved_append_map hsaved with hold | ⟨rfl, j, hmem⟩
    · exact isSome_put (h.saved j hold) _ _
    · -- the put that the host is told of is stored under its own address
      obtain ⟨c, object_key, attestation, hstage, rfl⟩ := Saving.put_of_returned_ok hstep hmem
      have hput : put f.bucket (f.hosts i) (.session j (.put (.ok ()))) =
          f.bucket.write object_key attestation := by
        simp only [put, hstage]
      change ((put f.bucket (f.hosts i) (.session j (.put (.ok ())))).objects _).isSome
      rw [hput, ← (certifies_of_saving (h.host i) hstage).object_key]
      exact ObjectStore.isSome_write_self

theorem kept_of_step {a : Action ι Stdin} (h : Kept libs deps key pcrs f past)
    (ha : a.Genuine libs pcrs)
    (hstep : (machine deps debugMode libs.keccak256).step f a = some (f', es)) :
    Kept libs deps key pcrs f' (past ++ es) := by
  rcases step_cases hstep with ⟨i, a', s, es', rfl, hs, rfl, rfl⟩ | ⟨n, bucket, hland, rfl, rfl⟩
  · exact h.step_host ha hs
  · rw [List.append_nil]
    exact ⟨h.host, h.bucket.land hland, fun i hi => ObjectStore.isSome_land (h.saved i hi) hland⟩

theorem kept_of_run {task : ι → TaskId} {as : List (Action ι Stdin)}
    (hgenuine : ∀ a ∈ as, a.Genuine libs pcrs)
    (hrun : (machine deps debugMode libs.keccak256).run (start key task) as = some (f, es)) :
    Kept libs deps key pcrs f es :=
  Machine.run_invariant_of_forall (I := fun f past => Kept libs deps key pcrs f past) kept_of_step
    (kept_start task) hgenuine hrun

/-- The object under the address of an enclave is its own attestation, if no two enclaves
have one address. -/
theorem Kept.certifies (h : Kept libs deps key pcrs f past)
    (hinj : Function.Injective (address libs deps key)) {body : Bytes}
    (hobject : f.bucket.objects (toChecksum libs.keccak256 (address libs deps key i)) =
      some body) :
    verifyAttestation libs body = .ok (documentOf deps key pcrs i) := by
  obtain ⟨j, hj⟩ := h.bucket.object _ _ hobject
  rw [hinj (toChecksum_injective _ hj.object_key)]
  exact hj.document

omit [DecidableEq ι] in
def Lists (f : Fleet ι K Stdin) (bucket : List (String × Bytes)) : Prop :=
  ∀ object, object ∈ bucket ↔ f.bucket.objects object.1 = some object.2

omit [DecidableEq ι] in
def HasObject (libs : Libraries) (f : Fleet ι K Stdin) (a : Address) : Prop :=
  (f.bucket.objects (toChecksum libs.keccak256 a)).isSome

/-- The raw attestations of a bucket: each is one of an enclave under its address, and
every address with an object has one. -/
structure Collected (libs : Libraries) (deps : ι → Deps K) (key : ι → K)
    (pcrs : ι → ℕ → Option Bytes) (f : Fleet ι K Stdin) (attestations : List RawAttestation) :
    Prop where
  certified : ∀ raw ∈ attestations, ∃ i, raw.address = address libs deps key i ∧
    verifyAttestation libs raw.attestation = .ok (documentOf deps key pcrs i)
  stored : ∀ raw ∈ attestations,
    f.bucket.objects (toChecksum libs.keccak256 raw.address) = some raw.attestation
  mem_iff : ∀ a, a ∈ attestations.map RawAttestation.address ↔ HasObject libs f a
  nodup : (attestations.map RawAttestation.address).Nodup

section Listing

variable {client : S3Client} {bucket : List (String × Bytes)}

theorem Kept.certified (h : Kept libs deps key pcrs f past) {object : String × Bytes}
    (hobject : f.bucket.objects object.1 = some object.2) {raw : RawAttestation}
    (haddress : parseAddress object.1 = some raw.address) (hbody : raw.attestation = object.2) :
    object.1 = toChecksum libs.keccak256 raw.address ∧
      ∃ i, raw.address = address libs deps key i ∧
        verifyAttestation libs raw.attestation = .ok (documentOf deps key pcrs i) := by
  obtain ⟨i, hi⟩ := h.bucket.object _ _ hobject
  rw [hi.object_key, parseAddress_toChecksum] at haddress
  have haddress := Option.some.inj haddress
  exact ⟨by rw [hi.object_key, haddress], i, haddress.symm, by rw [hbody]; exact hi.document⟩

theorem Kept.collected (h : Kept libs deps key pcrs f past) (hlists : Lists f bucket)
    (hnodup : (bucket.map Prod.fst).Nodup) {attestations : List RawAttestation}
    (hall : List.Forall₂ (fun object raw => parseAddress object.1 = some raw.address ∧
      raw.attestation = object.2) bucket attestations) :
    Collected libs deps key pcrs f attestations := by
  have hentry := (List.forall₂_and_left bucket attestations).mpr
    ⟨fun _ hobject => (hlists _).mp hobject, hall⟩
  have hkeys : bucket.map Prod.fst =
      (attestations.map RawAttestation.address).map (toChecksum libs.keccak256) := by
    rw [List.map_map, ← List.forall₂_eq_eq_eq, List.forall₂_map_left_iff,
      List.forall₂_map_right_iff]
    exact hentry.imp fun _ _ ⟨hobject, haddress, hbody⟩ =>
      (h.certified hobject haddress hbody).1
  refine ⟨fun raw hraw => ?_, fun raw hraw => ?_, fun a => ?_, ?_⟩
  · obtain ⟨object, -, hobject, haddress, hbody⟩ := Fallible.exists_mem_of_forall₂ hentry raw hraw
    exact (h.certified hobject haddress hbody).2
  · obtain ⟨object, -, hobject, haddress, hbody⟩ := Fallible.exists_mem_of_forall₂ hentry raw hraw
    rw [← (h.certified hobject haddress hbody).1, hobject, hbody]
  · rw [← List.mem_map_of_injective (toChecksum_injective libs.keccak256), ← hkeys, HasObject,
      Option.isSome_iff_exists, List.mem_map]
    constructor
    · rintro ⟨object, hobject, hkey⟩
      exact ⟨object.2, hkey ▸ (hlists object).mp hobject⟩
    · rintro ⟨body, hbody⟩
      exact ⟨_, (hlists (toChecksum libs.keccak256 a, body)).mpr hbody, rfl⟩
  · rw [hkeys] at hnodup
    exact hnodup.of_map _

/-- Where the store answers, the host gets the attestations of the whole bucket. -/
theorem Kept.getRawAttestations (h : Kept libs deps key pcrs f past) (hlists : Lists f bucket)
    (hserves : ServesAll client bucket) (hne : bucket ≠ []) :
    ∃ attestations, Host.getRawAttestations client = .ok attestations ∧
      Collected libs deps key pcrs f attestations := by
  have hparse : ∀ object ∈ bucket, (parseAddress object.1).isSome := by
    intro object hobject
    obtain ⟨i, hi⟩ := h.bucket.object _ _ ((hlists object).mp hobject)
    rw [hi.object_key, parseAddress_toChecksum]
    rfl
  obtain ⟨attestations, hresult, hall⟩ := hserves.getRawAttestations hne hparse
  exact ⟨attestations, hresult, h.collected hlists hserves.nodup hall⟩

end Listing

end Fleet

end Sp1Tee
