import Sp1Tee.Foundation.ObjectStore
import Sp1Tee.Host.Bucket
import Sp1Tee.Host.SaveAttestation

/-!
# Many hosts and one bucket

Every host saves the attestations of its own enclave, and all of them write to the same
bucket. `Fleet.machine` interleaves the hosts. A put that the store confirms is stored
at once. One whose result is an error, or whose session is dropped meanwhile, may be
stored later, or never.

`ServesAll` is what the store does when it answers every request of a listing that fits on
one page.
-/

namespace Sp1Tee

open Foundation Foundation.Solidity Host

namespace Deployment

variable {K Stdin : Type} {deps : Deps K} {debugMode : Bool} {keccak256 : Bytes → Bytes32}
  {d d' : Deployment K Stdin} {stage stage' : SaveStage} {input : SaveInput} {es : List SaveEvent}

theorem put_of_returned_ok
    (h : d.saveAttestation deps debugMode keccak256 stage input = some (d', stage', es))
    (hmem : .returned (.ok ()) ∈ es) :
    ∃ c key attestation, stage = .saving c key attestation ∧ input = .put (.ok ()) := by
  cases saves_of_saveAttestation h with
  | saved c key attestation result =>
      cases input with
      | put outcome =>
          cases outcome with
          | ok _ => exact ⟨c, key, attestation, rfl, rfl⟩
          | error e =>
              cases h
              simp [Except.mapError] at hmem
      | _ => cases h
  | _ => simp at hmem

end Deployment

theorem Saving.put_of_returned_ok {K Stdin : Type} {deps : Deps K} {debugMode : Bool}
    {keccak256 : Bytes → Bytes32} {s s' : Saving K Stdin} {a : Saving.Action Stdin}
    {es : List (Saving.Event Stdin)}
    (hstep : (machine deps debugMode keccak256).step s a = some (s', es)) {j : ℕ}
    (hmem : .inr (j, .returned (.ok ())) ∈ es) :
    ∃ c key attestation, s.sessions j = .saving c key attestation ∧
      a = .session j (.put (.ok ())) := by
  cases a with
  | deployment a =>
      simp only [machine] at hstep
      split at hstep
      · cases hstep
      · cases hstep
        simp at hmem
  | session i input =>
      simp only [machine] at hstep
      split at hstep
      · cases hstep
      · next d stage es' hd =>
        cases hstep
        obtain ⟨e, he, heq⟩ := List.mem_map.mp hmem
        cases heq
        obtain ⟨c, key, attestation, hstage, rfl⟩ := Deployment.put_of_returned_ok hd he
        exact ⟨c, key, attestation, hstage, rfl⟩

/-- Hosts, each with its enclave, and the bucket that all of them write to. -/
structure Fleet (ι K Stdin : Type) where
  hosts : ι → Saving K Stdin
  bucket : ObjectStore String Bytes

namespace Fleet

inductive Action (ι Stdin : Type)
  | host (i : ι) (a : Saving.Action Stdin)
  /-- The store gets to a write that no host has heard of. -/
  | land (n : ℕ)

variable {ι K Stdin : Type} [DecidableEq ι]

/-- What a step of a host does to the bucket. -/
def put (bucket : ObjectStore String Bytes) (s : Saving K Stdin) :
    Saving.Action Stdin → ObjectStore String Bytes
  | .deployment _ => bucket
  | .session j input =>
    match s.sessions j, input with
    | .saving _ key attestation, .put (.ok ()) => bucket.write key attestation
    | .saving _ key attestation, _ => bucket.leave key attestation
    | _, _ => bucket

omit [DecidableEq ι] in
def start (key : ι → K) (task : ι → TaskId) : Fleet ι K Stdin where
  hosts i := .start (key i) (task i)
  bucket := .empty

def machine (deps : ι → Deps K) (debugMode : ι → Bool) (keccak256 : Bytes → Bytes32) :
    Machine (Fleet ι K Stdin) (Action ι Stdin) (ι × Saving.Event Stdin) where
  step f a :=
    match a with
    | .host i a =>
      match (Saving.machine (deps i) (debugMode i) keccak256).step (f.hosts i) a with
      | none => none
      | some (s, es) =>
        some ({ hosts := Function.update f.hosts i s, bucket := put f.bucket (f.hosts i) a },
          es.map fun e => (i, e))
    | .land n =>
      match f.bucket.land n with
      | none => none
      | some bucket => some ({ f with bucket := bucket }, [])

def eventsOf (i : ι) (es : List (ι × Saving.Event Stdin)) : List (Saving.Event Stdin) :=
  es.filterMap (Machine.ofIndex i)

variable {deps : ι → Deps K} {debugMode : ι → Bool} {keccak256 : Bytes → Bytes32}
  {f f' : Fleet ι K Stdin} {es : List (ι × Saving.Event Stdin)}

theorem eventsOf_append (i : ι) (es es' : List (ι × Saving.Event Stdin)) :
    eventsOf i (es ++ es') = eventsOf i es ++ eventsOf i es' := List.filterMap_append

theorem eventsOf_map (i j : ι) (es : List (Saving.Event Stdin)) :
    eventsOf i (es.map fun e => (j, e)) = if j = i then es else [] :=
  Machine.filterMap_ofIndex_map i j es

theorem step_cases {a : Action ι Stdin}
    (hstep : (machine deps debugMode keccak256).step f a = some (f', es)) :
    (∃ i a' s es', a = .host i a' ∧
      (Saving.machine (deps i) (debugMode i) keccak256).step (f.hosts i) a' = some (s, es') ∧
      f' = { hosts := Function.update f.hosts i s, bucket := put f.bucket (f.hosts i) a' } ∧
      es = es'.map fun e => (i, e)) ∨
    ∃ n bucket, f.bucket.land n = some bucket ∧ f' = { f with bucket := bucket } ∧ es = [] := by
  cases a with
  | host i a =>
      simp only [machine] at hstep
      split at hstep
      · cases hstep
      · next s es' hs =>
        cases hstep
        exact Or.inl ⟨i, a, s, es', rfl, hs, rfl, rfl⟩
  | land n =>
      simp only [machine] at hstep
      split at hstep
      · cases hstep
      · next bucket hbucket =>
        cases hstep
        exact Or.inr ⟨n, bucket, hbucket, rfl, rfl⟩

omit [DecidableEq ι] in
/-- A step of a host puts the attestation of a session that is about to save one, or it
leaves the bucket alone. -/
theorem put_cases (bucket : ObjectStore String Bytes) (s : Saving K Stdin)
    (a : Saving.Action Stdin) :
    put bucket s a = bucket ∨ ∃ j c key attestation, s.sessions j = .saving c key attestation ∧
      (put bucket s a = bucket.write key attestation ∨
        put bucket s a = bucket.leave key attestation) := by
  cases a with
  | deployment a => exact Or.inl rfl
  | session j input =>
      cases hstage : s.sessions j with
      | saving c key attestation =>
          refine Or.inr ⟨j, c, key, attestation, hstage, ?_⟩
          cases input with
          | put result =>
              cases result with
              | ok _ => exact Or.inl (by simp only [put, hstage])
              | error e => exact Or.inr (by simp only [put, hstage])
          | _ => exact Or.inr (by simp only [put, hstage])
      | _ => exact Or.inl (by simp [put, hstage])

omit [DecidableEq ι] in
theorem isSome_put {bucket : ObjectStore String Bytes} {key : String}
    (h : (bucket.objects key).isSome) (s : Saving K Stdin) (a : Saving.Action Stdin) :
    ((put bucket s a).objects key).isSome := by
  rcases put_cases bucket s a with hput | ⟨j, c, key', attestation, -, hput | hput⟩
  · rwa [hput]
  · rw [hput]
    exact ObjectStore.isSome_write h
  · rwa [hput]

theorem run_host {as : List (Action ι Stdin)}
    (hrun : (machine deps debugMode keccak256).run f as = some (f', es)) (i : ι) :
    ∃ as', (Saving.machine (deps i) (debugMode i) keccak256).run (f.hosts i) as' =
      some (f'.hosts i, eventsOf i es) := by
  refine Machine.run_project (fun f => f.hosts i) (Machine.ofIndex i)
    (fun {f f' a es} hstep => ?_) hrun
  rcases step_cases hstep with ⟨j, a', s, es', rfl, hs, rfl, rfl⟩ | ⟨n, bucket, -, rfl, rfl⟩
  · rw [Machine.filterMap_ofIndex_map]
    by_cases hji : j = i
    · subst hji
      rw [if_pos rfl]
      exact Or.inr ⟨a', by simpa using hs⟩
    · exact Or.inl ⟨Function.update_of_ne (Ne.symm hji) _ _, if_neg hji⟩
  · exact Or.inl ⟨rfl, rfl⟩

end Fleet

namespace Host

/-! ## A store that answers -/

/-- The store serves the objects, has all of them on the first page, and lets each be read. -/
structure ServesAll (client : S3Client) (bucket : List (String × Bytes)) : Prop
    extends Serves client bucket where
  listing : ∃ output, client.listObjectsV2 = .ok output ∧ output.is_truncated = false
  readable : ∀ object ∈ bucket, Readable client object.1

variable {client : S3Client} {bucket : List (String × Bytes)}

theorem ServesAll.getObject (h : ServesAll client bucket) {object : String × Bytes}
    (hobject : object ∈ bucket) : client.getObject object.1 = .ok (.ok object.2) := by
  obtain ⟨body, hbody⟩ := h.readable object hobject
  rw [hbody, h.body_eq hobject hbody]

theorem ServesAll.getRawAttestations (h : ServesAll client bucket) (hne : bucket ≠ [])
    (hkeys : ∀ object ∈ bucket, (parseAddress object.1).isSome) :
    ∃ attestations, getRawAttestations client = .ok attestations ∧ List.Forall₂
      (fun object raw => parseAddress object.1 = some raw.address ∧ raw.attestation = object.2)
      bucket attestations := by
  obtain ⟨output, hlist, htruncated⟩ := h.listing
  obtain ⟨n, -, -, hcontents, hmark, -⟩ := h.page output hlist
  have hall : bucket.take n = bucket := by
    refine List.take_of_length_le (Nat.not_lt.mp fun hlt => ?_)
    rw [hmark.mpr hlt] at htruncated
    cases htruncated
  rw [if_neg hne, hall] at hcontents
  have hresult : Host.getRawAttestations client = Fallible.each (getRawAttestation client)
      (bucket.map fun object => some object.1) := by
    simp [Host.getRawAttestations, hlist, hcontents, Except.mapError]
  have heach : ∀ key ∈ bucket.map fun object => some object.1,
      ∃ raw, getRawAttestation client key = .ok raw ∧ True := by
    intro key hkey
    obtain ⟨object, hobject, rfl⟩ := List.mem_map.mp hkey
    obtain ⟨address, haddress⟩ := Option.isSome_iff_exists.mp (hkeys object hobject)
    exact ⟨⟨address, object.2⟩,
      getRawAttestation_eq_ok_iff.mpr ⟨haddress, h.getObject hobject⟩, trivial⟩
  obtain ⟨attestations, hok, -⟩ := Fallible.exists_each_eq_ok heach
  exact ⟨attestations, hresult.trans hok,
    h.forall₂_of_loop (List.Subset.refl bucket) (Fallible.each_eq_ok_iff.mp hok)⟩

end Host

end Sp1Tee
