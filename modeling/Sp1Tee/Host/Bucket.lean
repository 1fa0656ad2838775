import Sp1Tee.Foundation.Fallible
import Sp1Tee.Host.Address

/-!
# The bucket with the attestations

The host keeps the attestations of all enclaves as objects of one bucket, each under
the printed address of its signer. `getRawAttestations` lists the bucket and fetches
the objects one after the other. It asks for one page of the listing only and takes
for granted that there is one, and that every key is an address.

The client of the object store is not part of this repository. `Serves` is what the
store documents of its answers.
-/

namespace Sp1Tee

open Foundation Foundation.Solidity

namespace Host

/-- The errors of fetching attestations. Those of the libraries are their texts. -/
inductive GetAttestationError
  | ListAttestationsError (e : String)
  | S3GetObjectError (e : String)
  | ParseAddressError (e : String)
  | ByteStreamError (e : String)
deriving DecidableEq

structure RawAttestation where
  address : Address
  attestation : Bytes
deriving DecidableEq

/-- One response of the listing: the keys of its page, and how to go on behind it. -/
structure ListObjectsV2Output where
  contents : Option (List (Option String))
  is_truncated : Bool
  next_continuation_token : Option String

/-- The answers of the store while attestations are fetched: the first page of the
listing, and for a key its object, whose body is a stream of its own. -/
structure S3Client where
  listObjectsV2 : Except String ListObjectsV2Output
  getObject : String → Except String (Except String Bytes)

def fetch (client : S3Client) (key : String) : Fallible GetAttestationError Bytes := do
  let body ← .ofExcept ((client.getObject key).mapError .S3GetObjectError)
  .ofExcept (body.mapError .ByteStreamError)

/-- The loop's body, on the key of a listed object. -/
def getRawAttestation (client : S3Client) (key : Option String) :
    Fallible GetAttestationError RawAttestation := do
  let key ← .expect key "No key found in attestations"
  let key_as_address ← .expect (parseAddress key) "Failed to parse key as address"
  let bytes ← fetch client key
  .ok { address := key_as_address, attestation := bytes }

def getRawAttestations (client : S3Client) :
    Fallible GetAttestationError (List RawAttestation) := do
  let attestation_s3_objs ← .ofExcept (client.listObjectsV2.mapError .ListAttestationsError)
  let contents ← .expect attestation_s3_objs.contents "No contents found in attestations"
  Fallible.each (getRawAttestation client) contents

/-- The answers are those for a bucket with these objects, listed in this order: a
page has at most 1000 keys, there are no contents if there is nothing to list, and a
body is that of its object. -/
structure Serves (client : S3Client) (bucket : List (String × Bytes)) : Prop where
  nodup : (bucket.map Prod.fst).Nodup
  page : ∀ output, client.listObjectsV2 = .ok output →
    ∃ n ≤ 1000, (bucket ≠ [] → 0 < n) ∧
      output.contents =
        (if bucket = [] then none else some ((bucket.take n).map fun object => some object.1)) ∧
      (output.is_truncated = true ↔ n < bucket.length) ∧
      (output.next_continuation_token.isSome = true ↔ n < bucket.length)
  object : ∀ key body, client.getObject key = .ok (.ok body) → (key, body) ∈ bucket

/-- What the documentation of `getRawAttestations` allows: one attestation for each
object of the bucket, or the error that belongs to a failure. -/
inductive Documented (client : S3Client) (bucket : List (String × Bytes)) :
    Fallible GetAttestationError (List RawAttestation) → Prop
  | whole (attestations : List RawAttestation)
      (h : List.Forall₂
        (fun object raw => parseAddress object.1 = some raw.address ∧ raw.attestation = object.2)
        bucket attestations) :
      Documented client bucket (.ok attestations)
  | listing (e : String) (h : client.listObjectsV2 = .error e) :
      Documented client bucket (.err (.ListAttestationsError e))
  | getting (e : String) (object : String × Bytes) (hobject : object ∈ bucket)
      (h : client.getObject object.1 = .error e) :
      Documented client bucket (.err (.S3GetObjectError e))
  | collecting (e : String) (object : String × Bytes) (hobject : object ∈ bucket)
      (h : client.getObject object.1 = .ok (.error e)) :
      Documented client bucket (.err (.ByteStreamError e))
  | parsing (e : String) (object : String × Bytes) (hobject : object ∈ bucket)
      (h : parseAddress object.1 = none) :
      Documented client bucket (.err (.ParseAddressError e))

def Readable (client : S3Client) (key : String) : Prop :=
  ∃ body, client.getObject key = .ok (.ok body)

def firstPage (bucket : List (String × Bytes)) (output : ListObjectsV2Output) :
    List (String × Bytes) :=
  bucket.take (output.contents.getD []).length

/-- If the listing works, it finds something; all keys up to the first object that
cannot be read are addresses; and if the bucket goes on behind the first page, then
one of the objects on this page cannot be read. -/
def Manageable (client : S3Client) (bucket : List (String × Bytes)) : Prop :=
  ∀ output, client.listObjectsV2 = .ok output → bucket ≠ [] ∧
    (∀ before object after, firstPage bucket output = before ++ object :: after →
      (∀ object' ∈ before, Readable client object'.1) → (parseAddress object.1).isSome) ∧
    ((firstPage bucket output).length < bucket.length →
      ∃ object ∈ firstPage bucket output, ¬ Readable client object.1)

variable {client : S3Client} {bucket : List (String × Bytes)}

/-! ## One object -/

theorem getRawAttestation_cases (client : S3Client) (key : String) :
    (parseAddress key = none ∧
      getRawAttestation client (some key) = .panic "Failed to parse key as address") ∨
    ∃ address, parseAddress key = some address ∧
      ((∃ body, client.getObject key = .ok (.ok body) ∧
          getRawAttestation client (some key) = .ok ⟨address, body⟩) ∨
        (∃ e, client.getObject key = .error e ∧
          getRawAttestation client (some key) = .err (.S3GetObjectError e)) ∨
        ∃ e, client.getObject key = .ok (.error e) ∧
          getRawAttestation client (some key) = .err (.ByteStreamError e)) := by
  cases haddress : parseAddress key with
  | none => exact Or.inl ⟨rfl, by simp [getRawAttestation, haddress]⟩
  | some address =>
      refine Or.inr ⟨address, rfl, ?_⟩
      cases hobject : client.getObject key with
      | error e =>
          exact Or.inr (Or.inl ⟨e, rfl, by
            simp [getRawAttestation, haddress, fetch, hobject, Except.mapError]⟩)
      | ok body =>
          cases body with
          | error e =>
              exact Or.inr (Or.inr ⟨e, rfl, by
                simp [getRawAttestation, haddress, fetch, hobject, Except.mapError]⟩)
          | ok body =>
              exact Or.inl ⟨body, rfl, by
                simp [getRawAttestation, haddress, fetch, hobject, Except.mapError]⟩

theorem getRawAttestation_eq_ok_iff {key : String} {raw : RawAttestation} :
    getRawAttestation client (some key) = .ok raw ↔
      parseAddress key = some raw.address ∧ client.getObject key = .ok (.ok raw.attestation) := by
  rcases getRawAttestation_cases client key with
    ⟨haddress, hresult⟩ | ⟨address, haddress, ⟨body, hobject, hresult⟩ | ⟨e, hobject, hresult⟩ |
      ⟨e, hobject, hresult⟩⟩
  · simp [haddress, hresult]
  · rw [haddress, hobject, hresult]
    constructor
    · intro h
      cases h
      exact ⟨rfl, rfl⟩
    · rintro ⟨haddress', hbody⟩
      cases haddress'
      cases hbody
      rfl
  · simp [hobject, hresult]
  · simp [hobject, hresult]

theorem parseAddress_of_panic {key message : String}
    (h : getRawAttestation client (some key) = .panic message) : parseAddress key = none := by
  rcases getRawAttestation_cases client key with
    ⟨haddress, -⟩ | ⟨address, -, ⟨body, -, hresult⟩ | ⟨e, -, hresult⟩ | ⟨e, -, hresult⟩⟩
  · exact haddress
  · rw [hresult] at h
    cases h
  · rw [hresult] at h
    cases h
  · rw [hresult] at h
    cases h

theorem documented_of_err {object : String × Bytes} (hobject : object ∈ bucket)
    {e : GetAttestationError} (h : getRawAttestation client (some object.1) = .err e) :
    Documented client bucket (.err e) ∧ (parseAddress object.1).isSome ∧
      ¬ Readable client object.1 := by
  rcases getRawAttestation_cases client object.1 with
    ⟨-, hresult⟩ | ⟨address, haddress, ⟨body, -, hresult⟩ | ⟨e', hread, hresult⟩ |
      ⟨e', hread, hresult⟩⟩
  · rw [hresult] at h
    cases h
  · rw [hresult] at h
    cases h
  · rw [hresult] at h
    cases h
    refine ⟨.getting e' object hobject hread, by rw [haddress]; rfl, ?_⟩
    rintro ⟨body, hbody⟩
    rw [hread] at hbody
    cases hbody
  · rw [hresult] at h
    cases h
    refine ⟨.collecting e' object hobject hread, by rw [haddress]; rfl, ?_⟩
    rintro ⟨body, hbody⟩
    rw [hread] at hbody
    cases hbody

/-! ## The whole bucket -/

theorem Serves.body_eq (h : Serves client bucket) {object : String × Bytes}
    (hobject : object ∈ bucket) {body : Bytes}
    (hbody : client.getObject object.1 = .ok (.ok body)) : body = object.2 :=
  congrArg Prod.snd (List.inj_on_of_nodup_map h.nodup (h.object _ _ hbody) hobject rfl)

theorem Serves.forall₂_of_loop (h : Serves client bucket) {page : List (String × Bytes)}
    (hpage : page ⊆ bucket) {attestations : List RawAttestation}
    (hall : List.Forall₂ (fun key raw => getRawAttestation client key = .ok raw)
      (page.map fun object => some object.1) attestations) :
    List.Forall₂
      (fun object raw => parseAddress object.1 = some raw.address ∧ raw.attestation = object.2)
      page attestations := by
  rw [List.forall₂_map_left_iff] at hall
  refine ((List.forall₂_and_left page attestations).mpr
    ⟨fun _ hobject => hpage hobject, hall⟩).imp ?_
  rintro object raw ⟨hobject, hraw⟩
  obtain ⟨haddress, hbody⟩ := getRawAttestation_eq_ok_iff.mp hraw
  exact ⟨haddress, h.body_eq hobject hbody⟩

/-- The loop ends early on an object, and has read those before it. -/
theorem exists_of_stopsAt {page : List (String × Bytes)} {key : Option String}
    (h : Fallible.StopsAt (getRawAttestation client)
      (page.map fun object => some object.1) key) :
    ∃ before object after, page = before ++ object :: after ∧ key = some object.1 ∧
      ∀ object' ∈ before, (parseAddress object'.1).isSome ∧ Readable client object'.1 := by
  obtain ⟨keys, keys', hkeys, hread⟩ := h
  obtain ⟨before, rest, rfl, rfl, hrest⟩ := List.map_eq_append_iff.mp hkeys
  obtain ⟨object, after, rfl, rfl, -⟩ := List.map_eq_cons_iff.mp hrest
  refine ⟨before, object, after, rfl, rfl, fun object' hobject' => ?_⟩
  obtain ⟨raw, hraw⟩ := hread _ (List.mem_map_of_mem hobject')
  obtain ⟨haddress, hbody⟩ := getRawAttestation_eq_ok_iff.mp hraw
  exact ⟨by rw [haddress]; rfl, raw.attestation, hbody⟩

/-- The object at which another split of the page stands, if this one's is not before
it there. -/
theorem mem_or_eq_of_split {before after before' after' : List (String × Bytes)}
    {object object' : String × Bytes}
    (h : before ++ object :: after = before' ++ object' :: after') (hnot : object ∉ before') :
    object' ∈ before ∨ object' = object := by
  rcases List.append_eq_append_iff.mp h with ⟨middle, hbefore', hmiddle⟩ | ⟨middle, rfl, hmiddle⟩
  · cases middle with
    | nil =>
        cases hmiddle
        exact Or.inr rfl
    | cons o middle =>
        cases hmiddle
        exact absurd (hbefore' ▸ List.mem_append_right before List.mem_cons_self) hnot
  · cases middle with
    | nil =>
        cases hmiddle
        exact Or.inr rfl
    | cons o middle =>
        cases hmiddle
        exact Or.inl (List.mem_append_right before' List.mem_cons_self)

/-- The loop over a page does what the documentation says, exactly if all keys up to
the first object that cannot be read are addresses, and there is such an object unless
the page is the whole bucket. -/
theorem documented_loop_iff (h : Serves client bucket) {page : List (String × Bytes)}
    (hpage : page <+: bucket) :
    Documented client bucket
        (Fallible.each (getRawAttestation client) (page.map fun object => some object.1)) ↔
      (∀ before object after, page = before ++ object :: after →
        (∀ object' ∈ before, Readable client object'.1) → (parseAddress object.1).isSome) ∧
      (page.length < bucket.length → ∃ object ∈ page, ¬ Readable client object.1) := by
  rcases Fallible.each_cases (getRawAttestation client) (page.map fun object => some object.1) with
    ⟨attestations, hok, hall⟩ | ⟨key, e, herr, hstop, hkey⟩ | ⟨key, message, hpanic, hstop, hkey⟩
  · -- the loop goes through the page
    have hobjects := h.forall₂_of_loop hpage.subset hall
    have hread : ∀ object ∈ page, (parseAddress object.1).isSome ∧ Readable client object.1 := by
      intro object hobject
      obtain ⟨raw, hraw⟩ := Fallible.exists_of_forall₂ hall _ (List.mem_map_of_mem hobject)
      obtain ⟨haddress, hbody⟩ := getRawAttestation_eq_ok_iff.mp hraw
      exact ⟨by rw [haddress]; rfl, raw.attestation, hbody⟩
    rw [hok]
    constructor
    · rintro ⟨_, hwhole⟩
      refine ⟨fun before object after hsplit _ => ?_, fun hlt => ?_⟩
      · exact (hread object (hsplit ▸ List.mem_append_right before List.mem_cons_self)).1
      · exact absurd (hobjects.length_eq.trans hwhole.length_eq.symm) (Nat.ne_of_lt hlt)
    · rintro ⟨-, hrest⟩
      have hlength : ¬ page.length < bucket.length := by
        intro hlt
        obtain ⟨object, hobject, hunreadable⟩ := hrest hlt
        exact hunreadable (hread object hobject).2
      have hwhole : page = bucket := hpage.eq_of_length_le (Nat.not_lt.mp hlength)
      exact .whole attestations (hwhole ▸ hobjects)
  · -- an object cannot be read
    obtain ⟨before, object, after, hsplit, rfl, hbefore⟩ := exists_of_stopsAt hstop
    have hobject : object ∈ page := hsplit ▸ List.mem_append_right before List.mem_cons_self
    obtain ⟨hdocumented, haddress, hunreadable⟩ :=
      documented_of_err (hpage.subset hobject) hkey
    rw [herr]
    refine ⟨fun _ => ⟨fun before' object' after' hsplit' hread => ?_, fun _ => ?_⟩,
      fun _ => hdocumented⟩
    · rcases mem_or_eq_of_split (hsplit.symm.trans hsplit')
        fun hmem => hunreadable (hread object hmem) with hmem | rfl
      · exact (hbefore object' hmem).1
      · exact haddress
    · exact ⟨object, hobject, hunreadable⟩
  · -- a key is not an address
    obtain ⟨before, object, after, hsplit, rfl, hbefore⟩ := exists_of_stopsAt hstop
    rw [hpanic]
    refine ⟨fun hdocumented => (by cases hdocumented), fun hmanageable => ?_⟩
    have haddress := hmanageable.1 before object after hsplit fun o ho => (hbefore o ho).2
    rw [parseAddress_of_panic hkey] at haddress
    cases haddress

/-- `getRawAttestations` does what its documentation says exactly if the bucket is
manageable. -/
theorem getRawAttestations_documented_iff (h : Serves client bucket) :
    Documented client bucket (getRawAttestations client) ↔ Manageable client bucket := by
  cases hlist : client.listObjectsV2 with
  | error e =>
      have hresult : getRawAttestations client = .err (.ListAttestationsError e) := by
        simp [getRawAttestations, hlist, Except.mapError]
      rw [hresult]
      refine ⟨fun _ output houtput => ?_, fun _ => .listing e hlist⟩
      rw [hlist] at houtput
      cases houtput
  | ok output =>
      have hone : Manageable client bucket ↔ bucket ≠ [] ∧
          (∀ before object after, firstPage bucket output = before ++ object :: after →
            (∀ object' ∈ before, Readable client object'.1) → (parseAddress object.1).isSome) ∧
          ((firstPage bucket output).length < bucket.length →
            ∃ object ∈ firstPage bucket output, ¬ Readable client object.1) := by
        rw [Manageable, hlist]
        exact ⟨fun hall => hall output rfl, fun hone _ heq => Except.ok.inj heq ▸ hone⟩
      obtain ⟨n, -, -, hcontents, -⟩ := h.page output hlist
      rw [hone]
      by_cases hempty : bucket = []
      · rw [if_pos hempty] at hcontents
        have hresult : getRawAttestations client = .panic "No contents found in attestations" := by
          simp [getRawAttestations, hlist, hcontents, Except.mapError]
        rw [hresult]
        exact ⟨fun hdocumented => (by cases hdocumented),
          fun hmanageable => absurd hempty hmanageable.1⟩
      · rw [if_neg hempty] at hcontents
        have hresult : getRawAttestations client = Fallible.each (getRawAttestation client)
            ((bucket.take n).map fun object => some object.1) := by
          simp [getRawAttestations, hlist, hcontents, Except.mapError]
        have hpage : firstPage bucket output = bucket.take n := by
          rw [firstPage, hcontents, Option.getD_some, List.length_map, List.length_take,
            ← List.take_eq_take_min]
        rw [hresult, hpage, documented_loop_iff h (List.take_prefix n bucket)]
        exact ⟨fun hloop => ⟨hempty, hloop⟩, fun hmanageable => hmanageable.2⟩

/-! A store that always answers, with full pages. -/

def S3Client.of (bucket : List (String × Bytes)) : S3Client where
  listObjectsV2 := .ok {
    contents :=
      if bucket = [] then none else some ((bucket.take 1000).map fun object => some object.1)
    is_truncated := decide (1000 < bucket.length)
    next_continuation_token := if 1000 < bucket.length then some "token" else none }
  getObject key :=
    match bucket.find? fun object => object.1 == key with
    | some object => .ok (.ok object.2)
    | none => .error "NoSuchKey"

theorem serves_of {bucket : List (String × Bytes)} (h : (bucket.map Prod.fst).Nodup) :
    Serves (.of bucket) bucket where
  nodup := h
  page output houtput := by
    cases houtput
    refine ⟨1000, Nat.le_refl _, fun _ => by decide, rfl, decide_eq_true_iff, ?_⟩
    split <;> simp_all
  object key body hbody := by
    simp only [S3Client.of] at hbody
    split at hbody
    · next object hfind =>
      cases hbody
      have hkey := List.find?_some hfind
      rw [beq_iff_eq] at hkey
      exact hkey ▸ List.mem_of_find?_eq_some hfind
    · cases hbody

/-- A bucket with the attestations of three enclaves, one of which is empty. -/
def threeSigners : List (String × Bytes) :=
  [("0x0123456789abcdef0123456789ABCDEF01234567", [1, 2, 3]),
    ("0x1111111111111111111111111111111111111111", []),
    ("89abcdef0123456789abcdef0123456789ABCDEF", [4])]

theorem getRawAttestations_documented_threeSigners :
    Documented (.of threeSigners) threeSigners (getRawAttestations (.of threeSigners)) := by
  have hserves : Serves (.of threeSigners) threeSigners := serves_of (by decide)
  have haddresses : ∀ object ∈ threeSigners, (parseAddress object.1).isSome := by decide +kernel
  refine (getRawAttestations_documented_iff hserves).mpr fun output houtput => ?_
  cases houtput
  refine ⟨List.cons_ne_nil _ _, fun before object after hpage _ => ?_, fun hlt => ?_⟩
  · have hmem : object ∈ firstPage threeSigners _ :=
      hpage ▸ List.mem_append_right before List.mem_cons_self
    exact haddresses object (List.take_subset _ _ hmem)
  · exact absurd hlt (by decide)

/-- A bucket with an object that is not an attestation. -/
def readme : List (String × Bytes) := [("README.md", [])]

/-- A key that is not an address ends with a panic, and so does an empty bucket. -/
theorem getRawAttestations_not_documented :
    (Serves (.of readme) readme ∧
      ¬ Documented (.of readme) readme (getRawAttestations (.of readme))) ∧
    Serves (.of []) [] ∧ ¬ Documented (.of []) [] (getRawAttestations (.of [])) := by
  have hreadme : getRawAttestations (.of readme) = .panic "Failed to parse key as address" := by
    decide +kernel
  have hempty : getRawAttestations (.of []) = .panic "No contents found in attestations" := by
    decide +kernel
  refine ⟨⟨serves_of (List.nodup_singleton _), ?_⟩, serves_of List.nodup_nil, ?_⟩
  · rw [hreadme]
    nofun
  · rw [hempty]
    nofun

end Host

end Sp1Tee
