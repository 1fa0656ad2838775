import Sp1Tee.Contracts.SP1TeeVerifier.Log
import Sp1Tee.EndToEnd.Bucket
import Sp1Tee.EndToEnd.Outcomes
import Sp1Tee.Host.Setup
import Sp1Tee.Host.Signers
import Sp1Tee.Host.ValidateSigners

/-!
# What is done with the bucket of a fleet

Whatever the hosts of a fleet write, and whenever it is stored: the attestations that they
were told are saved verify, the endpoint lists their enclaves as signers, the setup tool
registers them, the validation of the contract gets to its end, and the contract accepts
what their enclaves have signed.
-/

namespace Sp1Tee

open Foundation Foundation.Solidity Host

/-- The enclave of the host `i` runs the image that the setup tool is given, if it is. -/
def Fleet.RunsImage {ι : Type} (args : SetupArgs) (pcrs : ι → ℕ → Option Bytes) (i : ι) : Prop :=
  ∀ pcr0, args.pcr0 = some pcr0 → ∃ actual, pcrs i 0 = some actual ∧
    Hex.decode pcr0 = some actual

/-! Two hosts, of different versions. The store confirms the put of one, and gets to that of
the other later. Then a client has the first one's enclave execute the test program. -/

namespace TwoHosts

open Fixture SP1TeeVerifier.Fixture SavedSession

def hostDeps (i : Bool) : Deps ℕ := { deps with SP1_TEE_VERSION := if i then 1 else 2 }

def hostKey (i : Bool) : ℕ := if i then realSigner else 1

def lateActions : List (Saving.Action Unit) :=
  savingActions.dropLast ++ [.session 0 (.put (.error "timeout"))]

def fleetActions : List (Fleet.Action Bool Unit) :=
  savingActions.map (.host true) ++ lateActions.map (.host false) ++ [.land 0]

def clientActions : List (Fleet.Action Bool Unit) :=
  List.map (.host true) [.deployment (.arrive 0 (.execute () [1, 2, 3] 1000)),
    .deployment (.handler 0 .lock),
    .deployment (.handler 0 (.connect (some 2))), .deployment (.handler 0 (.send (.ok ()))),
    .deployment (.deliver 2), .deployment (.enclave 2 .proceed), .deployment (.enclave 2 .proceed),
    .deployment (.enclave 2 (.setup (.ok VKEY))),
    .deployment (.enclave 2 (.run (.ok (.ok VALID_PUBLIC_VALUES)))),
    .deployment (.enclave 2 .proceed), .deployment (.enclave 2 .join),
    .deployment (.enclave 2 (.reply (.ok ()))), .deployment (.handler 0 (.recv (.ok ())))]

def object (i : Bool) : String × Bytes :=
  (toChecksum savingLibs.keccak256 (Fleet.address savingLibs hostDeps hostKey i),
    versionBytes (hostDeps i).SP1_TEE_VERSION ++
      (EncodedPoint.ofPublicKey ((hostDeps i).verifyingKey (hostKey i))).asBytes)

def objects : List (String × Bytes) := [object true, object false]

theorem run_fleetActions :
    ∃ f es f' es', (Fleet.machine hostDeps (fun _ => false) savingLibs.keccak256).run
        (Fleet.start hostKey fun _ => 1) fleetActions = some (f, es) ∧
      (Fleet.machine hostDeps (fun _ => false) savingLibs.keccak256).run f
        clientActions = some (f', es') ∧
      (∀ i, f.bucket.objects (object i).1 = some (object i).2) ∧
      (∀ i, f'.bucket.objects (object i).1 = some (object i).2) ∧
      Fleet.Saved true es ∧
      (0, ClientRequest.execute () [1, 2, 3] 1000, Outcome.execute (.ok Told.success)) ∈
        Saving.outcomes (Fleet.eventsOf true (es ++ es')) := by
  have hrun : ((Fleet.machine hostDeps (fun _ => false) savingLibs.keccak256).run
      (Fleet.start hostKey fun _ => 1) fleetActions).bind (fun r =>
        ((Fleet.machine hostDeps (fun _ => false) savingLibs.keccak256).run r.1
          clientActions).map fun r' => decide
            ((∀ i, r.1.bucket.objects (object i).1 = some (object i).2) ∧
              (∀ i, r'.1.bucket.objects (object i).1 = some (object i).2) ∧
              SaveEvent.returned (.ok ()) ∈ Saving.traceOf 0 (Fleet.eventsOf true r.2) ∧
              (0, ClientRequest.execute () [1, 2, 3] 1000, Outcome.execute (.ok Told.success)) ∈
                Saving.outcomes (Fleet.eventsOf true (r.2 ++ r'.2)))) = some true := by
    decide +kernel
  obtain ⟨⟨f, es⟩, hf, hrest⟩ := Option.bind_eq_some_iff.mp hrun
  obtain ⟨⟨f', es'⟩, hf', hfacts⟩ := Option.map_eq_some_iff.mp hrest
  obtain ⟨hobjects, hobjects', hreturned, htold⟩ := of_decide_eq_true hfacts
  exact ⟨f, es, f', es', hf, hf', hobjects, hobjects',
    ⟨0, Machine.mem_filterMap_ofIndex_iff.mp (Saving.mem_traceOf_iff.mp hreturned)⟩, htold⟩

theorem genuine_fleetActions :
    ∀ a ∈ fleetActions, a.Genuine savingLibs fun _ => savingPcrs := by
  simp [fleetActions, lateActions, savingActions, Fleet.Action.Genuine, Saving.Action.Genuine,
    Deployment.Action.Genuine, Enclave.Input.Genuine, faithful_savingNsm]

theorem genuine_clientActions :
    ∀ a ∈ clientActions, a.Genuine savingLibs fun _ => savingPcrs := by
  simp [clientActions, Fleet.Action.Genuine, Saving.Action.Genuine, Deployment.Action.Genuine,
    Enclave.Input.Genuine]

theorem address_injective :
    Function.Injective (Fleet.address savingLibs hostDeps hostKey) := by
  have hne : Fleet.address savingLibs hostDeps hostKey true ≠
      Fleet.address savingLibs hostDeps hostKey false := by decide +kernel
  intro i j h
  cases i with
  | true =>
      cases j with
      | true => rfl
      | false => exact absurd h hne
  | false =>
      cases j with
      | true => exact absurd h.symm hne
      | false => rfl

theorem address_ne_zero : ∀ i, Fleet.address savingLibs hostDeps hostKey i ≠ 0 := by
  decide +kernel

theorem lists_objects {f : Fleet Bool ℕ Unit} {es : List (Bool × Saving.Event Unit)}
    (h : Fleet.Kept savingLibs hostDeps hostKey (fun _ => savingPcrs) f es)
    (hobjects : ∀ i, f.bucket.objects (object i).1 = some (object i).2) :
    Fleet.Lists f objects := by
  rintro ⟨object_key, body⟩
  constructor
  · intro hmem
    rcases List.mem_pair.mp hmem with heq | heq
    · exact heq ▸ hobjects true
    · exact heq ▸ hobjects false
  · intro hobject
    obtain ⟨i, hi⟩ := h.bucket.object _ _ hobject
    obtain rfl : object_key = (object i).1 := hi.object_key
    obtain rfl : (object i).2 = body := Option.some.inj ((hobjects i).symm.trans hobject)
    cases i with
    | true => exact List.mem_cons_self
    | false => exact List.mem_cons_of_mem _ List.mem_cons_self

theorem getObject_objects :
    ∀ i, (S3Client.of objects).getObject (object i).1 = .ok (.ok (object i).2) := by
  decide +kernel

theorem getObject_of_mem {o : String × Bytes} (ho : o ∈ objects) :
    (S3Client.of objects).getObject o.1 = .ok (.ok o.2) := by
  rcases List.mem_pair.mp ho with rfl | rfl
  · exact getObject_objects true
  · exact getObject_objects false

theorem servesAll_objects : ServesAll (.of objects) objects where
  toServes := serves_of (by
    simp only [objects, List.map_cons, List.map_nil, List.nodup_cons, List.mem_singleton,
      List.not_mem_nil, not_false_eq_true, List.nodup_nil, and_true]
    exact fun h => by simpa using address_injective (toChecksum_injective _ h))
  listing := ⟨_, rfl, rfl⟩
  readable o ho := ⟨o.2, getObject_of_mem ho⟩

theorem objects_ne_nil : objects ≠ [] := List.cons_ne_nil _ _

def serialize (signers : List Address) : Except String Bytes :=
  .ok (signers.flatMap FixedBytes.toBytes)

def setupArgs : SetupArgs := { pcr0 := some "ab", register_signers := true }

def entries : List (RawAttestation × Node) :=
  [true, false].map fun i =>
    (⟨Fleet.address savingLibs hostDeps hostKey i, (object i).2⟩, ⟨true, .confirmed⟩)

theorem getRawAttestations_objects :
    getRawAttestations (.of objects) = .ok (entries.map Prod.fst) := by
  decide +kernel

theorem confirmed_entries : ∀ entry ∈ entries, entry.2 = ⟨true, .confirmed⟩ := by
  simp [entries]

theorem owner_setUp : owner = setUp.contract.owner := by decide +kernel

theorem runsImage_setupArgs (i : Bool) : Fleet.RunsImage setupArgs (fun _ => savingPcrs) i := by
  rintro pcr0 hpcr0
  cases hpcr0
  exact ⟨[0xab], rfl, by decide⟩

def otherArgs : SetupArgs := { pcr0 := some "cd", register_signers := true }

theorem not_runsImage_otherArgs (i : Bool) :
    ¬ Fleet.RunsImage otherArgs (fun _ => savingPcrs) i := by
  intro h
  obtain ⟨actual, hactual, hdecode⟩ := h "cd" rfl
  cases hactual
  revert hdecode
  decide +kernel

/-- The owner removes the second host's enclave. -/
def removeOther : List SP1TeeVerifier.Tx :=
  [⟨owner, .removeSigner (Fleet.address savingLibs hostDeps hostKey false)⟩]

theorem outcome_setUp : (setup savingLibs setupArgs owner entries setUp).outcome = .ok () := by
  decide +kernel

theorem not_removed :
    .SignerRemoved (Fleet.address savingLibs hostDeps hostKey true) ∉
      SP1TeeVerifier.newEvents (setup savingLibs setupArgs owner entries setUp).chain
        (SP1TeeVerifier.run (setup savingLibs setupArgs owner entries setUp).chain
          removeOther) := by
  decide +kernel

end TwoHosts

namespace Fleet

variable {ι K Stdin : Type} [DecidableEq ι] {libs : Libraries} {deps : ι → Deps K} {key : ι → K}
  {pcrs : ι → ℕ → Option Bytes} {debugMode : ι → Bool} {f f' : Fleet ι K Stdin}
  {past es : List (ι × Saving.Event Stdin)} {i : ι}

/-! ## The objects of the bucket -/

section Listing

variable {client : S3Client} {bucket : List (String × Bytes)}

/-! ## The endpoint that lists the signers -/

omit [DecidableEq ι] in
theorem signerOf_of_document {raw : RawAttestation}
    (haddress : raw.address = address libs deps key i)
    (hdoc : verifyAttestation libs raw.attestation = .ok (documentOf deps key pcrs i)) :
    signerOf libs raw = .ok
      (if (deps i).SP1_TEE_VERSION = libs.SP1_TEE_VERSION then some raw.address else none) := by
  have hderived : ethereumAddressFromSec1Bytes libs.keccak256
      (EncodedPoint.ofPublicKey ((deps i).verifyingKey (key i))).asBytes = some raw.address := by
    rw [haddress]
    exact ethereumAddressFromSec1Bytes_ofPublicKey _ _
  by_cases hversion : (deps i).SP1_TEE_VERSION = libs.SP1_TEE_VERSION
  · simp [signerOf, hdoc, documentOf, hversion, hderived]
  · have hbytes : versionBytes (deps i).SP1_TEE_VERSION ≠ versionBytes libs.SP1_TEE_VERSION :=
      fun heq => hversion (versionBytes_injective heq)
    simp [signerOf, hdoc, documentOf, hversion, hbytes]

theorem reduceOption_map_ite {α β : Type} (p : α → Prop) [DecidablePred p] (g : α → β)
    (as : List α) :
    (as.map fun a => if p a then some (g a) else none).reduceOption =
      (as.filter fun a => p a).map g := by
  induction as with
  | nil => rfl
  | cons a as ih =>
      by_cases ha : p a
      · simp [ha, List.reduceOption_cons_of_some, ih]
      · simp [ha, List.reduceOption_cons_of_none, ih]

omit [DecidableEq ι] in
/-- The pipeline goes through, and keeps the addresses of one version. -/
theorem Collected.collectSigners {f : Fleet ι K Stdin} {attestations : List RawAttestation}
    (h : Collected libs deps key pcrs f attestations)
    (hinj : Function.Injective (address libs deps key)) :
    ∃ signers, Host.collectSigners libs attestations = .ok signers ∧ signers.Nodup ∧
      ∀ a, a ∈ signers ↔ HasObject libs f a ∧ ∃ i, a = address libs deps key i ∧
        (deps i).SP1_TEE_VERSION = libs.SP1_TEE_VERSION := by
  classical
  let listed (raw : RawAttestation) : Prop := ∃ i, raw.address = address libs deps key i ∧
    (deps i).SP1_TEE_VERSION = libs.SP1_TEE_VERSION
  have hsigner : ∀ raw ∈ attestations,
      signerOf libs raw = .ok (if listed raw then some raw.address else none) := by
    intro raw hraw
    obtain ⟨i, haddress, hdoc⟩ := h.certified raw hraw
    have hlisted : listed raw ↔ (deps i).SP1_TEE_VERSION = libs.SP1_TEE_VERSION := by
      constructor
      · rintro ⟨j, hj, hversion⟩
        rwa [hinj (haddress.symm.trans hj)]
      · exact fun hversion => ⟨i, haddress, hversion⟩
    rw [signerOf_of_document haddress hdoc]
    simp only [hlisted]
  have hmap : Fallible.each (signerOf libs) attestations = .ok
      (attestations.map fun raw => if listed raw then some raw.address else none) :=
    Fallible.each_eq_ok_map_iff.mpr hsigner
  refine ⟨(attestations.filter fun raw => listed raw).map RawAttestation.address,
    collectSigners_eq_ok_iff.mpr ⟨_, hmap, reduceOption_map_ite listed _ _⟩,
    h.nodup.sublist (List.filter_sublist.map _), fun a => ?_⟩
  rw [← h.mem_iff, List.mem_map, List.mem_map]
  constructor
  · rintro ⟨raw, hraw, rfl⟩
    obtain ⟨hmem, hlisted⟩ := List.mem_filter.mp hraw
    exact ⟨⟨raw, hmem, rfl⟩, of_decide_eq_true hlisted⟩
  · rintro ⟨⟨raw, hmem, rfl⟩, hlisted⟩
    exact ⟨raw, List.mem_filter.mpr ⟨hmem, decide_eq_true hlisted⟩, rfl⟩

end Listing

/-- In every run of a fleet, if the store answers for a bucket that is not empty, then the
endpoint lists exactly the enclaves of the host's version that have an object, each once.
No other document in the bucket makes it fail, and every host of this version that was
told that an attestation is saved is among them. -/
theorem getSigners_of_run (libs : Libraries) (deps : ι → Deps K) (debugMode : ι → Bool)
    (key : ι → K) (pcrs : ι → ℕ → Option Bytes) (task : ι → TaskId) {as : List (Action ι Stdin)}
    (hinj : Function.Injective (address libs deps key))
    (hgenuine : ∀ a ∈ as, a.Genuine libs pcrs)
    (hrun : (machine deps debugMode libs.keccak256).run (start key task) as = some (f, es))
    {client : S3Client} {bucket : List (String × Bytes)} (hlists : Lists f bucket)
    (hserves : ServesAll client bucket) (hne : bucket ≠ [])
    (serialize : List Address → Except String Bytes) :
    ∃ signers, getSigners libs serialize client =
        .expectOk (serialize signers) "failed to serialize signers" ∧
      signers.Nodup ∧
      (∀ a, a ∈ signers ↔ HasObject libs f a ∧ ∃ i, a = address libs deps key i ∧
        (deps i).SP1_TEE_VERSION = libs.SP1_TEE_VERSION) ∧
      ∀ i, Saved i es → (deps i).SP1_TEE_VERSION = libs.SP1_TEE_VERSION →
        address libs deps key i ∈ signers := by
  have hkept := kept_of_run hgenuine hrun
  obtain ⟨attestations, hattestations, hcollected⟩ := hkept.getRawAttestations hlists hserves hne
  obtain ⟨signers, hsigners, hnodup, hmem⟩ := hcollected.collectSigners hinj
  refine ⟨signers, ?_, hnodup, hmem, fun i hsaved hversion =>
    (hmem _).mpr ⟨hkept.saved i hsaved, i, rfl, hversion⟩⟩
  rw [getSigners, hattestations, Fallible.mapErr_ok, Fallible.ok_bind, hsigners, Fallible.ok_bind]

open TwoHosts SavedSession in
theorem getSigners_of_run_twoHosts :
    ∃ signers : List Address, getSigners savingLibs serialize (.of objects) =
        .ok (signers.flatMap FixedBytes.toBytes) ∧
      address savingLibs hostDeps hostKey true ∈ signers := by
  obtain ⟨f, es, -, -, hrun, -, hobjects, -, hsaved, -⟩ := run_fleetActions
  obtain ⟨signers, hsigners, -, -, hmem⟩ := getSigners_of_run savingLibs hostDeps
    (fun _ => false) hostKey (fun _ => savingPcrs) (fun _ => 1) address_injective
    genuine_fleetActions hrun (lists_objects (kept_of_run genuine_fleetActions hrun) hobjects)
    servesAll_objects objects_ne_nil serialize
  exact ⟨signers, hsigners, hmem true hsaved rfl⟩

/-! ## The setup tool -/

section Setup

open SP1TeeVerifier

variable {args : SetupArgs} {sender : Address} {entries : List (RawAttestation × Node)}
  {chain : Chain}

omit [DecidableEq ι] in
/-- Of a document of the enclave of the host `i`, only the image can be wrong. -/
theorem attested_iff_runsImage {raw : RawAttestation}
    (haddress : raw.address = address libs deps key i)
    (hdoc : verifyAttestation libs raw.attestation = .ok (documentOf deps key pcrs i)) :
    Attested libs args raw ↔ RunsImage args pcrs i := by
  constructor
  · rintro ⟨doc, hdoc', himage, -⟩
    rw [hdoc] at hdoc'
    obtain rfl := Except.ok.inj hdoc'
    exact himage
  · intro himage
    refine ⟨_, hdoc, himage, ?_⟩
    rw [haddress]
    exact derivedAddress_documentOf i

theorem Kept.setup (h : Kept libs deps key pcrs f past) {client : S3Client}
    {bucket : List (String × Bytes)} (hlists : Lists f bucket) (hserves : ServesAll client bucket)
    (hne : bucket ≠ []) (hentries : Host.getRawAttestations client = .ok (entries.map Prod.fst))
    (hregister : args.register_signers = true)
    (hreach : Reachable chain) (howner : sender = chain.contract.owner)
    (hzero : ∀ i, address libs deps key i ≠ 0) :
    Collected libs deps key pcrs f (entries.map Prod.fst) ∧
      Registers libs args sender chain (entries.map Prod.fst)
        (Host.setup libs args sender entries chain) ∧
      ((Host.setup libs args sender entries chain).outcome = .ok () →
        ∀ a, a ∈ (Host.setup libs args sender entries chain).chain.contract.getSigners ↔
          a ∈ chain.contract.getSigners ∨ HasObject libs f a) := by
  obtain ⟨attestations, hattestations, hcollected⟩ := h.getRawAttestations hlists hserves hne
  rw [hentries] at hattestations
  cases hattestations
  have hregisters : Registers libs args sender chain (entries.map Prod.fst)
      (Host.setup libs args sender entries chain) := by
    refine setup_registers_of_sound hregister hreach.sound howner fun entry hentry _ => ?_
    obtain ⟨i, haddress, -⟩ := hcollected.certified entry.1 (List.mem_map_of_mem hentry)
    rw [haddress]
    exact hzero i
  refine ⟨hcollected, hregisters, fun hok a => ?_⟩
  -- a run that completes has found every document attested
  have hattested : ∀ raw ∈ entries.map Prod.fst, Attested libs args raw := by
    intro raw hraw
    obtain ⟨entry, hentry, rfl⟩ := List.mem_map.mp hraw
    obtain ⟨i, -, hdoc⟩ := hcollected.certified entry.1 hraw
    exact attested_of_completed hok hentry (by rw [hdoc]; rfl)
  rw [hregisters.mem_iff, hregisters.completed hok, ← hcollected.mem_iff, List.mem_map]
  refine or_congr_right ⟨?_, ?_⟩
  · rintro ⟨raw, hraw, -, haddress⟩
    exact ⟨raw, hraw, haddress⟩
  · rintro ⟨raw, hraw, haddress⟩
    exact ⟨raw, hraw, hattested raw hraw, haddress⟩

/-- In every run of a fleet, a completed run of the setup tool over its bucket leaves exactly
the signers from before and the enclaves that have an object registered. If the node
answers, it completes exactly if every object is of an enclave that runs the given image:
nothing else in the bucket stops it. -/
theorem setup_of_run (libs : Libraries) (deps : ι → Deps K) (debugMode : ι → Bool)
    (key : ι → K) (pcrs : ι → ℕ → Option Bytes) (task : ι → TaskId) {as : List (Action ι Stdin)}
    (hgenuine : ∀ a ∈ as, a.Genuine libs pcrs)
    (hrun : (machine deps debugMode libs.keccak256).run (start key task) as = some (f, es))
    {client : S3Client} {bucket : List (String × Bytes)} (hlists : Lists f bucket)
    (hserves : ServesAll client bucket) (hne : bucket ≠ [])
    (hentries : Host.getRawAttestations client = .ok (entries.map Prod.fst))
    (hregister : args.register_signers = true)
    (hreach : Reachable chain) (howner : sender = chain.contract.owner)
    (hzero : ∀ i, address libs deps key i ≠ 0) :
    let r := Host.setup libs args sender entries chain
    (r.outcome = .ok () → ∀ a, a ∈ r.chain.contract.getSigners ↔
      a ∈ chain.contract.getSigners ∨ HasObject libs f a) ∧
    ((∀ entry ∈ entries, entry.2 = ⟨true, .confirmed⟩) → (r.outcome = .ok () ↔
      ∀ i object_key body, f.bucket.objects object_key = some body →
        Certifies libs deps key pcrs i object_key body → RunsImage args pcrs i)) := by
  obtain ⟨hcollected, -, hmem⟩ := (kept_of_run hgenuine hrun).setup hlists hserves hne hentries
    hregister hreach howner hzero
  refine ⟨hmem, fun hnode => (setup_outcome_iff hnode).trans ⟨fun hall i object_key body hobject
    hcertifies => ?_, fun himages entry hentry _ => ?_⟩⟩
  · have hhas : HasObject libs f (address libs deps key i) := by
      rw [HasObject, ← hcertifies.object_key, hobject]
      rfl
    obtain ⟨raw, hraw, haddress⟩ := List.mem_map.mp ((hcollected.mem_iff _).mpr hhas)
    obtain ⟨entry, hentry, rfl⟩ := List.mem_map.mp hraw
    have hbody : entry.1.attestation = body := by
      have hstored := hcollected.stored entry.1 hraw
      rw [haddress, ← hcertifies.object_key, hobject] at hstored
      exact (Option.some.inj hstored).symm
    have hdoc := hcertifies.document
    rw [← hbody] at hdoc
    exact (attested_iff_runsImage haddress hdoc).mp (hall entry hentry (by rw [hdoc]; rfl))
  · have hraw : entry.1 ∈ entries.map Prod.fst := List.mem_map_of_mem hentry
    obtain ⟨i, haddress, hdoc⟩ := hcollected.certified entry.1 hraw
    have hobject := hcollected.stored entry.1 hraw
    rw [haddress] at hobject
    exact (attested_iff_runsImage haddress hdoc).mpr (himages i _ _ hobject ⟨rfl, hdoc⟩)

end Setup

open TwoHosts SavedSession SP1TeeVerifier.Fixture in
/-- The first host is a signer already. With another image the tool does not get to its
end. -/
theorem setup_of_run_twoHosts :
    (Host.setup savingLibs setupArgs owner entries setUp).outcome = .ok () ∧
      address savingLibs hostDeps hostKey false ∈
        (Host.setup savingLibs setupArgs owner entries setUp).chain.contract.getSigners ∧
      (Host.setup savingLibs otherArgs owner entries setUp).outcome ≠ .ok () := by
  obtain ⟨f, es, -, -, hrun, -, hobjects, -, -, -⟩ := run_fleetActions
  have hkept := kept_of_run genuine_fleetActions hrun
  have hsetup := fun (args : SetupArgs) (hregister : args.register_signers = true) =>
    setup_of_run savingLibs hostDeps (fun _ => false) hostKey (fun _ => savingPcrs) (fun _ => 1)
      genuine_fleetActions hrun (lists_objects hkept hobjects) servesAll_objects objects_ne_nil
      getRawAttestations_objects hregister reachable_setUp owner_setUp address_ne_zero
  obtain ⟨hmem, hiff⟩ := hsetup setupArgs rfl
  have hok := (hiff confirmed_entries).mpr fun i _ _ _ _ => runsImage_setupArgs i
  have hobject : HasObject savingLibs f (address savingLibs hostDeps hostKey false) :=
    Option.isSome_iff_exists.mpr ⟨_, hobjects false⟩
  refine ⟨hok, (hmem hok _).mpr (Or.inr hobject), fun hother => ?_⟩
  obtain ⟨i, hi⟩ := hkept.bucket.object _ _ (hobjects true)
  exact not_runsImage_otherArgs i
    ((((hsetup otherArgs rfl).2 confirmed_entries).mp hother) i _ _ (hobjects true) hi)

/-! ## The validation of the contract -/

theorem hasObject_of_run {as : List (Action ι Stdin)}
    (hrun : (machine deps debugMode libs.keccak256).run f as = some (f', es)) {a : Address}
    (h : HasObject libs f a) : HasObject libs f' a := by
  refine Machine.run_preserves (I := fun f => HasObject libs f a) (fun {f f' a' es} h hstep => ?_)
    h hrun
  rcases step_cases hstep with ⟨i, a', s, es', -, -, rfl, -⟩ | ⟨n, bucket, hland, rfl, -⟩
  · exact isSome_put h _ _
  · exact ObjectStore.isSome_land h hland

/-- What the validation should report of the signer of a host. -/
def reportOf (deps : ι → Deps K) (version : UInt32) (signer : Address) (i : ι) : Report :=
  if (deps i).SP1_TEE_VERSION = version then .validated signer else .skipped signer version

/-- Once the setup tool has registered the enclaves of a bucket, the validation of the
contract gets to its end at any later time of the fleet, and reports every signer as
validated, or as one of another version: if all run the same image, and the bytes of
these other versions are texts. -/
theorem validateContract_of_run (libs : Libraries) (deps : ι → Deps K) (debugMode : ι → Bool)
    (key : ι → K) (pcrs : ι → ℕ → Option Bytes) (task : ι → TaskId)
    {as as' : List (Action ι Stdin)} {es' : List (ι × Saving.Event Stdin)}
    (hinj : Function.Injective (address libs deps key))
    (hgenuine : ∀ a ∈ as ++ as', a.Genuine libs pcrs)
    (hrun : (machine deps debugMode libs.keccak256).run (start key task) as = some (f, es))
    (hrun' : (machine deps debugMode libs.keccak256).run f as' = some (f', es'))
    {signers : List Address} (hsigners : ∀ a ∈ signers, HasObject libs f a)
    {client : S3Client} (hclient : ∀ object_key body, f'.bucket.objects object_key = some body →
      client.getObject object_key = .ok (.ok body))
    {version : UInt32} {pcr0 : String} {actual : Bytes} (hactual : ∀ i, pcrs i 0 = some actual)
    (hpcr0 : pcr0 = Hex.encode actual ∨ pcr0 = "0x" ++ Hex.encode actual)
    (htext : ∀ i, (deps i).SP1_TEE_VERSION ≠ version →
      (fromUtf8 (versionBytes (deps i).SP1_TEE_VERSION)).isSome) :
    ∃ reports, validateContract libs client (.ok signers) version pcr0 = .ok reports ∧
      List.Forall₂ (fun signer report => ∃ i, signer = address libs deps key i ∧
        report = reportOf deps version signer i) signers reports := by
  have hkept := kept_of_run hgenuine (Machine.run_append_eq_some.mpr ⟨f, es, es', hrun, hrun', rfl⟩)
  refine Fallible.exists_each_eq_ok fun signer hsigner => ?_
  obtain ⟨body, hbody⟩ :=
    Option.isSome_iff_exists.mp (hasObject_of_run hrun' (hsigners signer hsigner))
  obtain ⟨i, hi⟩ := hkept.bucket.object _ _ hbody
  obtain rfl := toChecksum_injective _ hi.object_key
  have hfetch : fetch client (toChecksum libs.keccak256 (address libs deps key i)) = .ok body := by
    rw [fetch, hclient _ _ hbody]
    rfl
  have hhas : HasPcr0 pcr0 (documentOf deps key pcrs i) := hasPcr0_of_encode (hactual i) hpcr0
  have hattests : Attests libs client version pcr0 (address libs deps key i)
      ((fun _ => (deps i).SP1_TEE_VERSION) (address libs deps key i))
      (documentOf deps key pcrs i) :=
    ⟨⟨body, hfetch, hkept.certifies hinj hbody⟩, derivedAddress_documentOf i, rfl, fun _ => hhas⟩
  have hreport : validateSigner libs client version pcr0 (address libs deps key i) =
      .ok (expectedReport version (fun _ => (deps i).SP1_TEE_VERSION) (address libs deps key i)) :=
    (validateSigner_eq_expectedReport_iff hattests).mpr fun hne => ⟨hhas, htext i hne⟩
  exact ⟨_, hreport, i, rfl, rfl⟩

open TwoHosts SavedSession in
/-- The validation after one more execution. -/
theorem validateContract_of_run_twoHosts :
    validateContract savingLibs (.of objects)
        (.ok [address savingLibs hostDeps hostKey false, address savingLibs hostDeps hostKey true])
        1 "0xab" =
      .ok [.skipped (address savingLibs hostDeps hostKey false) 1,
        .validated (address savingLibs hostDeps hostKey true)] := by
  obtain ⟨f, es, f', es', hrun, hrun', hobjects, hobjects', -, -⟩ := run_fleetActions
  have hgenuine := List.forall_mem_append.mpr ⟨genuine_fleetActions, genuine_clientActions⟩
  have hlists := lists_objects (kept_of_run hgenuine
    (Machine.run_append_eq_some.mpr ⟨f, es, es', hrun, hrun', rfl⟩)) hobjects'
  have hclient : ∀ object_key body, f'.bucket.objects object_key = some body →
      (S3Client.of objects).getObject object_key = .ok (.ok body) := by
    intro object_key body hobject
    simpa using getObject_of_mem ((hlists (object_key, body)).mpr hobject)
  have hhas : ∀ i, HasObject savingLibs f (address savingLibs hostDeps hostKey i) := fun i =>
    Option.isSome_iff_exists.mpr ⟨_, hobjects i⟩
  have hactual : ∀ _ : Bool, savingPcrs 0 = some [0xab] := fun _ => rfl
  have hpcr0 : "0xab" = Hex.encode [0xab] ∨ "0xab" = "0x" ++ Hex.encode [0xab] :=
    Or.inr (by decide)
  have htext : ∀ i, (hostDeps i).SP1_TEE_VERSION ≠ 1 →
      (fromUtf8 (versionBytes (hostDeps i).SP1_TEE_VERSION)).isSome := by decide +kernel
  have hsigners : ∀ a ∈ [false, true].map (address savingLibs hostDeps hostKey),
      HasObject savingLibs f a := List.forall_mem_map.mpr fun i _ => hhas i
  obtain ⟨reports, hreports, hall⟩ := validateContract_of_run savingLibs hostDeps
    (fun _ => false) hostKey (fun _ => savingPcrs) (fun _ => 1) address_injective hgenuine
    hrun hrun' hsigners hclient hactual hpcr0 htext
  obtain _ | ⟨⟨i, hi, rfl⟩, hall⟩ := hall
  obtain _ | ⟨⟨j, hj, rfl⟩, ⟨⟩⟩ := hall
  obtain rfl := address_injective hi
  obtain rfl := address_injective hj
  exact hreports

/-! ## The acceptance of what clients are told -/

section Accepted

open SP1TeeVerifier

variable {args : SetupArgs} {sender : Address} {entries : List (RawAttestation × Node)}
  {chain : Chain}

/-- Once the setup tool has gone through the bucket of a fleet, the contract accepts whatever
success a client is told by a host that had saved its attestation before, in front of any
proof that the gateway accepts, until the enclave is removed from the signers. -/
theorem verifyProof_of_setup (libs : Libraries) (deps : ι → Deps K) (debugMode : ι → Bool)
    (key : ι → K) (pcrs : ι → ℕ → Option Bytes) (task : ι → TaskId)
    {as as' : List (Action ι Stdin)} {es' : List (ι × Saving.Event Stdin)}
    (hkeccak : ∀ i, (deps i).keccak256 = libs.keccak256)
    (recover : Bytes32 → ℕ → Bytes32 → Bytes32 → Option PublicKey)
    (hrecover : ∀ i key digest signature recovery_id,
      (deps i).signDigestRecoverable key digest = some (signature, recovery_id) →
      recovery_id = 0 ∨ recovery_id = 1 →
      recover digest recovery_id.toNat signature.r signature.s = some ((deps i).verifyingKey key))
    (hgenuine : ∀ a ∈ as, a.Genuine libs pcrs)
    (hrun : (machine deps debugMode libs.keccak256).run (start key task) as = some (f, es))
    (hrun' : (machine deps debugMode libs.keccak256).run f as' = some (f', es'))
    {client : S3Client} {bucket : List (String × Bytes)} (hlists : Lists f bucket)
    (hserves : ServesAll client bucket)
    (hentries : Host.getRawAttestations client = .ok (entries.map Prod.fst))
    (hregister : args.register_signers = true)
    (hreach : Reachable chain) (howner : sender = chain.contract.owner)
    (hzero : ∀ i, address libs deps key i ≠ 0)
    (hcompleted : (Host.setup libs args sender entries chain).outcome = .ok ())
    {h : ℕ} {request : ClientRequest Stdin} {response : TEEResponse} (hsaved : Saved i es)
    (htold : (h, request, .execute (.ok response)) ∈ Saving.outcomes (eventsOf i (es ++ es')))
    (hlow : response.recovery_id = 27 ∨ response.recovery_id = 28) (txs : List Tx)
    (hremoved : .SignerRemoved (address libs deps key i) ∉
      newEvents (Host.setup libs args sender entries chain).chain
        (run (Host.setup libs args sender entries chain).chain txs))
    (staticcall : GatewayCall → Except Bytes Unit) (inner : Bytes)
    (hinner : staticcall ⟨chain.contract.gateway, response.vkey, response.public_values, inner⟩ =
      .ok ()) :
    verifyProof (Evm.ofRecover libs.keccak256 recover) staticcall
      (run (Host.setup libs args sender entries chain).chain txs).contract response.vkey
      response.public_values
      (clientProofBytes (Evm.ofRecover libs.keccak256 recover) (deps i).SP1_TEE_VERSION response
        inner) = .ok () := by
  have hkept := kept_of_run hgenuine hrun
  have hobject : HasObject libs f (address libs deps key i) := hkept.saved i hsaved
  have hne : bucket ≠ [] := by
    obtain ⟨body, hbody⟩ := Option.isSome_iff_exists.mp hobject
    exact List.ne_nil_of_mem
      ((hlists (toChecksum libs.keccak256 (address libs deps key i), body)).mpr hbody)
  obtain ⟨-, hregisters, hmem⟩ :=
    hkept.setup hlists hserves hne hentries hregister hreach howner hzero
  have hsigner := (hmem hcompleted _).mpr (Or.inr hobject)
  have hreach' : Reachable (Host.setup libs args sender entries chain).chain := by
    rw [hregisters.chain_eq]
    exact hreach.run _
  have hgateway : (run (Host.setup libs args sender entries chain).chain txs).contract.gateway =
      chain.contract.gateway := by
    rw [gateway_of_run, hregisters.chain_eq, gateway_of_run]
  obtain ⟨as'', hhost⟩ := run_host (Machine.run_append_eq_some.mpr ⟨f, es, es', hrun, hrun', rfl⟩) i
  obtain ⟨c, -, hvouched⟩ := Saving.vouched_of_outcomes hhost htold
  have hsigner' := mem_getSigners_of_later hreach'.journaled hsigner hremoved
  rw [address, ← hkeccak i] at hsigner'
  rw [← hkeccak i]
  exact verifyProof_of_vouched (hrecover i) hvouched hlow (hreach'.run txs) hsigner'
    (hgateway ▸ hinner)

end Accepted

open TwoHosts SavedSession Fixture SP1TeeVerifier SP1TeeVerifier.Fixture in
theorem verifyProof_of_setup_twoHosts :
    verifyProof (Evm.ofRecover savingLibs.keccak256 Secp256k1.recover) acceptProof
      (SP1TeeVerifier.run (Host.setup savingLibs setupArgs owner entries setUp).chain
        removeOther).contract VKEY VALID_PUBLIC_VALUES
      (clientProofBytes (Evm.ofRecover savingLibs.keccak256 Secp256k1.recover) 1 Told.success
        proof) = .ok () := by
  obtain ⟨f, es, f', es', hrun, hrun', hobjects, -, hsaved, htold⟩ := run_fleetActions
  exact verifyProof_of_setup savingLibs hostDeps (fun _ => false) hostKey
    (fun _ => savingPcrs) (fun _ => 1) (fun _ => rfl) Secp256k1.recover
    (fun _ key h sig recovery_id hsign _ => recover_deps key h sig recovery_id hsign)
    genuine_fleetActions hrun hrun'
    (lists_objects (kept_of_run genuine_fleetActions hrun) hobjects) servesAll_objects
    getRawAttestations_objects rfl reachable_setUp owner_setUp address_ne_zero
    outcome_setUp hsaved htold (Or.inr rfl) removeOther not_removed acceptProof proof
    (by decide +kernel)

end Fleet

end Sp1Tee
