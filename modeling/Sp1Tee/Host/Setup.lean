import Sp1Tee.Contracts.SP1TeeVerifier.Reachable
import Sp1Tee.Host.Attestations

/-!
# Registering the attested signers

The setup tool goes through the raw attestations of the bucket and registers their
signers with the contract. It passes over documents that do not validate, and over
signers that are registered already. It panics if a valid document does not have the
given measurement or does not belong to the address it is stored under, and if the
node does not answer.

`Registers` says what a run does to the registry, whether it completes or not.
-/

namespace Sp1Tee

open Foundation Foundation.Solidity SP1TeeVerifier

namespace Host

/-- The arguments that the loop looks at. -/
structure SetupArgs where
  /-- An optional (hex-encoded) PCR0 to check against. -/
  pcr0 : Option String
  /-- If the signers are registered, and not only printed. -/
  register_signers : Bool

def checkPcr0 (doc : AttestationDoc) (pcr0 : String) : Fallible Empty Unit := do
  let pcr0_bytes ← .expect (Hex.decode pcr0) "Failed to decode pcr0"
  let actual ← .expect (doc.pcrs 0) "no entry found for key"
  if actual ≠ pcr0_bytes then
    .panic "PCR0 mismatch for address"
  else
    .ok ()

/-- PCR0 is optional, as in debug mode PCR0 is empty in the attestation. -/
def checkGivenPcr0 (args : SetupArgs) (doc : AttestationDoc) : Fallible Empty Unit :=
  match args.pcr0 with
  | some pcr0 => checkPcr0 doc pcr0
  | none => .ok ()

/-- The loop's check of the address that an attestation is stored under. -/
def checkAddress (libs : Libraries) (doc : AttestationDoc) (address : Address) :
    Fallible Empty Unit := do
  let pubkey_bytes ← .expect doc.public_key "Public key is not set in attestation"
  let derived_address ← .expect (ethereumAddressFromSec1Bytes libs.keccak256 pubkey_bytes)
    "Failed to derive address from public key"
  if derived_address ≠ address then
    .panic "Address mismatch"
  else
    .ok ()

/-- The part of the loop's body that looks at the entry alone. It returns whether the
loop goes on with the entry. -/
def checkAttestation (libs : Libraries) (args : SetupArgs) (raw : RawAttestation) :
    Fallible Empty Bool :=
  match verifyAttestation libs raw.attestation with
  | .error _ => .ok false
  | .ok doc => do
    checkGivenPcr0 args doc
    checkAddress libs doc raw.address
    .ok true

/-! ## The node -/

/-- What comes of a transaction. If the host does not hear of it, it may have been
executed or not. -/
inductive Sending
  | failed (executed : Bool)
  | unconfirmed (executed : Bool)
  | confirmed
deriving DecidableEq

def Sending.executed : Sending → Bool
  | .failed executed => executed
  | .unconfirmed executed => executed
  | .confirmed => true

/-- What the host gets from the node while it processes one entry. -/
structure Node where
  /-- Whether the call of `isSigner` is answered. -/
  isSigner : Bool
  addSigner : Sending
deriving DecidableEq

/-- A transaction that was sent, and whether it was executed. -/
abbrev Sent := Tx × Bool

def executed (sent : List Sent) : List Tx := (sent.filter Prod.snd).map Prod.fst

/-- The part of the loop's body that is about the contract. It returns what was sent. -/
def registerSigner (args : SetupArgs) (sender : Address) (node : Node) (address : Address)
    (chain : Chain) : List Sent × Fallible Empty Unit :=
  if !node.isSigner then
    ([], .panic "Failed to check if signer is registered")
  else if chain.contract.isSigner address then
    ([], .ok ())
  else if args.register_signers then
    let sent := [(⟨sender, .addSigner address⟩, node.addSigner.executed)]
    match node.addSigner with
    | .failed _ => (sent, .panic "Failed send tx to add signer")
    | .unconfirmed _ => (sent, .panic "Failed to get confirmation of adding signer")
    | .confirmed => (sent, .ok ())
  else
    ([], .ok ())

def setupEntry (libs : Libraries) (args : SetupArgs) (sender : Address) (raw : RawAttestation)
    (node : Node) (chain : Chain) : List Sent × Fallible Empty Unit :=
  match checkAttestation libs args raw with
  | .ok true => registerSigner args sender node raw.address chain
  | .ok false => ([], .ok ())
  | .panic message => ([], .panic message)

/-- The run of the loop: what it has sent, the chain at its end, and how it has ended.
An entry is processed once the loop has gone on behind it, or its transaction was
executed. -/
structure SetupRun where
  chain : Chain
  sent : List Sent
  processed : List RawAttestation
  outcome : Fallible Empty Unit

/-- The loop, with what the node answers for each entry. Nobody else changes the
contract meanwhile. -/
def setup (libs : Libraries) (args : SetupArgs) (sender : Address) :
    List (RawAttestation × Node) → Chain → SetupRun
  | [], chain => { chain := chain, sent := [], processed := [], outcome := .ok () }
  | (raw, node) :: entries, chain =>
    let (sent, outcome) := setupEntry libs args sender raw node chain
    let chain := run chain (executed sent)
    match outcome with
    | .ok () =>
      let rest := setup libs args sender entries chain
      { rest with sent := sent ++ rest.sent, processed := raw :: rest.processed }
    | .panic message =>
      { chain := chain, sent := sent, processed := if executed sent = [] then [] else [raw],
        outcome := .panic message }

section Runs

variable {libs : Libraries} {args : SetupArgs} {sender : Address} {raw : RawAttestation}
  {node : Node} {chain : Chain}

@[simp] theorem executed_nil : executed [] = [] := rfl

/-! ## One entry -/

/-- An entry whose address belongs into the registry: its document validates, has the
given measurement, if one is given, and belongs to the address. -/
def Attested (libs : Libraries) (args : SetupArgs) (raw : RawAttestation) : Prop :=
  ∃ doc, verifyAttestation libs raw.attestation = .ok doc ∧
    (∀ pcr0, args.pcr0 = some pcr0 → ∃ actual, doc.pcrs 0 = some actual ∧
      Hex.decode pcr0 = some actual) ∧
    derivedAddress libs doc = some raw.address

theorem checkPcr0_eq_ok_iff {doc : AttestationDoc} {pcr0 : String} :
    checkPcr0 doc pcr0 = .ok () ↔
      ∃ actual, doc.pcrs 0 = some actual ∧ Hex.decode pcr0 = some actual := by
  cases hdecode : Hex.decode pcr0 with
  | none => simp [checkPcr0, hdecode]
  | some pcr0_bytes =>
      cases hpcr : doc.pcrs 0 with
      | none => simp [checkPcr0, hdecode, hpcr]
      | some actual =>
          by_cases heq : actual = pcr0_bytes
          · simp [checkPcr0, hdecode, hpcr, heq]
          · simp [checkPcr0, hdecode, hpcr, heq, Ne.symm heq]

theorem checkGivenPcr0_eq_ok_iff {doc : AttestationDoc} :
    checkGivenPcr0 args doc = .ok () ↔ ∀ pcr0, args.pcr0 = some pcr0 →
      ∃ actual, doc.pcrs 0 = some actual ∧ Hex.decode pcr0 = some actual := by
  cases hargs : args.pcr0 with
  | none => simp [checkGivenPcr0, hargs]
  | some pcr0 => simp [checkGivenPcr0, hargs, checkPcr0_eq_ok_iff]

theorem checkAddress_eq_ok_iff {doc : AttestationDoc} {address : Address} :
    checkAddress libs doc address = .ok () ↔ derivedAddress libs doc = some address := by
  cases hkey : doc.public_key with
  | none => simp [checkAddress, derivedAddress, hkey]
  | some pubkey_bytes =>
      cases hderived : ethereumAddressFromSec1Bytes libs.keccak256 pubkey_bytes with
      | none => simp [checkAddress, derivedAddress, hkey, hderived]
      | some derived_address =>
          by_cases heq : derived_address = address
          · simp [checkAddress, derivedAddress, hkey, hderived, heq]
          · simp [checkAddress, derivedAddress, hkey, hderived, heq]

theorem checkAttestation_eq_ok_true_iff :
    checkAttestation libs args raw = .ok true ↔ Attested libs args raw := by
  cases hdoc : verifyAttestation libs raw.attestation with
  | error e => simp [checkAttestation, Attested, hdoc]
  | ok doc =>
      simp only [checkAttestation, Attested, hdoc, Except.ok.injEq, exists_eq_left',
        ← checkGivenPcr0_eq_ok_iff, ← checkAddress_eq_ok_iff]
      constructor
      · intro h
        obtain ⟨⟨⟩, hpcr0, hrest⟩ := Fallible.bind_eq_ok.mp h
        obtain ⟨⟨⟩, haddress, -⟩ := Fallible.bind_eq_ok.mp hrest
        exact ⟨hpcr0, haddress⟩
      · rintro ⟨hpcr0, haddress⟩
        rw [hpcr0, haddress]
        rfl

theorem registerSigner_cases (hregister : args.register_signers = true) (sender : Address)
    (node : Node) (address : Address) (chain : Chain) :
    (∃ message, registerSigner args sender node address chain = ([], .panic message)) ∨
    (chain.contract.isSigner address = true ∧
      registerSigner args sender node address chain = ([], .ok ())) ∨
    (chain.contract.isSigner address = false ∧ ∃ executed message,
      registerSigner args sender node address chain =
        ([(⟨sender, .addSigner address⟩, executed)], .panic message)) ∨
    (chain.contract.isSigner address = false ∧
      registerSigner args sender node address chain =
        ([(⟨sender, .addSigner address⟩, true)], .ok ())) := by
  cases hcall : node.isSigner with
  | false =>
      exact Or.inl ⟨"Failed to check if signer is registered", by simp [registerSigner, hcall]⟩
  | true =>
      refine Or.inr ?_
      cases hsigner : chain.contract.isSigner address with
      | true => exact Or.inl ⟨rfl, by simp [registerSigner, hcall, hsigner]⟩
      | false =>
          refine Or.inr ?_
          cases hsending : node.addSigner with
          | failed executed =>
              exact Or.inl ⟨rfl, executed, "Failed send tx to add signer", by
                simp [registerSigner, hcall, hsigner, hregister, hsending, Sending.executed]⟩
          | unconfirmed executed =>
              exact Or.inl ⟨rfl, executed, "Failed to get confirmation of adding signer", by
                simp [registerSigner, hcall, hsigner, hregister, hsending, Sending.executed]⟩
          | confirmed =>
              exact Or.inr ⟨rfl, by
                simp [registerSigner, hcall, hsigner, hregister, hsending, Sending.executed]⟩

/-- What can come of an entry: nothing is sent, and the loop goes on only if the entry
is not attested or its address is registered; or a transaction for an attested address
that is not registered is sent, and the loop goes on only if it was executed. -/
theorem setupEntry_cases (hregister : args.register_signers = true) (libs : Libraries)
    (sender : Address) (raw : RawAttestation) (node : Node) (chain : Chain) :
    (∃ outcome, setupEntry libs args sender raw node chain = ([], outcome) ∧
      (outcome = .ok () → Attested libs args raw →
        chain.contract.isSigner raw.address = true)) ∨
    (Attested libs args raw ∧ chain.contract.isSigner raw.address = false ∧
      ∃ executed outcome, setupEntry libs args sender raw node chain =
          ([(⟨sender, .addSigner raw.address⟩, executed)], outcome) ∧
        (outcome = .ok () → executed = true)) := by
  have hattested : checkAttestation libs args raw = .ok true ↔ Attested libs args raw :=
    checkAttestation_eq_ok_true_iff
  cases hcheck : checkAttestation libs args raw with
  | err e => cases e
  | panic message =>
      refine Or.inl ⟨.panic message, by rw [setupEntry, hcheck], fun hok => by cases hok⟩
  | ok attested =>
      cases attested with
      | false =>
          refine Or.inl ⟨.ok (), by rw [setupEntry, hcheck], fun _ h => ?_⟩
          rw [hattested.mpr h] at hcheck
          cases hcheck
      | true =>
          have hentry : setupEntry libs args sender raw node chain =
              registerSigner args sender node raw.address chain := by
            rw [setupEntry, hcheck]
          rw [hentry]
          rcases registerSigner_cases hregister sender node raw.address chain with
            ⟨message, hresult⟩ | ⟨hsigner, hresult⟩ | ⟨hsigner, executed, message, hresult⟩ |
              ⟨hsigner, hresult⟩
          · exact Or.inl ⟨_, hresult, fun hok => (by cases hok)⟩
          · exact Or.inl ⟨_, hresult, fun _ _ => hsigner⟩
          · exact Or.inr ⟨hattested.mp hcheck, hsigner, executed, _, hresult,
              fun hok => (by cases hok)⟩
          · exact Or.inr ⟨hattested.mp hcheck, hsigner, true, _, hresult, fun _ => rfl⟩

/-- The loop does not get past an entry: its document validates, but it has another
measurement or belongs to another address, or the node fails. -/
def Blocked (libs : Libraries) (args : SetupArgs) (contract : SP1TeeVerifier)
    (entry : RawAttestation × Node) : Prop :=
  (verifyAttestation libs entry.1.attestation).isOk ∧
    (Attested libs args entry.1 → entry.2.isSigner = false ∨
      (contract.isSigner entry.1.address = false ∧ args.register_signers = true ∧
        entry.2.addSigner ≠ .confirmed))

theorem registerSigner_ok_iff {address : Address} :
    (registerSigner args sender node address chain).2 = .ok () ↔ node.isSigner = true ∧
      (chain.contract.isSigner address = true ∨ args.register_signers = false ∨
        node.addSigner = .confirmed) := by
  cases hcall : node.isSigner with
  | false => simp [registerSigner, hcall]
  | true =>
      cases hsigner : chain.contract.isSigner address with
      | true => simp [registerSigner, hcall, hsigner]
      | false =>
          cases hregister : args.register_signers with
          | false => simp [registerSigner, hcall, hsigner, hregister]
          | true => cases hsending : node.addSigner <;>
              simp [registerSigner, hcall, hsigner, hregister, hsending]

theorem setupEntry_ok_iff :
    (setupEntry libs args sender raw node chain).2 = .ok () ↔
      ¬ Blocked libs args chain.contract (raw, node) := by
  have hattested : checkAttestation libs args raw = .ok true ↔ Attested libs args raw :=
    checkAttestation_eq_ok_true_iff
  rw [Blocked]
  cases hdoc : verifyAttestation libs raw.attestation with
  | error e =>
      have hskip : checkAttestation libs args raw = .ok false := by rw [checkAttestation, hdoc]
      simp [setupEntry, hskip, Except.isOk, Except.toBool]
  | ok doc =>
      by_cases h : Attested libs args raw
      · rw [setupEntry, hattested.mpr h]
        simp only [registerSigner_ok_iff, h, forall_const, Except.isOk, Except.toBool, true_and]
        grind
      · have hpanic : (setupEntry libs args sender raw node chain).2 ≠ .ok () := by
          rw [setupEntry]
          cases hcheck : checkAttestation libs args raw with
          | err e => cases e
          | panic message => simp
          | ok goesOn =>
              cases goesOn with
              | true => exact absurd (hattested.mp hcheck) h
              | false => simp [checkAttestation, hdoc, Fallible.bind_eq_ok] at hcheck
        simp [hpanic, h, Except.isOk, Except.toBool]

/-! ## The whole list -/

/-- What a run has done to the registry of a chain: every transaction adds a signer and
does not fail, all signers stay, and those that have come are the addresses of the
attested entries among the processed ones. -/
structure Registers (libs : Libraries) (args : SetupArgs) (sender : Address) (start : Chain)
    (entries : List RawAttestation) (r : SetupRun) : Prop where
  chain_eq : r.chain = run start (executed r.sent)
  processed_prefix : r.processed <+: entries
  completed : r.outcome = .ok () → r.processed = entries
  succeeds : ∀ before tx after, r.sent = before ++ tx :: after →
    ∃ a result, tx.1 = ⟨sender, .addSigner a⟩ ∧
      (run start (executed before)).contract.call tx.1 = .ok result
  added : ∃ added : List Address, executed r.sent = added.map (fun a => ⟨sender, .addSigner a⟩) ∧
    r.chain.contract.getSigners = start.contract.getSigners ++ added
  mem_iff : ∀ a, a ∈ r.chain.contract.getSigners ↔
    a ∈ start.contract.getSigners ∨ ∃ raw ∈ r.processed, Attested libs args raw ∧ raw.address = a

section Steps

variable {entries : List RawAttestation} {r : SetupRun}

theorem registers_of_stop (entries : List RawAttestation) {outcome : Fallible Empty Unit}
    (h : outcome = .ok () → entries = []) :
    Registers libs args sender chain entries
      { chain := chain, sent := [], processed := [], outcome := outcome } where
  chain_eq := rfl
  processed_prefix := List.nil_prefix
  completed hok := (h hok).symm
  succeeds before tx after hsplit := by cases before <;> cases hsplit
  added := ⟨[], rfl, (List.append_nil _).symm⟩
  mem_iff a := by simp

theorem Registers.pass (hr : Registers libs args sender chain entries r)
    (hsigner : Attested libs args raw → raw.address ∈ chain.contract.getSigners) :
    Registers libs args sender chain (raw :: entries)
      { r with processed := raw :: r.processed } where
  chain_eq := hr.chain_eq
  processed_prefix := (List.cons_prefix_cons).mpr ⟨rfl, hr.processed_prefix⟩
  completed hok := congrArg (raw :: ·) (hr.completed hok)
  succeeds := hr.succeeds
  added := hr.added
  mem_iff a := by
    rw [hr.mem_iff, List.exists_mem_cons_iff]
    constructor
    · rintro (hold | hprocessed)
      · exact Or.inl hold
      · exact Or.inr (Or.inr hprocessed)
    · rintro (hold | ⟨hattested, rfl⟩ | hprocessed)
      · exact Or.inl hold
      · exact Or.inl (hsigner hattested)
      · exact Or.inr hprocessed

theorem Registers.register (hsound : chain.contract.Sound) (howner : sender = chain.contract.owner)
    (hattested : Attested libs args raw) (hzero : raw.address ≠ 0)
    (hnew : raw.address ∉ chain.contract.getSigners)
    (hr : Registers libs args sender (exec chain ⟨sender, .addSigner raw.address⟩) entries r) :
    Registers libs args sender chain (raw :: entries)
      { r with sent := (⟨sender, .addSigner raw.address⟩, true) :: r.sent,
               processed := raw :: r.processed } := by
  subst howner
  obtain ⟨c', hcall, -, hsigners⟩ := call_addSigner_of_new hsound hzero hnew
  have hexec : (exec chain ⟨chain.contract.owner, .addSigner raw.address⟩).contract.getSigners =
      chain.contract.getSigners ++ [raw.address] := by
    rw [← hsigners]
    simp [exec, hcall]
  refine ⟨hr.chain_eq, (List.cons_prefix_cons).mpr ⟨rfl, hr.processed_prefix⟩,
    fun hok => congrArg (raw :: ·) (hr.completed hok), ?_, ?_, ?_⟩
  · intro before tx after hsplit
    cases before with
    | nil =>
        cases hsplit
        exact ⟨raw.address, _, rfl, hcall⟩
    | cons tx' before =>
        obtain ⟨rfl, hrest⟩ := List.cons.inj hsplit
        exact hr.succeeds before tx after hrest
  · obtain ⟨added, hsent, hadded⟩ := hr.added
    refine ⟨raw.address :: added, ?_, ?_⟩
    · exact congrArg (_ :: ·) hsent
    · rw [hadded, hexec, List.append_assoc]
      rfl
  · intro a
    rw [hr.mem_iff, List.exists_mem_cons_iff, hexec, List.mem_append, List.mem_singleton]
    constructor
    · rintro ((hold | rfl) | hprocessed)
      · exact Or.inl hold
      · exact Or.inr (Or.inl ⟨hattested, rfl⟩)
      · exact Or.inr (Or.inr hprocessed)
    · rintro (hold | ⟨-, rfl⟩ | hprocessed)
      · exact Or.inl (Or.inl hold)
      · exact Or.inl (Or.inr rfl)
      · exact Or.inr hprocessed

theorem registers_of_unexecuted (hsound : chain.contract.Sound)
    (howner : sender = chain.contract.owner) {a : Address} (hzero : a ≠ 0)
    (hnew : a ∉ chain.contract.getSigners) {message : String} (entries : List RawAttestation) :
    Registers libs args sender chain entries
      { chain := chain, sent := [(⟨sender, .addSigner a⟩, false)], processed := [],
        outcome := .panic message } where
  chain_eq := rfl
  processed_prefix := List.nil_prefix
  completed hok := by cases hok
  succeeds before tx after hsplit := by
    subst howner
    obtain ⟨c', hcall, -, -⟩ := call_addSigner_of_new hsound hzero hnew
    cases before with
    | nil =>
        cases hsplit
        exact ⟨a, _, rfl, hcall⟩
    | cons tx' before => cases before <;> cases hsplit
  added := ⟨[], rfl, (List.append_nil _).symm⟩
  mem_iff a := by simp

end Steps

theorem owner_of_addSigner (hsound : chain.contract.Sound) {a : Address} (hzero : a ≠ 0)
    (hnew : a ∉ chain.contract.getSigners) :
    (exec chain ⟨chain.contract.owner, .addSigner a⟩).contract.owner = chain.contract.owner := by
  obtain ⟨c', hcall, howner, -⟩ := call_addSigner_of_new hsound hzero hnew
  have hexec : (exec chain ⟨chain.contract.owner, .addSigner a⟩).contract = c' := by
    simp [exec, hcall]
  rw [hexec, howner]

theorem isSigner_eq_false_iff (hsound : chain.contract.Sound) {a : Address} :
    chain.contract.isSigner a = false ↔ a ∉ chain.contract.getSigners := by
  rw [← hsound.isSigner_iff, Bool.not_eq_true]

theorem setup_registers_of_sound (hregister : args.register_signers = true)
    (hsound : chain.contract.Sound) (howner : sender = chain.contract.owner)
    {entries : List (RawAttestation × Node)}
    (hzero : ∀ entry ∈ entries, Attested libs args entry.1 → entry.1.address ≠ 0) :
    Registers libs args sender chain (entries.map Prod.fst)
      (setup libs args sender entries chain) := by
  induction entries generalizing chain with
  | nil => exact registers_of_stop [] fun _ => rfl
  | cons entry entries ih =>
      obtain ⟨raw, node⟩ := entry
      obtain ⟨hraw, hentries⟩ := List.forall_mem_cons.mp hzero
      rcases setupEntry_cases hregister libs sender raw node chain with
        ⟨outcome, hentry, hsigner⟩ | ⟨hattested, hnew, executed, outcome, hentry, hexecuted⟩
      · -- nothing is sent
        rw [setup, hentry]
        cases outcome with
        | err e => cases e
        | panic message => exact registers_of_stop _ fun hok => (by cases hok)
        | ok _ =>
            exact (ih hsound howner hentries).pass fun h => hsound.isSigner_iff.mp (hsigner rfl h)
      · -- the address is new
        have hnew := (isSigner_eq_false_iff hsound).mp hnew
        have hne := hraw hattested
        have hsound' : (exec chain ⟨sender, .addSigner raw.address⟩).contract.Sound :=
          sound_of_exec hsound _
        have howner' : sender = (exec chain ⟨sender, .addSigner raw.address⟩).contract.owner := by
          subst howner
          exact (owner_of_addSigner hsound hne hnew).symm
        rw [setup, hentry]
        cases outcome with
        | err e => cases e
        | panic message =>
            cases executed with
            | true =>
                exact (registers_of_stop _ fun hok => (by cases hok)).register hsound howner
                  hattested hne hnew
            | false => exact registers_of_unexecuted hsound howner hne hnew _
        | ok _ =>
            rw [hexecuted rfl]
            exact (ih hsound' howner' hentries).register hsound howner hattested hne hnew

theorem setup_sent_of_registered (hregister : args.register_signers = true)
    {entries : List (RawAttestation × Node)}
    (h : ∀ entry ∈ entries, Attested libs args entry.1 →
      chain.contract.isSigner entry.1.address = true) :
    (setup libs args sender entries chain).sent = [] := by
  induction entries with
  | nil => rfl
  | cons entry entries ih =>
      obtain ⟨raw, node⟩ := entry
      obtain ⟨hraw, hentries⟩ := List.forall_mem_cons.mp h
      rcases setupEntry_cases hregister libs sender raw node chain with
        ⟨outcome, hentry, -⟩ | ⟨hattested, hnew, -⟩
      · rw [setup, hentry]
        cases outcome with
        | err e => cases e
        | panic message => rfl
        | ok _ => exact ih hentries
      · rw [hraw hattested] at hnew
        cases hnew

/-- Where a run ends: behind the last entry, if none blocks it, or at the first one that
does, whose transaction may have been executed all the same. -/
def Stops (libs : Libraries) (args : SetupArgs) (sender : Address) (start : Chain)
    (entries : List (RawAttestation × Node)) (r : SetupRun) : Prop :=
  (r.outcome = .ok () ∧ ∀ before entry after, entries = before ++ entry :: after →
    ¬ Blocked libs args (setup libs args sender before start).chain.contract entry) ∨
  ∃ before entry after message, entries = before ++ entry :: after ∧
    (setup libs args sender before start).outcome = .ok () ∧
    Blocked libs args (setup libs args sender before start).chain.contract entry ∧
    r.outcome = .panic message ∧
    (r.processed = before.map Prod.fst ∨ r.processed = (before ++ [entry]).map Prod.fst)

theorem setup_cons_of_ok {sent : List Sent} (entries : List (RawAttestation × Node))
    (h : setupEntry libs args sender raw node chain = (sent, .ok ())) :
    setup libs args sender ((raw, node) :: entries) chain =
      { setup libs args sender entries (run chain (executed sent)) with
        sent := sent ++ (setup libs args sender entries (run chain (executed sent))).sent
        processed := raw ::
          (setup libs args sender entries (run chain (executed sent))).processed } := by
  rw [setup, h]

theorem setup_stops (entries : List (RawAttestation × Node)) (chain : Chain) :
    Stops libs args sender chain entries (setup libs args sender entries chain) := by
  induction entries generalizing chain with
  | nil => exact Or.inl ⟨rfl, fun before entry after hsplit => by cases before <;> cases hsplit⟩
  | cons entry entries ih =>
      obtain ⟨raw, node⟩ := entry
      have hpasses : (setupEntry libs args sender raw node chain).2 = .ok () ↔
          ¬ Blocked libs args chain.contract (raw, node) := setupEntry_ok_iff
      cases hentry : setupEntry libs args sender raw node chain with
      | mk sent outcome =>
        rw [hentry] at hpasses
        cases outcome with
        | err e => cases e
        | panic message =>
            have hblocked : Blocked libs args chain.contract (raw, node) := by
              by_contra hpass
              cases hpasses.mpr hpass
            refine Or.inr ⟨[], (raw, node), entries, message, rfl, rfl, hblocked, ?_, ?_⟩
            · rw [setup, hentry]
            · rw [setup, hentry]
              simp only
              split
              · exact Or.inl rfl
              · exact Or.inr rfl
        | ok _ =>
            have hcons := fun entries => setup_cons_of_ok entries hentry
            rw [hcons]
            rcases ih (run chain (executed sent)) with
              ⟨hok, hfree⟩ | ⟨before, entry, after, message, rfl, hbefore, hblocked, hend⟩
            · refine Or.inl ⟨hok, fun before entry after hsplit => ?_⟩
              cases before with
              | nil =>
                  cases hsplit
                  exact hpasses.mp rfl
              | cons first before =>
                  obtain ⟨rfl, hrest⟩ := List.cons.inj hsplit
                  rw [hcons]
                  exact hfree before entry after hrest
            · refine Or.inr ⟨(raw, node) :: before, entry, after, message, rfl, ?_, ?_, hend.1, ?_⟩
              · rw [hcons, hbefore]
              · rwa [hcons]
              · exact hend.2.imp (congrArg (raw :: ·)) (congrArg (raw :: ·))

theorem attested_of_completed {entries : List (RawAttestation × Node)}
    (hok : (setup libs args sender entries chain).outcome = .ok ()) {entry : RawAttestation × Node}
    (hentry : entry ∈ entries) (hvalid : (verifyAttestation libs entry.1.attestation).isOk) :
    Attested libs args entry.1 := by
  have hstops : Stops libs args sender chain entries (setup libs args sender entries chain) :=
    setup_stops entries chain
  obtain ⟨before, after, hsplit⟩ := List.append_of_mem hentry
  rcases hstops with ⟨-, hfree⟩ | ⟨-, -, -, message, -, -, -, hpanic, -⟩
  · by_contra hnot
    exact hfree before entry after hsplit ⟨hvalid, fun hattested => absurd hattested hnot⟩
  · rw [hpanic] at hok
    cases hok

/-- If the node answers, a run gets to its end exactly if the documents that validate are
attested. -/
theorem setup_outcome_iff {entries : List (RawAttestation × Node)}
    (hnode : ∀ entry ∈ entries, entry.2 = ⟨true, .confirmed⟩) :
    (setup libs args sender entries chain).outcome = .ok () ↔
      ∀ entry ∈ entries, (verifyAttestation libs entry.1.attestation).isOk →
        Attested libs args entry.1 := by
  refine ⟨fun hok entry hentry hvalid => attested_of_completed hok hentry hvalid, fun hall => ?_⟩
  have hstops : Stops libs args sender chain entries (setup libs args sender entries chain) :=
    setup_stops entries chain
  rcases hstops with ⟨hok, -⟩ | ⟨before, entry, after, message, hsplit, -, ⟨hvalid, hfails⟩, -⟩
  · exact hok
  · have hentry : entry ∈ entries := by simp [hsplit]
    have hnode := hnode entry hentry
    rcases hfails (hall entry hentry hvalid) with hcall | ⟨-, -, hsending⟩
    · simp [hnode] at hcall
    · simp [hnode] at hsending

theorem count_executed {sender a : Address} {sent : List Sent} {signers added : List Address}
    (hsent : executed sent = added.map fun a => ⟨sender, .addSigner a⟩)
    (hnodup : (signers ++ added).Nodup) (ha : a ∈ signers ++ added) (hnew : a ∉ signers) :
    (executed sent).count ⟨sender, .addSigner a⟩ = 1 := by
  have hinj : Function.Injective fun a : Address => (⟨sender, .addSigner a⟩ : Tx) := by
    intro a b h
    cases h
    rfl
  have hadded : a ∈ added := (List.mem_append.mp ha).resolve_left hnew
  rw [hsent]
  exact List.count_eq_one_of_mem ((hnodup.of_append_right).map hinj) (List.mem_map_of_mem hadded)

/-- The tool registers exactly the attested signers among the entries that it has
processed: nobody is removed, every other signer is added by one transaction, none of
which fails, and after a completed run there is nothing left to do. It gets past documents
that do not validate and signers that are registered, and past every other entry unless its
measurement or address is wrong or the node fails. -/
theorem setup_registers {entries : List (RawAttestation × Node)}
    (hregister : args.register_signers = true) (hchain : Reachable chain)
    (howner : sender = chain.contract.owner)
    (hzero : ∀ entry ∈ entries, Attested libs args entry.1 → entry.1.address ≠ 0) :
    let r := setup libs args sender entries chain
    Registers libs args sender chain (entries.map Prod.fst) r ∧
      Stops libs args sender chain entries r ∧
      (∀ a ∈ r.chain.contract.getSigners, a ∉ chain.contract.getSigners →
        (executed r.sent).count ⟨sender, .addSigner a⟩ = 1) ∧
      (r.outcome = .ok () → ∀ entries' : List (RawAttestation × Node),
        entries'.map Prod.fst = entries.map Prod.fst →
          (setup libs args sender entries' r.chain).sent = []) := by
  intro r
  have hr : Registers libs args sender chain (entries.map Prod.fst) r :=
    setup_registers_of_sound hregister hchain.sound howner hzero
  have hsound : r.chain.contract.Sound := by
    rw [hr.chain_eq]
    exact sound_of_run hchain.sound _
  refine ⟨hr, setup_stops entries chain, fun a ha hnew => ?_, fun hok entries' hentries => ?_⟩
  · obtain ⟨added, hsent, hadded⟩ := hr.added
    rw [hadded] at ha
    exact count_executed hsent (hadded ▸ hsound.nodup) ha hnew
  · refine setup_sent_of_registered hregister fun entry hentry hattested => ?_
    have hraw : entry.1 ∈ r.processed := by
      rw [hr.completed hok, ← hentries]
      exact List.mem_map_of_mem hentry
    exact hsound.isSigner_iff.mpr ((hr.mem_iff _).mpr (Or.inr ⟨entry.1, hraw, hattested, rfl⟩))

end Runs

/-! One document that is listed twice, after one that does not validate, and a new contract. -/

namespace Sample

def setupArgs : SetupArgs := { pcr0 := some "ab", register_signers := true }

def owner : Address := .ofBytes 20 [1]

def start : Chain where
  contract := { owner := owner, signersMap := SignersMap.empty, gateway := 0 }
  log := [.OwnershipTransferred 0 owner]

def entries : List (RawAttestation × Node) :=
  (⟨0, []⟩, ⟨false, .failed false⟩) :: List.replicate 2 (⟨signer, [1]⟩, ⟨true, .confirmed⟩)

end Sample

open Sample in
theorem setup_registers_twice :
    let r := setup (libs (doc 1)) setupArgs owner entries start
    r.outcome = .ok () ∧ r.processed = entries.map Prod.fst ∧
      signer ∈ r.chain.contract.getSigners ∧
      (executed r.sent).count ⟨owner, .addSigner signer⟩ = 1 := by
  intro r
  have hstart : Reachable start :=
    ⟨0, owner, start, [], deploy_of_ne_zero 0 (by decide), rfl⟩
  have hsigner : signer ≠ 0 := by decide +kernel
  have hzero : ∀ entry ∈ entries, Attested (libs (doc 1)) setupArgs entry.1 →
      entry.1.address ≠ 0 := by
    intro entry hentry hattested
    rcases List.mem_cons.mp hentry with rfl | hentry
    · obtain ⟨d, hd, -⟩ := hattested
      cases hd
    · rw [List.eq_of_mem_replicate hentry]
      exact hsigner
  obtain ⟨hr, -, hcount, -⟩ := setup_registers (show setupArgs.register_signers = true from rfl)
    hstart (show owner = start.contract.owner from rfl) hzero
  have hok : r.outcome = .ok () := by decide +kernel
  have hattested : Attested (libs (doc 1)) setupArgs ⟨signer, [1]⟩ :=
    checkAttestation_eq_ok_true_iff.mp (by decide +kernel)
  have hin : signer ∈ r.chain.contract.getSigners :=
    (hr.mem_iff signer).mpr (Or.inr ⟨⟨signer, [1]⟩, by rw [hr.completed hok]; simp [entries],
      hattested, rfl⟩)
  exact ⟨hok, hr.completed hok, hin, hcount signer hin (List.not_mem_nil)⟩

end Host

end Sp1Tee
