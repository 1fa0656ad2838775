import Sp1Tee.Common.Messages
import Sp1Tee.Foundation.Keccak

/-!
# The enclave server: what a request is answered with

The server holds the signing key. `handleMessage` is the part of a request's
handling that runs on the connection's own task; it may hand a `Job` to a
blocking task, which calls into the prover or into the security module. These,
and the libraries the enclave is linked with, are not part of this repository.
They enter as `Prover`, `Nsm` and `Deps`, and a call into them may unwind with a
panic.
-/

namespace Sp1Tee

open Foundation Foundation.Solidity

/-- The payload of a panic, if it is a text. -/
abbrev Panic := Option String

abbrev TaskId := ℕ

/-- The error with which a panicked task is joined. -/
structure JoinError where
  id : TaskId
  payload : Panic
deriving DecidableEq

/-- What the enclave uses of its libraries. `K` is the type of signing keys. -/
structure Deps (K : Type) where
  keccak256 : Bytes → Bytes32
  verifyingKey : K → PublicKey
  /-- The signature of a digest and its recovery id. -/
  signDigestRecoverable : K → Bytes32 → Option (Signature × UInt8)
  SP1_TEE_VERSION : UInt32
  joinErrorDisplay : JoinError → String
  joinErrorDebug : JoinError → String

/-- The libraries in use: signing keys are secret scalars of secp256k1, and the
texts of a join error are those of the runtime. How a nonce is chosen is left to
`sign`. -/
def Deps.standard (sign : ℕ → Bytes32 → Option (Signature × UInt8)) (version : UInt32) :
    Deps ℕ where
  keccak256 := Keccak.keccak256
  verifyingKey secret := (Secp256k1.publicKey secret).getD ⟨0, 0⟩
  signDigestRecoverable := sign
  SP1_TEE_VERSION := version
  joinErrorDisplay e :=
    match e.payload with
    | some message => "task " ++ toString e.id ++ " panicked with message " ++ message.quote
    | none => "task " ++ toString e.id ++ " panicked"
  joinErrorDebug e :=
    match e.payload with
    | some message => "JoinError::Panic(Id(" ++ toString e.id ++ "), " ++ message.quote ++ ", ...)"
    | none => "JoinError::Panic(Id(" ++ toString e.id ++ "), ...)"

/-- The calls of one execution into the prover. -/
structure Prover (Stdin : Type) where
  /-- The hash of the verifying key of a program. -/
  setup : Bytes → Except Panic Bytes32
  /-- The public values of a run within a cycle limit, or the error's text. -/
  run : Bytes → Stdin → UInt64 → Except Panic (Except String Bytes)

/-- A call of the execution into the prover panics. -/
def Prover.PanicsOn {Stdin : Type} (prover : Prover Stdin) (stdin : Stdin) (program : Bytes)
    (cycle_limit : UInt64) (payload : Panic) : Prop :=
  prover.setup program = .error payload ∨
    ∃ vk, prover.setup program = .ok vk ∧ prover.run program stdin cycle_limit = .error payload

structure NsmRequest where
  user_data : Option Bytes
  nonce : Option Bytes
  public_key : Option Bytes
deriving DecidableEq

inductive NsmResponse
  | Attestation (document : Bytes)
  | other
deriving DecidableEq

/-- The calls of one attestation into the security module. -/
structure Nsm where
  init : ℤ
  processRequest : NsmRequest → Except Panic NsmResponse
deriving Inhabited

def MAX_ALLOWED_CYCLES : UInt64 := 4294967295

/-- The state that the connections share. -/
structure Server (K : Type) where
  signing_key : K
  /-- The task that holds the guard. -/
  execution_guard : Option TaskId

inductive Job (Stdin : Type)
  | attestSigningKey
  | execute (stdin : Stdin) (program : Bytes) (cycle_limit : UInt64)

/-- What a connection's task does with a message. -/
inductive Handling (Stdin : Type)
  /-- Nothing is written. -/
  | skip
  | send (response : EnclaveResponse)
  | spawnBlocking (job : Job Stdin)
  | close

namespace Server

variable {K Stdin : Type} (deps : Deps K)

/-- A server that draws the signing key `key`. -/
def new (key : K) : Server K := { signing_key := key, execution_guard := none }

/-- The version as it is hashed and attested. -/
def versionBytes : Bytes := leBytes 4 deps.SP1_TEE_VERSION.toNat

def getPublicKey (server : Server K) : EncodedPoint :=
  .ofPublicKey (deps.verifyingKey server.signing_key)

/-- The attestation that is asked for: the version and the SEC1 encoded public key. -/
def attestationRequest (server : Server K) : NsmRequest where
  user_data := some (versionBytes deps)
  nonce := none
  public_key := some (server.getPublicKey deps).asBytes

def attestSigningKey (server : Server K) (nsm : Nsm) : Except Panic EnclaveResponse :=
  if nsm.init < 0 then
    .ok (.Error "Failed to initialize NSM")
  else do
    match ← nsm.processRequest (server.attestationRequest deps) with
    | .Attestation document => .ok (.SigningKeyAttestation document)
    | .other => .ok (.Error "Unexpected response type from NSM, this is a bug.")

/-- The digest that is signed after a successful execution. -/
def digest (vkey_raw : Bytes32) (public_values : Bytes) : Bytes32 :=
  let public_values_hash := deps.keccak256 public_values
  let version_bytes_hash := deps.keccak256 (versionBytes deps)
  deps.keccak256 (version_bytes_hash.toBytes ++ vkey_raw.toBytes ++ public_values_hash.toBytes)

def signPublicValues (server : Server K) (vkey_raw : Bytes32) (public_values : Bytes) :
    EnclaveResponse :=
  match deps.signDigestRecoverable server.signing_key (digest deps vkey_raw public_values) with
  | none => .Error "Failed to sign public values, this is a bug."
  | some (signature, recovery_id) =>
      .SignedPublicValues vkey_raw public_values signature recovery_id

def cycleLimitError (cycle_limit : UInt64) : EnclaveResponse :=
  .Error ("Cycle limit is too high: " ++ toString cycle_limit ++ ", max: " ++
    toString MAX_ALLOWED_CYCLES)

def executeError (e : String) : EnclaveResponse := .Error ("Failed to execute program: " ++ e)

/-- An execution as one piece. The guard, which keeps executions apart, concerns
several of them and is left to `Enclave`. -/
def execute (server : Server K) (prover : Prover Stdin) (stdin : Stdin) (program : Bytes)
    (cycle_limit : UInt64) : Except Panic EnclaveResponse :=
  if cycle_limit > MAX_ALLOWED_CYCLES then
    .ok (cycleLimitError cycle_limit)
  else do
    let vk ← prover.setup program
    match ← prover.run program stdin cycle_limit with
    | .ok public_values => .ok (server.signPublicValues deps vk public_values)
    | .error e => .ok (executeError e)

/-- The response sent when a blocking task has been joined. -/
def joined : Job Stdin → Except JoinError EnclaveResponse → EnclaveResponse
  | _, .ok response => response
  | .attestSigningKey, .error e =>
      .Error ("Join error when attesting signing key: " ++ deps.joinErrorDebug e)
  | .execute _ _ _, .error e =>
      .Error ("Join error when executing program: " ++ deps.joinErrorDisplay e)

/-- The branches of the message handler. In a debug build the future that would
send the acknowledgement is dropped without being awaited. -/
def handleMessage (debugMode : Bool) (server : Server K) :
    EnclaveRequest Stdin → Handling Stdin
  | .Print _ => if debugMode then .skip else .send .Ack
  | .GetPublicKey => .send (.PublicKey (server.getPublicKey deps))
  | .AttestSigningKey => .spawnBlocking .attestSigningKey
  | .Execute stdin program cycle_limit => .spawnBlocking (.execute stdin program cycle_limit)
  | .GetEncryptedSigningKey => .send (.Error "Not implemented")
  | .SetSigningKey _ => .send (.Error "Not implemented")
  | .CloseSession => .close

/-! ## The outcomes of an execution -/

section Execute

variable {server : Server K} {prover : Prover Stdin} {stdin : Stdin} {program : Bytes}
  {cycle_limit : UInt64} {vk : Bytes32}

theorem execute_of_lt (h : MAX_ALLOWED_CYCLES < cycle_limit) :
    server.execute deps prover stdin program cycle_limit = .ok (cycleLimitError cycle_limit) :=
  if_pos h

theorem execute_of_setup_error {payload : Panic} (h : cycle_limit ≤ MAX_ALLOWED_CYCLES)
    (hsetup : prover.setup program = .error payload) :
    server.execute deps prover stdin program cycle_limit = .error payload := by
  rw [execute, if_neg (UInt64.not_lt.mpr h), hsetup]
  rfl

theorem execute_of_run_error {payload : Panic} (h : cycle_limit ≤ MAX_ALLOWED_CYCLES)
    (hsetup : prover.setup program = .ok vk)
    (hrun : prover.run program stdin cycle_limit = .error payload) :
    server.execute deps prover stdin program cycle_limit = .error payload := by
  rw [execute, if_neg (UInt64.not_lt.mpr h), hsetup]
  simp only [bind, Except.bind, hrun]

theorem execute_of_failed {e : String} (h : cycle_limit ≤ MAX_ALLOWED_CYCLES)
    (hsetup : prover.setup program = .ok vk)
    (hrun : prover.run program stdin cycle_limit = .ok (.error e)) :
    server.execute deps prover stdin program cycle_limit = .ok (executeError e) := by
  rw [execute, if_neg (UInt64.not_lt.mpr h), hsetup]
  simp only [bind, Except.bind, hrun]

theorem execute_of_succeeded {public_values : Bytes} (h : cycle_limit ≤ MAX_ALLOWED_CYCLES)
    (hsetup : prover.setup program = .ok vk)
    (hrun : prover.run program stdin cycle_limit = .ok (.ok public_values)) :
    server.execute deps prover stdin program cycle_limit =
      .ok (server.signPublicValues deps vk public_values) := by
  rw [execute, if_neg (UInt64.not_lt.mpr h), hsetup]
  simp only [bind, Except.bind, hrun]

theorem panicsOn_of_execute_eq_error {payload : Panic}
    (h : server.execute deps prover stdin program cycle_limit = .error payload) :
    prover.PanicsOn stdin program cycle_limit payload := by
  by_cases hlimit : cycle_limit ≤ MAX_ALLOWED_CYCLES
  · cases hsetup : prover.setup program with
    | error payload' =>
        rw [execute_of_setup_error deps hlimit hsetup] at h
        cases h
        exact Or.inl hsetup
    | ok vk =>
        cases hrun : prover.run program stdin cycle_limit with
        | error payload' =>
            rw [execute_of_run_error deps hlimit hsetup hrun] at h
            cases h
            exact Or.inr ⟨vk, hsetup, hrun⟩
        | ok result =>
            cases result with
            | error e =>
                rw [execute_of_failed deps hlimit hsetup hrun] at h
                cases h
            | ok public_values =>
                rw [execute_of_succeeded deps hlimit hsetup hrun] at h
                cases h
  · rw [execute_of_lt deps (UInt64.not_le.mp hlimit)] at h
    cases h

theorem signPublicValues_eq_signed_iff {public_values public_values' : Bytes} {vk' : Bytes32}
    {signature : Signature} {recovery_id : UInt8} :
    server.signPublicValues deps vk public_values =
        .SignedPublicValues vk' public_values' signature recovery_id ↔
      vk = vk' ∧ public_values = public_values' ∧
        deps.signDigestRecoverable server.signing_key (digest deps vk public_values) =
          some (signature, recovery_id) := by
  rw [signPublicValues]
  cases deps.signDigestRecoverable server.signing_key (digest deps vk public_values) with
  | none => simp
  | some r => simp [Prod.ext_iff]

/-- An execution responds with signed public values exactly if the cycle limit is
allowed, the run succeeds and its digest gets signed. -/
theorem execute_eq_signed_iff {public_values : Bytes} {signature : Signature}
    {recovery_id : UInt8} :
    server.execute deps prover stdin program cycle_limit =
        .ok (.SignedPublicValues vk public_values signature recovery_id) ↔
      cycle_limit ≤ MAX_ALLOWED_CYCLES ∧ prover.setup program = .ok vk ∧
        prover.run program stdin cycle_limit = .ok (.ok public_values) ∧
        deps.signDigestRecoverable server.signing_key (digest deps vk public_values) =
          some (signature, recovery_id) := by
  by_cases hlimit : cycle_limit ≤ MAX_ALLOWED_CYCLES
  · cases hsetup : prover.setup program with
    | error payload => simp [execute_of_setup_error deps hlimit hsetup]
    | ok vk' =>
        cases hrun : prover.run program stdin cycle_limit with
        | error payload => simp [execute_of_run_error deps hlimit hsetup hrun]
        | ok result =>
            cases result with
            | error e => simp [execute_of_failed deps hlimit hsetup hrun, executeError]
            | ok public_values' =>
                rw [execute_of_succeeded deps hlimit hsetup hrun, Except.ok.injEq,
                  signPublicValues_eq_signed_iff]
                constructor
                · rintro ⟨rfl, rfl, hsign⟩
                  exact ⟨hlimit, rfl, rfl, hsign⟩
                · rintro ⟨-, hvk, hvalues, hsign⟩
                  cases hvk
                  cases hvalues
                  exact ⟨rfl, rfl, hsign⟩
  · rw [execute_of_lt deps (UInt64.not_le.mp hlimit)]
    simp [cycleLimitError, hlimit]

end Execute

end Server

end Sp1Tee
