import Sp1Tee.Common.Communication
import Sp1Tee.Common.Messages
import Sp1Tee.Common.Parsing
import Sp1Tee.Common.Wire
import Sp1Tee.Contracts.Gateway
import Sp1Tee.Contracts.SP1TeeVerifier.AccessControl
import Sp1Tee.Contracts.SP1TeeVerifier.Basic
import Sp1Tee.Contracts.SP1TeeVerifier.Log
import Sp1Tee.Contracts.SP1TeeVerifier.Reachable
import Sp1Tee.Contracts.SP1TeeVerifier.Rejection
import Sp1Tee.Contracts.SP1TeeVerifier.Verification
import Sp1Tee.Contracts.SP1TeeVerifier.VerifyProof
import Sp1Tee.Contracts.SP1TeeVerifier.WireFormat
import Sp1Tee.Contracts.SignersMap.Basic
import Sp1Tee.Contracts.SignersMap.Refinement
import Sp1Tee.Contracts.SignersMap.Registry
import Sp1Tee.Contracts.SignersMap.Restoration
import Sp1Tee.Enclave.Connections
import Sp1Tee.Enclave.History
import Sp1Tee.Enclave.Identity
import Sp1Tee.Enclave.Isolation
import Sp1Tee.Enclave.Parsing
import Sp1Tee.Enclave.Progress
import Sp1Tee.Enclave.Server
import Sp1Tee.Enclave.Session
import Sp1Tee.Enclave.Streams
import Sp1Tee.Enclave.Traces
import Sp1Tee.EndToEnd.Acceptance
import Sp1Tee.EndToEnd.Authenticity
import Sp1Tee.EndToEnd.Bucket
import Sp1Tee.EndToEnd.Fleet
import Sp1Tee.EndToEnd.Freshness
import Sp1Tee.EndToEnd.Isolation
import Sp1Tee.EndToEnd.Measurement
import Sp1Tee.EndToEnd.Outcomes
import Sp1Tee.EndToEnd.SavedAttestation
import Sp1Tee.EndToEnd.Truncation
import Sp1Tee.Foundation.Bincode
import Sp1Tee.Foundation.Bytes
import Sp1Tee.Foundation.Canonical
import Sp1Tee.Foundation.Drain
import Sp1Tee.Foundation.Evm
import Sp1Tee.Foundation.Fallible
import Sp1Tee.Foundation.Framing
import Sp1Tee.Foundation.Guard
import Sp1Tee.Foundation.Hex
import Sp1Tee.Foundation.Journal
import Sp1Tee.Foundation.Keccak
import Sp1Tee.Foundation.Machine
import Sp1Tee.Foundation.ObjectStore
import Sp1Tee.Foundation.Pacer
import Sp1Tee.Foundation.Secp256k1
import Sp1Tee.Foundation.Solidity
import Sp1Tee.Foundation.SwapPop
import Sp1Tee.Foundation.Utf8
import Sp1Tee.Host.Address
import Sp1Tee.Host.AttestationTask
import Sp1Tee.Host.Attestations
import Sp1Tee.Host.Authentication
import Sp1Tee.Host.Bucket
import Sp1Tee.Host.Delivery
import Sp1Tee.Host.Deployment
import Sp1Tee.Host.Execute
import Sp1Tee.Host.Fleet
import Sp1Tee.Host.Frontend
import Sp1Tee.Host.Progress
import Sp1Tee.Host.SaveAttestation
import Sp1Tee.Host.Setup
import Sp1Tee.Host.Signers
import Sp1Tee.Host.ValidateSigners
