import Sp1Tee.Host.Bucket

/-!
# The host's answers to its clients

The host forwards an execution to the enclave and turns the enclave's response
into its own: a recovery id becomes the `v` of Ethereum, an error stays an error,
and any other kind of response is unexpected.
-/

namespace Sp1Tee

open Foundation Foundation.Solidity

namespace Host

structure TEEResponse where
  vkey : Bytes32
  public_values : Bytes
  signature : Signature
  recovery_id : UInt8
deriving DecidableEq

/-- The errors of the handlers modelled here. -/
inductive ServerError
  | FailedToConnectToEnclave
  | FailedToSendRequestToEnclave
  | FailedToReceiveResponseFromEnclave
  | UnexpectedResponseFromEnclave
  | FailedToConvertPublicKeyToAddress
  | EnclaveError (error : String)
  | FailedToDeserializeRequest (e : String)
  | FailedToAuthenticateRequest
  | FailedToGetAttestations (e : GetAttestationError)
deriving DecidableEq

/-- The end of `execute_inner`, on the enclave's response. A recovery id is at most
3, so the sum does not overflow. -/
def executeInner : EnclaveResponse → Except ServerError TEEResponse
  | .SignedPublicValues vkey public_values signature recovery_id =>
      .ok { vkey := vkey, public_values := public_values, signature := signature,
            recovery_id := recovery_id + 27 }
  | .Error error => .error (.EnclaveError error)
  | _ => .error .UnexpectedResponseFromEnclave

/-- The end of `get_address`, on the enclave's response. -/
def getAddress (keccak256 : Bytes → Bytes32) : EnclaveResponse → Except ServerError Address
  | .PublicKey public_key =>
    match ethereumAddressFromEncodedPoint keccak256 public_key with
    | some address => .ok address
    | none => .error .FailedToConvertPublicKeyToAddress
  | _ => .error .UnexpectedResponseFromEnclave

end Host

end Sp1Tee
