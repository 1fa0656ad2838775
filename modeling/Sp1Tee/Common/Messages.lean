import Sp1Tee.Foundation.Secp256k1
import Sp1Tee.Foundation.Solidity

/-!
# The messages between the host and the enclave

A host writes an `EnclaveRequest` to a connection and reads an
`EnclaveResponse` from it. The standard input of a program is opaque to both
sides and stays a type parameter. A public key travels as an `EncodedPoint`, the
SEC1 form of a curve point.
-/

namespace Sp1Tee

open Foundation Foundation.Solidity

/-- A point of the curve in one of the encodings of SEC1. -/
inductive EncodedPoint
  | identity
  | compact (x : Bytes32)
  | compressed (yIsOdd : Bool) (x : Bytes32)
  | uncompressed (x y : Bytes32)
deriving DecidableEq

namespace EncodedPoint

def asBytes : EncodedPoint → Bytes
  | identity => [0x00]
  | compact x => 0x05 :: x.toBytes
  | compressed yIsOdd x => (if yIsOdd then 0x03 else 0x02) :: x.toBytes
  | uncompressed x y => 0x04 :: (x.toBytes ++ y.toBytes)

def isIdentity : EncodedPoint → Bool
  | identity => true
  | _ => false

def isCompact : EncodedPoint → Bool
  | compact _ => true
  | _ => false

def isCompressed : EncodedPoint → Bool
  | compressed _ _ => true
  | _ => false

def ofPublicKey (key : PublicKey) : EncodedPoint := uncompressed key.x key.y

end EncodedPoint

/-- What a host asks of the enclave. -/
inductive EnclaveRequest (Stdin : Type)
  | Print (message : String)
  | GetPublicKey
  | GetEncryptedSigningKey
  | AttestSigningKey
  | Execute (stdin : Stdin) (program : Bytes) (cycle_limit : UInt64)
  | SetSigningKey (ciphertext : Bytes)
  | CloseSession
deriving DecidableEq

/-- What the enclave answers. -/
inductive EnclaveResponse
  | PublicKey (point : EncodedPoint)
  | EncryptedSigningKey (ciphertext : Bytes)
  | SigningKeyAttestation (document : Bytes)
  | SignedPublicValues (vkey : Bytes32) (public_values : Bytes) (signature : Signature)
      (recovery_id : UInt8)
  | Error (message : String)
  | Ack
deriving DecidableEq

def EnclaveResponse.typeOf : EnclaveResponse → String
  | .PublicKey _ => "PublicKey"
  | .EncryptedSigningKey _ => "EncryptedSigningKey"
  | .SigningKeyAttestation _ => "SigningKeyAttestation"
  | .SignedPublicValues _ _ _ _ => "SignedPublicValues"
  | .Error _ => "Error"
  | .Ack => "Ack"

/-- The responses that answer a request. -/
inductive Answers {Stdin : Type} : EnclaveRequest Stdin → EnclaveResponse → Prop
  | ack (message : String) : Answers (.Print message) .Ack
  | publicKey (point : EncodedPoint) : Answers .GetPublicKey (.PublicKey point)
  | attestation (document : Bytes) : Answers .AttestSigningKey (.SigningKeyAttestation document)
  | attestationError (e : String) : Answers .AttestSigningKey (.Error e)
  | signed (stdin : Stdin) (program : Bytes) (cycle_limit : UInt64) (vkey : Bytes32)
      (public_values : Bytes) (signature : Signature) (recovery_id : UInt8) :
      Answers (.Execute stdin program cycle_limit)
        (.SignedPublicValues vkey public_values signature recovery_id)
  | executeError (stdin : Stdin) (program : Bytes) (cycle_limit : UInt64) (e : String) :
      Answers (.Execute stdin program cycle_limit) (.Error e)
  | getEncryptedSigningKey (e : String) : Answers .GetEncryptedSigningKey (.Error e)
  | setSigningKey (ciphertext : Bytes) (e : String) :
      Answers (.SetSigningKey ciphertext) (.Error e)

end Sp1Tee
