import Sp1Tee.Common.Messages
import Sp1Tee.Foundation.Bincode

/-!
# The serialized messages

Requests and responses are serialized with bincode: the number of the variant in
four bytes and then its fields. The format of the standard input is a parameter.
A deserialized point must have the length of its tag, and a deserialized signature
must have both halves in the range of non-zero scalars.
-/

namespace Sp1Tee

open Foundation

namespace EncodedPoint

def fromBytes : Bytes → Option EncodedPoint
  | [] => none
  | tag :: bs =>
    if tag = 0x00 ∧ bs.length = 0 then some identity
    else if tag = 0x02 ∧ bs.length = 32 then some (compressed false (FixedBytes.ofBytes 32 bs))
    else if tag = 0x03 ∧ bs.length = 32 then some (compressed true (FixedBytes.ofBytes 32 bs))
    else if tag = 0x04 ∧ bs.length = 64 then
      some (uncompressed (FixedBytes.ofBytes 32 (bs.take 32)) (FixedBytes.ofBytes 32 (bs.drop 32)))
    else if tag = 0x05 ∧ bs.length = 32 then some (compact (FixedBytes.ofBytes 32 bs))
    else none

theorem fromBytes_asBytes (point : EncodedPoint) : fromBytes point.asBytes = some point := by
  cases point with
  | identity => rfl
  | compact x => simp [asBytes, fromBytes]
  | compressed yIsOdd x => cases yIsOdd <;> simp [asBytes, fromBytes]
  | uncompressed x y => simp [asBytes, fromBytes]

def format : Format EncodedPoint := Format.vec.recognize fromBytes asBytes

theorem valid_format (point : EncodedPoint) : format.Valid point := by
  refine ⟨?_, fromBytes_asBytes point⟩
  cases point <;> simp [asBytes, Format.vec]

end EncodedPoint

def signatureInRange (signature : Signature) : Bool :=
  [signature.r, signature.s].all fun half =>
    decide (0 < ofBeBytes half.toBytes ∧ ofBeBytes half.toBytes < Secp256k1.n)

def signatureFormat : Format Signature :=
  ((Format.fixed 32).pair (Format.fixed 32)).recognize
    (fun halves =>
      if signatureInRange ⟨halves.1, halves.2⟩ then some ⟨halves.1, halves.2⟩ else none)
    (fun signature => (signature.r, signature.s))

theorem valid_signatureFormat {signature : Signature} (h : signatureInRange signature) :
    signatureFormat.Valid signature :=
  ⟨⟨trivial, trivial⟩, if_pos h⟩

namespace EnclaveRequest

variable {Stdin : Type} (stdinFormat : Format Stdin)

def tag : EnclaveRequest Stdin → ℕ
  | .Print _ => 0
  | .GetPublicKey => 1
  | .GetEncryptedSigningKey => 2
  | .AttestSigningKey => 3
  | .Execute _ _ _ => 4
  | .SetSigningKey _ => 5
  | .CloseSession => 6

def executeFormat : Format (Stdin × Bytes × UInt64) :=
  stdinFormat.pair (Format.vec.pair Format.uint64)

def payload : EnclaveRequest Stdin → Bytes
  | .Print message => Format.string.encode message
  | .Execute stdin program cycle_limit =>
      (executeFormat stdinFormat).encode (stdin, program, cycle_limit)
  | .SetSigningKey ciphertext => Format.vec.encode ciphertext
  | _ => []

def read : ℕ → Bytes → Option (EnclaveRequest Stdin × Bytes)
  | 0, bs => Format.string.readAs .Print bs
  | 1, bs => some (.GetPublicKey, bs)
  | 2, bs => some (.GetEncryptedSigningKey, bs)
  | 3, bs => some (.AttestSigningKey, bs)
  | 4, bs => (executeFormat stdinFormat).readAs (fun p => .Execute p.1 p.2.1 p.2.2) bs
  | 5, bs => Format.vec.readAs .SetSigningKey bs
  | 6, bs => some (.CloseSession, bs)
  | _, _ => none

/-- The requests whose fields have room in their lengths. -/
def Valid : EnclaveRequest Stdin → Prop
  | .Print message => Format.string.Valid message
  | .Execute stdin program cycle_limit =>
      (executeFormat stdinFormat).Valid (stdin, program, cycle_limit)
  | .SetSigningKey ciphertext => Format.vec.Valid ciphertext
  | _ => True

theorem tag_lt (request : EnclaveRequest Stdin) : request.tag < 256 ^ 4 := by
  cases request <;> simp [tag]

theorem read_payload {request : EnclaveRequest Stdin} (h : request.Valid stdinFormat)
    (rest : Bytes) :
    read stdinFormat request.tag (request.payload stdinFormat ++ rest) = some (request, rest) := by
  cases request with
  | Print message =>
      have hfields : Format.string.Valid message := h
      rw [tag, payload, read, Format.readAs_encode _ hfields]
  | Execute stdin program cycle_limit =>
      have hfields : (executeFormat stdinFormat).Valid (stdin, program, cycle_limit) := h
      rw [tag, payload, read, Format.readAs_encode _ hfields]
  | SetSigningKey ciphertext =>
      have hfields : Format.vec.Valid ciphertext := h
      rw [tag, payload, read, Format.readAs_encode _ hfields]
  | _ => rfl

def format : Format (EnclaveRequest Stdin) :=
  Format.tagged tag (payload stdinFormat) (read stdinFormat) (Valid stdinFormat) tag_lt
    fun _ => read_payload stdinFormat

def codec : Codec (EnclaveRequest Stdin) := .ofFormat (format stdinFormat)

end EnclaveRequest

namespace EnclaveResponse

def tag : EnclaveResponse → ℕ
  | .PublicKey _ => 0
  | .EncryptedSigningKey _ => 1
  | .SigningKeyAttestation _ => 2
  | .SignedPublicValues _ _ _ _ => 3
  | .Error _ => 4
  | .Ack => 5

def signedFormat : Format (FixedBytes 32 × Bytes × Signature × UInt8) :=
  (Format.fixed 32).pair (Format.vec.pair (signatureFormat.pair Format.uint8))

def payload : EnclaveResponse → Bytes
  | .PublicKey point => EncodedPoint.format.encode point
  | .EncryptedSigningKey ciphertext => Format.vec.encode ciphertext
  | .SigningKeyAttestation document => Format.vec.encode document
  | .SignedPublicValues vkey public_values signature recovery_id =>
      signedFormat.encode (vkey, public_values, signature, recovery_id)
  | .Error message => Format.string.encode message
  | .Ack => []

def read : ℕ → Bytes → Option (EnclaveResponse × Bytes)
  | 0, bs => EncodedPoint.format.readAs .PublicKey bs
  | 1, bs => Format.vec.readAs .EncryptedSigningKey bs
  | 2, bs => Format.vec.readAs .SigningKeyAttestation bs
  | 3, bs => signedFormat.readAs (fun p => .SignedPublicValues p.1 p.2.1 p.2.2.1 p.2.2.2) bs
  | 4, bs => Format.string.readAs .Error bs
  | 5, bs => some (.Ack, bs)
  | _, _ => none

/-- The responses whose fields have room in their lengths and whose signature is
in range. -/
def Valid : EnclaveResponse → Prop
  | .PublicKey point => EncodedPoint.format.Valid point
  | .EncryptedSigningKey ciphertext => Format.vec.Valid ciphertext
  | .SigningKeyAttestation document => Format.vec.Valid document
  | .SignedPublicValues vkey public_values signature recovery_id =>
      signedFormat.Valid (vkey, public_values, signature, recovery_id)
  | .Error message => Format.string.Valid message
  | .Ack => True

theorem tag_lt (response : EnclaveResponse) : response.tag < 256 ^ 4 := by
  cases response <;> simp [tag]

theorem read_payload {response : EnclaveResponse} (h : response.Valid) (rest : Bytes) :
    read response.tag (response.payload ++ rest) = some (response, rest) := by
  cases response with
  | PublicKey point =>
      have hfields : EncodedPoint.format.Valid point := h
      rw [tag, payload, read, Format.readAs_encode _ hfields]
  | EncryptedSigningKey ciphertext =>
      have hfields : Format.vec.Valid ciphertext := h
      rw [tag, payload, read, Format.readAs_encode _ hfields]
  | SigningKeyAttestation document =>
      have hfields : Format.vec.Valid document := h
      rw [tag, payload, read, Format.readAs_encode _ hfields]
  | SignedPublicValues vkey public_values signature recovery_id =>
      have hfields : signedFormat.Valid (vkey, public_values, signature, recovery_id) := h
      rw [tag, payload, read, Format.readAs_encode _ hfields]
  | Error message =>
      have hfields : Format.string.Valid message := h
      rw [tag, payload, read, Format.readAs_encode _ hfields]
  | Ack => rfl

def format : Format EnclaveResponse :=
  Format.tagged tag payload read Valid tag_lt fun _ => read_payload

def codec : Codec EnclaveResponse := .ofFormat format

theorem length_encode (response : EnclaveResponse) :
    (format.encode response).length = 4 + response.payload.length := by
  rw [format, Format.tagged, List.length_append, length_leBytes]

/-- A response of a possible size can be read back if its signature is in
range. -/
theorem valid_of_length_lt {response : EnclaveResponse}
    (hlength : (format.encode response).length < 256 ^ 8)
    (hsignature : ∀ vkey public_values signature recovery_id,
      response = .SignedPublicValues vkey public_values signature recovery_id →
        signatureInRange signature) :
    response.Valid := by
  rw [length_encode] at hlength
  cases response with
  | PublicKey point => exact EncodedPoint.valid_format point
  | EncryptedSigningKey ciphertext =>
      rw [payload, Format.length_encode_vec] at hlength
      exact Format.valid_vec (by omega)
  | SigningKeyAttestation document =>
      rw [payload, Format.length_encode_vec] at hlength
      exact Format.valid_vec (by omega)
  | SignedPublicValues vkey public_values signature recovery_id =>
      have hvec : 8 + public_values.length ≤
          (signedFormat.encode (vkey, public_values, signature, recovery_id)).length := by
        simp only [signedFormat, Format.encode_pair, List.length_append, Format.length_encode_vec]
        omega
      rw [payload] at hlength
      have hvalues : Format.vec.Valid public_values := Format.valid_vec (by omega)
      exact ⟨trivial, hvalues, valid_signatureFormat (hsignature _ _ _ _ rfl),
        Format.valid_uint8 recovery_id⟩
  | Error message =>
      have hvec : (Format.string.encode message).length = 8 + message.toUTF8.data.toList.length :=
        Format.length_encode_vec _
      rw [payload, hvec] at hlength
      exact Format.valid_string (by omega)
  | Ack => trivial

end EnclaveResponse

end Sp1Tee
