import Sp1Tee.Common.Communication
import Sp1Tee.Foundation.Canonical

/-!
# What is received from any bytes

Nothing vouches for the bytes on a connection: anyone may have written them. What is
received from them is one message for each frame, and of a frame that begins with the
encoding of a message, the bytes behind it are ignored. For the responses, the format is
canonical, and nothing else is received as a message.
-/

namespace Sp1Tee

open Foundation

namespace EncodedPoint

theorem asBytes_of_fromBytes {bs : Bytes} {point : EncodedPoint} (h : fromBytes bs = some point) :
    point.asBytes = bs := by
  cases bs with
  | nil => cases h
  | cons tag bs =>
      simp only [fromBytes] at h
      split_ifs at h with hidentity heven hodd huncompressed hcompact
      · obtain ⟨rfl, hlength⟩ := hidentity
        obtain rfl := Option.some.inj h
        rw [asBytes, List.eq_nil_of_length_eq_zero hlength]
      · obtain ⟨rfl, hlength⟩ := heven
        obtain rfl := Option.some.inj h
        simp [asBytes, FixedBytes.toBytes_ofBytes bs hlength]
      · obtain ⟨rfl, hlength⟩ := hodd
        obtain rfl := Option.some.inj h
        simp [asBytes, FixedBytes.toBytes_ofBytes bs hlength]
      · obtain ⟨rfl, hlength⟩ := huncompressed
        obtain rfl := Option.some.inj h
        rw [asBytes, FixedBytes.toBytes_ofBytes _ (by rw [List.length_take]; omega),
          FixedBytes.toBytes_ofBytes _ (by rw [List.length_drop]; omega), List.take_append_drop]
      · obtain ⟨rfl, hlength⟩ := hcompact
        obtain rfl := Option.some.inj h
        simp [asBytes, FixedBytes.toBytes_ofBytes bs hlength]

theorem canonical_format : format.Canonical :=
  Format.canonical_vec.recognize fun _ => asBytes_of_fromBytes

end EncodedPoint

theorem canonical_signatureFormat : signatureFormat.Canonical :=
  ((Format.canonical_fixed 32).pair (Format.canonical_fixed 32)).recognize
    fun {halves signature} _ h => by
      obtain ⟨-, h⟩ := Option.ite_none_right_eq_some.mp h
      obtain rfl := Option.some.inj h
      rfl

namespace EnclaveResponse

theorem canonical_format : format.Canonical := by
  refine Format.canonical_tagged fun {n bs response rest} h => ?_
  match n with
  | 0 =>
      obtain ⟨point, rfl, hvalid, rfl⟩ := EncodedPoint.canonical_format.readAs h
      exact ⟨hvalid, rfl, rfl⟩
  | 1 =>
      obtain ⟨ciphertext, rfl, hvalid, rfl⟩ := Format.canonical_vec.readAs h
      exact ⟨hvalid, rfl, rfl⟩
  | 2 =>
      obtain ⟨document, rfl, hvalid, rfl⟩ := Format.canonical_vec.readAs h
      exact ⟨hvalid, rfl, rfl⟩
  | 3 =>
      have hfields : signedFormat.Canonical :=
        (Format.canonical_fixed 32).pair (Format.canonical_vec.pair
          (canonical_signatureFormat.pair Format.canonical_uint8))
      rw [read] at h
      obtain ⟨fields, rfl, hvalid, rfl⟩ := hfields.readAs h
      exact ⟨hvalid, rfl, rfl⟩
  | 4 =>
      obtain ⟨message, rfl, hvalid, rfl⟩ := Format.canonical_string.readAs h
      exact ⟨hvalid, rfl, rfl⟩
  | 5 =>
      cases h
      exact ⟨trivial, rfl, rfl⟩
  | _ + 6 => cases h

end EnclaveResponse

namespace VsockStream

variable {α : Type} {codec : Codec α} {messages : List α} {rest : Bytes} {src src' : Source}

/-- The body of a frame that is received as this message. -/
def Decodes (codec : Codec α) (message : α) (body : Bytes) : Prop :=
  body.length ≤ u32Max ∧ codec.deserialize body = .ok message

theorem decodes_of_recv {message : α} (h : recv codec src = (.ok message, src')) :
    ∃ body, Decodes codec message body ∧ src.content = frame 4 body ++ src'.content := by
  rw [recv_eq_received] at h
  cases hread : src.readFrame 4 with
  | mk result src'' =>
      simp only [hread] at h
      obtain ⟨hreceived, rfl⟩ := Prod.mk.inj h
      cases result with
      | error e => cases hreceived
      | ok body =>
          obtain ⟨hlength, hcontent, -⟩ := Source.frame_of_readFrame hread
          refine ⟨body, ⟨Nat.le_of_lt_succ hlength, ?_⟩, hcontent⟩
          rw [received] at hreceived
          split at hreceived
          · cases hreceived
          · next hdeserialize =>
            cases hreceived
            exact hdeserialize

theorem recv_of_decodes {message : α} {body : Bytes} (h : Decodes codec message body)
    (hcontent : src.content = frame 4 body ++ rest) :
    ∃ src', recv codec src = (.ok message, src') ∧ src'.content = rest ∧
      src'.ending = src.ending := by
  obtain ⟨src', hrecv, hrest⟩ := recv_frame codec (Nat.lt_succ_of_le h.1) hcontent
  rw [received, h.2] at hrecv
  exact ⟨src', hrecv, hrest⟩

/-- What some receives in a row return, whatever the bytes. -/
theorem repeated_recv_iff :
    (∃ src', Source.repeated (recv codec) messages.length src = (messages.map .ok, src') ∧
      src'.content = rest) ↔
      ∃ bodies, List.Forall₂ (Decodes codec) messages bodies ∧
        src.content = frames 4 bodies ++ rest := by
  induction messages generalizing src with
  | nil =>
      constructor
      · rintro ⟨src', hread, rfl⟩
        cases hread
        exact ⟨[], .nil, rfl⟩
      · rintro ⟨bodies, hbodies, hcontent⟩
        cases hbodies
        exact ⟨src, rfl, hcontent⟩
  | cons message messages ih =>
      constructor
      · rintro ⟨src', hread, rfl⟩
        rw [List.length_cons, Source.repeated] at hread
        cases hrecv : recv codec src with
        | mk result src₁ =>
            cases hall : Source.repeated (recv codec) messages.length src₁ with
            | mk results src₂ =>
                simp only [hrecv, hall, List.map_cons, Prod.mk.injEq, List.cons.injEq] at hread
                obtain ⟨⟨rfl, rfl⟩, rfl⟩ := hread
                obtain ⟨body, hbody, hcontent⟩ := decodes_of_recv hrecv
                obtain ⟨bodies, hbodies, hrest⟩ := ih.mp ⟨_, hall, rfl⟩
                refine ⟨body :: bodies, .cons hbody hbodies, ?_⟩
                rw [hcontent, hrest, frames_cons, List.append_assoc]
      · rintro ⟨bodies, hbodies, hcontent⟩
        cases hbodies with
        | cons hbody hbodies =>
            rw [frames_cons, List.append_assoc] at hcontent
            obtain ⟨src₁, hrecv, hsrc₁, -⟩ := recv_of_decodes hbody hcontent
            obtain ⟨src', hread, hrest⟩ := ih.mpr ⟨_, hbodies, hsrc₁⟩
            refine ⟨src', ?_, hrest⟩
            rw [List.length_cons, Source.repeated, hrecv]
            simp only [hread, List.map_cons]

/-- A body that begins with the encoding of a message. What stands behind it is ignored. -/
def Carries (F : Format α) (message : α) (body : Bytes) : Prop :=
  F.Valid message ∧ body.length ≤ u32Max ∧ ∃ trailing, body = F.encode message ++ trailing

theorem decodes_iff_carries {F : Format α} (hF : F.Canonical) {message : α} {body : Bytes} :
    Decodes (.ofFormat F) message body ↔ Carries F message body := by
  have hdecode : (Codec.ofFormat F).deserialize body = .ok message ↔
      ∃ trailing, F.decode body = some (message, trailing) := by
    simp only [Codec.ofFormat]
    cases F.decode body with
    | none => simp
    | some pair => simp [Prod.ext_iff]
  rw [Decodes, Carries, hdecode]
  simp only [hF.decode_iff, exists_and_left]
  exact and_left_comm

/-- From whatever bytes, and however they arrive: a host receives some responses in a row
exactly if the bytes begin with one frame for each of them, which begins with its encoding.
The bytes behind an encoding, up to the end of its frame, are ignored. -/
theorem receives_responses_iff (responses : List EnclaveResponse) (src : Source) (rest : Bytes) :
    (∃ src', Source.repeated (recv EnclaveResponse.codec) responses.length src =
        (responses.map .ok, src') ∧ src'.content = rest) ↔
      ∃ bodies, List.Forall₂ (Carries EnclaveResponse.format) responses bodies ∧
        src.content = frames 4 bodies ++ rest := by
  have hcarries : Decodes EnclaveResponse.codec = Carries EnclaveResponse.format := by
    funext response body
    exact propext (decodes_iff_carries EnclaveResponse.canonical_format)
  rw [repeated_recv_iff, hcarries]

end VsockStream

end Sp1Tee
