import Sp1Tee.Enclave.Session
import Sp1Tee.Foundation.Utf8

/-!
# Requests that were sent in part

When the send of a request stops halfway, the stream is dropped, and dropping it sends
`CloseSession` on the same stream. These bytes stand where the rest of the frame should
be, and the enclave takes them for it. `Harmless` says when it does not act on the
outcome: the frame stays incomplete, or what it carries cannot be read.
-/

namespace Sp1Tee

open Foundation VsockStream

section Truncation

variable {Stdin : Type} (stdinFormat : Format Stdin)

/-- What a host has written once the send of `m` has failed behind `p` bytes, and the
stream has been dropped. -/
def interrupted (m : EnclaveRequest Stdin) (p : ℕ) (failure : IoError) : Bytes :=
  let codec := EnclaveRequest.codec stdinFormat
  let (_, sink) := send codec m { written := [], room := some p, failure := failure }
  let (_, sink) := send codec .CloseSession { sink with room := none }
  sink.written

def closeSession : Bytes := [6, 0, 0, 0]

def closeFrame : Bytes := [0, 0, 0, 4, 6, 0, 0, 0]

variable {stdinFormat}

/-! ## The bytes on the stream -/

theorem Sink.writeAll_of_le {sink : Sink} {n : ℕ} {bs : Bytes} (hroom : sink.room = some n)
    (h : bs.length ≤ n) :
    sink.writeAll bs =
      (.ok (), { sink with written := sink.written ++ bs, room := some (n - bs.length) }) := by
  rw [Sink.writeAll, hroom]
  exact if_pos h

theorem Sink.writeAll_of_lt {sink : Sink} {n : ℕ} {bs : Bytes} (hroom : sink.room = some n)
    (h : n < bs.length) :
    sink.writeAll bs =
      (.error sink.failure,
        { sink with written := sink.written ++ bs.take n, room := some 0 }) := by
  rw [Sink.writeAll, hroom]
  exact if_neg (Nat.not_le.mpr h)

theorem send_of_room {α : Type} {codec : Codec α} {message : α} {bytes : Bytes}
    (h : body codec message = some bytes) {sink : Sink} {p : ℕ} (hroom : sink.room = some p)
    (hp : p < 4 + bytes.length) :
    ∃ sink', send codec message sink = (.error (.Io sink.failure), sink') ∧
      sink'.written = sink.written ++ (frame 4 bytes).take p := by
  obtain ⟨hserialize, hlength⟩ := body_eq_some_iff.mp h
  have hheader : (beBytes 4 bytes.length).length = 4 := length_beBytes 4 bytes.length
  rw [send, hserialize]
  simp only [if_neg (Nat.not_lt.mpr hlength)]
  by_cases h4 : 4 ≤ p
  · let sent : Sink :=
      { sink with written := sink.written ++ beBytes 4 bytes.length, room := some (p - 4) }
    have hsent : sink.writeAll (beBytes 4 bytes.length) = (.ok (), sent) := by
      rw [Sink.writeAll_of_le hroom (hheader ▸ h4), hheader]
    have hcut : sent.writeAll bytes = (.error sink.failure,
        { sent with written := sent.written ++ bytes.take (p - 4), room := some 0 }) :=
      Sink.writeAll_of_lt rfl (Nat.sub_lt_left_of_lt_add h4 hp)
    have htake : (frame 4 bytes).take p = beBytes 4 bytes.length ++ bytes.take (p - 4) := by
      have hle : (beBytes 4 bytes.length).length ≤ p := hheader ▸ h4
      rw [frame, List.take_append, List.take_of_length_le hle, hheader]
    rw [hsent]
    simp only [hcut]
    exact ⟨_, rfl, by rw [htake, ← List.append_assoc]⟩
  · have hcut := Sink.writeAll_of_lt hroom
      (show p < (beBytes 4 bytes.length).length by omega)
    rw [hcut]
    refine ⟨_, rfl, ?_⟩
    rw [frame, List.take_append_of_le_length (by omega)]

theorem body_closeSession (stdinFormat : Format Stdin) :
    body (EnclaveRequest.codec stdinFormat) .CloseSession = some closeSession := by
  have hbytes : leBytes 4 6 ++ [] = closeSession := by decide
  exact body_eq_some_iff.mpr ⟨congrArg Except.ok hbytes, by decide⟩

theorem frame_closeSession : frame 4 closeSession = closeFrame := by
  decide

/-- What stands on the stream in the end: the beginning of a frame, and the frame of
`CloseSession`. -/
theorem interrupted_eq {m : EnclaveRequest Stdin} {bytes : Bytes}
    (h : body (EnclaveRequest.codec stdinFormat) m = some bytes) {p : ℕ}
    (hp : p < 4 + bytes.length) (failure : IoError) :
    interrupted stdinFormat m p failure = (frame 4 bytes).take p ++ closeFrame := by
  let start : Sink := { written := [], room := some p, failure := failure }
  obtain ⟨sink, hsend, hwritten⟩ := send_of_room h (show start.room = some p from rfl) hp
  have hclose := send_of_body (body_closeSession stdinFormat)
    (show ({ sink with room := none } : Sink).room = none from rfl)
  have hresult : interrupted stdinFormat m p failure = sink.written ++ frame 4 closeSession := by
    rw [interrupted]
    simp only [start] at hsend
    simp only [hsend, hclose]
  rw [hresult, hwritten, frame_closeSession]
  rfl

/-! ## What the enclave reads -/

/-- The bytes of a request whose last `r` ones are those of the close frame. -/
def spliced (bytes : Bytes) (r : ℕ) : Bytes :=
  bytes.take (bytes.length - r) ++ closeFrame.take r

theorem deserialize_closeSession (stdinFormat : Format Stdin) :
    (EnclaveRequest.codec stdinFormat).deserialize closeSession = .ok .CloseSession :=
  Codec.roundTrip_ofFormat (a := .CloseSession) (F := EnclaveRequest.format stdinFormat) trivial
    closeSession (body_eq_some_iff.mp (body_closeSession stdinFormat)).1

theorem deserialize_nil (stdinFormat : Format Stdin) :
    ∃ e, (EnclaveRequest.codec stdinFormat).deserialize [] = .error e :=
  ⟨_, rfl⟩

/-- If the length of the frame is cut, nothing but the end of the session is read: the
length is zero or too large. -/
theorem recv_of_cut_length {bytes : Bytes} {p : ℕ} (hp : p < 4) {src : Source}
    (h : src.content = (frame 4 bytes).take p ++ closeFrame) {m : EnclaveRequest Stdin}
    (hrecv : (recv (EnclaveRequest.codec stdinFormat) src).1 = .ok m) : m = .CloseSession := by
  have hheader : (beBytes 4 bytes.length).length = 4 := length_beBytes 4 bytes.length
  rw [frame, List.take_append_of_le_length (by omega)] at h
  cases p with
  | zero =>
      have hcontent : src.content = frame 4 closeSession ++ [] := by
        rw [h, frame_closeSession, List.append_nil]
        rfl
      obtain ⟨src', hread, -⟩ := recv_frame (EnclaveRequest.codec stdinFormat) (by decide) hcontent
      rw [hread, received, deserialize_closeSession] at hrecv
      exact (Except.ok.inj hrecv).symm
  | succ p =>
      let init := (beBytes 4 bytes.length).take (p + 1) ++ closeFrame.take (2 - p)
      let rest := closeFrame.drop (3 - p)
      have hzero : ∀ q < 3, closeFrame = closeFrame.take (2 - q) ++ [0] ++ closeFrame.drop (3 - q) ∧
          (closeFrame.take (2 - q)).length = 2 - q ∧ (closeFrame.drop (3 - q)).length < 256 := by
        decide
      obtain ⟨hclose, hinit, hrest⟩ := hzero p (by omega)
      have hcontent : src.content = (init ++ [0]) ++ rest := by
        rw [h]
        simp only [init, rest, List.append_assoc]
        rw [← List.append_assoc (closeFrame.take (2 - p)), ← hclose]
      have hlength : (init ++ [0]).length = 4 := by
        rw [List.length_append, List.length_append, List.length_take, hinit, hheader,
          List.length_singleton]
        omega
      have hread := Source.readFrame_header hlength hcontent
      have hvalue : ofBeBytes (init ++ [0]) = 256 * ofBeBytes init := by
        rw [ofBeBytes_append_singleton]
        exact Nat.zero_add _
      rw [recv_eq_received] at hrecv
      rw [hvalue] at hread
      rcases Nat.eq_zero_or_pos (ofBeBytes init) with hnone | hsome
      · rw [hnone, if_pos (Nat.zero_le _)] at hread
        obtain ⟨e, he⟩ := deserialize_nil stdinFormat
        simp only [hread, Nat.mul_zero, List.take_zero, received, he] at hrecv
        cases hrecv
      · have hlt : rest.length < 256 := hrest
        rw [if_neg (by omega)] at hread
        simp only [hread, received] at hrecv
        cases hrecv

/-- If the body of the frame is cut, the close frame is read as the rest of it, if it is
long enough. -/
theorem recv_of_cut_body {bytes : Bytes} (hbytes : bytes.length < 256 ^ 4) {p : ℕ} (h4 : 4 ≤ p)
    (hp : p < 4 + bytes.length) {src : Source}
    (h : src.content = (frame 4 bytes).take p ++ closeFrame) :
    (recv (EnclaveRequest.codec stdinFormat) src).1 =
      if 4 + bytes.length - p ≤ 8 then
        received (EnclaveRequest.codec stdinFormat) (.ok (spliced bytes (4 + bytes.length - p)))
      else .error (.Io src.ending) := by
  obtain ⟨k, rfl⟩ := Nat.exists_eq_add_of_le h4
  have hr : 4 + bytes.length - (4 + k) = bytes.length - k := Nat.add_sub_add_left 4 _ _
  have hkeep : bytes.length - (bytes.length - k) = k := by omega
  have hread := Source.readFrame_spliced hbytes (show k ≤ bytes.length by omega) h
  rw [recv_eq_received, hr, spliced, hkeep]
  simp only [hread]
  have hclose : closeFrame.length = 8 := rfl
  rw [hclose]
  split <;> rfl

/-! ## What a spliced body says -/

theorem spliced_append {r : ℕ} (as : Bytes) {bs : Bytes} (h : r ≤ bs.length) :
    spliced (as ++ bs) r = as ++ spliced bs r := by
  have hlength : (as ++ bs).length - r = as.length + (bs.length - r) := by
    rw [List.length_append]
    omega
  rw [spliced, spliced, hlength, List.take_length_add_append, List.append_assoc]

theorem length_spliced {bytes : Bytes} {r : ℕ} (h : r ≤ bytes.length) (h8 : r ≤ 8) :
    (spliced bytes r).length = bytes.length := by
  have hclose : closeFrame.length = 8 := rfl
  rw [spliced, List.length_append, List.length_take, List.length_take, hclose]
  omega

theorem decode_vec_spliced_of_le {v : Bytes} (hv : Format.vec.Valid v) {r : ℕ} (h : r ≤ v.length)
    (h8 : r ≤ 8) :
    Format.vec.decode (spliced (Format.vec.encode v) r) = some (spliced v r, []) := by
  have hlength := length_spliced h h8
  have hencode : spliced (Format.vec.encode v) r = Format.vec.encode (spliced v r) ++ [] := by
    rw [List.append_nil]
    simp only [Format.vec, spliced_append _ h, hlength]
  have hvalid : Format.vec.Valid (spliced v r) := by
    refine Format.valid_vec ?_
    rw [hlength]
    exact hv
  rw [hencode, Format.vec.decode_encode hvalid]

/-- The length of a byte string of `n` bytes, when more than these are replaced. -/
def lengthField (n r : ℕ) : Bytes :=
  (leBytes 8 n).take (8 - (r - n)) ++ closeFrame.take (r - n)

theorem ofLeBytes_lengthField : ∀ n < 8, ∀ r < 9, n < r →
    if r < n + 4 then ofLeBytes (lengthField n r) = n else n < ofLeBytes (lengthField n r) := by
  decide +kernel

theorem length_closeFrame : closeFrame.length = 8 := rfl

theorem length_lengthField {n r : ℕ} (h : n < r) (h8 : r ≤ 8) : (lengthField n r).length = 8 := by
  rw [lengthField, List.length_append, List.length_take, List.length_take, length_leBytes,
    length_closeFrame]
  omega

/-- When more than the content of a byte string is replaced, it can still be read as
long as at most three bytes of its length are. -/
theorem decode_vec_spliced_of_lt {v : Bytes} {r : ℕ} (h : v.length < r) (h8 : r ≤ 8) :
    Format.vec.decode (spliced (Format.vec.encode v) r) =
      if r < v.length + 4 then some ((closeFrame.take r).drop (r - v.length), []) else none := by
  let rest := (closeFrame.take r).drop (r - v.length)
  have hrest : rest.length = v.length := by
    simp only [rest, List.length_drop, List.length_take, length_closeFrame]
    omega
  have hclose : closeFrame.take (r - v.length) ++ rest = closeFrame.take r := by
    have htake : closeFrame.take (r - v.length) = (closeFrame.take r).take (r - v.length) := by
      rw [List.take_take, Nat.min_eq_left (Nat.sub_le r v.length)]
    rw [htake, List.take_append_drop]
  have hencode : spliced (Format.vec.encode v) r = lengthField v.length r ++ rest := by
    have hkeep : (Format.vec.encode v).length - r = 8 - (r - v.length) := by
      rw [Format.length_encode_vec]
      omega
    rw [spliced, hkeep, lengthField, List.append_assoc, hclose]
    exact congrArg (· ++ _)
      (List.take_append_of_le_length (by rw [length_leBytes]; exact Nat.sub_le 8 _))
  have hvalue := ofLeBytes_lengthField v.length (by omega) r (by omega) h
  rw [hencode, Format.decode_vec (length_lengthField h h8), hrest]
  by_cases h4 : r < v.length + 4
  · rw [if_pos h4] at hvalue ⊢
    rw [hvalue, if_pos (Nat.le_refl _), List.take_of_length_le (Nat.le_of_eq hrest),
      List.drop_of_length_le (Nat.le_of_eq hrest)]
  · rw [if_neg h4] at hvalue ⊢
    rw [if_neg (Nat.not_le.mpr hvalue)]

/-- At most the end of the session is read from the bytes of a body. -/
def ReadsOnlyClose (stdinFormat : Format Stdin) (bytes : Bytes) : Prop :=
  ∀ m, (EnclaveRequest.codec stdinFormat).deserialize bytes = .ok m → m = .CloseSession

abbrev encoded (stdinFormat : Format Stdin) (m : EnclaveRequest Stdin) : Bytes :=
  (EnclaveRequest.format stdinFormat).encode m

theorem deserialize_tagged {n : ℕ} (hn : n < 256 ^ 4) (bs : Bytes) :
    (EnclaveRequest.codec stdinFormat).deserialize (leBytes 4 n ++ bs) =
      match EnclaveRequest.read stdinFormat n bs with
      | some (m, _) => .ok m
      | none => .error "malformed message" := by
  simp only [EnclaveRequest.codec, Codec.ofFormat, EnclaveRequest.format, Format.decode_tagged hn]
  cases EnclaveRequest.read stdinFormat n bs <;> rfl

theorem readsOnlyClose_iff_of_readAs (m : EnclaveRequest Stdin) {α : Type} (F : Format α)
    (variant : α → EnclaveRequest Stdin) (hvariant : ∀ a, variant a ≠ .CloseSession)
    (hread : EnclaveRequest.read stdinFormat m.tag = F.readAs variant) {r : ℕ}
    (hr : r ≤ (m.payload stdinFormat).length) :
    ReadsOnlyClose stdinFormat (spliced (encoded stdinFormat m) r) ↔
      F.decode (spliced (m.payload stdinFormat) r) = none := by
  have hencoded : spliced (encoded stdinFormat m) r =
      leBytes 4 m.tag ++ spliced (m.payload stdinFormat) r := spliced_append _ hr
  rw [ReadsOnlyClose, hencoded, deserialize_tagged m.tag_lt, hread, Format.readAs]
  cases F.decode (spliced (m.payload stdinFormat) r) with
  | none => exact iff_of_true (fun m' hm' => by cases hm') rfl
  | some p =>
      refine iff_of_false (fun hall => ?_) (Option.some_ne_none p)
      exact hvariant p.1 (hall _ rfl)

theorem decode_uint64_isSome {bs : Bytes} (h : bs.length = 8) :
    (Format.uint64.decode bs).isSome := by
  simp [Format.uint64, Format.recognize, Format.le, h]

/-- A text is read again unless its length is damaged, or it is cut inside of a
character. -/
theorem decode_string_spliced_eq_none_iff {text : String} (hvalid : Format.string.Valid text)
    {r : ℕ} (h8 : r ≤ 8) :
    let bytes : Bytes := text.toUTF8.data.toList
    Format.string.decode (spliced (Format.string.encode text) r) = none ↔
      bytes.length + 4 ≤ r ∨
        r ≤ bytes.length ∧ fromUtf8 (bytes.take (bytes.length - r)) = none := by
  intro bytes
  have hascii : ∀ b ∈ closeFrame, b.toNat < 128 := by decide +kernel
  have hdecode : Format.string.decode (spliced (Format.string.encode text) r) =
      (Format.vec.decode (spliced (Format.vec.encode bytes) r)).bind fun p =>
        (fromUtf8 p.1).map fun s => (s, p.2) := by
    change (Format.vec.recognize _ _).decode _ = _
    simp only [Format.recognize, Option.bind_eq_bind]
    congr 1
    funext p
    change (fromUtf8 p.1).bind _ = _
    cases fromUtf8 p.1 <;> rfl
  rw [hdecode]
  rcases Nat.lt_or_ge bytes.length r with hlt | hle
  · rw [decode_vec_spliced_of_lt hlt h8]
    by_cases h4 : r < bytes.length + 4
    · have htext : (fromUtf8 ([] ++ (closeFrame.take r).drop (r - bytes.length))).isSome :=
        (isSome_fromUtf8_append_iff fun b hb =>
          hascii b (List.mem_of_mem_take (List.mem_of_mem_drop hb))).mpr rfl
      obtain ⟨s, hs⟩ := Option.isSome_iff_exists.mp htext
      rw [List.nil_append] at hs
      rw [if_pos h4, Option.bind_some, hs]
      exact iff_of_false (Option.some_ne_none _) (by omega)
    · rw [if_neg h4, Option.bind_none]
      exact iff_of_true rfl (Or.inl (Nat.not_lt.mp h4))
  · have hcut : (fromUtf8 (spliced bytes r)).isSome ↔
        (fromUtf8 (bytes.take (bytes.length - r))).isSome :=
      isSome_fromUtf8_append_iff fun b hb => hascii b (List.mem_of_mem_take hb)
    rw [decode_vec_spliced_of_le hvalid.1 hle h8, Option.bind_some, Option.map_eq_none_iff,
      ← Option.not_isSome_iff_eq_none, hcut, Option.not_isSome_iff_eq_none]
    constructor
    · exact fun hnone => Or.inr ⟨hle, hnone⟩
    · rintro (hlong | ⟨-, hnone⟩)
      · omega
      · exact hnone

theorem decode_execute_spliced_isSome {stdin : Stdin} {program : Bytes} {cycle_limit : UInt64}
    (hvalid : (EnclaveRequest.executeFormat stdinFormat).Valid (stdin, program, cycle_limit))
    {r : ℕ} (h8 : r ≤ 8) :
    ((EnclaveRequest.executeFormat stdinFormat).decode
      (spliced ((EnclaveRequest.executeFormat stdinFormat).encode
        (stdin, program, cycle_limit)) r)).isSome := by
  obtain ⟨hstdin, hprogram, -⟩ := hvalid
  let limit : Bytes := leBytes 8 cycle_limit.toNat
  have hlimit : limit.length = 8 := length_leBytes 8 _
  have hencode : spliced ((EnclaveRequest.executeFormat stdinFormat).encode
        (stdin, program, cycle_limit)) r =
      stdinFormat.encode stdin ++ (Format.vec.encode program ++ spliced limit r) := by
    have hfields : (EnclaveRequest.executeFormat stdinFormat).encode
        (stdin, program, cycle_limit) =
        stdinFormat.encode stdin ++ (Format.vec.encode program ++ limit) := rfl
    rw [hfields, spliced_append _ (by rw [List.length_append]; omega),
      spliced_append _ (by omega)]
  have hread := decode_uint64_isSome (length_spliced (by omega) h8 |>.trans hlimit)
  obtain ⟨p, hp⟩ := Option.isSome_iff_exists.mp hread
  rw [hencode]
  simp only [EnclaveRequest.executeFormat, Format.pair, stdinFormat.decode_encode hstdin,
    Format.vec.decode_encode hprogram, hp, Option.bind_eq_bind, Option.bind_some]
  rfl

theorem spliced_leBytes : ∀ n ∈ [1, 2, 3, 6], ∀ r < 4,
    spliced (leBytes 4 n) r = leBytes 4 n ∧ spliced (leBytes 4 n) 4 = leBytes 4 67108864 := by
  decide +kernel

theorem readsOnlyClose_iff_of_fieldless (m : EnclaveRequest Stdin) (hm : m.tag ∈ [1, 2, 3, 6])
    (hpayload : m.payload stdinFormat = [])
    (hread : EnclaveRequest.read stdinFormat m.tag [] = some (m, [])) {r : ℕ} (hr : r ≤ 4) :
    ReadsOnlyClose stdinFormat (spliced (encoded stdinFormat m) r) ↔ m = .CloseSession ∨ r = 4 := by
  have hencoded : encoded stdinFormat m = leBytes 4 m.tag := by
    change leBytes 4 m.tag ++ m.payload stdinFormat = _
    rw [hpayload, List.append_nil]
  rw [hencoded, ReadsOnlyClose]
  rcases Nat.lt_or_eq_of_le hr with hlt | rfl
  · have hone : (EnclaveRequest.codec stdinFormat).deserialize (spliced (leBytes 4 m.tag) r) =
        .ok m := by
      rw [(spliced_leBytes m.tag hm r hlt).1, ← List.append_nil (leBytes 4 m.tag),
        deserialize_tagged m.tag_lt, hread]
    rw [hone]
    constructor
    · exact fun hall => Or.inl (hall m rfl)
    · rintro (rfl | rfl) m' hm'
      · exact (Except.ok.inj hm').symm
      · exact absurd hlt (Nat.lt_irrefl 4)
  · refine iff_of_true (fun m' hm' => ?_) (Or.inr rfl)
    have hnone : EnclaveRequest.read stdinFormat 67108864 [] = none := rfl
    rw [(spliced_leBytes m.tag hm 0 (by decide)).2, ← List.append_nil (leBytes 4 67108864),
      deserialize_tagged (by decide), hnone] at hm'
    cases hm'

/-- Nothing comes of the request when its last `r` bytes are replaced. -/
def Harmless (r : ℕ) : EnclaveRequest Stdin → Prop
  | .Print message =>
      let bytes : Bytes := message.toUTF8.data.toList
      bytes.length + 4 ≤ r ∨ r ≤ bytes.length ∧ fromUtf8 (bytes.take (bytes.length - r)) = none
  | .Execute _ _ _ => False
  | .SetSigningKey ciphertext => ciphertext.length + 4 ≤ r
  | .CloseSession => True
  | _ => r = 4

theorem readsOnlyClose_iff {m : EnclaveRequest Stdin} (hvalid : m.Valid stdinFormat) {r : ℕ}
    (h8 : r ≤ 8) (hr : r ≤ (encoded stdinFormat m).length) :
    ReadsOnlyClose stdinFormat (spliced (encoded stdinFormat m) r) ↔ Harmless r m := by
  have hlength : (encoded stdinFormat m).length = 4 + (m.payload stdinFormat).length := by
    change (leBytes 4 m.tag ++ m.payload stdinFormat).length = _
    rw [List.length_append, length_leBytes]
  cases m with
  | Print message =>
      have hfields : r ≤ (Format.string.encode message).length := by
        rw [Format.length_encode_string]
        omega
      rw [readsOnlyClose_iff_of_readAs (.Print message) Format.string .Print (fun _ => nofun) rfl
        hfields]
      exact decode_string_spliced_eq_none_iff hvalid h8
  | SetSigningKey ciphertext =>
      have hfields : r ≤ (Format.vec.encode ciphertext).length := by
        rw [Format.length_encode_vec]
        omega
      rw [readsOnlyClose_iff_of_readAs (.SetSigningKey ciphertext) Format.vec .SetSigningKey
        (fun _ => nofun) rfl hfields, Harmless]
      change Format.vec.decode (spliced (Format.vec.encode ciphertext) r) = none ↔ _
      rcases Nat.lt_or_ge ciphertext.length r with hlt | hle
      · rw [decode_vec_spliced_of_lt hlt h8]
        split <;> simp <;> omega
      · rw [decode_vec_spliced_of_le hvalid hle h8]
        exact iff_of_false (Option.some_ne_none _) (by omega)
  | Execute stdin program cycle_limit =>
      have hfields : r ≤ ((EnclaveRequest.executeFormat stdinFormat).encode
          (stdin, program, cycle_limit)).length := by
        have hlimit : ∀ bs : Bytes, 8 ≤ (bs ++ leBytes 8 cycle_limit.toNat).length := by
          intro bs
          rw [List.length_append, length_leBytes]
          exact Nat.le_add_left 8 _
        refine h8.trans ?_
        have hsplit := hlimit (stdinFormat.encode stdin ++ Format.vec.encode program)
        rw [List.append_assoc] at hsplit
        exact hsplit
      rw [readsOnlyClose_iff_of_readAs (.Execute stdin program cycle_limit)
        (EnclaveRequest.executeFormat stdinFormat) (fun p => .Execute p.1 p.2.1 p.2.2)
        (fun _ => nofun) rfl hfields, Harmless, iff_false]
      refine Option.isSome_iff_ne_none.mp ?_
      exact decode_execute_spliced_isSome hvalid h8
  | _ =>
      rw [readsOnlyClose_iff_of_fieldless _ (by simp [EnclaveRequest.tag]) rfl rfl hr]
      simp [Harmless]

/-! ## What the enclave does -/

section Handling

variable {K : Type} (deps : Deps K) (debugMode : Bool) (server : Server K)
  (calls : ℕ → Calls Stdin)

/-- Nothing but the end of the session is handled exactly if nothing else is received
first: the session ends there. -/
theorem serve_close_iff (i : ℕ) (connection : Connection) :
    (∀ fuel, ∀ message ∈ (server.serve deps debugMode stdinFormat calls fuel i connection).1,
        message = .CloseSession) ↔
      ∀ message, (recv (EnclaveRequest.codec stdinFormat) connection.input).1 = .ok message →
        message = .CloseSession := by
  cases hrecv : recv (EnclaveRequest.codec stdinFormat) connection.input with
  | mk result input =>
      cases result with
      | error e =>
          refine iff_of_true (fun fuel message hmessage => ?_) fun message h => by cases h
          cases fuel with
          | zero => cases hmessage
          | succ fuel =>
              rw [Server.serve, hrecv] at hmessage
              cases hmessage
      | ok m =>
          constructor
          · intro hall message hmessage
            rw [← Except.ok.inj hmessage]
            refine hall 1 m ?_
            rw [Server.serve, hrecv]
            simp only
            split <;> exact List.mem_cons_self
          · intro hclose fuel message hmessage
            obtain rfl := hclose m rfl
            cases fuel with
            | zero => cases hmessage
            | succ fuel =>
                rw [Server.serve, hrecv] at hmessage
                exact List.mem_singleton.mp hmessage

/-- A request of which `p` bytes were written is not acted on, and neither is what the
close frame makes of it, exactly if the cut is in the length, more than eight bytes are
missing, or what is read is harmless. -/
theorem serve_interrupted_iff {m : EnclaveRequest Stdin} (hvalid : m.Valid stdinFormat)
    {bytes : Bytes} (hbody : body (EnclaveRequest.codec stdinFormat) m = some bytes) {p : ℕ}
    (hp : p < 4 + bytes.length) {failure : IoError} (i : ℕ) {connection : Connection}
    (hinput : connection.input.content = interrupted stdinFormat m p failure) :
    (∀ fuel, ∀ message ∈ (server.serve deps debugMode stdinFormat calls fuel i connection).1,
        message = .CloseSession) ↔
      p < 4 ∨ 8 < 4 + bytes.length - p ∨ Harmless (4 + bytes.length - p) m := by
  rw [interrupted_eq hbody hp] at hinput
  rw [serve_close_iff]
  rcases Nat.lt_or_ge p 4 with hlt | h4
  · exact iff_of_true (fun message h => recv_of_cut_length hlt hinput h) (Or.inl hlt)
  · have hencoded : encoded stdinFormat m = bytes :=
      Except.ok.inj (body_eq_some_iff.mp hbody).1
    rw [recv_of_cut_body (length_body_lt hbody) h4 hp hinput]
    by_cases h8 : 4 + bytes.length - p ≤ 8
    · have hreads := readsOnlyClose_iff hvalid h8
        (show 4 + bytes.length - p ≤ (encoded stdinFormat m).length by rw [hencoded]; omega)
      rw [hencoded] at hreads
      have hreceived : (∀ message, received (EnclaveRequest.codec stdinFormat)
          (.ok (spliced bytes (4 + bytes.length - p))) = .ok message → message = .CloseSession) ↔
            ReadsOnlyClose stdinFormat (spliced bytes (4 + bytes.length - p)) := by
        rw [ReadsOnlyClose, received]
        cases (EnclaveRequest.codec stdinFormat).deserialize
            (spliced bytes (4 + bytes.length - p)) with
        | error e => exact iff_of_true (fun _ h => by cases h) fun _ h => by cases h
        | ok m' => simp only [Except.ok.injEq]
      rw [if_pos h8, hreceived, hreads]
      constructor
      · exact fun h => Or.inr (Or.inr h)
      · rintro (hlt | hlong | h)
        · exact absurd h4 (Nat.not_le.mpr hlt)
        · exact absurd h8 (Nat.not_le.mpr hlong)
        · exact h
    · rw [if_neg h8]
      exact iff_of_true (fun message h => by cases h) (Or.inr (Or.inl (Nat.not_le.mp h8)))

end Handling

end Truncation

/-! A request for the public key that is cut behind the length of its frame, and an
execution of which only the last byte is missing. -/

namespace CutSession

open Server.PrintSession

def connection (m : EnclaveRequest Bytes) (p : ℕ) : Connection where
  input :=
    { chunks := [interrupted .vec m p .unexpectedEof]
      ending := .unexpectedEof }
  output := { written := [], room := none, failure := .unexpectedEof }

theorem content_connection (m : EnclaveRequest Bytes) (p : ℕ) :
    (connection m p).input.content = interrupted .vec m p .unexpectedEof := by
  simp [connection, Source.content]

def execution : EnclaveRequest Bytes := .Execute [1] [2] 7

theorem serve_interrupted_getPublicKey :
    (interrupted .vec (.GetPublicKey : EnclaveRequest Bytes) 4 .unexpectedEof).length = 4 + 8 ∧
      ∀ fuel, ∀ message ∈ (server.serve deps false .vec (fun _ => calls) fuel 0
        (connection .GetPublicKey 4)).1, message = .CloseSession := by
  have hbody : body (EnclaveRequest.codec .vec) (.GetPublicKey : EnclaveRequest Bytes) =
      some [1, 0, 0, 0] := by decide +kernel
  have hvalid : (.GetPublicKey : EnclaveRequest Bytes).Valid .vec := trivial
  exact ⟨by decide +kernel, (serve_interrupted_iff deps false server (fun _ => calls) hvalid hbody
    (by decide) 0 (content_connection .GetPublicKey 4)).mpr (Or.inr (Or.inr rfl))⟩

/-- The zero at the beginning of the close frame completes the execution request, which
is then handled. -/
theorem serve_interrupted_execution :
    (interrupted .vec execution 33 .unexpectedEof).length = 33 + 8 ∧
      ¬ ∀ fuel, ∀ message ∈ (server.serve deps false .vec (fun _ => calls) fuel 0
        (connection execution 33)).1, message = .CloseSession := by
  have hserve : (server.serve deps false .vec (fun _ => calls) 1 0
      (connection execution 33)).1 = [execution] := by decide +kernel
  refine ⟨by decide +kernel, fun hall => ?_⟩
  have hmem : execution ∈ (server.serve deps false .vec (fun _ => calls) 1 0
      (connection execution 33)).1 := by
    rw [hserve]
    exact List.mem_singleton_self _
  exact absurd (hall 1 execution hmem) (by decide)

end CutSession

end Sp1Tee
