import Sp1Tee.Foundation.Bytes

/-!
# Length-prefixed frames over a stream of chunks

A transport delivers a byte stream in chunks of its own choosing and then ends.
`Source.readExact` gathers a number of bytes across the chunks; what it returns
depends on the `content` of the source alone. A frame is a body behind its
length, and reading frames from a stream that was cut anywhere returns the bodies
of the frames that are whole, and then fails for good.
-/

namespace Foundation

/-- The error of a read or write that could not be completed. -/
inductive IoError
  | unexpectedEof
  | other (kind : String)
deriving DecidableEq

/-- The receiving end of a stream: the chunks that are still to be delivered, and
how a read that asks for more will fail. -/
structure Source where
  chunks : List Bytes
  ending : IoError

namespace Source

def content (src : Source) : Bytes := src.chunks.flatten

/-- Gathers `n` bytes from a list of chunks, if there are as many. What is left of
the last chunk stays in front. -/
def gather : ℕ → List Bytes → Option (Bytes × List Bytes)
  | 0, chunks => some ([], chunks)
  | _ + 1, [] => none
  | n + 1, c :: cs =>
    if c.length ≤ n + 1 then
      (gather (n + 1 - c.length) cs).map fun (bs, rest) => (c ++ bs, rest)
    else
      some (c.take (n + 1), c.drop (n + 1) :: cs)

/-- Reads exactly `n` bytes. A read that fails has used up the stream. -/
def readExact (n : ℕ) (src : Source) : Except IoError Bytes × Source :=
  match gather n src.chunks with
  | some (bs, rest) => (.ok bs, { src with chunks := rest })
  | none => (.error src.ending, { src with chunks := [] })

theorem gather_of_le {n : ℕ} {chunks : List Bytes} (h : n ≤ chunks.flatten.length) :
    ∃ rest, gather n chunks = some (chunks.flatten.take n, rest) ∧
      rest.flatten = chunks.flatten.drop n := by
  induction chunks generalizing n with
  | nil =>
      obtain rfl : n = 0 := Nat.le_zero.mp (by simpa using h)
      exact ⟨[], rfl, rfl⟩
  | cons c cs ih =>
      cases n with
      | zero => exact ⟨c :: cs, rfl, rfl⟩
      | succ n =>
          rw [List.flatten_cons, List.length_append] at h
          by_cases hc : c.length ≤ n + 1
          · obtain ⟨rest, hrest, hflatten⟩ :=
              ih (show n + 1 - c.length ≤ cs.flatten.length by omega)
            refine ⟨rest, ?_, ?_⟩
            · rw [gather, if_pos hc, hrest, List.flatten_cons, List.take_append,
                List.take_of_length_le hc]
              rfl
            · rw [hflatten, List.flatten_cons, List.drop_append, List.drop_of_length_le hc,
                List.nil_append]
          · have hle : n + 1 ≤ c.length := by omega
            refine ⟨c.drop (n + 1) :: cs, ?_, ?_⟩
            · rw [gather, if_neg hc, List.flatten_cons, List.take_append_of_le_length hle]
            · rw [List.flatten_cons, List.flatten_cons, List.drop_append_of_le_length hle]

theorem gather_of_lt {n : ℕ} {chunks : List Bytes} (h : chunks.flatten.length < n) :
    gather n chunks = none := by
  induction chunks generalizing n with
  | nil =>
      cases n with
      | zero => exact absurd h (Nat.not_lt_zero _)
      | succ n => rfl
  | cons c cs ih =>
      cases n with
      | zero => exact absurd h (Nat.not_lt_zero _)
      | succ n =>
          rw [List.flatten_cons, List.length_append] at h
          rw [gather, if_pos (by omega), ih (by omega), Option.map_none]

theorem readExact_of_le {n : ℕ} {src : Source} (h : n ≤ src.content.length) :
    ∃ src', src.readExact n = (.ok (src.content.take n), src') ∧
      src'.content = src.content.drop n ∧ src'.ending = src.ending := by
  obtain ⟨rest, hgather, hflatten⟩ := gather_of_le h
  refine ⟨{ src with chunks := rest }, ?_, hflatten, rfl⟩
  rw [readExact, hgather]
  rfl

theorem readExact_of_lt {n : ℕ} {src : Source} (h : src.content.length < n) :
    src.readExact n = (.error src.ending, { src with chunks := [] }) := by
  rw [readExact, gather_of_lt h]

def repeated {β : Type} (read : Source → β × Source) : ℕ → Source → List β × Source
  | 0, src => ([], src)
  | n + 1, src =>
    let (result, src') := read src
    let (results, src'') := repeated read n src'
    (result :: results, src'')

theorem repeated_add {β : Type} (read : Source → β × Source) (m n : ℕ) (src : Source) :
    repeated read (m + n) src =
      ((repeated read m src).1 ++ (repeated read n (repeated read m src).2).1,
        (repeated read n (repeated read m src).2).2) := by
  induction m generalizing src with
  | zero => simp [repeated]
  | succ m ih =>
      rw [Nat.add_right_comm, repeated, repeated]
      simp only [ih, List.cons_append]

theorem repeated_map {β γ : Type} (read : Source → β × Source) (g : β → γ) (n : ℕ)
    (src : Source) :
    repeated (fun src => (g (read src).1, (read src).2)) n src =
      ((repeated read n src).1.map g, (repeated read n src).2) := by
  induction n generalizing src with
  | zero => rfl
  | succ n ih =>
      rw [repeated, repeated]
      simp only [ih, List.map_cons]

theorem repeated_of_fixed {β : Type} {read : Source → β × Source} {src : Source} {result : β}
    (h : read src = (result, src)) (n : ℕ) :
    repeated read n src = (List.replicate n result, src) := by
  induction n with
  | zero => rfl
  | succ n ih =>
      rw [repeated, h]
      simp only [ih]
      rfl

end Source

/-! ## Frames -/

/-- A body behind its length, which takes `w` bytes. -/
def frame (w : ℕ) (body : Bytes) : Bytes := beBytes w body.length ++ body

theorem length_frame (w : ℕ) (body : Bytes) : (frame w body).length = w + body.length := by
  rw [frame, List.length_append, length_beBytes]

/-- The frames of some bodies, one after the other. -/
def frames (w : ℕ) (bodies : List Bytes) : Bytes := (bodies.map (frame w)).flatten

theorem frames_cons (w : ℕ) (body : Bytes) (bodies : List Bytes) :
    frames w (body :: bodies) = frame w body ++ frames w bodies := rfl

/-- Not even one frame: the length, or the body it announces, is cut off. -/
def Incomplete (w : ℕ) (bs : Bytes) : Prop :=
  bs.length < w ∨ bs.length < w + ofBeBytes (bs.take w)

/-- The number of bodies whose frames end within the first `k` bytes. -/
def wholeFrames (w : ℕ) : ℕ → List Bytes → ℕ
  | _, [] => 0
  | k, body :: bodies =>
    if w + body.length ≤ k then wholeFrames w (k - (w + body.length)) bodies + 1 else 0

/-- A stream cut behind `k` bytes is some whole frames and an incomplete one. -/
theorem take_frames {w : ℕ} (hw : 0 < w) (k : ℕ) {bodies : List Bytes}
    (hbodies : ∀ body ∈ bodies, body.length < 256 ^ w) :
    ∃ remnant, (frames w bodies).take k =
        frames w (bodies.take (wholeFrames w k bodies)) ++ remnant ∧ Incomplete w remnant := by
  induction bodies generalizing k with
  | nil => exact ⟨[], by simp [frames], Or.inl hw⟩
  | cons body bodies ih =>
      have hlength := length_frame w body
      have hbody := hbodies body List.mem_cons_self
      by_cases hk : w + body.length ≤ k
      · obtain ⟨remnant, htake, hremnant⟩ :=
          ih (k - (w + body.length)) fun b hb => hbodies b (List.mem_cons_of_mem body hb)
        refine ⟨remnant, ?_, hremnant⟩
        rw [wholeFrames, if_pos hk, List.take_succ_cons, frames_cons, frames_cons,
          List.take_append, List.take_of_length_le (by omega), hlength, htake, List.append_assoc]
      · refine ⟨(frame w body).take k, ?_, ?_⟩
        · rw [wholeFrames, if_neg hk, List.take_zero, frames_cons,
            List.take_append_of_le_length (by omega)]
          rfl
        · rw [Incomplete, List.length_take, hlength]
          by_cases hkw : k < w
          · exact Or.inl (by omega)
          · have hheader : ((frame w body).take k).take w = beBytes w body.length := by
              rw [List.take_take, Nat.min_eq_left (by omega), frame,
                List.take_left' (length_beBytes w body.length)]
            rw [hheader, ofBeBytes_beBytes hbody]
            exact Or.inr (by omega)

def Source.readFrame (w : ℕ) (src : Source) : Except IoError Bytes × Source :=
  match src.readExact w with
  | (.error e, src) => (.error e, src)
  | (.ok length, src) => src.readExact (ofBeBytes length)

namespace Source

theorem readFrame_frame {w : ℕ} {body rest : Bytes} (hbody : body.length < 256 ^ w)
    {src : Source} (h : src.content = frame w body ++ rest) :
    ∃ src', src.readFrame w = (.ok body, src') ∧ src'.content = rest ∧
      src'.ending = src.ending := by
  have hlength : (beBytes w body.length).length = w := length_beBytes w body.length
  rw [frame, List.append_assoc] at h
  obtain ⟨src₁, hread₁, hcontent₁, hending₁⟩ :=
    readExact_of_le (show w ≤ src.content.length by rw [h, List.length_append]; omega)
  rw [h, List.take_left' hlength] at hread₁
  rw [h, List.drop_left' hlength] at hcontent₁
  obtain ⟨src₂, hread₂, hcontent₂, hending₂⟩ :=
    readExact_of_le (show body.length ≤ src₁.content.length by rw [hcontent₁]; simp)
  rw [hcontent₁, List.take_left' rfl] at hread₂
  rw [hcontent₁, List.drop_left' rfl] at hcontent₂
  refine ⟨src₂, ?_, hcontent₂, hending₂.trans hending₁⟩
  rw [readFrame, hread₁]
  simp only [ofBeBytes_beBytes hbody, hread₂]

theorem readFrame_incomplete {w : ℕ} {src : Source} (h : Incomplete w src.content) :
    src.readFrame w = (.error src.ending, { src with chunks := [] }) := by
  by_cases hshort : src.content.length < w
  · rw [readFrame, readExact_of_lt hshort]
  · have hbody := h.resolve_left hshort
    obtain ⟨src₁, hread₁, hcontent₁, hending₁⟩ := readExact_of_le (Nat.not_lt.mp hshort)
    have hlt : src₁.content.length < ofBeBytes (src.content.take w) := by
      rw [hcontent₁, List.length_drop]
      omega
    rw [readFrame, hread₁]
    simp only [readExact_of_lt hlt, hending₁]

theorem incomplete_or_frame (w : ℕ) (bs : Bytes) :
    Incomplete w bs ∨ ∃ body rest, body.length < 256 ^ w ∧ bs = frame w body ++ rest := by
  by_cases hincomplete : Incomplete w bs
  · exact Or.inl hincomplete
  · obtain ⟨hheader, hbody⟩ := not_or.mp hincomplete
    have htake : (bs.take w).length = w := List.length_take_of_le (Nat.not_lt.mp hheader)
    have hlength : ((bs.drop w).take (ofBeBytes (bs.take w))).length = ofBeBytes (bs.take w) :=
      List.length_take_of_le (by rw [List.length_drop]; omega)
    have hdigits := beBytes_ofBeBytes (bs.take w)
    have hlt := ofBeBytes_lt (bs.take w)
    rw [htake] at hdigits hlt
    refine Or.inr ⟨(bs.drop w).take (ofBeBytes (bs.take w)),
      bs.drop (w + ofBeBytes (bs.take w)), by rwa [hlength], ?_⟩
    calc bs = bs.take w ++ bs.drop w := (List.take_append_drop w bs).symm
      _ = bs.take w ++ ((bs.drop w).take (ofBeBytes (bs.take w)) ++
            bs.drop (w + ofBeBytes (bs.take w))) := by rw [take_drop_append_drop]
      _ = frame w ((bs.drop w).take (ofBeBytes (bs.take w))) ++
            bs.drop (w + ofBeBytes (bs.take w)) := by
          rw [frame, hlength, hdigits, List.append_assoc]

theorem frame_of_readFrame {w : ℕ} {src src' : Source} {body : Bytes}
    (h : src.readFrame w = (.ok body, src')) :
    body.length < 256 ^ w ∧ src.content = frame w body ++ src'.content ∧
      src'.ending = src.ending := by
  rcases incomplete_or_frame w src.content with hincomplete | ⟨body', rest, hbody, hcontent⟩
  · rw [readFrame_incomplete hincomplete] at h
    cases h
  · obtain ⟨src'', hread, hrest, hending⟩ := readFrame_frame hbody hcontent
    rw [hread] at h
    cases h
    exact ⟨hbody, by rw [hrest, hcontent], hending⟩

/-- A frame is read as its first bytes say, whoever wrote them. -/
theorem readFrame_header {w : ℕ} {header rest : Bytes} (hheader : header.length = w)
    {src : Source} (h : src.content = header ++ rest) :
    (src.readFrame w).1 =
      if ofBeBytes header ≤ rest.length then .ok (rest.take (ofBeBytes header))
      else .error src.ending := by
  obtain ⟨src', hread, hcontent, hending⟩ :=
    readExact_of_le (show w ≤ src.content.length by rw [h, List.length_append]; omega)
  rw [h, List.take_left' hheader] at hread
  rw [h, List.drop_left' hheader] at hcontent
  rw [readFrame, hread]
  by_cases hle : ofBeBytes header ≤ rest.length
  · obtain ⟨src'', hrest, -⟩ := readExact_of_le (show ofBeBytes header ≤ src'.content.length by
      rwa [hcontent])
    rw [if_pos hle]
    simp only [hrest, hcontent]
  · have hlt : src'.content.length < ofBeBytes header := by
      rw [hcontent]
      exact Nat.not_le.mp hle
    rw [if_neg hle]
    simp only [readExact_of_lt hlt, hending]

/-- Whatever follows the beginning of a frame is read as the rest of it. -/
theorem readFrame_spliced {w : ℕ} {body tail : Bytes} (hbody : body.length < 256 ^ w) {k : ℕ}
    (hk : k ≤ body.length) {src : Source} (h : src.content = (frame w body).take (w + k) ++ tail) :
    (src.readFrame w).1 =
      if body.length - k ≤ tail.length then .ok (body.take k ++ tail.take (body.length - k))
      else .error src.ending := by
  have hlength : (beBytes w body.length).length = w := length_beBytes w body.length
  have hcontent : src.content = beBytes w body.length ++ (body.take k ++ tail) := by
    rw [h, frame, List.take_append, hlength, Nat.add_sub_cancel_left,
      List.take_of_length_le (by omega), List.append_assoc]
  have htake : (body.take k ++ tail).take body.length =
      body.take k ++ tail.take (body.length - k) := by
    rw [List.take_append, List.length_take, Nat.min_eq_left hk,
      List.take_of_length_le (by rw [List.length_take]; omega)]
  rw [readFrame_header hlength hcontent, ofBeBytes_beBytes hbody, htake, List.length_append,
    List.length_take, Nat.min_eq_left hk]
  by_cases hle : body.length - k ≤ tail.length
  · rw [if_pos hle, if_pos (by omega)]
  · rw [if_neg hle, if_neg (by omega)]

theorem repeated_readFrame_frames {w : ℕ} {bodies : List Bytes}
    (hbodies : ∀ body ∈ bodies, body.length < 256 ^ w) {rest : Bytes} {src : Source}
    (h : src.content = frames w bodies ++ rest) :
    ∃ src', repeated (readFrame w) bodies.length src = (bodies.map .ok, src') ∧
      src'.content = rest ∧ src'.ending = src.ending := by
  induction bodies generalizing src with
  | nil => exact ⟨src, rfl, h, rfl⟩
  | cons body bodies ih =>
      rw [frames_cons, List.append_assoc] at h
      obtain ⟨src₁, hread₁, hcontent₁, hending₁⟩ :=
        readFrame_frame (hbodies body List.mem_cons_self) h
      obtain ⟨src₂, hread₂, hcontent₂, hending₂⟩ :=
        ih (fun b hb => hbodies b (List.mem_cons_of_mem body hb)) hcontent₁
      refine ⟨src₂, ?_, hcontent₂, hending₂.trans hending₁⟩
      rw [List.length_cons, repeated, hread₁]
      simp only [hread₂]
      rfl

theorem repeated_readFrame_incomplete {w : ℕ} (hw : 0 < w) {src : Source}
    (h : Incomplete w src.content) (n : ℕ) :
    (repeated (readFrame w) n src).1 = List.replicate n (.error src.ending) := by
  have hfixed : readFrame w { src with chunks := [] } =
      (.error src.ending, { src with chunks := [] }) :=
    readFrame_incomplete (Or.inl hw)
  cases n with
  | zero => rfl
  | succ n =>
      rw [repeated, readFrame_incomplete h]
      simp only [repeated_of_fixed hfixed]
      rfl

/-- Reading a stream that was cut behind `k` bytes returns the bodies whose frames
arrived whole, and then fails for good. -/
theorem repeated_readFrame_take {w : ℕ} (hw : 0 < w) (k : ℕ) {bodies : List Bytes}
    (hbodies : ∀ body ∈ bodies, body.length < 256 ^ w) {src : Source}
    (h : src.content = (frames w bodies).take k) (n : ℕ) :
    (repeated (readFrame w) ((bodies.take (wholeFrames w k bodies)).length + n) src).1 =
      (bodies.take (wholeFrames w k bodies)).map .ok ++
        List.replicate n (.error src.ending) := by
  obtain ⟨remnant, htake, hremnant⟩ := take_frames hw k hbodies
  obtain ⟨src', hread, hcontent, hending⟩ := repeated_readFrame_frames
    (fun b hb => hbodies b (List.mem_of_mem_take hb)) (h.trans htake)
  rw [repeated_add, hread]
  simp only [repeated_readFrame_incomplete hw (hcontent ▸ hremnant), hending]

end Source

theorem frames_inj {w : ℕ} (hw : 0 < w) {xs ys : List Bytes}
    (hxs : ∀ x ∈ xs, x.length < 256 ^ w) (hys : ∀ y ∈ ys, y.length < 256 ^ w)
    (h : frames w xs = frames w ys) : xs = ys := by
  induction xs generalizing ys with
  | nil =>
      cases ys with
      | nil => rfl
      | cons y ys =>
          have hlength := congrArg List.length h
          rw [frames_cons, List.length_append, length_frame] at hlength
          simp only [frames, List.map_nil, List.flatten_nil, List.length_nil] at hlength
          omega
  | cons x xs ih =>
      cases ys with
      | nil =>
          have hlength := congrArg List.length h
          rw [frames_cons, List.length_append, length_frame] at hlength
          simp only [frames, List.map_nil, List.flatten_nil, List.length_nil] at hlength
          omega
      | cons y ys =>
          have hx := hxs x List.mem_cons_self
          have hy := hys y List.mem_cons_self
          rw [frames_cons, frames_cons, frame, frame, List.append_assoc, List.append_assoc] at h
          obtain ⟨hheader, h⟩ := List.append_inj h (by rw [length_beBytes, length_beBytes])
          have hlength : x.length = y.length := by
            rw [← ofBeBytes_beBytes hx, hheader, ofBeBytes_beBytes hy]
          obtain ⟨hxy, htail⟩ := List.append_inj h hlength
          rw [hxy, ih (fun b hb => hxs b (List.mem_cons_of_mem x hb))
            (fun b hb => hys b (List.mem_cons_of_mem y hb)) htail]

end Foundation
