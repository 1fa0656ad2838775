import Sp1Tee.Foundation.Bytes

/-!
# Formats that can be read back

A `Format` writes the values of a type and reads a value back from the front of a
byte string, leaving the rest. It carries the proof that reading undoes writing,
so that formats put together from formats are correct by construction. The
formats here are those of bincode: little-endian numbers of a fixed width, byte
strings and texts behind an eight-byte length, and tuples without any separator.
A `Codec` is what a program sees of a format: two functions that may fail.
-/

namespace Foundation

/-- A way to write the values of `α` and to read them back. Values outside `Valid`
are those that the written lengths have no room for. -/
structure Format (α : Type) where
  encode : α → Bytes
  decode : Bytes → Option (α × Bytes)
  Valid : α → Prop
  decode_encode : ∀ {a : α}, Valid a → ∀ rest, decode (encode a ++ rest) = some (a, rest)

namespace Format

/-- A number in `w` bytes. -/
def le (w : ℕ) : Format ℕ where
  encode := leBytes w
  decode bs := if w ≤ bs.length then some (ofLeBytes (bs.take w), bs.drop w) else none
  Valid x := x < 256 ^ w
  decode_encode := by
    intro x hx rest
    have hlength := length_leBytes w x
    rw [if_pos (by rw [List.length_append, hlength]; exact Nat.le_add_right _ _),
      List.take_left' hlength, List.drop_left' hlength, ofLeBytes_leBytes hx]

def fixed (n : ℕ) : Format (FixedBytes n) where
  encode := FixedBytes.toBytes
  decode bs := if n ≤ bs.length then some (FixedBytes.ofBytes n (bs.take n), bs.drop n) else none
  Valid _ := True
  decode_encode := by
    intro a _ rest
    rw [if_pos (by rw [List.length_append, a.length_toBytes]; exact Nat.le_add_right _ _),
      FixedBytes.take_append, FixedBytes.drop_append, FixedBytes.ofBytes_toBytes]

def pair {α β : Type} (F : Format α) (G : Format β) : Format (α × β) where
  encode p := F.encode p.1 ++ G.encode p.2
  decode bs := do
    let (a, bs) ← F.decode bs
    let (b, bs) ← G.decode bs
    some ((a, b), bs)
  Valid p := F.Valid p.1 ∧ G.Valid p.2
  decode_encode := by
    intro p hp rest
    rw [List.append_assoc, F.decode_encode hp.1]
    simp only [Option.bind_eq_bind, Option.bind_some, G.decode_encode hp.2]

theorem encode_pair {α β : Type} (F : Format α) (G : Format β) (p : α × β) :
    (F.pair G).encode p = F.encode p.1 ++ G.encode p.2 := rfl

/-- The values that `g` represents in `α`, where `f` recognizes them. -/
def recognize {α β : Type} (F : Format α) (f : α → Option β) (g : β → α) : Format β where
  encode b := F.encode (g b)
  decode bs := do
    let (a, bs) ← F.decode bs
    let b ← f a
    some (b, bs)
  Valid b := F.Valid (g b) ∧ f (g b) = some b
  decode_encode := by
    intro b hb rest
    rw [F.decode_encode hb.1]
    simp only [Option.bind_eq_bind, Option.bind_some, hb.2]

def vec : Format Bytes where
  encode v := leBytes 8 v.length ++ v
  decode bs := do
    let (n, bs) ← (le 8).decode bs
    if n ≤ bs.length then some (bs.take n, bs.drop n) else none
  Valid v := v.length < 256 ^ 8
  decode_encode := by
    intro v hv rest
    have hlength : (le 8).decode (leBytes 8 v.length ++ (v ++ rest)) = some (v.length, v ++ rest) :=
      (le 8).decode_encode hv (v ++ rest)
    rw [List.append_assoc, hlength]
    simp [List.take_left', List.drop_left']

theorem length_encode_vec (v : Bytes) : (vec.encode v).length = 8 + v.length := by
  rw [vec, List.length_append, length_leBytes]

theorem decode_vec {header rest : Bytes} (h : header.length = 8) :
    vec.decode (header ++ rest) =
      if ofLeBytes header ≤ rest.length then
        some (rest.take (ofLeBytes header), rest.drop (ofLeBytes header))
      else none := by
  have hle : 8 ≤ (header ++ rest).length := by
    rw [List.length_append, h]
    exact Nat.le_add_right 8 _
  simp only [vec, le, if_pos hle, Option.bind_eq_bind, Option.bind_some, List.take_left' h,
    List.drop_left' h]

theorem valid_vec {v : Bytes} (h : v.length < 256 ^ 8) : vec.Valid v := h

def string : Format String :=
  vec.recognize (fun v => String.fromUTF8? ⟨v.toArray⟩) (fun s => s.toUTF8.data.toList)

theorem length_encode_string (s : String) : (string.encode s).length = 8 + s.utf8ByteSize :=
  length_encode_vec s.toUTF8.data.toList

theorem utf8ByteSize_ofList_le (cs : List Char) :
    (String.ofList cs).utf8ByteSize ≤ 4 * cs.length := by
  induction cs with
  | nil => simp
  | cons c cs ih =>
      have hc := Char.utf8Size_le_four c
      rw [String.ofList_cons, String.utf8ByteSize_append, String.utf8ByteSize_singleton,
        List.length_cons]
      omega

theorem valid_string {s : String} (h : s.toUTF8.data.toList.length < 256 ^ 8) : string.Valid s :=
  ⟨h, dif_pos s.isValidUTF8⟩

def uint8 : Format UInt8 := (le 1).recognize (fun x => some (UInt8.ofNat x)) UInt8.toNat

theorem valid_uint8 (b : UInt8) : uint8.Valid b :=
  ⟨b.toNat_lt, congrArg some (UInt8.ofNat_toNat)⟩

def uint64 : Format UInt64 := (le 8).recognize (fun x => some (UInt64.ofNat x)) UInt64.toNat

/-- One of several variants, each written behind its number. `read` says how the
variant of a number is read. -/
def tagged {α : Type} (tag : α → ℕ) (payload : α → Bytes)
    (read : ℕ → Bytes → Option (α × Bytes)) (Valid : α → Prop)
    (htag : ∀ a, tag a < 256 ^ 4)
    (hread : ∀ a, Valid a → ∀ rest, read (tag a) (payload a ++ rest) = some (a, rest)) :
    Format α where
  encode a := leBytes 4 (tag a) ++ payload a
  decode bs := do
    let (n, bs) ← (le 4).decode bs
    read n bs
  Valid := Valid
  decode_encode := by
    intro a ha rest
    have hnumber : (le 4).decode (leBytes 4 (tag a) ++ (payload a ++ rest)) =
        some (tag a, payload a ++ rest) := (le 4).decode_encode (htag a) (payload a ++ rest)
    rw [List.append_assoc, hnumber]
    exact hread a ha rest

theorem decode_tagged {α : Type} {tag : α → ℕ} {payload : α → Bytes}
    {read : ℕ → Bytes → Option (α × Bytes)} {Valid : α → Prop} {htag : ∀ a, tag a < 256 ^ 4}
    {hread : ∀ a, Valid a → ∀ rest, read (tag a) (payload a ++ rest) = some (a, rest)}
    {n : ℕ} (hn : n < 256 ^ 4) (bs : Bytes) :
    (tagged tag payload read Valid htag hread).decode (leBytes 4 n ++ bs) = read n bs := by
  have hnumber : (le 4).decode (leBytes 4 n ++ bs) = some (n, bs) := (le 4).decode_encode hn bs
  simp only [tagged, hnumber, Option.bind_eq_bind, Option.bind_some]

def readAs {α β : Type} (F : Format α) (variant : α → β) (bs : Bytes) : Option (β × Bytes) :=
  (F.decode bs).map fun p => (variant p.1, p.2)

theorem readAs_encode {α β : Type} {F : Format α} (variant : α → β) {a : α} (h : F.Valid a)
    (rest : Bytes) : F.readAs variant (F.encode a ++ rest) = some (variant a, rest) := by
  rw [readAs, F.decode_encode h]
  rfl

end Format

/-- Serialization of a type of messages, either half of which may fail. -/
structure Codec (α : Type) where
  serialize : α → Except String Bytes
  deserialize : Bytes → Except String α

namespace Codec

def RoundTrip {α : Type} (codec : Codec α) (message : α) : Prop :=
  ∀ bytes, codec.serialize message = .ok bytes → codec.deserialize bytes = .ok message

/-- Serialization in a format, where bytes behind the value are ignored. -/
def ofFormat {α : Type} (F : Format α) : Codec α where
  serialize a := .ok (F.encode a)
  deserialize bs :=
    match F.decode bs with
    | some (a, _) => .ok a
    | none => .error "malformed message"

theorem roundTrip_ofFormat {α : Type} {F : Format α} {a : α} (h : F.Valid a) :
    (ofFormat F).RoundTrip a := by
  intro bytes hbytes
  obtain rfl := Except.ok.inj hbytes
  have hdecode := F.decode_encode h []
  rw [List.append_nil] at hdecode
  simp only [ofFormat, hdecode]

end Codec

end Foundation
