import Esp32A2dpPlayer.Bluetooth.EirBounds
import Mathlib.Data.List.Induction

/-!
# The EIR encoding and its parse

The format the parser is for: a response is a sequence of records, each a length byte that
counts the type byte and the payload, the type byte, and the payload. `EirRecord` is a record
with the bound its length byte imposes, `EirRecord.encode` its bytes, and `applyRecord` what it
means for a device.

`parseEirFrom_encode` is the round trip: parsing encoded records folds `applyRecord` over them.
`parseEir_encode` reads the fold off field by field — the last record of a kind wins.
-/

namespace Esp32A2dpPlayer

/-- A record that fits its length byte. -/
inductive EirRecord where
  | uuids16 (uuids : List UInt16) (hlen : uuids.length ≤ 127)
  | uuids32 (uuids : List UInt32) (hlen : uuids.length ≤ 63)
  | localName (bytes : List UInt8) (hlen : bytes.length ≤ 254)
  | other (typ : UInt8) (payload : List UInt8) (h16 : typ ≠ 0x03) (h32 : typ ≠ 0x05)
      (hname : typ ≠ 0x09) (hlen : payload.length ≤ 254)

namespace EirRecord

/-- The type byte. -/
def typ : EirRecord → UInt8
  | uuids16 .. => 0x03
  | uuids32 .. => 0x05
  | localName .. => 0x09
  | other t .. => t

/-- The payload bytes, UUIDs in little endian. -/
def payload : EirRecord → List UInt8
  | uuids16 us _ => us.flatMap ByteCodec.u16le.encode
  | uuids32 us _ => us.flatMap ByteCodec.u32le.encode
  | localName bytes _ => bytes
  | other _ bytes .. => bytes

/-- The bytes of a record. -/
def encode (r : EirRecord) : List UInt8 :=
  UInt8.ofNat (r.payload.length + 1) :: r.typ :: r.payload

/-- The UUID list of a complete 16-bit list. -/
def uuids16? : EirRecord → Option (List UInt16)
  | uuids16 us _ => some us
  | _ => none

/-- The UUID list of a complete 32-bit list. -/
def uuids32? : EirRecord → Option (List UInt32)
  | uuids32 us _ => some us
  | _ => none

/-- The name of a complete local name, if its bytes are UTF-8. -/
def name? : EirRecord → Option String
  | localName bytes _ => stringFromUtf8 bytes
  | _ => none

theorem payload_length_le (r : EirRecord) : r.payload.length ≤ 254 := by
  cases r with
  | uuids16 us hlen =>
    have := ByteCodec.u16le.flatMap_encode_length us
    simp only [payload, ByteCodec.u16le] at this ⊢
    omega
  | uuids32 us hlen =>
    have := ByteCodec.u32le.flatMap_encode_length us
    simp only [payload, ByteCodec.u32le] at this ⊢
    omega
  | localName bytes hlen => exact hlen
  | other t bytes h16 h32 hname hlen => exact hlen

theorem toNat_lengthByte (r : EirRecord) :
    (UInt8.ofNat (r.payload.length + 1)).toNat = r.payload.length + 1 :=
  toNat_lengthByte_of_le r.payload_length_le

theorem lengthByte_ne_zero (r : EirRecord) : UInt8.ofNat (r.payload.length + 1) ≠ 0 :=
  lengthByte_ne_zero_of_le r.payload_length_le

@[simp] theorem encode_length (r : EirRecord) : r.encode.length = r.payload.length + 2 := rfl

end EirRecord

namespace ScannedDevice

open EirRecord

/-- What a record means for a device: a list replaces the list of its kind, a name that is
UTF-8 replaces the name. -/
def applyRecord (dev : ScannedDevice) (r : EirRecord) : ScannedDevice :=
  { dev with
    name := r.name?.or dev.name
    complete16BitServiceClassUuids := r.uuids16?.or dev.complete16BitServiceClassUuids
    complete32BitServiceClassUuids := r.uuids32?.or dev.complete32BitServiceClassUuids }

/-! ### The round trip -/

/-- **One record.** The parser applies it and stands at the first byte behind it. -/
theorem parseRecord_encode (dev : ScannedDevice) (r : EirRecord) (pre rest : List UInt8) :
    dev.parseRecord (pre ++ (r.encode ++ rest)) pre.length (r.payload.length + 1) =
      some (pre.length + r.encode.length, dev.applyRecord r) := by
  have htype : (pre ++ (r.encode ++ rest))[pre.length + 1]? = some r.typ := by
    simp [encode]
  -- the payload starts behind a prefix that ends with the type byte
  have hbuf : pre ++ (r.encode ++ rest) =
      (pre ++ [UInt8.ofNat (r.payload.length + 1), r.typ]) ++ (r.payload ++ rest) := by
    simp [encode]
  have hpre : (pre ++ [UInt8.ofNat (r.payload.length + 1), r.typ]).length = pre.length + 2 := by
    simp
  have hstop : pre.length + 1 + (r.payload.length + 1) = pre.length + 2 + r.payload.length := by
    omega
  cases r with
  | uuids16 us hlen =>
    have hdec : ByteCodec.u16le.decodeUntil (pre ++ ((uuids16 us hlen).encode ++ rest))
        (pre.length + 2) (pre.length + 1 + ((uuids16 us hlen).payload.length + 1)) =
          some (pre.length + 1 + ((uuids16 us hlen).payload.length + 1), us) := by
      rw [hbuf]
      exact ByteCodec.u16le.decodeUntil_encode us hpre.symm hstop
    rw [parseRecord_uuids16 htype, hdec, hstop, Nat.add_right_comm]
    rfl
  | uuids32 us hlen =>
    have hdec : ByteCodec.u32le.decodeUntil (pre ++ ((uuids32 us hlen).encode ++ rest))
        (pre.length + 2) (pre.length + 1 + ((uuids32 us hlen).payload.length + 1)) =
          some (pre.length + 1 + ((uuids32 us hlen).payload.length + 1), us) := by
      rw [hbuf]
      exact ByteCodec.u32le.decodeUntil_encode us hpre.symm hstop
    rw [parseRecord_uuids32 htype, hdec, hstop, Nat.add_right_comm]
    rfl
  | localName bytes hlen =>
    have hslice : slice (pre ++ ((localName bytes hlen).encode ++ rest)) (pre.length + 2)
        (pre.length + 2 + (bytes.length + 1) - 1) = some bytes := by
      rw [hbuf, slice, if_pos (by simp [payload]; omega), ← hpre, List.drop_left,
        show (localName bytes hlen).payload = bytes from rfl]
      simp
    rw [parseRecord_name htype]
    rw [show (localName bytes hlen).payload.length = bytes.length from rfl, hslice,
      Option.map_some, encode_length]
    simp [applyRecord, name?, uuids16?, uuids32?, payload]
    omega
  | other t bytes h16 h32 hname hlen =>
    rw [parseRecord_skip htype (Nat.succ_pos _) h16 h32 hname, encode_length]
    simp [applyRecord, name?, uuids16?, uuids32?]
    omega

/-- **The round trip.** Behind any prefix, the parser folds the encoded records and stops at
the end of the vector or at a terminator. -/
theorem parseEirFrom_encode (rs : List EirRecord) {suffix : List UInt8}
    (hsuffix : suffix = [] ∨ suffix.head? = some 0) :
    ∀ (dev : ScannedDevice) (pre : List UInt8),
      dev.parseEirFrom (pre ++ (rs.flatMap encode ++ suffix)) pre.length =
        some (rs.foldl applyRecord dev) := by
  induction rs with
  | nil =>
    intro dev pre
    rw [List.flatMap_nil, List.nil_append]
    rcases hsuffix with rfl | hzero
    · exact parseEirFrom_of_le (by simp)
    · rw [List.head?_eq_getElem?] at hzero
      exact parseEirFrom_of_zero
        (by rwa [List.getElem?_append_right le_rfl, Nat.sub_self])
  | cons r rs ih =>
    intro dev pre
    have hbuf : pre ++ ((r :: rs).flatMap encode ++ suffix) =
        (pre ++ r.encode) ++ (rs.flatMap encode ++ suffix) := by
      simp [List.flatMap_cons, List.append_assoc]
    have hlen : (pre ++ ((r :: rs).flatMap encode ++ suffix))[pre.length]? =
        some (UInt8.ofNat (r.payload.length + 1)) := by
      simp [List.flatMap_cons, encode]
    have hrec := parseRecord_encode dev r pre (rs.flatMap encode ++ suffix)
    rw [← List.append_assoc r.encode, ← List.flatMap_cons] at hrec
    rw [parseEirFrom_of_record hlen r.lengthByte_ne_zero, r.toNat_lengthByte, hrec,
      Option.bind_some, hbuf, ← List.length_append, List.foldl_cons]
    exact ih (dev.applyRecord r) (pre ++ r.encode)

/-! ### The fold, field by field -/

/-- A field that each record either replaces or leaves is the last replacement. -/
theorem foldl_applyRecord_field {β : Type*} (field : ScannedDevice → Option β)
    {value : EirRecord → Option β}
    (h : ∀ dev r, field (applyRecord dev r) = (value r).or (field dev))
    (dev : ScannedDevice) (rs : List EirRecord) :
    field (rs.foldl applyRecord dev) = (rs.filterMap value).getLast?.or (field dev) := by
  induction rs using List.reverseRecOn with
  | nil => rfl
  | append_singleton rs r ih =>
    rw [List.foldl_append, List.foldl_cons, List.foldl_nil, h, ih, List.filterMap_append,
      List.getLast?_append]
    rcases hr : value r with - | b <;> simp [hr]

/-- A field that no record writes stays. -/
theorem foldl_applyRecord_frame {β : Type*} (field : ScannedDevice → β)
    (h : ∀ dev r, field (applyRecord dev r) = field dev) (dev : ScannedDevice)
    (rs : List EirRecord) : field (rs.foldl applyRecord dev) = field dev := by
  induction rs generalizing dev with
  | nil => rfl
  | cons r rs ih => rw [List.foldl_cons, ih, h]

/-- **The parser undoes the encoding.** -/
theorem parseEir_encode (dev : ScannedDevice) (rs : List EirRecord) {suffix : List UInt8}
    (hsuffix : suffix = [] ∨ suffix.head? = some 0) :
    ∃ dev', dev.parseEir (rs.flatMap encode ++ suffix) = some dev' ∧
      dev'.complete16BitServiceClassUuids =
        (rs.filterMap uuids16?).getLast?.or dev.complete16BitServiceClassUuids ∧
      dev'.complete32BitServiceClassUuids =
        (rs.filterMap uuids32?).getLast?.or dev.complete32BitServiceClassUuids ∧
      dev'.name = (rs.filterMap name?).getLast?.or dev.name ∧
      dev'.address = dev.address ∧ dev'.cls = dev.cls ∧ dev'.rssi = dev.rssi ∧
      ∀ us, (rs.filterMap uuids16?).getLast? = some us →
        ∀ u, dev'.has16bitUuid u = true ↔ u ∈ us := by
  have h16 := foldl_applyRecord_field complete16BitServiceClassUuids (fun _ _ ↦ rfl) dev rs
  refine ⟨rs.foldl applyRecord dev, parseEirFrom_encode rs hsuffix dev [], h16,
    foldl_applyRecord_field complete32BitServiceClassUuids (fun _ _ ↦ rfl) dev rs,
    foldl_applyRecord_field ScannedDevice.name (fun _ _ ↦ rfl) dev rs,
    foldl_applyRecord_frame address (fun _ _ ↦ rfl) dev rs,
    foldl_applyRecord_frame cls (fun _ _ ↦ rfl) dev rs,
    foldl_applyRecord_frame rssi (fun _ _ ↦ rfl) dev rs, ?_⟩
  intro us hus u
  rw [hus, Option.some_or] at h16
  rw [has16bitUuid, h16, List.contains_iff_mem]

/-- Flags, two lists of 16-bit UUIDs, a list of 32-bit ones, a name, and a name that is not
UTF-8. -/
def headsetRecords : List EirRecord :=
  [other 0x01 [0x06] (by decide) (by decide) (by decide) (by decide),
    uuids16 [0x1108] (by decide), localName [0x41, 0x42] (by decide),
    uuids32 [0x12345678] (by decide), uuids16 [0x110d, 0x110e] (by decide),
    localName [0xff] (by decide)]

/-- A headset's response, with the padding the controller adds: the second list of 16-bit UUIDs
replaces the first, and the second name does not. -/
theorem parseEir_encode_profile :
    ∃ dev', (ofAddress (Vector.replicate 6 0)).parseEir
        (headsetRecords.flatMap encode ++ [0, 0]) = some dev' ∧
      dev'.complete16BitServiceClassUuids = some [0x110d, 0x110e] ∧
      dev'.complete32BitServiceClassUuids = some [0x12345678] ∧ dev'.name = some "AB" ∧
      dev'.has16bitUuid Bluetooth16bitUUID.advancedAudioDistribution.toU16 = true := by
  have hpad : ([0, 0] : List UInt8) = [] ∨ ([0, 0] : List UInt8).head? = some 0 := Or.inr rfl
  obtain ⟨dev', hparse, h16, h32, hname, -, -, -, huuid⟩ :=
    parseEir_encode (ofAddress (Vector.replicate 6 0)) headsetRecords hpad
  have hlast : (headsetRecords.filterMap name?).getLast? = some "AB" := by decide +kernel
  rw [hlast] at hname
  exact ⟨dev', hparse, h16, h32, hname, (huuid _ rfl _).2 (by decide)⟩

end ScannedDevice

end Esp32A2dpPlayer
