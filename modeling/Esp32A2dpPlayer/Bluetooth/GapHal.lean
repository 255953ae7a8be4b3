import Esp32A2dpPlayer.Bytes.ByteCodec

/-!
# Scanned devices and the EIR parser

The data model of `bluetooth_gap_hal.rs`: a scanned device, the properties the stack reports
about it, and `ScannedDevice::parse_eir`, the parser of the extended inquiry response that any
nearby device can put on the air.

A panic is `none`. The parser indexes the byte vector directly, so every `eir[..]` of the
source is an `Option` here and an index out of bounds ends the parse. The outer loop is
`parseEirFrom`, one turn of it `parseRecord`; both keep the cursor arithmetic of the source.
-/

namespace Esp32A2dpPlayer

/-- `BDAddr`: a Bluetooth device address. -/
abbrev BDAddr := Vector UInt8 6

/-- `Bluetooth16bitUUIDEnum`: the service classes and profiles the player knows. -/
inductive Bluetooth16bitUUID where
  | headset
  | audioSink
  | advancedAudioDistribution
  | avRemoteControl
  | avRemoteControlTarget
  | handsfree
  | avRemoteControlController
  | headsetHS
  deriving DecidableEq

/-- The discriminants of `Bluetooth16bitUUIDEnum`. -/
def Bluetooth16bitUUID.toU16 : Bluetooth16bitUUID → UInt16
  | headset => 0x1108
  | audioSink => 0x110b
  | advancedAudioDistribution => 0x110d
  | avRemoteControl => 0x110e
  | avRemoteControlTarget => 0x110c
  | handsfree => 0x111e
  | avRemoteControlController => 0x110f
  | headsetHS => 0x1131

/-! ### Record types -/

/-- `CommonDataType`: the record types with an assigned number. -/
inductive CommonDataType where
  | flags
  | incomplete16bitServiceClassUUIDs
  | complete16bitServiceClassUUIDs
  | incomplete32bitServiceClassUUIDs
  | complete32bitServiceClassUUIDs
  | incomplete128bitServiceClassUUIDs
  | complete128bitServiceClassUUIDs
  | shortenedLocalName
  | completeLocalName
  | txPowerLevel
  | classOfDevice
  | simplePairingHashC192
  | simplePairingRandomizerR192
  | deviceID
  | securityManagerOutOfBandFlags
  | peripheralConnectionIntervalRange
  | listOf16BitServiceSolicitation
  | listOf128BitServiceSolicitation
  | manufacturerSpecificData
  deriving DecidableEq

namespace CommonDataType

/-- The `repr(u8)` discriminants. -/
def toU8 : CommonDataType → UInt8
  | flags => 0x01
  | incomplete16bitServiceClassUUIDs => 0x02
  | complete16bitServiceClassUUIDs => 0x03
  | incomplete32bitServiceClassUUIDs => 0x04
  | complete32bitServiceClassUUIDs => 0x05
  | incomplete128bitServiceClassUUIDs => 0x06
  | complete128bitServiceClassUUIDs => 0x07
  | shortenedLocalName => 0x08
  | completeLocalName => 0x09
  | txPowerLevel => 0x0a
  | classOfDevice => 0x0d
  | simplePairingHashC192 => 0x0e
  | simplePairingRandomizerR192 => 0x0f
  | deviceID => 0x10
  | securityManagerOutOfBandFlags => 0x11
  | peripheralConnectionIntervalRange => 0x12
  | listOf16BitServiceSolicitation => 0x14
  | listOf128BitServiceSolicitation => 0x15
  | manufacturerSpecificData => 0xff

/-- The variants in the order the derived conversion tries them. -/
def all : List CommonDataType :=
  [flags, incomplete16bitServiceClassUUIDs, complete16bitServiceClassUUIDs,
    incomplete32bitServiceClassUUIDs, complete32bitServiceClassUUIDs,
    incomplete128bitServiceClassUUIDs, complete128bitServiceClassUUIDs, shortenedLocalName,
    completeLocalName, txPowerLevel, classOfDevice, simplePairingHashC192,
    simplePairingRandomizerR192, deviceID, securityManagerOutOfBandFlags,
    peripheralConnectionIntervalRange, listOf16BitServiceSolicitation,
    listOf128BitServiceSolicitation, manufacturerSpecificData]

/-- `FromPrimitive::from_u8`. -/
def fromU8 (n : UInt8) : Option CommonDataType := all.find? fun t ↦ t.toU8 == n

theorem fromU8_toU8 (t : CommonDataType) : fromU8 t.toU8 = some t := by
  cases t <;> rfl

theorem fromU8_eq_some_iff {n : UInt8} {t : CommonDataType} :
    fromU8 n = some t ↔ t.toU8 = n := by
  refine ⟨fun h ↦ ?_, fun h ↦ h ▸ fromU8_toU8 t⟩
  simpa using List.find?_some h

end CommonDataType

/-! ### Devices and their properties -/

/-- `ClassOfDevice`: the class word as the remote device sent it. -/
structure ClassOfDevice where
  value : UInt32
  deriving DecidableEq

/-- `DeviceProperty`: one property of a discovery result. -/
inductive DeviceProperty where
  | name (name : String)
  | class (cls : ClassOfDevice)
  | rssi (rssi : Int8)
  | eir (eir : List UInt8)
  deriving DecidableEq

/-- `ScannedDevice`: what a scan has learnt about one device. -/
structure ScannedDevice where
  address : BDAddr
  cls : Option ClassOfDevice
  name : Option String
  rssi : Option Int8
  complete16BitServiceClassUuids : Option (List UInt16)
  complete32BitServiceClassUuids : Option (List UInt32)
  deriving DecidableEq

/-- `String::from_utf8`. -/
def stringFromUtf8 (bytes : List UInt8) : Option String :=
  String.fromUTF8? ⟨bytes.toArray⟩

/-- The slice `bytes[start..stop]`; `none` where the source panics. -/
def slice (bytes : List UInt8) (start stop : ℕ) : Option (List UInt8) :=
  if start ≤ stop ∧ stop ≤ bytes.length then some ((bytes.drop start).take (stop - start))
  else none

namespace ScannedDevice

/-- `ScannedDevice { address, ..Default::default() }`. -/
def ofAddress (address : BDAddr) : ScannedDevice where
  address := address
  cls := none
  name := none
  rssi := none
  complete16BitServiceClassUuids := none
  complete32BitServiceClassUuids := none

/-- The body of the outer loop of `parse_eir` behind its `len == 0` test: the cursor and the
device at the next turn of the loop, `none` for a panic. -/
def parseRecord (dev : ScannedDevice) (eir : List UInt8) (index len : ℕ) :
    Option (ℕ × ScannedDevice) := do
  let index := index + 1
  let tVal ← eir[index]?
  let recordStart := index
  match CommonDataType.fromU8 tVal with
  | some typ =>
    let index := index + 1
    match typ with
    | .complete16bitServiceClassUUIDs =>
      let (index, uuids) ← ByteCodec.u16le.decodeUntil eir index (recordStart + len)
      return (index, { dev with complete16BitServiceClassUuids := some uuids })
    | .complete32bitServiceClassUUIDs =>
      let (index, uuids) ← ByteCodec.u32le.decodeUntil eir index (recordStart + len)
      return (index, { dev with complete32BitServiceClassUuids := some uuids })
    | .completeLocalName =>
      let payload ← slice eir index (index + len - 1)
      match stringFromUtf8 payload with
      | some s => return (index + (len - 1), { dev with name := some s })
      | none => return (index + (len - 1), dev) -- logged, the earlier name stays
    | _ => return (index + (len - 1), dev)
  | none => return (index + len, dev)

/-- What a turn of the loop may do: store a list of UUIDs, set the name, or nothing. -/
theorem parseRecord_cases {dev dev' : ScannedDevice} {eir : List UInt8} {index len j : ℕ}
    (h : dev.parseRecord eir index len = some (j, dev')) :
    (∃ us, ByteCodec.u16le.decodeUntil eir (index + 2) (index + 1 + len) = some (j, us) ∧
        dev' = { dev with complete16BitServiceClassUuids := some us }) ∨
      (∃ us, ByteCodec.u32le.decodeUntil eir (index + 2) (index + 1 + len) = some (j, us) ∧
        dev' = { dev with complete32BitServiceClassUuids := some us }) ∨
      (index < j ∧ ((∃ s, dev' = { dev with name := some s }) ∨ dev' = dev)) := by
  unfold parseRecord at h
  obtain ⟨tVal, -, h⟩ := Option.bind_eq_some_iff.1 h
  dsimp only at h
  split at h
  · split at h
    · obtain ⟨⟨last, us⟩, hdec, heq⟩ := Option.bind_eq_some_iff.1 h
      cases heq
      exact .inl ⟨us, hdec, rfl⟩
    · obtain ⟨⟨last, us⟩, hdec, heq⟩ := Option.bind_eq_some_iff.1 h
      cases heq
      exact .inr (.inl ⟨us, hdec, rfl⟩)
    · obtain ⟨payload, -, h⟩ := Option.bind_eq_some_iff.1 h
      split at h
      next s _ =>
        cases h
        exact .inr (.inr ⟨by omega, .inl ⟨s, rfl⟩⟩)
      · cases h
        exact .inr (.inr ⟨by omega, .inr rfl⟩)
    · cases h
      exact .inr (.inr ⟨by omega, .inr rfl⟩)
  · cases h
    exact .inr (.inr ⟨by omega, .inr rfl⟩)

/-- Every turn of the loop moves the cursor on, so the loop ends. -/
theorem lt_of_parseRecord {dev dev' : ScannedDevice} {eir : List UInt8} {index len j : ℕ}
    (h : dev.parseRecord eir index len = some (j, dev')) : index < j := by
  obtain ⟨us, hdec, -⟩ | ⟨us, hdec, -⟩ | ⟨hlt, -⟩ := parseRecord_cases h
  · have hlast := ByteCodec.u16le.decodeUntil_index hdec
    omega
  · have hlast := ByteCodec.u32le.decodeUntil_index hdec
    omega
  · exact hlt

/-- The outer loop of `parse_eir`, from a cursor. -/
def parseEirFrom (dev : ScannedDevice) (eir : List UInt8) (index : ℕ) :
    Option ScannedDevice :=
  if h : index < eir.length then
    let len := eir[index].toNat
    if len = 0 then some dev
    else
      match hr : dev.parseRecord eir index len with
      | some (j, dev') => parseEirFrom dev' eir j
      | none => none
  else some dev
termination_by eir.length - index
decreasing_by
  have := lt_of_parseRecord hr
  omega

/-- `ScannedDevice::parse_eir`. -/
def parseEir (dev : ScannedDevice) (eir : List UInt8) : Option ScannedDevice :=
  dev.parseEirFrom eir 0

/-- `ScannedDevice::add_property`. -/
def addProperty (dev : ScannedDevice) : DeviceProperty → Option ScannedDevice
  | .name name => some { dev with name := some name }
  | .class cls => some { dev with cls := some cls }
  | .rssi rssi => some { dev with rssi := some rssi }
  | .eir eir => dev.parseEir eir

/-- `ScannedDevice::has_16bit_uuid`. -/
def has16bitUuid (dev : ScannedDevice) (uuid : UInt16) : Bool :=
  match dev.complete16BitServiceClassUuids with
  | some uuids => uuids.contains uuid
  | none => false

/-! ### The turns of the loop -/

theorem parseEirFrom_of_le {dev : ScannedDevice} {eir : List UInt8} {index : ℕ}
    (h : eir.length ≤ index) : dev.parseEirFrom eir index = some dev := by
  rw [parseEirFrom, dif_neg (by omega)]

theorem parseEirFrom_of_zero {dev : ScannedDevice} {eir : List UInt8} {index : ℕ}
    (h : eir[index]? = some 0) : dev.parseEirFrom eir index = some dev := by
  obtain ⟨hlt, hget⟩ := List.getElem?_eq_some_iff.1 h
  rw [parseEirFrom, dif_pos hlt]
  simp [hget]

theorem parseEirFrom_of_record {dev : ScannedDevice} {eir : List UInt8} {index : ℕ} {L : UInt8}
    (h : eir[index]? = some L) (hL : L ≠ 0) :
    dev.parseEirFrom eir index = (dev.parseRecord eir index L.toNat).bind
      fun r ↦ r.2.parseEirFrom eir r.1 := by
  obtain ⟨hlt, rfl⟩ := List.getElem?_eq_some_iff.1 h
  have hpos : eir[index].toNat ≠ 0 := fun h0 ↦ hL (UInt8.toNat_inj.1 h0)
  rw [parseEirFrom, dif_pos hlt]
  simp only [hpos, ↓reduceIte]
  split <;> rename_i hr <;> rw [hr] <;> rfl

/-- No record starts here: the vector is over, or a terminator stands here. -/
def AtEnd (eir : List UInt8) (index : ℕ) : Prop := ∀ L, eir[index]? = some L → L = 0

theorem parseEirFrom_of_atEnd {dev : ScannedDevice} {eir : List UInt8} {index : ℕ}
    (h : AtEnd eir index) : dev.parseEirFrom eir index = some dev := by
  rcases hget : eir[index]? with - | L
  · exact parseEirFrom_of_le (List.getElem?_eq_none_iff.1 hget)
  · exact parseEirFrom_of_zero (h L hget ▸ hget)

/-- **Induction along the turns of the loop.** The parse stands where it ends, or at a record
behind which the turn leaves it. -/
theorem turn_induction (eir : List UInt8) {motive : ScannedDevice → ℕ → Prop}
    (atEnd : ∀ dev index, AtEnd eir index → motive dev index)
    (record : ∀ dev index L, eir[index]? = some L → L ≠ 0 →
      (∀ j dev', parseRecord dev eir index L.toNat = some (j, dev') → motive dev' j) →
        motive dev index)
    (dev : ScannedDevice) (index : ℕ) : motive dev index := by
  induction hn : eir.length - index using Nat.strongRecOn generalizing dev index with
  | _ n ih =>
    by_cases hend : AtEnd eir index
    · exact atEnd dev index hend
    · simp only [AtEnd, not_forall] at hend
      obtain ⟨L, hget, hL⟩ := hend
      refine record dev index L hget hL fun j dev' hr ↦ ?_
      have hlt := lt_of_parseRecord hr
      have hin := (List.getElem?_eq_some_iff.1 hget).1
      exact ih (eir.length - j) (by omega) dev' j rfl

end ScannedDevice

end Esp32A2dpPlayer
