import Esp32A2dpPlayer.Bluetooth.GapHal

/-!
# Printing a scanned device

The decoders of `ClassOfDevice` and the `Display` and `Debug` implementations of
`bluetooth_gap_hal.rs`. The discovery loop formats every device it receives, so a panic in here
is a panic of the loop; as in the parser, a panic is `none`.

The one thing that can go wrong is the `unwrap` of the major class in `Display`, which is what
`debug_isSome_iff` says.
-/

namespace Esp32A2dpPlayer

/-- `MajorClass`: the assigned major device classes. -/
inductive MajorClass where
  | miscellaneous
  | computer
  | phone
  | network
  | audioVideo
  | peripheral
  | imaging
  | wearable
  | toy
  | health
  | uncategorized
  deriving DecidableEq

namespace MajorClass

/-- The discriminants. -/
def toU8 : MajorClass → UInt8
  | miscellaneous => 0
  | computer => 1
  | phone => 2
  | network => 3
  | audioVideo => 4
  | peripheral => 5
  | imaging => 6
  | wearable => 7
  | toy => 8
  | health => 9
  | uncategorized => 0x1f

/-- The variants in the order the derived conversion tries them. -/
def all : List MajorClass :=
  [miscellaneous, computer, phone, network, audioVideo, peripheral, imaging, wearable, toy,
    health, uncategorized]

/-- `FromPrimitive::from_u8`. -/
def fromU8 (n : UInt8) : Option MajorClass := all.find? fun c ↦ c.toU8 == n

/-- The derived `Debug`. -/
def debug : MajorClass → String
  | miscellaneous => "Miscellaneous"
  | computer => "Computer"
  | phone => "Phone"
  | network => "Network"
  | audioVideo => "AudioVideo"
  | peripheral => "Peripheral"
  | imaging => "Imaging"
  | wearable => "Wearable"
  | toy => "Toy"
  | health => "Health"
  | uncategorized => "Uncategorized"

end MajorClass

namespace ClassOfDevice

variable (cls : ClassOfDevice)

/-- `get_minor_device_class`. -/
def getMinorDeviceClass : UInt8 := (cls.value &&& 0xf6).toUInt8 >>> 2

/-- `get_major_device_class`; `none` is the error. -/
def getMajorDeviceClass : Option MajorClass :=
  MajorClass.fromU8 ((cls.value >>> 8).toUInt8 &&& 0x1f)

/-- `get_service_classes`. -/
def getServiceClasses : UInt16 := (cls.value >>> 13).toUInt16 &&& 0x7ff

/-- `minor_device_class_to_string`. -/
def minorDeviceClassToString (major minor : UInt8) : String :=
  match major.toNat with
  | 2 =>
    match minor.toNat with
    | 1 => "Cellular"
    | n => "Phone major, minor " ++ toString n ++ " NIY"
  | 4 =>
    match minor.toNat with
    | 1 => "Wearable Headset Device"
    | n => "Audio major, minor " ++ toString n ++ " NIY"
  | n => "Unimplemented major " ++ toString n

/-- `BITS` of `service_classes_to_string`. -/
def serviceBits : List (UInt16 × String) :=
  [(0, "Limited Discoverable Mode"), (3, "Positioning"), (4, "Networking"), (5, "Rendering"),
    (6, "Capturing"), (7, "Object Transfer"), (8, "Audio"), (9, "Telephony"),
    (10, "Information")]

/-- `service_classes_to_string`. The separator follows every name but the first. -/
def serviceClassesToString (service : UInt16) : String :=
  (serviceBits.foldl (fun (str, first) (bit, name) ↦
    if service &&& (1 <<< bit) != 0 then
      (if first then str ++ name else str ++ name ++ ", ", false)
    else (str, first)) ("", true)).1

/-- The `Display` implementation, which unwraps the major class. -/
def display : Option String := do
  let major ← cls.getMajorDeviceClass
  return "Major: Ok(" ++ major.debug ++ "), Minor: " ++
    minorDeviceClassToString major.toU8 cls.getMinorDeviceClass ++ ", Service Classes: " ++
    serviceClassesToString cls.getServiceClasses

end ClassOfDevice

/-- The hexadecimal digits of `n`, padded with zeros to `width`. -/
def hexDigits (width n : ℕ) : List Char :=
  let digits := Nat.toDigits 16 n
  List.replicate (width - digits.length) '0' ++ digits

/-- `bdaddr_to_string`. -/
def bdaddrToString (addr : BDAddr) : String :=
  String.ofList (addr.toList.flatMap fun byte ↦ (hexDigits 2 byte.toNat).map Char.toUpper)

namespace ScannedDevice

variable (dev : ScannedDevice)

/-- The `Debug` implementation. -/
def debug : Option String := do
  let cls ← match dev.cls with
    | some cls => cls.display.map fun text ↦ "Class: " ++ text ++ " "
    | none => some ""
  let name := match dev.name with
    | some name => "Name: " ++ name ++ " "
    | none => ""
  let uuids := match dev.complete16BitServiceClassUuids with
    | some uuids => "Complete 16 bit UUIDS: [" ++
        String.join (uuids.map fun uuid ↦ String.ofList (hexDigits 4 uuid.toNat) ++ " ") ++ "] "
    | none => ""
  let rssi := match dev.rssi with
    | some rssi => "RSSI: " ++ toString rssi.toInt
    | none => ""
  return "Address: " ++ bdaddrToString dev.address ++ " " ++ cls ++ name ++ uuids ++ rssi

variable {dev}

/-- A device can be printed exactly if its class, where it has one, is an assigned one. -/
theorem debug_isSome_iff : dev.debug.isSome ↔
    ∀ cls, dev.cls = some cls → cls.getMajorDeviceClass.isSome := by
  rcases hcls : dev.cls with - | cls
  · simp [debug, hcls]
  · simp only [debug, hcls, ClassOfDevice.display, Option.some.injEq, forall_eq']
    rcases hmajor : cls.getMajorDeviceClass with - | major <;> simp

end ScannedDevice

end Esp32A2dpPlayer
