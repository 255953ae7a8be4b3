import Esp32A2dpPlayer.Bluetooth.PropertyOrder
import Esp32A2dpPlayer.Updates.LastWins

/-!
# Properties as patches

`add_property` looks as if it worked on the device at hand: an EIR goes through it record by record,
and a record that cannot be read leaves what is there. But what a property does to a device does not
depend on the device. It is a patch, which sets some fields and leaves the others, and it panics on
every device or on none (`addProperty_eq_run`).

Patches are updates of which the last one wins. So the properties of a device can be worked out
apart from what was known about it and laid over it afterwards (`foldlM_addProperty_from_scratch`),
and of a property that is reported more than once only the last report counts
(`foldlM_addProperty_dedup`).
-/

namespace Esp32A2dpPlayer

open Updates

/-- What is to be written to a device, field by field. -/
@[ext]
structure DevicePatch where
  cls : Option ClassOfDevice
  name : Option String
  rssi : Option Int8
  uuids16 : Option (List UInt16)
  uuids32 : Option (List UInt32)

namespace DevicePatch

/-- Everything that is known about a device. -/
def of (dev : ScannedDevice) : DevicePatch where
  cls := dev.cls
  name := dev.name
  rssi := dev.rssi
  uuids16 := dev.complete16BitServiceClassUuids
  uuids32 := dev.complete32BitServiceClassUuids

/-- The device with the fields of the patch written. -/
def apply (p : DevicePatch) (dev : ScannedDevice) : ScannedDevice where
  address := dev.address
  cls := p.cls.or dev.cls
  name := p.name.or dev.name
  rssi := p.rssi.or dev.rssi
  complete16BitServiceClassUuids := p.uuids16.or dev.complete16BitServiceClassUuids
  complete32BitServiceClassUuids := p.uuids32.or dev.complete32BitServiceClassUuids

/-- One patch and then another one. -/
instance : Mul DevicePatch where
  mul p q := {
    cls := q.cls.or p.cls
    name := q.name.or p.name
    rssi := q.rssi.or p.rssi
    uuids16 := q.uuids16.or p.uuids16
    uuids32 := q.uuids32.or p.uuids32 }

instance : One DevicePatch where
  one := ⟨none, none, none, none, none⟩

theorem mul_def (p q : DevicePatch) : p * q = ⟨q.cls.or p.cls, q.name.or p.name,
    q.rssi.or p.rssi, q.uuids16.or p.uuids16, q.uuids32.or p.uuids32⟩ := rfl

theorem one_def : (1 : DevicePatch) = ⟨none, none, none, none, none⟩ := rfl

instance : Monoid DevicePatch where
  mul_assoc p q r := by simp [mul_def, Option.or_assoc]
  one_mul p := by simp [mul_def, one_def]
  mul_one p := by simp [mul_def, one_def]

theorem apply_one (dev : ScannedDevice) : apply 1 dev = dev := rfl

theorem apply_mul (p q : DevicePatch) (dev : ScannedDevice) :
    apply (p * q) dev = apply q (apply p dev) := by
  simp [apply, mul_def, Option.or_assoc]

/-- Of two values only the later one stays. -/
theorem or_or_self {α : Type} (a b : Option α) : a.or (b.or a) = a.or b := by
  cases a with
  | none => simp
  | some x => rfl

theorem lastWins : LastWins DevicePatch := by
  intro p q
  simp [mul_def, or_or_self]

end DevicePatch

namespace ScannedDevice

variable {dev d : ScannedDevice} {eir : List UInt8} {index len : ℕ}

/-! ### A parse over a device -/

/-- What a record does is laid over what is known. -/
theorem parseRecord_apply (hlen : 0 < len) :
    ((DevicePatch.of d).apply dev).parseRecord eir index len =
      (d.parseRecord eir index len).map fun r ↦ (r.1, (DevicePatch.of r.2).apply dev) := by
  rcases ht : eir[index + 1]? with - | t
  · rw [parseRecord_of_none ht, parseRecord_of_none ht]
    rfl
  by_cases h16 : t = 0x03
  · subst h16
    rw [parseRecord_uuids16 ht, parseRecord_uuids16 ht, Option.map_map]
    rfl
  by_cases h32 : t = 0x05
  · subst h32
    rw [parseRecord_uuids32 ht, parseRecord_uuids32 ht, Option.map_map]
    rfl
  by_cases hname : t = 0x09
  · subst hname
    rw [parseRecord_name ht, parseRecord_name ht, Option.map_map]
    refine congrArg (Option.map · _) (funext fun payload ↦ Prod.ext rfl ?_)
    simp [DevicePatch.apply, DevicePatch.of, Option.or_assoc]
  · rw [parseRecord_skip ht hlen h16 h32 hname, parseRecord_skip ht hlen h16 h32 hname]
    rfl

/-- And so is what a parse does. -/
theorem parseEirFrom_apply (dev d : ScannedDevice) (eir : List UInt8) (index : ℕ) :
    ((DevicePatch.of d).apply dev).parseEirFrom eir index =
      (d.parseEirFrom eir index).map fun d ↦ (DevicePatch.of d).apply dev := by
  induction d, index using turn_induction eir with
  | atEnd d index hend =>
    rw [parseEirFrom_of_atEnd hend, parseEirFrom_of_atEnd hend]
    rfl
  | record d index L hget hL ih =>
    rw [parseEirFrom_of_record hget hL, parseEirFrom_of_record hget hL,
      parseRecord_apply (toNat_pos_of_ne_zero hL)]
    rcases hr : d.parseRecord eir index L.toNat with - | ⟨j, d'⟩
    · rfl
    · exact ih j d' hr

/-- A device about which nothing is known. -/
def blank : ScannedDevice := ofAddress (Vector.replicate 6 0)

theorem addProperty_apply (dev d : ScannedDevice) (p : DeviceProperty) :
    ((DevicePatch.of d).apply dev).addProperty p =
      (d.addProperty p).map fun d ↦ (DevicePatch.of d).apply dev := by
  cases p with
  | eir eir => exact parseEirFrom_apply dev d eir 0
  | _ => rfl

end ScannedDevice

/-- The patch of a property, or zero where it panics. -/
def DeviceProperty.patch (p : DeviceProperty) : WithZero DevicePatch :=
  (ScannedDevice.blank.addProperty p).elim 0 fun d ↦ DevicePatch.of d

namespace ScannedDevice

/-- **A property is a patch**, whatever device it is added to. -/
theorem addProperty_eq_run (dev : ScannedDevice) (p : DeviceProperty) :
    dev.addProperty p = run DevicePatch.apply p.patch dev := by
  have h : dev.addProperty p = _ := addProperty_apply dev blank p
  rw [h, DeviceProperty.patch]
  cases blank.addProperty p <;> rfl

theorem foldlM_addProperty_eq_run (dev : ScannedDevice) (props : List DeviceProperty) :
    props.foldlM addProperty dev = run DevicePatch.apply (props.map DeviceProperty.patch).prod dev :=
  foldlM_eq_run DevicePatch.apply_one DevicePatch.apply_mul addProperty_eq_run props dev

/-- **What the properties say is laid over what is known.** Over every list of properties and every
device: adding them panics if it does on a blank device, and otherwise writes those fields that it
writes there, with the same values, and leaves the others. -/
theorem foldlM_addProperty_from_scratch (dev : ScannedDevice) (address : BDAddr)
    (props : List DeviceProperty) : props.foldlM addProperty dev =
      (props.foldlM addProperty (ofAddress address)).map fun d ↦ (DevicePatch.of d).apply dev := by
  rw [foldlM_addProperty_eq_run, foldlM_addProperty_eq_run]
  cases (props.map DeviceProperty.patch).prod using WithZero.recZeroCoe with
  | zero => rfl
  | coe p =>
    rw [run_coe, run_coe, Option.map_some]
    simp [DevicePatch.apply, DevicePatch.of, ofAddress]

/-- **Only the last report of a property counts.** Over every list of properties and every device:
leaving out each property that comes again later makes no difference, to the device or to whether
adding them panics. -/
theorem foldlM_addProperty_dedup (dev : ScannedDevice) (props : List DeviceProperty) :
    props.dedup.foldlM addProperty dev = props.foldlM addProperty dev := by
  rw [foldlM_addProperty_eq_run, foldlM_addProperty_eq_run,
    DevicePatch.lastWins.withZero.prod_map_dedup]

end ScannedDevice

end Esp32A2dpPlayer
