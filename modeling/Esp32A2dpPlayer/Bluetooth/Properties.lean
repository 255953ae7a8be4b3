import Esp32A2dpPlayer.Bluetooth.ClassOfDevice

/-!
# What a list of properties makes of a device

`add_property` over whole lists. Parsing an EIR leaves the address, the class and the RSSI of a
device alone, so the class a device ends with is the last one it was given, whatever came
between. With that, whether a device built from a list of properties can be printed is a matter
of five bits of that class (`debug_isSome_iff_of_properties`).
-/

namespace Esp32A2dpPlayer

namespace ClassOfDevice

/-- The major device class: bits 8 to 12. -/
def majorBits (cls : ClassOfDevice) : ℕ := cls.value.toNat / 2 ^ 8 % 2 ^ 5

theorem toNat_majorBits (cls : ClassOfDevice) :
    ((cls.value >>> 8).toUInt8 &&& 0x1f).toNat = cls.majorBits := by
  have hmask (n : ℕ) : n &&& 31 = n % 2 ^ 5 := Nat.and_two_pow_sub_one_eq_mod n 5
  simp only [UInt8.toNat_and, UInt32.toNat_toUInt8, UInt32.toNat_shiftRight, UInt8.reduceToNat,
    UInt32.reduceToNat, Nat.reduceMod, hmask, Nat.shiftRight_eq_div_pow, majorBits]
  omega

/-- The assigned codes are 0 to 9, and 31. -/
theorem fromU8_isSome_iff (n : UInt8) :
    (MajorClass.fromU8 n).isSome ↔ n.toNat ≤ 9 ∨ n.toNat = 31 := by
  simp only [MajorClass.fromU8, List.find?_isSome, beq_iff_eq, ← UInt8.toNat_inj, MajorClass.all,
    List.mem_cons, List.not_mem_nil, or_false, exists_eq_or_imp, exists_eq_left, MajorClass.toU8,
    UInt8.reduceToNat]
  omega

theorem getMajorDeviceClass_isSome_iff (cls : ClassOfDevice) :
    cls.getMajorDeviceClass.isSome ↔ cls.majorBits ≤ 9 ∨ cls.majorBits = 31 := by
  rw [getMajorDeviceClass, fromU8_isSome_iff, toNat_majorBits]

end ClassOfDevice

namespace ScannedDevice

variable {dev dev' : ScannedDevice} {eir : List UInt8} {index len j : ℕ}

/-! ### Parsing an EIR -/

/-- What parsing an EIR leaves alone. -/
structure EirFrame (dev dev' : ScannedDevice) : Prop where
  address : dev'.address = dev.address
  cls : dev'.cls = dev.cls
  rssi : dev'.rssi = dev.rssi

theorem EirFrame.refl (dev : ScannedDevice) : EirFrame dev dev := ⟨rfl, rfl, rfl⟩

theorem EirFrame.trans {dev'' : ScannedDevice} (h : EirFrame dev dev')
    (h' : EirFrame dev' dev'') : EirFrame dev dev'' :=
  ⟨h'.address.trans h.address, h'.cls.trans h.cls, h'.rssi.trans h.rssi⟩

/-- **The rule of a parse.** What every record does to a device, a parse does, where it can be
chained. -/
theorem parseEirFrom_rel {R : ScannedDevice → ScannedDevice → Prop} (hrefl : ∀ dev, R dev dev)
    (htrans : ∀ {dev dev' dev''}, R dev dev' → R dev' dev'' → R dev dev'')
    (hrecord : ∀ {dev dev' index len j}, parseRecord dev eir index len = some (j, dev') →
      R dev dev')
    (h : dev.parseEirFrom eir index = some dev') : R dev dev' := by
  fun_induction parseEirFrom dev eir index with
  | case1 dev index hlt len hlen =>
    cases h
    exact hrefl _
  | case2 dev index hlt len hlen j dev₁ hr ih => exact htrans (hrecord hr) (ih h)
  | case3 dev index hlt len hlen hr => cases h
  | case4 dev index hge =>
    cases h
    exact hrefl _

theorem parseRecord_frame (h : dev.parseRecord eir index len = some (j, dev')) :
    EirFrame dev dev' := by
  obtain ⟨us, -, rfl⟩ | ⟨us, -, rfl⟩ | ⟨-, ⟨s, rfl⟩ | rfl⟩ := parseRecord_cases h <;>
    exact ⟨rfl, rfl, rfl⟩

theorem parseEirFrom_frame (h : dev.parseEirFrom eir index = some dev') : EirFrame dev dev' :=
  parseEirFrom_rel EirFrame.refl EirFrame.trans parseRecord_frame h

/-! ### Lists of properties -/

/-- The class that a property carries. -/
def classOf? : DeviceProperty → Option ClassOfDevice
  | .class cls => some cls
  | _ => none

/-- The last class in a list of properties. -/
def lastClass (props : List DeviceProperty) : Option ClassOfDevice :=
  (props.filterMap classOf?).getLast?

theorem addProperty_cls {p : DeviceProperty} (h : dev.addProperty p = some dev') :
    dev'.cls = (classOf? p).or dev.cls := by
  cases p with
  | name name | «class» cls | rssi rssi =>
    cases h
    rfl
  | eir eir => exact (parseEirFrom_frame h).cls

theorem lastClass_cons (p : DeviceProperty) (props : List DeviceProperty) :
    lastClass (p :: props) = (lastClass props).or (classOf? p) := by
  rw [lastClass, List.filterMap_cons]
  cases classOf? p with
  | none => simp [lastClass]
  | some cls => simp [lastClass, List.getLast?_cons]

/-- The class of a device is the last one it was given. -/
theorem foldlM_addProperty_cls {props : List DeviceProperty}
    (h : props.foldlM addProperty dev = some dev') : dev'.cls = (lastClass props).or dev.cls := by
  induction props generalizing dev with
  | nil =>
    cases h
    rfl
  | cons p props ih =>
    rw [List.foldlM_cons] at h
    obtain ⟨dev₁, hp, hprops⟩ := Option.bind_eq_some_iff.1 h
    rw [ih hprops, addProperty_cls hp, lastClass_cons, Option.or_assoc]

/-- **Which devices can be printed.** A device that a list of properties builds can be formatted
exactly if the major class bits of the last class in the list, where there is one, are assigned:
0 to 9, or 31. -/
theorem debug_isSome_iff_of_properties {address : BDAddr} {props : List DeviceProperty}
    (h : props.foldlM addProperty (ofAddress address) = some dev) : dev.debug.isSome ↔
      ∀ cls, lastClass props = some cls → cls.majorBits ≤ 9 ∨ cls.majorBits = 31 := by
  have hcls : dev.cls = lastClass props := (foldlM_addProperty_cls h).trans Option.or_none
  simp only [debug_isSome_iff, hcls, ClassOfDevice.getMajorDeviceClass_isSome_iff]

/-- A headset with a class, an RSSI and a name can be printed. -/
theorem debug_isSome_headset : ∃ dev,
    [.class ⟨0x240404⟩, .rssi (-60), .name "Headset"].foldlM addProperty
      (ofAddress (Vector.replicate 6 0)) = some dev ∧ dev.debug.isSome := by
  obtain ⟨dev, hdev⟩ : ∃ dev, [.class ⟨0x240404⟩, .rssi (-60), .name "Headset"].foldlM
    addProperty (ofAddress (Vector.replicate 6 0)) = some dev := ⟨_, rfl⟩
  refine ⟨dev, hdev, (debug_isSome_iff_of_properties hdev).2 fun cls hcls ↦ ?_⟩
  obtain rfl : ⟨0x240404⟩ = cls := Option.some.inj hcls
  decide

/-- A device whose major class is the reserved code 10 cannot. -/
theorem debug_reservedClass : ¬ ∀ (props : List DeviceProperty) (dev : ScannedDevice),
    props.foldlM addProperty (ofAddress (Vector.replicate 6 0)) = some dev →
      dev.debug.isSome := by
  intro h
  exact absurd (h [.class ⟨0x000a00⟩] _ rfl) (by decide)

end ScannedDevice

end Esp32A2dpPlayer
