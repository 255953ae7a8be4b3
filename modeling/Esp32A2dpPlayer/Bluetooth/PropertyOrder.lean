import Esp32A2dpPlayer.Bluetooth.EirBounds
import Esp32A2dpPlayer.Bluetooth.Properties
import Esp32A2dpPlayer.Concurrency.IndependentSteps

/-!
# The order of the properties

The stack reports the properties of a device in an order of its own. A class, an RSSI, and the
two sources of a name each write fields that the others do not touch, so the device does not
depend on how they are interleaved, only on the order within each of the three kinds
(`order_of_properties`). On the way, what a list of properties may do to a device: it never
forgets what it knows (`Retains`).

The frame of an EIR is needed here as an equation between two parses, from a device and from
the same device with another class or RSSI, panics included (`parseEirFrom_apart`).
-/

namespace Esp32A2dpPlayer

open IndependentSteps

/-- Which properties write to the same fields. -/
inductive PropertyKind where
  | cls
  | rssi
  | name
  deriving DecidableEq

/-- Both a name and an EIR can write the name. -/
def DeviceProperty.kind : DeviceProperty → PropertyKind
  | .name _ => .name
  | .class _ => .cls
  | .rssi _ => .rssi
  | .eir _ => .name

namespace ScannedDevice

variable {dev dev' : ScannedDevice} {eir : List UInt8} {index len : ℕ}

/-! ### Updates apart from an EIR -/

/-- An update that neither reads nor writes what an EIR sets. -/
structure ApartFromEir (f : ScannedDevice → ScannedDevice) : Prop where
  name : ∀ dev name, f { dev with name := name } = { f dev with name := name }
  uuids16 : ∀ dev us, f { dev with complete16BitServiceClassUuids := us } =
    { f dev with complete16BitServiceClassUuids := us }
  uuids32 : ∀ dev us, f { dev with complete32BitServiceClassUuids := us } =
    { f dev with complete32BitServiceClassUuids := us }

theorem apartFromEir_class (cls : ClassOfDevice) :
    ApartFromEir fun dev ↦ { dev with cls := some cls } :=
  ⟨fun _ _ ↦ rfl, fun _ _ ↦ rfl, fun _ _ ↦ rfl⟩

theorem apartFromEir_rssi (rssi : Int8) :
    ApartFromEir fun dev ↦ { dev with rssi := some rssi } :=
  ⟨fun _ _ ↦ rfl, fun _ _ ↦ rfl, fun _ _ ↦ rfl⟩

variable {f : ScannedDevice → ScannedDevice}

theorem ApartFromEir.name_eq (hf : ApartFromEir f) (dev : ScannedDevice) :
    (f dev).name = dev.name := by
  have hsame : f dev = { f dev with name := dev.name } := hf.name dev dev.name
  rw [hsame]

/-- A record can be parsed before or after the update. -/
theorem parseRecord_apart (hf : ApartFromEir f) (dev : ScannedDevice) (hlen : 0 < len) :
    (f dev).parseRecord eir index len =
      (dev.parseRecord eir index len).map fun r ↦ (r.1, f r.2) := by
  rcases ht : eir[index + 1]? with - | t
  · rw [parseRecord_of_none ht, parseRecord_of_none ht]
    rfl
  by_cases h16 : t = 0x03
  · subst h16
    rw [parseRecord_uuids16 ht, parseRecord_uuids16 ht, Option.map_map]
    exact congrArg (Option.map · _) (funext fun r ↦ Prod.ext rfl (hf.uuids16 dev (some r.2)).symm)
  by_cases h32 : t = 0x05
  · subst h32
    rw [parseRecord_uuids32 ht, parseRecord_uuids32 ht, Option.map_map]
    exact congrArg (Option.map · _) (funext fun r ↦ Prod.ext rfl (hf.uuids32 dev (some r.2)).symm)
  by_cases hname : t = 0x09
  · subst hname
    rw [parseRecord_name ht, parseRecord_name ht, Option.map_map, hf.name_eq]
    exact congrArg (Option.map · _) (funext fun payload ↦ Prod.ext rfl (hf.name dev _).symm)
  · rw [parseRecord_skip ht hlen h16 h32 hname, parseRecord_skip ht hlen h16 h32 hname]
    rfl

/-- **The frame of a parse.** The update commutes with it, and they panic together. -/
theorem parseEirFrom_apart (hf : ApartFromEir f) (dev : ScannedDevice) (eir : List UInt8)
    (index : ℕ) : (f dev).parseEirFrom eir index = (dev.parseEirFrom eir index).map f := by
  induction dev, index using turn_induction eir with
  | atEnd dev index hend =>
    rw [parseEirFrom_of_atEnd hend, parseEirFrom_of_atEnd hend]
    rfl
  | record dev index L hget hL ih =>
    rw [parseEirFrom_of_record hget hL, parseEirFrom_of_record hget hL,
      parseRecord_apart hf dev (toNat_pos_of_ne_zero hL)]
    rcases hr : dev.parseRecord eir index L.toNat with - | ⟨j, dev'⟩
    · rfl
    · exact ih j dev' hr

/-! ### Properties of different kinds -/

/-- A property that is an update apart from an EIR commutes with a name and with an EIR. -/
theorem addProperty_comm (hf : ApartFromEir f) {p q : DeviceProperty}
    (hq : ∀ dev, addProperty dev q = some (f dev)) (hp : p.kind = .name) (dev : ScannedDevice) :
    (dev.addProperty q).bind (fun dev ↦ dev.addProperty p) =
      (dev.addProperty p).bind fun dev ↦ dev.addProperty q := by
  have happly : (f dev).addProperty p = (dev.addProperty p).map f := by
    cases p with
    | name name => exact congrArg some (hf.name dev (some name)).symm
    | eir eir => exact parseEirFrom_apart hf dev eir 0
    | «class» cls => cases hp
    | rssi rssi => cases hp
  rw [hq, Option.bind_some, happly, Option.map_eq_bind]
  exact congrArg _ (funext fun dev ↦ (hq dev).symm)

/-- Properties of different kinds commute. -/
theorem independent_addProperty : Independent addProperty DeviceProperty.kind := by
  have hclass (cls : ClassOfDevice) (p : DeviceProperty) (hp : p.kind = .name) :=
    addProperty_comm (q := .class cls) (apartFromEir_class cls) (fun _ ↦ rfl) hp
  have hrssi (rssi : Int8) (p : DeviceProperty) (hp : p.kind = .name) :=
    addProperty_comm (q := .rssi rssi) (apartFromEir_rssi rssi) (fun _ ↦ rfl) hp
  intro dev p q hkind
  cases p with
  | «class» cls =>
    cases q with
    | «class» cls' => exact absurd rfl hkind
    | rssi rssi => rfl
    | name _ | eir _ => exact hclass cls _ (by rfl) dev
  | rssi rssi =>
    cases q with
    | rssi rssi' => exact absurd rfl hkind
    | «class» cls => rfl
    | name _ | eir _ => exact hrssi rssi _ (by rfl) dev
  | name _ | eir _ =>
    cases q with
    | «class» cls => exact (hclass cls _ (by rfl) dev).symm
    | rssi rssi => exact (hrssi rssi _ (by rfl) dev).symm
    | name _ | eir _ => exact absurd rfl hkind

/-! ### What a device retains -/

/-- The address stays, and what is known stays known. -/
structure Retains (dev dev' : ScannedDevice) : Prop where
  address : dev'.address = dev.address
  cls : dev.cls.isSome → dev'.cls.isSome
  name : dev.name.isSome → dev'.name.isSome
  rssi : dev.rssi.isSome → dev'.rssi.isSome
  uuids16 : dev.complete16BitServiceClassUuids.isSome →
    dev'.complete16BitServiceClassUuids.isSome
  uuids32 : dev.complete32BitServiceClassUuids.isSome →
    dev'.complete32BitServiceClassUuids.isSome

theorem Retains.refl (dev : ScannedDevice) : Retains dev dev :=
  ⟨rfl, id, id, id, id, id⟩

theorem Retains.trans {dev'' : ScannedDevice} (h : Retains dev dev')
    (h' : Retains dev' dev'') : Retains dev dev'' where
  address := h'.address.trans h.address
  cls hsome := h'.cls (h.cls hsome)
  name hsome := h'.name (h.name hsome)
  rssi hsome := h'.rssi (h.rssi hsome)
  uuids16 hsome := h'.uuids16 (h.uuids16 hsome)
  uuids32 hsome := h'.uuids32 (h.uuids32 hsome)

theorem parseRecord_retains {j : ℕ} (h : dev.parseRecord eir index len = some (j, dev')) :
    Retains dev dev' := by
  obtain ⟨us, -, rfl⟩ | ⟨us, -, rfl⟩ | ⟨-, ⟨s, rfl⟩ | rfl⟩ := parseRecord_cases h
  · exact { Retains.refl dev with uuids16 := fun _ ↦ rfl }
  · exact { Retains.refl dev with uuids32 := fun _ ↦ rfl }
  · exact { Retains.refl dev with name := fun _ ↦ rfl }
  · exact .refl _

theorem parseEirFrom_retains (h : dev.parseEirFrom eir index = some dev') :
    Retains dev dev' :=
  parseEirFrom_rel Retains.refl Retains.trans parseRecord_retains h

theorem addProperty_retains {p : DeviceProperty} (h : dev.addProperty p = some dev') :
    Retains dev dev' := by
  cases p with
  | name name =>
    cases h
    exact { Retains.refl dev with name := fun _ ↦ rfl }
  | «class» cls =>
    cases h
    exact { Retains.refl dev with cls := fun _ ↦ rfl }
  | rssi rssi =>
    cases h
    exact { Retains.refl dev with rssi := fun _ ↦ rfl }
  | eir eir => exact parseEirFrom_retains h

theorem foldlM_addProperty_retains {props : List DeviceProperty}
    (h : props.foldlM addProperty dev = some dev') : Retains dev dev' := by
  induction props generalizing dev with
  | nil =>
    cases h
    exact .refl _
  | cons p props ih =>
    rw [List.foldlM_cons] at h
    obtain ⟨dev₁, hp, hprops⟩ := Option.bind_eq_some_iff.1 h
    exact (addProperty_retains hp).trans (ih hprops)

/-- A name that is not UTF-8 leaves the device as it is. -/
theorem parseRecord_of_invalid_name {payload : List UInt8} {j : ℕ}
    (ht : eir[index + 1]? = some 0x09)
    (hpayload : slice eir (index + 2) (index + 2 + len - 1) = some payload)
    (hutf8 : stringFromUtf8 payload = none)
    (h : dev.parseRecord eir index len = some (j, dev')) : dev' = dev := by
  rw [parseRecord_name ht, hpayload, Option.map_some, hutf8, Option.none_or] at h
  exact (Prod.mk.inj (Option.some.inj h)).2.symm

/-- **The order of independent properties does not matter.** Two lists with the same classes,
the same RSSIs and the same names and EIRs, each in the same order, build the same device or
both panic. Between any two points of a fold the device retains its address and whatever it
knew, and an EIR name that is not UTF-8 changes nothing. -/
theorem order_of_properties (dev : ScannedDevice) {props props' : List DeviceProperty}
    (h : SameOrder DeviceProperty.kind props props') :
    props.foldlM addProperty dev = props'.foldlM addProperty dev ∧
      (∀ l₁ l₂ : List DeviceProperty, (l₁ ++ l₂ <+: props ∨ l₁ ++ l₂ <+: props') →
        ∀ dev₁ dev₂, l₁.foldlM addProperty dev = some dev₁ →
          (l₁ ++ l₂).foldlM addProperty dev = some dev₂ → Retains dev₁ dev₂) ∧
      ∀ (d d' : ScannedDevice) (eir payload : List UInt8) (index len j : ℕ),
        eir[index + 1]? = some 0x09 →
        slice eir (index + 2) (index + 2 + len - 1) = some payload →
        stringFromUtf8 payload = none →
        d.parseRecord eir index len = some (j, d') → d' = d := by
  refine ⟨foldlM_eq_of_sameOrder independent_addProperty h dev, ?_, ?_⟩
  · intro l₁ l₂ _ dev₁ dev₂ h₁ h₂
    rw [List.foldlM_append, h₁] at h₂
    exact foldlM_addProperty_retains h₂
  · intro d d' eir payload index len j ht hpayload hutf8 hr
    exact parseRecord_of_invalid_name ht hpayload hutf8 hr

/-- An RSSI between a class and an EIR, or before both. -/
theorem order_of_properties_rssi :
    [.class ⟨0x240404⟩, .rssi (-60), .eir [0x02, 0x09, 0x41]].foldlM addProperty
        (ofAddress (Vector.replicate 6 0)) =
      [.rssi (-60), .eir [0x02, 0x09, 0x41], .class ⟨0x240404⟩].foldlM addProperty
        (ofAddress (Vector.replicate 6 0)) :=
  (order_of_properties (ofAddress (Vector.replicate 6 0)) fun kind ↦ by
    cases kind <;> rfl).1

end ScannedDevice

end Esp32A2dpPlayer
