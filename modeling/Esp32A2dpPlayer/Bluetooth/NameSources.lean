import Esp32A2dpPlayer.Bluetooth.Discovery
import Esp32A2dpPlayer.Bluetooth.EirEncoding

/-!
# The two sources of a device name

The stack can report the name of a device as a BDNAME property or as a complete local name in the
EIR. `DeviceProperty::from` writes the bytes of a BDNAME out in hexadecimal, two digits for each
byte; `parse_eir` decodes the same bytes as UTF-8. A UTF-8 string has at most one character for
each byte, so the two names are of different lengths as soon as there is a byte at all
(`names_agree_iff`).
-/

namespace Esp32A2dpPlayer

/-! ### The lengths of the two names -/

theorem length_hexDigits {n : ℕ} (h : n < 256) : (hexDigits 2 n).length = 2 := by
  have hle : (Nat.toDigits 16 n).length ≤ 2 :=
    (Nat.length_toDigits_le_iff (by decide) (by decide)).2 h
  rw [hexDigits, List.length_append, List.length_replicate, Nat.sub_add_cancel hle]

theorem length_flatMap_hexDigits (bytes : List UInt8) :
    (bytes.flatMap fun byte ↦ hexDigits 2 byte.toNat).length = 2 * bytes.length := by
  induction bytes with
  | nil => rfl
  | cons byte bytes ih =>
    rw [List.flatMap_cons, List.length_append, length_hexDigits byte.toNat_lt, ih,
      List.length_cons]
    omega

theorem length_le_utf8Encode (cs : List Char) : cs.length ≤ cs.utf8Encode.size := by
  induction cs with
  | nil => simp
  | cons c cs ih =>
    have hpos := c.utf8Size_pos
    rw [List.utf8Encode_cons, ByteArray.size_append, List.utf8Encode_singleton,
      List.size_toByteArray, String.length_utf8EncodeChar, List.length_cons]
    omega

/-- A string has at most one character for each of its bytes. -/
theorem length_le_of_stringFromUtf8 {bytes : List UInt8} {s : String}
    (h : stringFromUtf8 bytes = some s) : s.length ≤ bytes.length := by
  unfold stringFromUtf8 String.fromUTF8? at h
  split at h
  · have hbytes : s.toByteArray = ⟨bytes.toArray⟩ := by
      cases h
      rfl
    have hle := length_le_utf8Encode s.toList
    rw [String.utf8Encode_toList, hbytes] at hle
    rw [← String.length_toList]
    exact hle
  · cases h

/-! ### The name a device ends with -/

namespace ScannedDevice

/-- The property loop of `bt_app_gap_cb`, from any device. -/
def addDevProps (dev : ScannedDevice) (props : List DevProp) : Option ScannedDevice :=
  props.foldlM (fun dev prop ↦ (DeviceProperty.fromDevProp prop).bind dev.addProperty) dev

/-- The name field behind the loop; `none` is a panic. -/
def nameAfter (dev : ScannedDevice) (props : List DevProp) : Option (Option String) :=
  (dev.addDevProps props).map fun dev ↦ dev.name

variable {dev dev' : ScannedDevice} {b suffix : List UInt8} {s : String}

theorem addDevProps_append (props props' : List DevProp) :
    dev.addDevProps (props ++ props') =
      (dev.addDevProps props).bind fun dev ↦ dev.addDevProps props' :=
  List.foldlM_append

theorem nameAfter_append (props props' : List DevProp)
    (h : dev.addDevProps props = some dev') :
    dev.nameAfter (props ++ props') = dev'.nameAfter props' := by
  rw [nameAfter, addDevProps_append, h, Option.bind_some, nameAfter]

theorem nameAfter_bdname (dev : ScannedDevice) (b : List UInt8) : dev.nameAfter [.bdname b] =
    some (some (String.ofList (b.flatMap fun byte ↦ hexDigits 2 byte.toNat))) := rfl

/-- An EIR with a single complete local name sets the name to it. -/
theorem nameAfter_eir (dev : ScannedDevice) (hlen : b.length ≤ 254)
    (hutf8 : stringFromUtf8 b = some s) (hsuffix : suffix = [] ∨ suffix.head? = some 0) :
    dev.nameAfter [.eir ((EirRecord.localName b hlen).encode ++ suffix)] = some (some s) := by
  obtain ⟨dev', hparse, -, -, hname, -⟩ :=
    parseEir_encode dev [EirRecord.localName b hlen] hsuffix
  have hlast : ([EirRecord.localName b hlen].filterMap EirRecord.name?).getLast? = some s := by
    simp [EirRecord.name?, hutf8]
  rw [List.flatMap_singleton] at hparse
  rw [hlast, Option.some_or] at hname
  show ((dev.parseEir _).bind pure).map _ = _
  rw [hparse]
  exact congrArg some hname

theorem exists_addDevProps {props : List DevProp} {name : Option String}
    (h : dev.nameAfter props = some name) : ∃ dev', dev.addDevProps props = some dev' := by
  obtain ⟨dev', hdev', -⟩ := Option.map_eq_some_iff.1 h
  exact ⟨dev', hdev'⟩

/-- The name a device ends with is the one of its last source. -/
theorem nameAfter_of_last {props : List DevProp} {last : DevProp} {name name' : Option String}
    (h : dev.nameAfter props = some name) (hlast : ∀ dev, nameAfter dev [last] = some name') :
    dev.nameAfter (props ++ [last]) = some name' := by
  obtain ⟨dev', hdev'⟩ := exists_addDevProps h
  rw [nameAfter_append props [last] hdev', hlast]

/-! ### The two sources -/

theorem hex_eq_utf8_iff (hutf8 : stringFromUtf8 b = some s) :
    String.ofList (b.flatMap fun byte ↦ hexDigits 2 byte.toNat) = s ↔ b = [] := by
  have hle := length_le_of_stringFromUtf8 hutf8
  constructor
  · intro h
    rw [← h, String.length_ofList, length_flatMap_hexDigits] at hle
    exact List.length_eq_zero_iff.1 (by omega)
  · rintro rfl
    exact (String.length_eq_zero_iff.1 (Nat.le_zero.1 hle)).symm

/-- The ways to report the name `b`: as BDNAME, in the EIR, or in both. -/
def nameReports (b eir : List UInt8) : List (List DevProp) :=
  [[.bdname b], [.eir eir], [.bdname b, .eir eir], [.eir eir, .bdname b]]

/-- **When the two sources agree.** A name reported as BDNAME and the same name in the EIR leave
the same name field if and only if the name is empty, and so do all four ways to report it. -/
theorem names_agree_iff (dev : ScannedDevice) (hlen : b.length ≤ 254)
    (hutf8 : (stringFromUtf8 b).isSome) (hsuffix : suffix = [] ∨ suffix.head? = some 0) :
    (dev.nameAfter [.bdname b] =
        dev.nameAfter [.eir ((EirRecord.localName b hlen).encode ++ suffix)] ↔ b = []) ∧
      ((∃ name, ∀ props ∈ nameReports b ((EirRecord.localName b hlen).encode ++ suffix),
          dev.nameAfter props = some name) ↔ b = []) := by
  obtain ⟨s, hs⟩ := Option.isSome_iff_exists.1 hutf8
  have heir (dev : ScannedDevice) := nameAfter_eir dev hlen hs hsuffix
  have hboth := nameAfter_of_last (nameAfter_bdname dev b) heir
  have hboth' := nameAfter_of_last (heir dev) fun dev ↦ nameAfter_bdname dev b
  have hagree := hex_eq_utf8_iff hs
  refine ⟨?_, ?_, ?_⟩
  · rw [nameAfter_bdname, heir, Option.some_inj, Option.some_inj, hagree]
  · rintro ⟨name, hname⟩
    have hbd := hname [.bdname b] (by simp [nameReports])
    have hei := hname [.eir ((EirRecord.localName b hlen).encode ++ suffix)] (by simp [nameReports])
    rw [nameAfter_bdname] at hbd
    rw [heir, ← hbd, Option.some_inj, Option.some_inj] at hei
    exact hagree.1 hei.symm
  · intro hb
    refine ⟨some s, fun props hprops ↦ ?_⟩
    have hhex := hagree.2 hb
    simp only [nameReports, List.mem_cons, List.not_mem_nil, or_false] at hprops
    rcases hprops with rfl | rfl | rfl | rfl
    · rw [nameAfter_bdname, hhex]
    · exact heir dev
    · exact hboth
    · rw [← hhex]
      exact hboth'

/-- A device that reports the empty name. -/
theorem names_agree_empty :
    (ofAddress (Vector.replicate 6 0)).nameAfter [.bdname []] =
      (ofAddress (Vector.replicate 6 0)).nameAfter
        [.eir ((EirRecord.localName [] (by decide)).encode ++ [])] :=
  (names_agree_iff (ofAddress (Vector.replicate 6 0)) (by decide) (by decide) (Or.inl rfl)).1.2 rfl

/-- The device named "A" is "41" as BDNAME. -/
theorem names_differ : ¬ ∀ (dev : ScannedDevice) (b : List UInt8) (hlen : b.length ≤ 254),
    (stringFromUtf8 b).isSome → dev.nameAfter [.bdname b] =
      dev.nameAfter [.eir (EirRecord.localName b hlen).encode] := by
  intro h
  have hA : stringFromUtf8 [0x41] = some "A" := by decide
  have hsame := h (ofAddress (Vector.replicate 6 0)) [0x41] (by decide) (by rw [hA]; rfl)
  have heir := nameAfter_eir (ofAddress (Vector.replicate 6 0)) (by decide) hA (Or.inl rfl)
  rw [List.append_nil] at heir
  rw [heir, nameAfter_bdname] at hsame
  exact absurd hsame (by decide)

end ScannedDevice

end Esp32A2dpPlayer
