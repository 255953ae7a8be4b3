import Esp32A2dpPlayer.Bluetooth.Properties
import Esp32A2dpPlayer.Bytes.WordFields

/-!
# What the decoders recover of a class word

The class of device packs eleven bits of services, five of the major class, six of the minor
class and two format bits. `ClassFields` is such a word in parts and `assemble` puts it
together; each decoder is read as arithmetic on the word.

The services and the major class come out exactly. The mask of the minor class is `0xf6`, which
lacks bit 3 of the word, so a minor class comes out exactly if and only if its bit 1 is clear
(`decoding_exact_iff`).
-/

namespace Esp32A2dpPlayer

open WordFields

/-- A class word in parts. -/
structure ClassFields where
  service : UInt16
  major : MajorClass
  minor : UInt8
  format : UInt8
  /-- The bits that no field uses. -/
  top : UInt8
  service_lt : service.toNat < 2048
  minor_lt : minor.toNat < 64
  format_lt : format.toNat < 4

/-- The word that packs the parts. -/
def ClassFields.assemble (f : ClassFields) : ClassOfDevice where
  value := f.top.toUInt32 <<< 24 ||| (f.service.toUInt32 <<< 13 |||
    (f.major.toU8.toUInt32 <<< 8 ||| (f.minor.toUInt32 <<< 2 ||| f.format.toUInt32)))

namespace ClassOfDevice

variable (cls : ClassOfDevice)

/-- The decoded fields, put back where the word has them. -/
def reassembled (major : MajorClass) : UInt32 :=
  cls.getServiceClasses.toUInt32 <<< 13 ||| (major.toU8.toUInt32 <<< 8 |||
    cls.getMinorDeviceClass.toUInt32 <<< 2)

/-! ### The decoders as arithmetic -/

theorem toNat_getServiceClasses : cls.getServiceClasses.toNat = bits cls.value.toNat 13 11 := by
  have hmask (n : ℕ) : n &&& 2047 = n % 2 ^ 11 := Nat.and_two_pow_sub_one_eq_mod n 11
  simp only [getServiceClasses, UInt16.toNat_and, UInt32.toNat_toUInt16, UInt32.toNat_shiftRight,
    UInt16.reduceToNat, UInt32.reduceToNat, Nat.reduceMod, hmask, Nat.shiftRight_eq_div_pow, bits]
  omega

/-- The mask of the minor class passes bits 4 to 7 of the word and bit 2. -/
theorem toNat_getMinorDeviceClass :
    cls.getMinorDeviceClass.toNat = bits cls.value.toNat 4 4 * 4 + bits cls.value.toNat 2 1 := by
  have hmask : cls.value.toNat &&& 0xf6 =
      bits cls.value.toNat 4 4 * 2 ^ 4 + bits cls.value.toNat 1 2 * 2 := by
    have hlow : bits cls.value.toNat 1 2 <<< 1 < 2 ^ 4 := by
      simp only [bits, Nat.shiftLeft_eq]
      omega
    rw [show (0xf6 : ℕ) = (2 ^ 4 - 1) <<< 4 ||| (2 ^ 2 - 1) <<< 1 by decide,
      Nat.and_or_distrib_left, and_mask_shiftLeft, and_mask_shiftLeft, shiftLeft_or hlow,
      Nat.shiftLeft_eq]
  simp only [getMinorDeviceClass, UInt8.toNat_shiftRight, UInt32.toNat_toUInt8, UInt32.toNat_and,
    UInt8.reduceToNat, UInt32.reduceToNat, Nat.reduceMod, hmask, Nat.shiftRight_eq_div_pow, bits]
  omega

theorem majorBits_eq : cls.majorBits = bits cls.value.toNat 8 5 := rfl

theorem majorBits_of_getMajorDeviceClass {major : MajorClass}
    (h : cls.getMajorDeviceClass = some major) : major.toU8.toNat = cls.majorBits := by
  have hcode := List.find?_some h
  rw [beq_iff_eq] at hcode
  rw [hcode, toNat_majorBits]

/-! ### Words in parts -/

theorem toU8_lt (major : MajorClass) : major.toU8.toNat < 32 := by
  cases major <;> decide

/-- The services above the major class above eight bits more, where the services fit. -/
theorem toNat_pack {service : UInt16} {major : MajorClass} {low : UInt32}
    (hservice : service.toNat < 2048) (hlow : low.toNat < 2 ^ 8) :
    (service.toUInt32 <<< 13 ||| (major.toU8.toUInt32 <<< 8 ||| low)).toNat =
      service.toNat * 2 ^ 13 + (major.toU8.toNat * 2 ^ 8 + low.toNat) := by
  have hmajor := toU8_lt major
  have hs : (service.toUInt32 <<< 13).toNat = service.toNat <<< 13 :=
    toNat_shiftLeft_of_lt (w := 11) hservice (by decide) (by decide)
  have hm : (major.toU8.toUInt32 <<< 8).toNat = major.toU8.toNat <<< 8 :=
    toNat_shiftLeft_of_lt (w := 5) hmajor (by decide) (by decide)
  rw [UInt32.toNat_or, UInt32.toNat_or, hs, hm, shiftLeft_or hlow, shiftLeft_or (by omega)]

theorem toNat_minor_shiftLeft {minor : UInt8} (h : minor.toNat < 64) :
    (minor.toUInt32 <<< 2).toNat = minor.toNat * 2 ^ 2 := by
  rw [← Nat.shiftLeft_eq]
  exact toNat_shiftLeft_of_lt (w := 6) h (by decide) (by decide)

theorem toNat_reassembled {major : MajorClass} (h : cls.getMajorDeviceClass = some major) :
    (cls.reassembled major).toNat = cls.getServiceClasses.toNat * 2 ^ 13 +
      (cls.majorBits * 2 ^ 8 + cls.getMinorDeviceClass.toNat * 2 ^ 2) := by
  have hservice : cls.getServiceClasses.toNat < 2048 := by
    rw [toNat_getServiceClasses, bits]
    omega
  have hminor : cls.getMinorDeviceClass.toNat < 64 := by
    rw [toNat_getMinorDeviceClass, bits, bits]
    omega
  have hshift := toNat_minor_shiftLeft hminor
  rw [reassembled, toNat_pack hservice (by omega), hshift,
    majorBits_of_getMajorDeviceClass cls h]

/-- The fields of a word, as a mask takes them out of it. -/
theorem toNat_and_fields :
    (cls.value &&& 0x00fffffc).toNat = bits cls.value.toNat 2 22 * 2 ^ 2 := by
  rw [UInt32.toNat_and, ← Nat.shiftLeft_eq, ← and_mask_shiftLeft]
  rfl

/-- **One word.** The decoders recover the fields of a word if bit 3 is clear, and only then. -/
theorem reassembled_eq_iff {major : MajorClass} (h : cls.getMajorDeviceClass = some major) :
    cls.reassembled major = cls.value &&& 0x00fffffc ↔ cls.value.toNat.testBit 3 = false := by
  rw [← UInt32.toNat_inj, toNat_reassembled cls h, toNat_and_fields, toNat_getServiceClasses,
    toNat_getMinorDeviceClass, majorBits_eq, Nat.testBit_eq_decide_div_mod_eq,
    decide_eq_false_iff_not]
  simp only [bits]
  omega

end ClassOfDevice

namespace ClassFields

variable (f : ClassFields)

theorem toNat_assemble : f.assemble.value.toNat = f.top.toNat * 2 ^ 24 +
    (f.service.toNat * 2 ^ 13 + (f.major.toU8.toNat * 2 ^ 8 +
      (f.minor.toNat * 2 ^ 2 + f.format.toNat))) := by
  have hservice := f.service_lt
  have hminor := f.minor_lt
  have hformat := f.format_lt
  have hmajor := ClassOfDevice.toU8_lt f.major
  have htop : (f.top.toUInt32 <<< 24).toNat = f.top.toNat <<< 24 :=
    toNat_shiftLeft_of_lt (w := 8) f.top.toNat_lt (by decide) (by decide)
  have hlow : (f.minor.toUInt32 <<< 2 ||| f.format.toUInt32).toNat =
      f.minor.toNat * 2 ^ 2 + f.format.toNat := by
    rw [UInt32.toNat_or, ClassOfDevice.toNat_minor_shiftLeft hminor, UInt8.toNat_toUInt32,
      ← Nat.shiftLeft_eq, shiftLeft_or (by omega), Nat.shiftLeft_eq]
  rw [assemble, UInt32.toNat_or, htop, ClassOfDevice.toNat_pack hservice (by omega), hlow,
    shiftLeft_or (by omega)]

theorem getServiceClasses_assemble : f.assemble.getServiceClasses = f.service := by
  have hservice := f.service_lt
  have hminor := f.minor_lt
  have hformat := f.format_lt
  have hmajor := ClassOfDevice.toU8_lt f.major
  rw [← UInt16.toNat_inj, ClassOfDevice.toNat_getServiceClasses, f.toNat_assemble, bits]
  omega

theorem getMajorDeviceClass_assemble : f.assemble.getMajorDeviceClass = some f.major := by
  have hminor := f.minor_lt
  have hformat := f.format_lt
  have hmajor := ClassOfDevice.toU8_lt f.major
  have hcode : (f.assemble.value >>> 8).toUInt8 &&& 0x1f = f.major.toU8 := by
    rw [← UInt8.toNat_inj, ClassOfDevice.toNat_majorBits, ClassOfDevice.majorBits,
      f.toNat_assemble]
    omega
  rw [ClassOfDevice.getMajorDeviceClass, hcode]
  cases f.major <;> rfl

theorem getMinorDeviceClass_assemble_iff :
    f.assemble.getMinorDeviceClass = f.minor ↔ f.minor.toNat.testBit 1 = false := by
  have hminor := f.minor_lt
  have hformat := f.format_lt
  have hmajor := ClassOfDevice.toU8_lt f.major
  rw [← UInt8.toNat_inj, ClassOfDevice.toNat_getMinorDeviceClass, f.toNat_assemble,
    Nat.testBit_eq_decide_div_mod_eq, decide_eq_false_iff_not, bits, bits]
  omega

end ClassFields

namespace ClassOfDevice

/-- **When the decoding is exact.** For every word with an assigned major class, the decoded
fields are those of the word if and only if bit 3 of the word is clear; and for every word in
parts, decoding gives the parts back if and only if bit 1 of the minor class is clear. -/
theorem decoding_exact_iff (cls : ClassOfDevice) (f : ClassFields) :
    (∀ major, cls.getMajorDeviceClass = some major →
      (cls.reassembled major = cls.value &&& 0x00fffffc ↔
        cls.value.toNat.testBit 3 = false)) ∧
      ((f.assemble.getServiceClasses = f.service ∧
        f.assemble.getMajorDeviceClass = some f.major ∧
        f.assemble.getMinorDeviceClass = f.minor) ↔ f.minor.toNat.testBit 1 = false) := by
  refine ⟨fun major h ↦ reassembled_eq_iff cls h, ?_⟩
  rw [and_iff_right f.getServiceClasses_assemble, and_iff_right f.getMajorDeviceClass_assemble]
  exact f.getMinorDeviceClass_assemble_iff

/-- A wearable headset: audio and video, minor class 1. -/
def headsetFields : ClassFields :=
  ⟨0x120, .audioVideo, 1, 0, 0, by decide, by decide, by decide⟩

theorem decoding_exact_headset :
    reassembled ⟨0x240404⟩ .audioVideo = 0x240404 &&& 0x00fffffc ∧
      headsetFields.assemble.getMinorDeviceClass = 1 := by
  obtain ⟨hword, hparts⟩ := decoding_exact_iff ⟨0x240404⟩ headsetFields
  exact ⟨(hword .audioVideo rfl).2 (by decide), (hparts.2 (by decide)).2.2⟩

/-- A hands-free device, minor class 2, comes out with minor class 0. -/
theorem decoding_handsFree : ¬ ∀ (cls : ClassOfDevice) (major : MajorClass),
    cls.getMajorDeviceClass = some major → cls.reassembled major = cls.value &&& 0x00fffffc := by
  intro h
  exact absurd (h ⟨0x240408⟩ .audioVideo rfl) (by decide)

end ClassOfDevice

end Esp32A2dpPlayer
