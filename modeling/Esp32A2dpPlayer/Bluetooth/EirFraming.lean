import Esp32A2dpPlayer.Bluetooth.EirBounds
import Mathlib.Data.List.Induction

/-!
# Framed records

A response whose records are delimited by their length bytes, whatever stands in the payloads: a
UUID list need not be a whole number of UUIDs. The question is whether the parser keeps to the
records, so that one of them cannot disturb another.

`Contained` says that a turn of the loop kept to its record: the bytes of the record alone decide
the turn, it ends right behind the record, and the rest of the parse is the parse of the vector
with the record taken out.

## Main results

* `framed_contained_iff`: every turn of a parse keeps to its record if and only if every complete
  list of 16-bit UUIDs has a payload of even length and every complete list of 32-bit UUIDs one
  whose length is a multiple of four.
* `framed_not_contained`: a list of one UUID and a half takes the length byte of the next record
  for its missing byte, and the parser goes on at the type byte of that record.

## What the proof rests on

`parseRecord_shift`: a turn depends on the bytes it reads only, wherever they stand. The cursor
behind a record comes from `parseRecord_cursor`, so a turn that keeps to its record ends where
its declared length ends, and the one that does not is the first whose list is no whole number
of elements.
-/

namespace Esp32A2dpPlayer

/-- A record that is framed by its length byte. -/
structure FramedRecord where
  typ : UInt8
  payload : List UInt8
  /-- The length byte counts the type byte and the payload. -/
  hlen : payload.length ≤ 254

namespace FramedRecord

/-- The length byte. -/
def lengthByte (r : FramedRecord) : UInt8 := UInt8.ofNat (r.payload.length + 1)

/-- The bytes of a record. -/
def encode (r : FramedRecord) : List UInt8 := r.lengthByte :: r.typ :: r.payload

/-- A UUID list that is a whole number of UUIDs, or a record of another type. -/
def Aligned (r : FramedRecord) : Prop :=
  (r.typ = 0x03 → 2 ∣ r.payload.length) ∧ (r.typ = 0x05 → 4 ∣ r.payload.length)

theorem toNat_lengthByte (r : FramedRecord) : r.lengthByte.toNat = r.payload.length + 1 :=
  toNat_lengthByte_of_le r.hlen

theorem lengthByte_ne_zero (r : FramedRecord) : r.lengthByte ≠ 0 :=
  lengthByte_ne_zero_of_le r.hlen

@[simp] theorem encode_length (r : FramedRecord) : r.encode.length = r.payload.length + 2 := rfl

theorem aligned_iff (r : FramedRecord) :
    r.Aligned ↔ payloadSpan r.typ r.payload.length = r.payload.length := by
  have h16 : _ ↔ 2 ∣ r.payload.length := ByteCodec.u16le.span_eq_self_iff r.payload.length
  have h32 : _ ↔ 4 ∣ r.payload.length := ByteCodec.u32le.span_eq_self_iff r.payload.length
  unfold Aligned payloadSpan
  split_ifs with ht ht'
  · simp [ht, h16]
  · simp [ht', h32]
  · simp [ht, ht']

end FramedRecord

/-- What is read of a payload is part of what the cursor moves over. -/
theorem payloadRead_le (t : UInt8) (n : ℕ) : payloadRead t n ≤ payloadSpan t n := by
  unfold payloadRead payloadSpan
  split_ifs <;> simp

namespace ScannedDevice

variable {dev dev' : ScannedDevice} {eir eir' : List UInt8} {index len k : ℕ} {t : UInt8}

/-! ### A turn depends on the bytes it reads -/

theorem slice_shift {start stop : ℕ} (hle : start ≤ stop)
    (h : ∀ p, start ≤ p + 1 → p < stop → eir'[k + p]? = eir[p]?) (hpos : 0 < start) :
    slice eir' (k + start) (k + stop) = slice eir start stop := by
  have hlast : k + stop ≤ eir'.length ↔ stop ≤ eir.length := by
    have hnone : eir'.length ≤ k + (stop - 1) ↔ eir.length ≤ stop - 1 := by
      rw [← List.getElem?_eq_none_iff, h (stop - 1) (by omega) (by omega),
        List.getElem?_eq_none_iff]
    omega
  unfold slice
  by_cases hin : stop ≤ eir.length
  · rw [if_pos ⟨by omega, hlast.2 hin⟩, if_pos ⟨hle, hin⟩]
    refine congrArg some (List.ext_getElem? fun q ↦ ?_)
    rw [List.getElem?_take, List.getElem?_take, List.getElem?_drop, List.getElem?_drop]
    rw [show k + stop - (k + start) = stop - start by omega]
    split_ifs with hq
    · rw [Nat.add_assoc]
      exact h (start + q) (by omega) (by omega)
    · rfl
  · rw [if_neg (by omega), if_neg (by omega)]

/-- **A turn is local.** Where the bytes it reads stand `k` places further on, so does the
cursor, and the device is the same. -/
theorem parseRecord_shift (ht : eir[index + 1]? = some t) (hlen : 0 < len)
    (h : ∀ p, index + 1 ≤ p → p < index + 2 + payloadRead t (len - 1) →
      eir'[k + p]? = eir[p]?) :
    dev.parseRecord eir' (k + index) len =
      (dev.parseRecord eir index len).map fun r ↦ (k + r.1, r.2) := by
  have ht' : eir'[k + index + 1]? = some t := by
    rw [← ht, Nat.add_assoc]
    exact h (index + 1) le_rfl (by omega)
  have hpayload (p : ℕ) (hp : index + 2 ≤ p) := h p (by omega)
  unfold payloadRead at h hpayload
  by_cases h16 : t = 0x03
  · subst h16
    rw [parseRecord_uuids16 ht', parseRecord_uuids16 ht]
    exact uuidList_shift ByteCodec.u16le_isLocal hlen (fun _ _ ↦ rfl) hpayload
  by_cases h32 : t = 0x05
  · subst h32
    rw [parseRecord_uuids32 ht', parseRecord_uuids32 ht]
    exact uuidList_shift ByteCodec.u32le_isLocal hlen (fun _ _ ↦ rfl) hpayload
  by_cases hname : t = 0x09
  · subst hname
    have hslice : slice eir' (k + index + 2) (k + index + 2 + len - 1) =
        slice eir (index + 2) (index + 2 + len - 1) := by
      rw [show k + index + 2 + len - 1 = k + (index + 2 + len - 1) by omega, Nat.add_assoc k]
      refine slice_shift (by omega) (fun p hp hlt ↦ h p (by omega) ?_) (by omega)
      simp only [h16, h32, ↓reduceIte]
      omega
    rw [parseRecord_name ht', parseRecord_name ht, hslice, Option.map_map]
    refine congrArg (Option.map · _) (funext fun payload ↦ ?_)
    simp only [Function.comp_apply, Prod.mk.injEq, and_true]
    omega
  · rw [parseRecord_skip ht' hlen h16 h32 hname, parseRecord_skip ht hlen h16 h32 hname,
      Option.map_some, Option.some.injEq, Prod.mk.injEq, and_iff_left rfl]
    omega

/-- The parse of a vector does not depend on what stands before it. -/
theorem parseEirFrom_append (pre : List UInt8) {index : ℕ} {dev : ScannedDevice} :
    dev.parseEirFrom (pre ++ eir) (pre.length + index) = dev.parseEirFrom eir index := by
  have hshift (p : ℕ) : (pre ++ eir)[pre.length + p]? = eir[p]? := by
    rw [List.getElem?_append_right (Nat.le_add_right ..), Nat.add_sub_cancel_left]
  induction dev, index using turn_induction eir with
  | atEnd dev index hend =>
    have hend' : AtEnd (pre ++ eir) (pre.length + index) := fun L hL ↦
      hend L ((hshift index).symm.trans hL)
    rw [parseEirFrom_of_atEnd hend, parseEirFrom_of_atEnd hend']
  | record dev index L hget hL ih =>
    rw [parseEirFrom_of_record hget hL, parseEirFrom_of_record ((hshift index).trans hget) hL]
    rcases ht : eir[index + 1]? with - | t
    · have ht' : (pre ++ eir)[pre.length + index + 1]? = none := (hshift (index + 1)).trans ht
      rw [parseRecord_of_none ht, parseRecord_of_none ht']
      rfl
    rw [parseRecord_shift ht (toNat_pos_of_ne_zero hL) fun p _ _ ↦ hshift p]
    rcases hr : dev.parseRecord eir index L.toNat with - | ⟨j, dev'⟩
    · rfl
    · exact ih j dev' hr

/-! ### The turns of a parse -/

/-- One turn of the loop of `parse_eir`, from cursor and device to cursor and device. -/
def Turn (eir : List UInt8) (s s' : ℕ × ScannedDevice) : Prop :=
  ∃ L, eir[s.1]? = some L ∧ L ≠ 0 ∧ s.2.parseRecord eir s.1 L.toNat = some s'

/-- The turns are those of the parse. -/
theorem parseEirFrom_of_turns {s s' : ℕ × ScannedDevice}
    (h : Relation.ReflTransGen (Turn eir) s s') :
    s.2.parseEirFrom eir s.1 = s'.2.parseEirFrom eir s'.1 := by
  induction h using Relation.ReflTransGen.head_induction_on with
  | refl => rfl
  | head hturn _ ih =>
    obtain ⟨L, hget, hL, hr⟩ := hturn
    rw [parseEirFrom_of_record hget hL, hr, Option.bind_some, ih]

/-- The turn at `i` keeps to its record, whose length byte is `L`. -/
structure Contained (dev : ScannedDevice) (eir : List UInt8) (i L : ℕ) (dev' : ScannedDevice) :
    Prop where
  /-- The bytes of the record alone decide the turn, and the cursor ends right behind them. -/
  own : ∀ eir' : List UInt8, (∀ p, i + 1 ≤ p → p ≤ i + L → eir'[p]? = eir[p]?) →
    dev.parseRecord eir' i L = some (i + 1 + L, dev')
  /-- The records behind it are parsed as they are without it. -/
  rest : dev.parseEirFrom eir i = dev'.parseEirFrom (eir.take i ++ eir.drop (i + 1 + L)) i

/-- Every turn of the parse of `eir` keeps to its record. -/
def AllContained (dev : ScannedDevice) (eir : List UInt8) : Prop :=
  ∀ s, Relation.ReflTransGen (Turn eir) (0, dev) s → ∀ L, eir[s.1]? = some L → L ≠ 0 →
    ∃ dev', Contained s.2 eir s.1 L.toNat dev'

/-- **Which turns keep to their record.** Those whose cursor moves over the declared length. -/
theorem exists_contained_iff {i : ℕ} {L : UInt8} (hget : eir[i]? = some L) (hL : L ≠ 0)
    (ht : eir[i + 1]? = some t) (hin : i + 1 + L.toNat ≤ eir.length) :
    (∃ dev', Contained dev eir i L.toNat dev') ↔
      payloadSpan t (L.toNat - 1) = L.toNat - 1 := by
  have hlen := toNat_pos_of_ne_zero hL
  constructor
  · rintro ⟨dev', h⟩
    have hcursor := parseRecord_cursor ht hlen (h.own eir fun _ _ _ ↦ rfl)
    omega
  · intro hspan
    have hread := payloadRead_le t (L.toNat - 1)
    have hsome : (dev.parseRecord eir i L.toNat).isSome :=
      (parseRecord_isSome_iff ht hlen).2 (by omega)
    obtain ⟨⟨j, dev'⟩, hr⟩ := Option.isSome_iff_exists.1 hsome
    obtain rfl : j = i + 1 + L.toNat := by
      rw [parseRecord_cursor ht hlen hr, hspan]
      omega
    refine ⟨dev', fun eir' h ↦ ?_, ?_⟩
    · have hbytes : ∀ p, i + 1 ≤ p → p < i + 2 + payloadRead t (L.toNat - 1) →
          eir'[0 + p]? = eir[p]? :=
        fun p hp hlt ↦ by rw [Nat.zero_add]; exact h p hp (by omega)
      have hshift : dev.parseRecord eir' (0 + i) L.toNat = _ := parseRecord_shift ht hlen hbytes
      rw [hr] at hshift
      simpa using hshift
    · -- both sides are the parse of what stands behind the record
      have hbehind (pre : List UInt8) : dev'.parseEirFrom (pre ++ eir.drop (i + 1 + L.toNat))
          (pre.length + 0) = dev'.parseEirFrom (eir.drop (i + 1 + L.toNat)) 0 :=
        parseEirFrom_append pre
      have hwith := hbehind (eir.take (i + 1 + L.toNat))
      have hwithout := hbehind (eir.take i)
      rw [List.take_append_drop, List.length_take_of_le hin, Nat.add_zero] at hwith
      rw [List.length_take_of_le (by omega), Nat.add_zero] at hwithout
      rw [parseEirFrom_of_record hget hL, hr]
      exact hwith.trans hwithout.symm

/-! ### Framed vectors -/

open FramedRecord

variable {rs rs₁ rs₂ : List FramedRecord} {r : FramedRecord} {padding : List UInt8}

/-- Framed records and their terminator. -/
def framed (rs : List FramedRecord) (padding : List UInt8) : List UInt8 :=
  rs.flatMap encode ++ (List.replicate 4 0 ++ padding)

/-- The length byte, the type byte and the end of a record in a framed vector. -/
theorem framed_record (padding : List UInt8) (hrs : rs = rs₁ ++ r :: rs₂) :
    (framed rs padding)[(rs₁.flatMap encode).length]? = some r.lengthByte ∧
      (framed rs padding)[(rs₁.flatMap encode).length + 1]? = some r.typ ∧
      (rs₁.flatMap encode).length + 1 + r.lengthByte.toNat ≤ (framed rs padding).length := by
  have hbuf : framed rs padding = rs₁.flatMap encode ++
      (r.lengthByte :: r.typ :: (r.payload ++ (rs₂.flatMap encode ++
        (List.replicate 4 0 ++ padding)))) := by
    simp [framed, hrs, encode]
  rw [hbuf]
  refine ⟨by simp, by simp, ?_⟩
  simp only [List.length_append, List.length_cons, r.toNat_lengthByte]
  omega

theorem framed_terminator :
    (framed rs padding)[(rs.flatMap encode).length]? = some 0 := by
  simp [framed]

/-- A turn at a record, and what its end says of the record. -/
theorem exists_contained_framed_iff (hrs : rs = rs₁ ++ r :: rs₂) :
    (∃ dev', Contained dev (framed rs padding) (rs₁.flatMap encode).length r.lengthByte.toNat
      dev') ↔ r.Aligned := by
  obtain ⟨hget, ht, hin⟩ := framed_record padding hrs
  rw [exists_contained_iff hget r.lengthByte_ne_zero ht hin, r.aligned_iff, r.toNat_lengthByte,
    Nat.add_sub_cancel]

/-- Where the records are aligned, every turn starts at a record or ends the parse. -/
theorem exists_split_of_turns (haligned : ∀ r ∈ rs, r.Aligned) {s : ℕ × ScannedDevice}
    (h : Relation.ReflTransGen (Turn (framed rs padding)) (0, dev) s) :
    ∃ rs₁ rs₂, rs = rs₁ ++ rs₂ ∧ s.1 = (rs₁.flatMap encode).length := by
  induction h with
  | refl => exact ⟨[], rs, rfl, rfl⟩
  | @tail s s' _ hturn ih =>
    obtain ⟨rs₁, rs₂, hrs, hs⟩ := ih
    obtain ⟨L, hget, hL, hr⟩ := hturn
    rw [hs] at hget hr
    rcases rs₂ with - | ⟨r, rs₂⟩
    · rw [List.append_nil] at hrs
      rw [← hrs, framed_terminator] at hget
      exact absurd (Option.some.inj hget).symm hL
    · obtain ⟨hget', ht, -⟩ := framed_record padding hrs
      obtain rfl : r.lengthByte = L := Option.some.inj (hget'.symm.trans hget)
      have hspan := r.aligned_iff.1 (haligned r (hrs ▸ by simp))
      have hcursor := parseRecord_cursor ht (toNat_pos_of_ne_zero hL) hr
      refine ⟨rs₁ ++ [r], rs₂, by simp [hrs], ?_⟩
      rw [hcursor, r.toNat_lengthByte, Nat.add_sub_cancel, hspan, List.flatMap_append,
        List.length_append, List.flatMap_singleton, r.encode_length]
      omega

/-- Where every turn keeps to its record, the parse reaches each record and it is aligned. -/
theorem reaches_of_allContained (hall : AllContained dev (framed rs padding)) :
    ∀ {rs₁ rs₂ : List FramedRecord}, rs = rs₁ ++ rs₂ → (∀ r ∈ rs₁, r.Aligned) ∧
      ∃ d, Relation.ReflTransGen (Turn (framed rs padding)) (0, dev)
        ((rs₁.flatMap encode).length, d) := by
  intro rs₁
  induction rs₁ using List.reverseRecOn with
  | nil => exact fun _ ↦ ⟨nofun, dev, .refl⟩
  | append_singleton rs₁ r ih =>
    intro rs₂ hrs
    rw [List.append_assoc, List.singleton_append] at hrs
    obtain ⟨haligned, d, hreach⟩ := ih hrs
    obtain ⟨hget, -, -⟩ := framed_record padding hrs
    obtain ⟨d', hd'⟩ := hall _ hreach _ hget r.lengthByte_ne_zero
    refine ⟨?_, d', ?_⟩
    · intro r' hr'
      rcases List.mem_append.1 hr' with hr' | hr'
      · exact haligned r' hr'
      · obtain rfl := List.mem_singleton.1 hr'
        exact (exists_contained_framed_iff hrs).1 ⟨d', hd'⟩
    · refine hreach.tail ⟨_, hget, r.lengthByte_ne_zero, ?_⟩
      rw [hd'.own _ fun _ _ _ ↦ rfl, r.toNat_lengthByte, List.flatMap_append,
        List.length_append, List.flatMap_singleton, r.encode_length]
      simp only [Option.some.injEq, Prod.mk.injEq, and_true]
      omega

/-- **When no record disturbs another.** For every device and every vector of framed records and
a terminator, each turn of the parse keeps to its record if and only if the UUID lists are whole
numbers of UUIDs. -/
theorem framed_contained_iff (dev : ScannedDevice) (rs : List FramedRecord)
    (padding : List UInt8) : AllContained dev (framed rs padding) ↔
      ∀ r ∈ rs, (r.typ = 0x03 → 2 ∣ r.payload.length) ∧ (r.typ = 0x05 → 4 ∣ r.payload.length) := by
  constructor
  · intro hall
    exact (reaches_of_allContained hall (List.append_nil rs).symm).1
  · intro haligned s hs L hget hL
    obtain ⟨rs₁, rs₂, hrs, hs₁⟩ := exists_split_of_turns haligned hs
    rw [hs₁] at hget ⊢
    rcases rs₂ with - | ⟨r, rs₂⟩
    · rw [List.append_nil] at hrs
      rw [← hrs, framed_terminator] at hget
      exact absurd (Option.some.inj hget).symm hL
    · obtain ⟨hget', -, -⟩ := framed_record padding hrs
      obtain rfl : r.lengthByte = L := Option.some.inj (hget'.symm.trans hget)
      exact (exists_contained_framed_iff hrs).2 (haligned r (hrs ▸ by simp))

/-- A list of one 16-bit UUID and a half, and a name behind it. -/
def oddList : List FramedRecord :=
  [⟨0x03, [0x0d, 0x11, 0x01], by decide⟩, ⟨0x09, [0x41], by decide⟩]

theorem framed_not_contained : ¬ ∀ (dev : ScannedDevice) (rs : List FramedRecord)
    (padding : List UInt8), AllContained dev (framed rs padding) := by
  intro h
  obtain ⟨dev', hdev'⟩ := h (ofAddress (Vector.replicate 6 0)) oddList [] (0, _) .refl 4 rfl
    (by decide)
  -- the second element starts at the last byte of the list and takes the next length byte
  have hcursor := parseRecord_cursor (t := 0x03) rfl (by decide) (hdev'.own _ fun _ _ _ ↦ rfl)
  exact absurd hcursor (by decide)

end ScannedDevice

end Esp32A2dpPlayer
