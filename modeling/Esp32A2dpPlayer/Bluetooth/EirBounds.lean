import Esp32A2dpPlayer.Bluetooth.GapHal
import Mathlib.Logic.Relation

/-!
# Which byte vectors the EIR parser survives

The parser tests its cursor against the end of the vector at the head of the outer loop only.
Everything behind that test — the type byte, the elements of a UUID list, the slice of a name —
is read unchecked, so whether it panics is a property of the bytes alone, stated here without
the parser:

* `NextRecord eir i j`: a record head at `i` hands over to one at `j`. UUID lists move the
  cursor by whole elements, so the step is the payload length **rounded up** for them.
* `RecordFits eir i`: the record at `i` has its type byte, and what its type makes the parser
  read ends inside the vector. Types the parser skips may run past the end.

`parseEir_isSome_iff` says that a parse returns exactly when every record reached from the
front fits.
-/

namespace Esp32A2dpPlayer

/-- How far the cursor moves over a payload of declared length `n`. -/
def payloadSpan (t : UInt8) (n : ℕ) : ℕ :=
  if t = 0x03 then ByteCodec.u16le.span n
  else if t = 0x05 then ByteCodec.u32le.span n
  else n

/-- How many bytes of a payload of declared length `n` are read. -/
def payloadRead (t : UInt8) (n : ℕ) : ℕ :=
  if t = 0x03 then ByteCodec.u16le.span n
  else if t = 0x05 then ByteCodec.u32le.span n
  else if t = 0x09 then n
  else 0

/-- The record head that follows the one at `i`. -/
def NextRecord (eir : List UInt8) (i j : ℕ) : Prop :=
  ∃ L t, eir[i]? = some L ∧ L ≠ 0 ∧ eir[i + 1]? = some t ∧
    j = i + 2 + payloadSpan t (L.toNat - 1)

/-- A record at `i`, if there is one, has a type byte and its read payload inside the
vector. -/
def RecordFits (eir : List UInt8) (i : ℕ) : Prop :=
  ∀ L, eir[i]? = some L → L ≠ 0 →
    ∃ t, eir[i + 1]? = some t ∧ i + 2 + payloadRead t (L.toNat - 1) ≤ eir.length

theorem toNat_pos_of_ne_zero {L : UInt8} (h : L ≠ 0) : 0 < L.toNat :=
  Nat.pos_of_ne_zero fun h0 ↦ h (UInt8.toNat_inj.1 h0)

/-- The length byte of a record whose payload fits. -/
theorem toNat_lengthByte_of_le {n : ℕ} (h : n ≤ 254) : (UInt8.ofNat (n + 1)).toNat = n + 1 := by
  rw [UInt8.toNat_ofNat']
  exact Nat.mod_eq_of_lt (by omega)

theorem lengthByte_ne_zero_of_le {n : ℕ} (h : n ≤ 254) : UInt8.ofNat (n + 1) ≠ 0 := by
  intro hzero
  have := toNat_lengthByte_of_le h
  rw [hzero] at this
  exact absurd this (by simp)

namespace ScannedDevice

variable {dev dev' : ScannedDevice} {eir : List UInt8} {index len j : ℕ} {t : UInt8}

/-! ### One record, by type -/

theorem parseRecord_of_none (h : eir[index + 1]? = none) :
    dev.parseRecord eir index len = none := by
  rw [parseRecord, h]
  rfl

/-- A turn that does not panic has found the type byte of its record. -/
theorem exists_type_of_parseRecord (h : dev.parseRecord eir index len = some (j, dev')) :
    ∃ t, eir[index + 1]? = some t := by
  rcases ht : eir[index + 1]? with - | t
  · rw [parseRecord_of_none ht] at h
    cases h
  · exact ⟨t, rfl⟩

theorem parseRecord_uuids16 (h : eir[index + 1]? = some 0x03) :
    dev.parseRecord eir index len =
      (ByteCodec.u16le.decodeUntil eir (index + 2) (index + 1 + len)).map fun r ↦
        (r.1, { dev with complete16BitServiceClassUuids := some r.2 }) := by
  rw [parseRecord, h, Option.map_eq_bind]
  show (ByteCodec.u16le.decodeUntil eir (index + 2) (index + 1 + len)).bind _ = _
  rfl

theorem parseRecord_uuids32 (h : eir[index + 1]? = some 0x05) :
    dev.parseRecord eir index len =
      (ByteCodec.u32le.decodeUntil eir (index + 2) (index + 1 + len)).map fun r ↦
        (r.1, { dev with complete32BitServiceClassUuids := some r.2 }) := by
  rw [parseRecord, h, Option.map_eq_bind]
  show (ByteCodec.u32le.decodeUntil eir (index + 2) (index + 1 + len)).bind _ = _
  rfl

theorem parseRecord_name (h : eir[index + 1]? = some 0x09) :
    dev.parseRecord eir index len =
      (slice eir (index + 2) (index + 2 + len - 1)).map fun payload ↦
        (index + 2 + (len - 1),
          { dev with name := (stringFromUtf8 payload).or dev.name }) := by
  rw [parseRecord, h]
  show (slice eir (index + 2) (index + 2 + len - 1)).bind _ = _
  rw [Option.map_eq_bind]
  refine congrArg _ (funext fun payload ↦ ?_)
  rcases hs : stringFromUtf8 payload with - | s <;> simp [hs]

/-- Every other type is skipped, assigned or not. -/
theorem parseRecord_skip (h : eir[index + 1]? = some t) (hlen : 0 < len) (h16 : t ≠ 0x03)
    (h32 : t ≠ 0x05) (hname : t ≠ 0x09) :
    dev.parseRecord eir index len = some (index + 2 + (len - 1), dev) := by
  rw [parseRecord, h]
  dsimp only [Option.bind_eq_bind, Option.bind_some]
  split
  next typ hty =>
    have htyp := CommonDataType.fromU8_eq_some_iff.1 hty
    cases typ <;> first | rfl | exact absurd htyp.symm ‹_›
  · show some (index + 1 + len, dev) = _
    rw [show index + 1 + len = index + 2 + (len - 1) by omega]

theorem slice_isSome_iff {bytes : List UInt8} {start stop : ℕ} :
    (slice bytes start stop).isSome ↔ start ≤ stop ∧ stop ≤ bytes.length := by
  unfold slice
  split <;> simp_all

/-! ### A turn over a list of UUIDs

The loop over the UUIDs runs from behind the type byte up to `record_start + len`. -/

section UuidList

variable {β : Type*} (c : ByteCodec β) {store : ℕ × List β → ScannedDevice}

theorem uuidList_cursor (hlen : 0 < len)
    (h : (c.decodeUntil eir (index + 2) (index + 1 + len)).map (fun r ↦ (r.1, store r)) =
      some (j, dev')) : j = index + 2 + c.span (len - 1) := by
  have hstop : index + 1 + len - (index + 2) = len - 1 := by omega
  obtain ⟨⟨last, us⟩, hdec, heq⟩ := Option.map_eq_some_iff.1 h
  have hlast := c.decodeUntil_index hdec
  rw [hstop] at hlast
  rw [← hlast, ← (Prod.mk.inj heq).1]

theorem uuidList_isSome_iff (htype : index + 2 ≤ eir.length) (hlen : 0 < len) :
    ((c.decodeUntil eir (index + 2) (index + 1 + len)).map fun r ↦ (r.1, store r)).isSome ↔
      index + 2 + c.span (len - 1) ≤ eir.length := by
  have hstop : index + 1 + len - (index + 2) = len - 1 := by omega
  rw [Option.isSome_map, c.decodeUntil_isSome_iff, hstop,
    show index + 2 < index + 1 + len ↔ 0 < len - 1 by omega]
  -- an empty list reads nothing, and the type byte is inside already
  rcases Nat.eq_zero_or_pos (len - 1) with hz | hpos
  · simpa [hz] using htype
  · simp only [hpos, forall_const]

variable {c} in
theorem uuidList_shift (hc : c.IsLocal) {eir' : List UInt8} {k : ℕ} (hlen : 0 < len)
    (hstore : ∀ n us, store (k + n, us) = store (n, us))
    (h : ∀ p, index + 2 ≤ p → p < index + 2 + c.span (len - 1) → eir'[k + p]? = eir[p]?) :
    (c.decodeUntil eir' (k + index + 2) (k + index + 1 + len)).map (fun r ↦ (r.1, store r)) =
      ((c.decodeUntil eir (index + 2) (index + 1 + len)).map fun r ↦ (r.1, store r)).map
        fun r ↦ (k + r.1, r.2) := by
  have hstop : index + 1 + len - (index + 2) = len - 1 := by omega
  have hdec := ByteCodec.decodeUntil_shift hc (hstop ▸ h)
  rw [show k + index + 2 = k + (index + 2) by omega,
    show k + index + 1 + len = k + (index + 1 + len) by omega, hdec, Option.map_map,
    Option.map_map]
  exact congrArg (Option.map · _) (funext fun r ↦ Prod.ext rfl (hstore r.1 r.2))

end UuidList

/-! ### One record -/

/-- Where a record leaves the cursor. -/
theorem parseRecord_cursor (ht : eir[index + 1]? = some t) (hlen : 0 < len)
    (h : dev.parseRecord eir index len = some (j, dev')) :
    j = index + 2 + payloadSpan t (len - 1) := by
  unfold payloadSpan
  by_cases h16 : t = 0x03
  · subst h16
    rw [parseRecord_uuids16 ht] at h
    exact uuidList_cursor ByteCodec.u16le hlen h
  by_cases h32 : t = 0x05
  · subst h32
    rw [parseRecord_uuids32 ht] at h
    exact uuidList_cursor ByteCodec.u32le hlen h
  rw [if_neg h16, if_neg h32]
  by_cases hname : t = 0x09
  · subst hname
    rw [parseRecord_name ht] at h
    obtain ⟨payload, -, heq⟩ := Option.map_eq_some_iff.1 h
    exact (Prod.mk.inj heq).1.symm
  · rw [parseRecord_skip ht hlen h16 h32 hname] at h
    exact (Prod.mk.inj (Option.some.inj h)).1.symm

/-- **One record.** With its type byte there, a turn of the loop panics exactly when a byte of
the payload it reads is missing. -/
theorem parseRecord_isSome_iff (ht : eir[index + 1]? = some t) (hlen : 0 < len) :
    (dev.parseRecord eir index len).isSome ↔
      index + 2 + payloadRead t (len - 1) ≤ eir.length := by
  have htype : index + 2 ≤ eir.length := (List.getElem?_eq_some_iff.1 ht).1
  unfold payloadRead
  by_cases h16 : t = 0x03
  · subst h16
    rw [parseRecord_uuids16 ht, if_pos rfl]
    exact uuidList_isSome_iff ByteCodec.u16le htype hlen
  by_cases h32 : t = 0x05
  · subst h32
    rw [parseRecord_uuids32 ht, if_neg h16, if_pos rfl]
    exact uuidList_isSome_iff ByteCodec.u32le htype hlen
  rw [if_neg h16, if_neg h32]
  by_cases hname : t = 0x09
  · subst hname
    rw [parseRecord_name ht, Option.isSome_map, slice_isSome_iff, if_pos rfl]
    omega
  · rw [parseRecord_skip ht hlen h16 h32 hname, if_neg hname]
    simpa using htype

/-! ### The whole vector -/

/-- At the end of the vector and at a terminator there is no record, here or later. -/
theorem recordFits_of_atEnd (h : AtEnd eir index) (hj : Relation.ReflTransGen (NextRecord eir)
    index j) : RecordFits eir j := by
  rcases hj.cases_head with rfl | ⟨k, ⟨L, t, hget, hne, -⟩, -⟩
  · exact fun L hget hne ↦ absurd (h L hget) hne
  · exact absurd (h L hget) hne

/-- A record hands over to one other head. -/
theorem nextRecord_unique {k : ℕ} (hj : NextRecord eir index j) (hk : NextRecord eir index k) :
    j = k := by
  obtain ⟨L, t, hget, -, ht, rfl⟩ := hj
  obtain ⟨L', t', hget', -, ht', rfl⟩ := hk
  rw [hget] at hget'
  rw [ht] at ht'
  cases hget'
  cases ht'
  rfl

/-- A turn survives a record that fits, and hands over to the next one. -/
theorem parseRecord_isSome_iff_recordFits {L : UInt8} (hget : eir[index]? = some L)
    (hL : L ≠ 0) : (dev.parseRecord eir index L.toNat).isSome ↔ RecordFits eir index := by
  have hlen := toNat_pos_of_ne_zero hL
  rcases ht : eir[index + 1]? with - | t
  · rw [parseRecord_of_none ht]
    refine iff_of_false (by simp) fun h ↦ ?_
    obtain ⟨t, ht', -⟩ := h L hget hL
    rw [ht] at ht'
    cases ht'
  · rw [parseRecord_isSome_iff ht hlen]
    constructor
    · intro hle L' hget' _
      rw [hget] at hget'
      cases hget'
      exact ⟨t, ht, hle⟩
    · intro h
      obtain ⟨t', ht', hle⟩ := h L hget hL
      rw [ht] at ht'
      cases ht'
      exact hle

theorem nextRecord_of_parseRecord {L : UInt8} (hget : eir[index]? = some L) (hL : L ≠ 0)
    (hr : dev.parseRecord eir index L.toNat = some (j, dev')) : NextRecord eir index j := by
  obtain ⟨t, ht⟩ := exists_type_of_parseRecord hr
  exact ⟨L, t, hget, hL, ht, parseRecord_cursor ht (toNat_pos_of_ne_zero hL) hr⟩

/-- A parse from a record head returns exactly when every head from there on fits. -/
theorem parseEirFrom_isSome_iff : (dev.parseEirFrom eir index).isSome ↔
    ∀ j, Relation.ReflTransGen (NextRecord eir) index j → RecordFits eir j := by
  induction dev, index using turn_induction eir with
  | atEnd dev index hend =>
    rw [parseEirFrom_of_atEnd hend]
    exact iff_of_true rfl fun j hj ↦ recordFits_of_atEnd hend hj
  | record dev index L hget hL ih =>
    have hfits : (dev.parseRecord eir index L.toNat).isSome ↔ RecordFits eir index :=
      parseRecord_isSome_iff_recordFits hget hL
    rw [parseEirFrom_of_record hget hL]
    rcases hr : dev.parseRecord eir index L.toNat with - | ⟨j, dev'⟩
    · rw [hr] at hfits
      exact iff_of_false (by simp) fun h ↦ absurd (hfits.2 (h index .refl)) (by simp)
    · have hnext := nextRecord_of_parseRecord hget hL hr
      rw [hr] at hfits
      rw [Option.bind_some, ih j dev' hr]
      constructor
      · intro h k hk
        rcases hk.cases_head with rfl | ⟨m, hm, hmk⟩
        · exact hfits.1 rfl
        · exact h k (nextRecord_unique hm hnext ▸ hmk)
      · intro h k hk
        exact h k (hk.head hnext)

/-- **The parser returns exactly on the vectors whose records all fit.** -/
theorem addProperty_eir_isSome_iff (dev : ScannedDevice) (eir : List UInt8) :
    (dev.addProperty (.eir eir)).isSome ↔
      ∀ i, Relation.ReflTransGen (NextRecord eir) 0 i → RecordFits eir i :=
  parseEirFrom_isSome_iff

/-- A length byte as the last byte of the vector makes the parser read behind the end. -/
theorem addProperty_eir_panics :
    ¬ ∀ (dev : ScannedDevice) (eir : List UInt8), (dev.addProperty (.eir eir)).isSome := by
  intro h
  have hnone : (ofAddress (Vector.replicate 6 0)).addProperty (.eir [0x01]) = none := by
    show parseEirFrom _ _ 0 = none
    rw [parseEirFrom_of_record (L := 0x01) rfl (by decide), parseRecord_of_none rfl]
    rfl
  exact absurd (h _ _) (by rw [hnone]; decide)

end ScannedDevice

end Esp32A2dpPlayer
