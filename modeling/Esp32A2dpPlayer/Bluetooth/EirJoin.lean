import Esp32A2dpPlayer.Bluetooth.EirFraming

/-!
# Responses one behind the other

What the parser makes of the bytes of one response followed by those of another. It depends on
where the records of the first response end. If they end at a terminator, the second response is
not looked at. If they end with the vector, the second one is parsed on its own, over the device
that the first one leaves. And if the last record claims more than there is, which the types that
are skipped may do, it is the front of the second response that it skips (`parseEir_append`).
-/

namespace Esp32A2dpPlayer

namespace ScannedDevice

variable {dev dev' : ScannedDevice} {eir more : List UInt8} {index len i j : ℕ}

theorem getElem?_append_of_lt (h : index < eir.length) : (eir ++ more)[index]? = eir[index]? :=
  List.getElem?_append_left h

/-- A turn that does not panic reads nothing of what stands behind the vector. -/
theorem parseRecord_append (hlen : 0 < len)
    (h : dev.parseRecord eir index len = some (j, dev')) :
    dev.parseRecord (eir ++ more) index len = some (j, dev') := by
  obtain ⟨t, ht⟩ := exists_type_of_parseRecord h
  have hread : index + 2 + payloadRead t (len - 1) ≤ eir.length :=
    (parseRecord_isSome_iff ht hlen).1 (by rw [h]; rfl)
  have hshift : dev.parseRecord (eir ++ more) (0 + index) len = _ :=
    parseRecord_shift ht hlen fun p _ hp ↦ by
      rw [Nat.zero_add]
      exact getElem?_append_of_lt (by omega)
  rw [Nat.zero_add, h] at hshift
  simpa using hshift

/-- Where the records end, in the terms of the vector alone. -/
def EndsAt (eir : List UInt8) (index i : ℕ) : Prop :=
  Relation.ReflTransGen (NextRecord eir) index i ∧ AtEnd eir i

theorem parseEirFrom_append_of_some (more : List UInt8)
    (h : dev.parseEirFrom eir index = some dev') :
    ∃ i, EndsAt eir index i ∧ dev.parseEirFrom (eir ++ more) index =
      if i < eir.length then some dev' else dev'.parseEirFrom more (i - eir.length) := by
  induction dev, index using turn_induction eir with
  | atEnd dev index hend =>
    rw [parseEirFrom_of_atEnd hend] at h
    cases h
    refine ⟨index, ⟨.refl, hend⟩, ?_⟩
    split
    next hlt =>
      refine parseEirFrom_of_atEnd fun L hL ↦ hend L ?_
      rwa [getElem?_append_of_lt hlt] at hL
    next hge =>
      have hsplit : eir.length + (index - eir.length) = index := by omega
      rw [← hsplit, parseEirFrom_append, hsplit]
  | record dev index L hget hL ih =>
    rw [parseEirFrom_of_record hget hL] at h
    obtain ⟨⟨j, dev₁⟩, hr, h⟩ := Option.bind_eq_some_iff.1 h
    obtain ⟨i, ⟨hturns, hend⟩, hparse⟩ := ih j dev₁ hr h
    have hget' : (eir ++ more)[index]? = some L := by
      rwa [getElem?_append_of_lt (List.getElem?_eq_some_iff.1 hget).1]
    refine ⟨i, ⟨hturns.head (nextRecord_of_parseRecord hget hL hr), hend⟩, ?_⟩
    rw [parseEirFrom_of_record hget' hL, parseRecord_append (toNat_pos_of_ne_zero hL) hr,
      Option.bind_some, hparse]

/-- The records end in one place. -/
theorem EndsAt.unique (h : EndsAt eir index i) (h' : EndsAt eir index j) : i = j := by
  obtain ⟨hi, hend⟩ := h
  obtain ⟨hj, hend'⟩ := h'
  have hstop {a b : ℕ} (ha : AtEnd eir a) (hab : Relation.ReflTransGen (NextRecord eir) a b) :
      a = b := by
    rcases hab.cases_head with rfl | ⟨k, ⟨L, t, hget, hne, -⟩, -⟩
    · rfl
    · exact absurd (ha L hget) hne
  induction hi using Relation.ReflTransGen.head_induction_on with
  | refl => exact hstop hend hj
  | @head a c hac hci ih =>
    rcases hj.cases_head with rfl | ⟨k, hak, hkj⟩
    · exact (hstop hend' (hci.head hac)).symm
    · exact ih (nextRecord_unique hak hac ▸ hkj)

/-- **One response behind another.** For every vector that parses, and wherever its records end:
behind a terminator nothing is parsed, and behind the end of the vector the parse goes on in the
second one, at its front if the records end with the vector. -/
theorem parseEir_append (h : dev.parseEir eir = some dev') (hi : EndsAt eir 0 i)
    (more : List UInt8) : dev.parseEir (eir ++ more) =
      if i < eir.length then some dev' else dev'.parseEirFrom more (i - eir.length) := by
  obtain ⟨j, hj, hparse⟩ := parseEirFrom_append_of_some more h
  rw [hj.unique hi] at hparse
  exact hparse

/-- A transmission power level that claims two bytes and has none. -/
def truncatedPower : List UInt8 := [3, 0x0a]

theorem endsAt_truncatedPower : EndsAt truncatedPower 0 4 := by
  refine ⟨.single ⟨3, 0x0a, rfl, by decide, rfl, rfl⟩, fun L hL ↦ ?_⟩
  cases hL

theorem parseEir_truncatedPower (dev : ScannedDevice) :
    dev.parseEir truncatedPower = some dev := by
  rw [parseEir, parseEirFrom_of_record (L := 3) rfl (by decide),
    parseRecord_skip (t := 0x0a) rfl (by decide) (by decide) (by decide) (by decide)]
  exact parseEirFrom_of_le (show 2 ≤ 4 by decide)

/-- The two bytes that the first response lacks are taken from the second one. -/
theorem parseEir_append_truncatedPower :
    (ofAddress (Vector.replicate 6 1)).parseEir
        (truncatedPower ++ [0x12, 0x34, 0x03, 0x03, 0x0d, 0x11]) =
      (ofAddress (Vector.replicate 6 1)).parseEirFrom [0x12, 0x34, 0x03, 0x03, 0x0d, 0x11] 2 := by
  rw [parseEir_append (parseEir_truncatedPower _) endsAt_truncatedPower]
  rfl

end ScannedDevice

end Esp32A2dpPlayer
