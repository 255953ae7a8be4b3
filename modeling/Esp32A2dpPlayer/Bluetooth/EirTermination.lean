import Esp32A2dpPlayer.Bluetooth.EirFraming

/-!
# Progress of the EIR parser

The loop of `parse_eir` has no counter: where the next turn starts is up to the bytes. The
cursor behind a turn is at the end of the record or, after a UUID list, less than one UUID past
it (`overshoot_of_turn`). It never stands still, so no record is parsed twice, and a vector of
`n` bytes takes at most `n / 2 + 1` turns (`parseEir_terminates`).

`parseEirWithin` is the loop with a count of the turns it may still take. It is a recursion on
that count, so it says nothing about termination by itself; that the count suffices is the
theorem.
-/

namespace Esp32A2dpPlayer

namespace ScannedDevice

variable {dev dev' : ScannedDevice} {eir : List UInt8} {i j : ℕ} {L t : UInt8}

/-- Where a turn at `i` over a record of type `t` and length byte `L` may leave the cursor. -/
structure Overshoot (t : UInt8) (i L j : ℕ) : Prop where
  ge : i + 1 + L ≤ j
  le : j ≤ i + 1 + L + 3
  other : t ≠ 0x03 → t ≠ 0x05 → j = i + 1 + L
  uuids16 : t = 0x03 → j ≤ i + 1 + L + 1
  uuids32 : t = 0x05 → j ≤ i + 1 + L + 3

/-- The loop of `parse_eir` with at most `turns` turns; `none` where they do not suffice. -/
def parseEirWithin (turns : ℕ) (dev : ScannedDevice) (eir : List UInt8) (index : ℕ) :
    Option (Option ScannedDevice) :=
  if h : index < eir.length then
    match turns with
    | 0 => none
    | turns + 1 =>
      let len := eir[index].toNat
      if len = 0 then some (some dev)
      else
        match dev.parseRecord eir index len with
        | some (j, dev') => parseEirWithin turns dev' eir j
        | none => some none
  else some (some dev)

/-! ### One turn -/

/-- **The overshoot of a turn.** -/
theorem overshoot_of_turn {len : ℕ} (hlen : 0 < len) (ht : eir[i + 1]? = some t)
    (h : dev.parseRecord eir i len = some (j, dev')) : Overshoot t i len j := by
  have hcursor := parseRecord_cursor ht hlen h
  have h16 := ByteCodec.u16le.le_span (len - 1)
  have h16' : ByteCodec.u16le.span (len - 1) < len - 1 + 2 := ByteCodec.u16le.span_lt (len - 1)
  have h32 := ByteCodec.u32le.le_span (len - 1)
  have h32' : ByteCodec.u32le.span (len - 1) < len - 1 + 4 := ByteCodec.u32le.span_lt (len - 1)
  unfold payloadSpan at hcursor
  split_ifs at hcursor with ht16 ht32
  · exact ⟨by omega, by omega, fun hne _ ↦ absurd ht16 hne, fun _ ↦ by omega, fun _ ↦ by omega⟩
  · exact ⟨by omega, by omega, fun _ hne ↦ absurd ht32 hne, fun heq ↦ absurd heq ht16,
      fun _ ↦ by omega⟩
  · exact ⟨by omega, by omega, fun _ _ ↦ by omega, fun heq ↦ absurd heq ht16,
      fun heq ↦ absurd heq ht32⟩

/-- A turn moves the cursor by two places or more. -/
theorem add_two_le_of_turn {s s' : ℕ × ScannedDevice} (h : Turn eir s s') : s.1 + 2 ≤ s'.1 := by
  obtain ⟨L, hget, hL, hr⟩ := h
  obtain ⟨t, ht⟩ := exists_type_of_parseRecord hr
  have hpos := toNat_pos_of_ne_zero hL
  have hge := (overshoot_of_turn hpos ht hr).ge
  omega

/-! ### All turns -/

theorem add_two_le_of_turns {s s' : ℕ × ScannedDevice}
    (h : Relation.TransGen (Turn eir) s s') : s.1 + 2 ≤ s'.1 := by
  induction h with
  | single hturn => exact add_two_le_of_turn hturn
  | tail _ hturn ih =>
    have hle := add_two_le_of_turn hturn
    omega

/-- As many turns suffice as there are pairs of bytes ahead, the last one perhaps broken. -/
theorem parseEirWithin_eq {turns index : ℕ} (h : eir.length ≤ index + 2 * turns) :
    dev.parseEirWithin turns eir index = some (dev.parseEirFrom eir index) := by
  induction turns generalizing dev index with
  | zero =>
    rw [parseEirWithin, dif_neg (by omega), parseEirFrom_of_le (by omega)]
  | succ turns ih =>
    rw [parseEirWithin]
    by_cases hlt : index < eir.length
    · have hget : eir[index]? = some eir[index] := List.getElem?_eq_getElem hlt
      rw [dif_pos hlt]
      dsimp only
      by_cases hzero : eir[index].toNat = 0
      · have hz : eir[index] = 0 := UInt8.toNat_inj.1 hzero
        rw [if_pos hzero, parseEirFrom_of_zero (hget.trans (congrArg some hz))]
      · have hL : eir[index] ≠ 0 := fun hz ↦ hzero (congrArg UInt8.toNat hz)
        rw [if_neg hzero, parseEirFrom_of_record hget hL]
        rcases hr : dev.parseRecord eir index eir[index].toNat with - | ⟨j, dev'⟩
        · rfl
        · have hturn : Turn eir (index, dev) (j, dev') := ⟨eir[index], hget, hL, hr⟩
          have hle : index + 2 ≤ j := add_two_le_of_turn hturn
          exact ih (by omega)
    · rw [dif_neg hlt, parseEirFrom_of_le (by omega)]

/-- **The parser terminates on every byte vector.** A turn that does not panic ends at most the
rest of one UUID past its record, so the cursor moves by two places or more from turn to turn
and never comes back; and `eir.len() / 2 + 1` turns are enough for the parse to return or
panic. -/
theorem parseEir_terminates (eir : List UInt8) :
    (∀ (dev dev' : ScannedDevice) (i j : ℕ) (L : UInt8), eir[i]? = some L → L ≠ 0 →
      dev.parseRecord eir i L.toNat = some (j, dev') →
        i + 2 ≤ j ∧ ∃ t, eir[i + 1]? = some t ∧ Overshoot t i L.toNat j) ∧
      (∀ s s', Relation.TransGen (Turn eir) s s' → s.1 + 2 ≤ s'.1) ∧
      ∀ dev : ScannedDevice, dev.parseEirWithin (eir.length / 2 + 1) eir 0 =
        some (dev.parseEir eir) := by
  refine ⟨?_, fun s s' h ↦ add_two_le_of_turns h, fun dev ↦ parseEirWithin_eq (by omega)⟩
  intro dev dev' i j L hget hL hr
  obtain ⟨t, ht⟩ := exists_type_of_parseRecord hr
  have hturn : Turn eir (i, dev) (j, dev') := ⟨L, hget, hL, hr⟩
  exact ⟨add_two_le_of_turn hturn, t, ht, overshoot_of_turn (toNat_pos_of_ne_zero hL) ht hr⟩

end ScannedDevice

end Esp32A2dpPlayer
