import Mathlib.Data.Nat.Bitwise

/-!
# Bit fields of a word

A word that packs several numbers is taken apart by shifts and masks and put together by shifts
and ors. `bits` is a field as a number, by division and remainder, and the lemmas turn each of
the three operations into arithmetic, where `omega` can follow.
-/

namespace WordFields

/-- The number in the `w` bits of `n` from bit `k` on. -/
def bits (n k w : ℕ) : ℕ := n / 2 ^ k % 2 ^ w

theorem shiftRight_and_mask (n k w : ℕ) : n >>> k &&& 2 ^ w - 1 = bits n k w := by
  rw [Nat.and_two_pow_sub_one_eq_mod, Nat.shiftRight_eq_div_pow, bits]

/-- A mask in place keeps the field where it is. -/
theorem and_mask_shiftLeft (n k w : ℕ) : n &&& (2 ^ w - 1) <<< k = bits n k w <<< k := by
  apply Nat.eq_of_testBit_eq
  intro i
  rw [← shiftRight_and_mask]
  simp only [Nat.testBit_and, Nat.testBit_shiftLeft, Nat.testBit_shiftRight,
    Nat.testBit_two_pow_sub_one]
  by_cases h : k ≤ i
  · simp [h, Nat.add_sub_cancel' h]
  · simp [h]

/-- A field that is put above the bits already there is added to them. -/
theorem shiftLeft_or {b k : ℕ} (h : b < 2 ^ k) (a : ℕ) : a <<< k ||| b = a * 2 ^ k + b := by
  rw [← Nat.shiftLeft_add_eq_or_of_lt h, Nat.shiftLeft_eq]

/-- A shift that keeps all bits of a field of `w` bits. -/
theorem toNat_shiftLeft_of_lt {a k : UInt32} {w : ℕ} (ha : a.toNat < 2 ^ w) (hk : k.toNat < 32)
    (hw : w + k.toNat ≤ 32) : (a <<< k).toNat = a.toNat <<< k.toNat := by
  have hlt : a.toNat * 2 ^ k.toNat < 2 ^ 32 :=
    calc a.toNat * 2 ^ k.toNat
        < 2 ^ w * 2 ^ k.toNat := Nat.mul_lt_mul_of_pos_right ha (Nat.two_pow_pos _)
      _ = 2 ^ (w + k.toNat) := (Nat.pow_add ..).symm
      _ ≤ 2 ^ 32 := Nat.pow_le_pow_right (by decide) hw
  rw [UInt32.toNat_shiftLeft, Nat.mod_eq_of_lt hk, Nat.mod_eq_of_lt]
  rwa [Nat.shiftLeft_eq]

end WordFields
