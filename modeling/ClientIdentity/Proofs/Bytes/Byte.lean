import ClientIdentity.Bytes
import Mathlib.Algebra.Ring.Nat
import Mathlib.Data.List.Basic

namespace ClientIdentity.Bytes

/-- A property holds of every byte if it holds of 16 * i + j for all i and j below 16. Two nested
decisions of 16 cases stay shallow where one of 256 does not. -/
theorem forall_byte {P : UInt8 → Prop}
    (h : ∀ high < 16, ∀ low < 16, P (UInt8.ofNat (16 * high + low))) (b : UInt8) : P b := by
  have hb := b.toNat_lt
  have hbyte := h (b.toNat / 16) (by omega) (b.toNat % 16) (by omega)
  rwa [Nat.div_add_mod, UInt8.ofNat_toNat] at hbyte

theorem toNat_toUInt8 {n : Nat} (h : n < 256) : n.toUInt8.toNat = n := by
  simp [Nat.mod_eq_of_lt h]

theorem toUInt8_toNat (b : UInt8) : b.toNat.toUInt8 = b := by
  simp

/-- `ofNat width n` has `width` digits. -/
theorem length_ofNat (width n : Nat) : (ofNat width n).length = width := by
  induction width generalizing n with
  | zero => rfl
  | succ width ih => rw [ofNat, List.length_append, ih, List.length_singleton]

theorem toNat_concat (digits : Bytes) (digit : UInt8) :
    toNat (digits ++ [digit]) = toNat digits * 256 + digit.toNat := by
  rw [toNat, List.foldl_append]
  rfl

/-- `toNat` reads the `width` digits of a number as the number modulo a power of 256. -/
theorem toNat_ofNat (width n : Nat) : toNat (ofNat width n) = n % 256 ^ width := by
  induction width generalizing n with
  | zero => rw [Nat.pow_zero, Nat.mod_one]; rfl
  | succ width ih =>
    have hdigit : n.toUInt8.toNat = n % 256 := by simp
    rw [ofNat, toNat_concat, ih, hdigit, Nat.pow_succ', Nat.mod_mul]
    omega

theorem toNat_zero_cons (digits : Bytes) : toNat (0 :: digits) = toNat digits := rfl

/-- `toNat` ignores leading zeros. -/
theorem toNat_dropWhile_zero (digits : Bytes) : toNat (digits.dropWhile (· == 0)) = toNat digits := by
  induction digits with
  | nil => rfl
  | cons digit digits ih =>
    by_cases hzero : digit = 0
    · rw [hzero, List.dropWhile_cons_of_pos rfl, ih, toNat_zero_cons]
    · rw [List.dropWhile_cons_of_neg (by simpa using hzero)]

theorem toNat_minimal (n : Nat) : toNat (minimal n) = n := by
  rw [minimal, toNat_dropWhile_zero, toNat_ofNat]
  apply Nat.mod_eq_of_lt
  calc n < 2 ^ (n.log2 + 1) := Nat.lt_log2_self
    _ ≤ 2 ^ (8 * (n.log2 / 8 + 1)) := Nat.pow_le_pow_right (by decide) (by omega)
    _ = 256 ^ (n.log2 / 8 + 1) := Nat.pow_mul 2 8 _

end ClientIdentity.Bytes
