import Mathlib.Algebra.Order.Ring.Int
import Mathlib.Tactic.Common

set_option autoImplicit false

/-!
# Signed integers of 64 bits

Comparisons and doublings in two's complement, against the integers.

* `toInt_max`, `toInt_min`: the greater and the smaller of two;
* `toInt_toInt64`: an unsigned integer taken for a signed one;
* **`toInt_two_mul`**: a double wraps around, unless it fits (`toInt_two_mul_of_fits`).
-/

namespace Loon.SignedInt

theorem toInt_max (a b : Int64) : (max a b).toInt = max a.toInt b.toInt := by
  show (if a ≤ b then b else a).toInt = _
  simp only [Int64.le_iff_toInt_le, Int.max_def]
  split <;> rfl

theorem toInt_min (a b : Int64) : (min a b).toInt = min a.toInt b.toInt := by
  show (if a ≤ b then a else b).toInt = _
  simp only [Int64.le_iff_toInt_le, Int.min_def]
  split <;> rfl

theorem toInt_toInt64 (n : UInt64) : n.toInt64.toInt = (n.toNat : Int).bmod (2 ^ 64) := by
  show n.toBitVec.toInt = _
  rw [BitVec.toInt_eq_toNat_bmod]
  rfl

theorem toInt_two_mul (a : Int64) : (2 * a).toInt = (2 * a.toInt).bmod (2 ^ 64) := by
  have h2 : (2 : Int64).toInt = 2 := rfl
  rw [Int64.toInt_mul, h2]

theorem toInt_two_mul_of_fits {a : Int64} (h0 : 0 ≤ a.toInt) (h : 2 * a.toInt < 2 ^ 63) :
    (2 * a).toInt = 2 * a.toInt := by
  rw [toInt_two_mul, Int.bmod_eq_of_le (by omega) (by omega)]

/-- The double of an unsigned integer that is taken for a signed one. -/
theorem toInt_two_mul_toInt64 (n : UInt64) :
    (2 * n.toInt64).toInt = (2 * (n.toNat : Int)).bmod (2 ^ 64) := by
  rw [toInt_two_mul, toInt_toInt64, Int.mul_bmod_bmod]

end Loon.SignedInt
