import Desmume.Library.Literals
import Mathlib.Data.Nat.Sqrt
import Mathlib.Tactic.Ring

/-! The square root digit by digit, from the highest binary digit down. -/

namespace Desmume.Library

/-- The root `root` of the digits found so far, shifted by the number of those to come, and what
is left of the radicand. -/
def sqrtDigits : ℕ → ℕ → ℕ → ℕ
  | 0, _, root => root
  | k + 1, remainder, root =>
    if 4 ^ k + root ≤ remainder then sqrtDigits k (remainder - (4 ^ k + root)) (root / 2 + 4 ^ k)
    else sqrtDigits k remainder (root / 2)

/-- Trying the next digit compares the radicand with a square. -/
theorem square_add_digit (a k : ℕ) :
    (a + 2 ^ k) * (a + 2 ^ k) = a * a + (4 ^ k + a * 2 ^ (k + 1)) := by
  rw [show 4 = 2 * 2 from rfl, Nat.mul_pow]
  ring

/-- If `a` is the root up to its last `k` digits then the loop ends with the root. -/
theorem sqrtDigits_eq_sqrt {k a remainder : ℕ}
    (h : a * a + remainder < (a + 2 ^ k) * (a + 2 ^ k)) :
    sqrtDigits k remainder (a * 2 ^ k) = Nat.sqrt (a * a + remainder) := by
  induction k generalizing a remainder with
  | zero =>
    rw [sqrtDigits, Nat.pow_zero, Nat.mul_one]
    exact Nat.eq_sqrt.mpr ⟨Nat.le_add_right .., h⟩
  | succ k ih =>
    have hhalf : a * 2 ^ (k + 1) / 2 = a * 2 ^ k := by
      rw [Nat.pow_succ, ← Nat.mul_assoc, Nat.mul_div_cancel _ Nat.two_pos]
    have hsquare := square_add_digit a k
    rw [sqrtDigits, hhalf]
    split_ifs with hdigit
    · -- the digit is one
      have hroot : a * 2 ^ k + 4 ^ k = (a + 2 ^ k) * 2 ^ k := by
        rw [show 4 = 2 * 2 from rfl, Nat.mul_pow]
        ring
      have hsum : (a + 2 ^ k) * (a + 2 ^ k) + (remainder - (4 ^ k + a * 2 ^ (k + 1))) =
          a * a + remainder := by omega
      have hnext : a + 2 ^ k + 2 ^ k = a + 2 ^ (k + 1) := by
        rw [Nat.pow_succ, Nat.mul_two, Nat.add_assoc]
      rw [hroot, ih (by rwa [hsum, hnext]), hsum]
    · exact ih (by omega)

end Desmume.Library
