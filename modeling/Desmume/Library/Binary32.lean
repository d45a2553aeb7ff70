import Desmume.Library.Literals
import Mathlib.Data.Int.Order.Basic

/-! How numbers of the format binary32 compare, on their bits, and integers as numbers of the
format. -/

namespace Desmume.Library.Binary32

variable {x y : BitVec 32}

def exponent (x : BitVec 32) : BitVec 8 := x.extractLsb' 23 8

def fraction (x : BitVec 32) : BitVec 23 := x.extractLsb' 0 23

def IsFinite (x : BitVec 32) : Prop := exponent x ≠ 255

def IsNaN (x : BitVec 32) : Prop := exponent x = 255 ∧ fraction x ≠ 0

instance : Decidable (IsFinite x) := inferInstanceAs (Decidable (_ ≠ _))

instance : Decidable (IsNaN x) := inferInstanceAs (Decidable (_ ∧ _))

/-- The place of a number among the others: the bits below the sign grow with the magnitude, and
both zeros have the same place. -/
def rank (x : BitVec 32) : ℤ :=
  if x.msb then -((x.setWidth 31).toNat : ℤ) else (x.setWidth 31).toNat

def lt (x y : BitVec 32) : Bool := decide (¬ IsNaN x ∧ ¬ IsNaN y ∧ rank x < rank y)

def eq (x y : BitVec 32) : Bool := decide (¬ IsNaN x ∧ ¬ IsNaN y ∧ rank x = rank y)

/-- `std::min` and `std::max`. -/
def min (x y : BitVec 32) : BitVec 32 := if lt y x then y else x

def max (x y : BitVec 32) : BitVec 32 := if lt x y then y else x

theorem IsFinite.not_isNaN (h : IsFinite x) : ¬ IsNaN x := fun hnan => h hnan.1

theorem lt_of_isFinite (hx : IsFinite x) (hy : IsFinite y) : lt x y = decide (rank x < rank y) :=
  decide_eq_decide.mpr
    ((and_iff_right hx.not_isNaN).trans (and_iff_right hy.not_isNaN))

theorem eq_of_isFinite (hx : IsFinite x) (hy : IsFinite y) : eq x y = decide (rank x = rank y) :=
  decide_eq_decide.mpr
    ((and_iff_right hx.not_isNaN).trans (and_iff_right hy.not_isNaN))

/-! ### Integers -/

/-- To the nearest number of 24 binary digits, between two of them to the even one. -/
def roundNat (m : ℕ) : ℕ :=
  let unit := 2 ^ (m.log2 - 23)
  if unit < 2 * (m % unit) ∨ (2 * (m % unit) = unit ∧ m / unit % 2 = 1) then (m / unit + 1) * unit
  else m / unit * unit

/-- The result of an operation whose exact result is an integer. -/
def roundInt (z : ℤ) : ℤ := z.sign * roundNat z.natAbs

theorem roundNat_of_lt {m : ℕ} (h : m < 2 ^ 24) : roundNat m = m := by
  have hunit : 2 ^ (m.log2 - 23) = 1 := by
    rcases Nat.eq_zero_or_pos m with rfl | hm
    · rfl
    · rw [Nat.sub_eq_zero_of_le (Nat.lt_succ_iff.mp ((Nat.log2_lt (Nat.pos_iff_ne_zero.mp hm)).mpr h)),
        Nat.pow_zero]
  rw [roundNat]
  simp only [hunit, Nat.mod_one, Nat.div_one, Nat.mul_one]
  exact if_neg (by omega)

theorem roundNat_pos {m : ℕ} (h : 0 < m) : 0 < roundNat m := by
  have hunit : 2 ^ (m.log2 - 23) ≤ m :=
    Nat.le_trans (Nat.pow_le_pow_right (by decide) (Nat.sub_le ..))
      (Nat.log2_self_le (Nat.pos_iff_ne_zero.mp h))
  have hpos : 0 < 2 ^ (m.log2 - 23) := Nat.two_pow_pos _
  have hdiv : 0 < m / 2 ^ (m.log2 - 23) := Nat.div_pos hunit hpos
  rw [roundNat]
  split_ifs
  · exact Nat.mul_pos (Nat.succ_pos _) hpos
  · exact Nat.mul_pos hdiv hpos

theorem roundInt_of_lt {z : ℤ} (hlow : -2 ^ 24 < z) (hhigh : z < 2 ^ 24) : roundInt z = z := by
  rw [roundInt, roundNat_of_lt (by omega), Int.sign_mul_natAbs]

theorem roundInt_pos {z : ℤ} (h : 0 < z) : 0 < roundInt z := by
  rw [roundInt, Int.sign_eq_one_of_pos h, Int.one_mul]
  exact Int.natCast_pos.mpr (roundNat_pos (by omega))

theorem roundInt_neg {z : ℤ} (h : z < 0) : roundInt z < 0 := by
  have hpos := roundNat_pos (Int.natAbs_pos.mpr h.ne)
  rw [roundInt, Int.sign_eq_neg_one_of_neg h]
  omega

end Desmume.Library.Binary32
