import Desmume.Library.Literals
import Mathlib.Algebra.Order.Ring.Int
import Mathlib.Data.Int.Basic
import Mathlib.Data.Int.Order.Basic
import Mathlib.Order.MinMax
import Mathlib.Tactic.Common
import Mathlib.Tactic.Positivity

/-! Signed words as a range of integers: the conversions to the integer types of C, which sums fit a
word and the word nearest to one that does not, and the division of a host, which has no result for a zero
divisor and for a quotient that the word cannot hold. -/

namespace Desmume.Library

/-! ### The integer types of C -/

def u32 (x : ℤ) : ℕ := (x % 2 ^ 32).toNat

def s32 (x : ℤ) : ℤ := x.bmod (2 ^ 32)

theorem u32_natCast {n : ℕ} (h : n < 2 ^ 32) : u32 n = n := by
  unfold u32
  omega

/-- A difference taken the wrong way round wraps. -/
theorem u32_sub_of_lt {m n : ℕ} (h : m < n) (hn : n ≤ 2 ^ 32) :
    u32 ((m : ℤ) - n) = 2 ^ 32 - (n - m) := by
  unfold u32
  omega

theorem s32_of_fits {x : ℤ} (h0 : -2 ^ 31 ≤ x) (h : x < 2 ^ 31) : s32 x = x :=
  Int.bmod_eq_of_le (by omega) (by omega)

theorem s32_natCast {n : ℕ} (h : n < 2 ^ 31) : s32 n = n := s32_of_fits (by omega) (by omega)

theorem s32_lt (x : ℤ) : s32 x < 2 ^ 31 := by
  have h : x.bmod (2 ^ 32) < (2 ^ 32 + 1) / 2 := Int.bmod_lt (by decide)
  exact Int.lt_of_lt_of_le h (by decide)

/-- A sum above the largest value wraps to a negative one. -/
theorem s32_neg {x : ℤ} (h : 2 ^ 31 ≤ x) (hlt : x < 2 ^ 32) : s32 x < 0 := by
  unfold s32
  rw [Int.bmod_def]
  split_ifs <;> omega

/-! ### Words of any width -/

variable {w : ℕ}

/-- An integer that a signed word holds. -/
def Fits (w : ℕ) (x : ℤ) : Prop := -2 ^ (w - 1) ≤ x ∧ x < 2 ^ (w - 1)

instance (w : ℕ) (x : ℤ) : Decidable (Fits w x) :=
  inferInstanceAs (Decidable (-2 ^ (w - 1) ≤ x ∧ x < 2 ^ (w - 1)))

/-- The signed word nearest to an integer. -/
def saturate (w : ℕ) (x : ℤ) : BitVec w :=
  BitVec.ofInt w (max (-2 ^ (w - 1)) (min x (2 ^ (w - 1) - 1)))

theorem fits_toInt (x : BitVec w) : Fits w x.toInt := ⟨BitVec.le_toInt x, BitVec.toInt_lt⟩

theorem toInt_ofInt_of_fits (hw : 0 < w) {x : ℤ} (h : Fits w x) : (BitVec.ofInt w x).toInt = x :=
  BitVec.toInt_ofInt_eq_self hw h.1 h.2

theorem saturate_of_fits {x : ℤ} (h : Fits w x) : saturate w x = BitVec.ofInt w x := by
  obtain ⟨hlow, hhigh⟩ := h
  rw [saturate, min_eq_left (by omega), max_eq_right hlow]

theorem saturate_of_le {x : ℤ} (h : 2 ^ (w - 1) ≤ x) : saturate w x = BitVec.intMax w := by
  have hpos : (0 : ℤ) < 2 ^ (w - 1) := by positivity
  rw [saturate, min_eq_right (by omega), max_eq_right (by omega), ← BitVec.toInt_intMax,
    BitVec.ofInt_toInt]

theorem saturate_of_lt (hw : 0 < w) {x : ℤ} (h : x < -2 ^ (w - 1)) :
    saturate w x = BitVec.intMin w := by
  have hpos : (0 : ℤ) < 2 ^ (w - 1) := by positivity
  rw [saturate, min_eq_left (by omega), max_eq_left (by omega),
    ← BitVec.toInt_intMin_of_pos hw, BitVec.ofInt_toInt]

/-- The word that an overflowing result with sign bit `b` is replaced by. -/
def limit (w : ℕ) (b : Bool) : BitVec w := if b then BitVec.intMax w else BitVec.intMin w

theorem ofInt_add_two_pow (x : ℤ) : BitVec.ofInt w (x + 2 ^ w) = BitVec.ofInt w x := by
  apply BitVec.eq_of_toNat_eq
  rw [BitVec.toNat_ofInt, BitVec.toNat_ofInt, Int.natCast_pow, Int.cast_ofNat_Int,
    Int.add_emod_right]

/-- A sum of two words that does not fit has the wrong sign. -/
theorem saturate_of_overflow (hw : 0 < w) {x : ℤ} (hlow : -2 ^ w ≤ x) (hhigh : x < 2 ^ w)
    (h : ¬ Fits w x) : saturate w x = limit w (BitVec.ofInt w x).msb := by
  have htwo : (2 : ℤ) ^ w = 2 * 2 ^ (w - 1) := by
    rw [← pow_succ', Nat.sub_add_cancel hw]
  have hpos : (0 : ℤ) < 2 ^ (w - 1) := by positivity
  rw [BitVec.msb_eq_toInt]
  by_cases hge : 2 ^ (w - 1) ≤ x
  · have hword : BitVec.ofInt w x = BitVec.ofInt w (x - 2 ^ w) := by
      rw [← ofInt_add_two_pow (x - 2 ^ w), Int.sub_add_cancel]
    have hint : (BitVec.ofInt w (x - 2 ^ w)).toInt = x - 2 ^ w :=
      toInt_ofInt_of_fits hw ⟨by omega, by omega⟩
    have hneg : x - 2 ^ w < 0 := by omega
    rw [saturate_of_le hge, hword, hint, limit, if_pos (decide_eq_true hneg)]
  · have hlt : x < -2 ^ (w - 1) := by
      by_contra hc
      exact h ⟨by omega, by omega⟩
    have hint : (BitVec.ofInt w (x + 2 ^ w)).toInt = x + 2 ^ w :=
      toInt_ofInt_of_fits hw ⟨by omega, by omega⟩
    have hneg : ¬ x + 2 ^ w < 0 := by omega
    rw [saturate_of_lt hw hlt, ← ofInt_add_two_pow, hint, limit, decide_eq_false hneg]
    rfl

theorem saddOverflow_eq_not_fits (x y : BitVec w) :
    x.saddOverflow y = decide (¬ Fits w (x.toInt + y.toInt)) := by
  rw [BitVec.saddOverflow, ← Bool.decide_or]
  apply decide_eq_decide.mpr
  rw [Fits]
  omega

theorem ssubOverflow_eq_not_fits (x y : BitVec w) :
    x.ssubOverflow y = decide (¬ Fits w (x.toInt - y.toInt)) := by
  rw [BitVec.ssubOverflow, ← Bool.decide_or]
  apply decide_eq_decide.mpr
  rw [Fits]
  omega

/-! ### The division of a host -/

/-- The values of a signed word. -/
def Representable (w : ℕ) (q : ℤ) : Prop := -2 ^ (w - 1) ≤ q ∧ q < 2 ^ (w - 1)

/-- Quotient and remainder of a host's division. -/
def hostDiv (num den : BitVec w) : Option (BitVec w × BitVec w) :=
  if den = 0 then none
  else if num = BitVec.intMin w ∧ den = -1 then none
  else some (num.sdiv den, num.srem den)

/-- A division of words with a remainder that is small and has the sign of the numerator. -/
structure IsDivision (num den quotient remainder : BitVec w) : Prop where
  sum : num = quotient * den + remainder
  small : remainder.toInt.natAbs < den.toInt.natAbs
  sign : remainder ≠ 0 → remainder.toInt.sign = num.toInt.sign

theorem toInt_ne_zero {x : BitVec w} (h : x ≠ 0) : x.toInt ≠ 0 := fun hzero =>
  h (BitVec.eq_of_toInt_eq (hzero.trans BitVec.toInt_zero.symm))

/-- The quotient of two words is out of range for one pair of operands. -/
theorem representable_tdiv_iff (hw : 0 < w) (num den : BitVec w) :
    Representable w (num.toInt.tdiv den.toInt) ↔ ¬ (num = BitVec.intMin w ∧ den = -1) := by
  constructor
  · rintro ⟨-, hlt⟩ ⟨rfl, rfl⟩
    rw [BitVec.toInt_intMin_of_pos hw, show (-1 : BitVec w) = BitVec.allOnes w from
      BitVec.neg_one_eq_allOnes, BitVec.toInt_allOnes, if_pos hw, Int.tdiv_neg, Int.tdiv_one,
      Int.neg_neg] at hlt
    exact absurd hlt (lt_irrefl _)
  · intro h
    rw [← BitVec.toInt_sdiv_of_ne_or_ne _ _ (not_and_or.mp h)]
    exact ⟨BitVec.le_toInt _, BitVec.toInt_lt⟩

theorem isDivision_sdiv {num den : BitVec w} (hden : den ≠ 0)
    (h : ¬ (num = BitVec.intMin w ∧ den = -1)) : IsDivision num den (num.sdiv den) (num.srem den) where
  sum := by
    have hq := BitVec.toInt_sdiv_of_ne_or_ne num den (not_and_or.mp h)
    have hr := BitVec.toInt_srem num den
    have hsum := Int.mul_tdiv_add_tmod num.toInt den.toInt
    calc num = BitVec.ofInt w num.toInt := BitVec.ofInt_toInt.symm
      _ = BitVec.ofInt w ((num.sdiv den).toInt * den.toInt + (num.srem den).toInt) := by
        rw [hq, hr, Int.mul_comm, hsum]
      _ = num.sdiv den * den + num.srem den := by
        rw [BitVec.ofInt_add, BitVec.ofInt_mul, BitVec.ofInt_toInt, BitVec.ofInt_toInt,
          BitVec.ofInt_toInt]
  small := by
    have hpos := Int.natAbs_pos.mpr (toInt_ne_zero hden)
    rw [BitVec.toInt_srem, Int.natAbs_tmod]
    exact Nat.mod_lt _ hpos
  sign := by
    intro hr
    have hne := toInt_ne_zero hr
    rw [BitVec.toInt_srem] at hne ⊢
    rw [Int.sign_tmod]
    split_ifs with hdvd
    · exact absurd (Int.tmod_eq_zero_of_dvd hdvd) hne
    · rfl

end Desmume.Library
