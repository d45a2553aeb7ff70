import Desmume.Library.Literals
import Mathlib.Data.List.Basic
import Mathlib.Tactic.Ring

/-! Parts of words: fields that are read out into bytes, and parts of a variable that are overwritten
in place. -/

namespace Desmume.Library

variable {w m n : ℕ}

/-- A field of a word, stored in a byte. -/
def bits (x : BitVec w) (lo n : ℕ) : BitVec 8 := (x.extractLsb' lo n).setWidth 8

/-- A word with the part from bit `lo` on overwritten. -/
def patch (x : BitVec w) (lo : ℕ) (y : BitVec n) : BitVec w :=
  (x &&& ~~~((BitVec.allOnes n).setWidth w <<< lo)) ||| y.setWidth w <<< lo

theorem getLsbD_bits (x : BitVec w) (lo n : ℕ) {i : ℕ} (hi : i < 8) :
    (bits x lo n).getLsbD i = (decide (i < n) && x.getLsbD (lo + i)) := by
  rw [bits, BitVec.getLsbD_setWidth, BitVec.getLsbD_extractLsb', decide_eq_true hi, Bool.true_and]

theorem bits_append_low (hi : BitVec m) (low : BitVec n) {lo k : ℕ} (h : lo + k ≤ n) :
    bits (hi ++ low) lo k = bits low lo k := by
  apply BitVec.eq_of_getLsbD_eq
  intro i hi8
  rw [getLsbD_bits _ _ _ hi8, getLsbD_bits _ _ _ hi8, BitVec.getLsbD_append]
  by_cases hk : i < k
  · rw [if_pos (by omega)]
  · rw [decide_eq_false hk, Bool.false_and, Bool.false_and]

theorem bits_append_high (hi : BitVec m) (low : BitVec n) (lo k : ℕ) :
    bits (hi ++ low) (n + lo) k = bits hi lo k := by
  apply BitVec.eq_of_getLsbD_eq
  intro i hi8
  rw [getLsbD_bits _ _ _ hi8, getLsbD_bits _ _ _ hi8, BitVec.getLsbD_append, if_neg (by omega)]
  congr 2
  omega

theorem bits_lt (x : BitVec w) (lo : ℕ) {k : ℕ} (hk : k ≤ 8) : (bits x lo k).toNat < 2 ^ k := by
  have hlt := (x.extractLsb' lo k).isLt
  have hpow : 2 ^ k ≤ 2 ^ 8 := Nat.pow_le_pow_right (by decide) hk
  rw [bits, BitVec.toNat_setWidth, Nat.mod_eq_of_lt (Nat.lt_of_lt_of_le hlt hpow)]
  exact hlt

theorem getLsbD_patch (x : BitVec w) (lo : ℕ) (y : BitVec n) {i : ℕ} (hi : i < w) :
    (patch x lo y).getLsbD i = if lo ≤ i ∧ i < lo + n then y.getLsbD (i - lo) else x.getLsbD i := by
  rw [patch, BitVec.getLsbD_or, BitVec.getLsbD_and, BitVec.getLsbD_not, BitVec.getLsbD_shiftLeft,
    BitVec.getLsbD_shiftLeft, BitVec.getLsbD_setWidth, BitVec.getLsbD_setWidth,
    BitVec.getLsbD_allOnes]
  have hsub : i - lo < w := by omega
  by_cases hlo : lo ≤ i
  · have hno : ¬ i < lo := Nat.not_lt_of_le hlo
    by_cases hn : i < lo + n
    · have hlt : i - lo < n := by omega
      simp [hi, hlo, hno, hn, hsub, hlt]
    · have hge : ¬ i - lo < n := by omega
      have hzero : y.getLsbD (i - lo) = false := BitVec.getLsbD_of_ge y _ (by omega)
      simp [hi, hlo, hn, hsub, hge, hzero]
  · have hlt : i < lo := by omega
    simp [hi, hlo, hlt]

/-- A part that is overwritten piece by piece. -/
theorem patch_append (x : BitVec w) (lo : ℕ) (hi : BitVec m) (low : BitVec n) :
    patch x lo (hi ++ low) = patch (patch x lo low) (lo + n) hi := by
  apply BitVec.eq_of_getLsbD_eq
  intro i hw
  rw [getLsbD_patch _ _ _ hw, getLsbD_patch _ _ _ hw, getLsbD_patch _ _ _ hw,
    BitVec.getLsbD_append]
  by_cases hlo : lo ≤ i
  · by_cases hn : i < lo + n
    · rw [if_pos (by omega), if_pos (by omega), if_neg (by omega), if_pos (by omega)]
    · by_cases hm : i < lo + n + m
      · rw [if_pos (by omega), if_neg (by omega), if_pos (by omega)]
        congr 1
        omega
      · rw [if_neg (by omega), if_neg (by omega), if_neg (by omega)]
  · rw [if_neg (by omega), if_neg (by omega), if_neg (by omega)]

/-- The two parts of a word are put together in a wider one. -/
theorem setWidth_append_eq_or (hi : BitVec m) (low : BitVec n) (w : ℕ) :
    (hi ++ low).setWidth w = low.setWidth w ||| hi.setWidth w <<< n := by
  apply BitVec.eq_of_getLsbD_eq
  intro i hw
  rw [BitVec.getLsbD_or, BitVec.getLsbD_setWidth, BitVec.getLsbD_setWidth,
    BitVec.getLsbD_shiftLeft, BitVec.getLsbD_setWidth, BitVec.getLsbD_append]
  by_cases hn : i < n
  · simp [hw, hn]
  · have hsub : i - n < w := by omega
    rw [BitVec.getLsbD_of_ge low i (Nat.le_of_not_lt hn)]
    simp [hw, hn, hsub]

theorem append_and {a : BitVec n} {b : BitVec m} {mask : BitVec (n + m)} (h : mask = a ++ b)
    (hi : BitVec n) (low : BitVec m) : (hi ++ low) &&& mask = (hi &&& a) ++ (low &&& b) := by
  rw [h, BitVec.and_append]

/-- A masked part that is overwritten piece by piece, with the mask of each piece. -/
theorem patch_append_and (x : BitVec w) (lo : ℕ) {a : BitVec m} {b : BitVec n}
    {mask : BitVec (m + n)} (h : mask = a ++ b) (hi : BitVec m) (low : BitVec n) :
    patch x lo ((hi ++ low) &&& mask) = patch (patch x lo (low &&& b)) (lo + n) (hi &&& a) := by
  rw [append_and h, patch_append]

theorem patch_all (x y : BitVec w) : patch x 0 y = y := by
  apply BitVec.eq_of_getLsbD_eq
  intro i hw
  rw [getLsbD_patch _ _ _ hw, if_pos (by omega), Nat.sub_zero]

/-- A variable that is overwritten whole, piece by piece. -/
theorem patch_patch_all (x : BitVec (m + n)) (hi : BitVec m) (low : BitVec n) :
    patch (patch x 0 low) n hi = hi ++ low := by
  have h := patch_append x 0 hi low
  rw [patch_all, Nat.zero_add] at h
  exact h.symm

/-- Two patches at one place differ unless their values agree. -/
theorem patch_inj {x : BitVec w} {lo : ℕ} {y z : BitVec n} (h : lo + n ≤ w) :
    patch x lo y = patch x lo z ↔ y = z := by
  constructor
  · intro heq
    apply BitVec.eq_of_getLsbD_eq
    intro i hi
    have hbit := congrArg (fun v : BitVec w => v.getLsbD (lo + i)) heq
    rwa [getLsbD_patch _ _ _ (by omega), getLsbD_patch _ _ _ (by omega), if_pos (by omega),
      if_pos (by omega), Nat.add_sub_cancel_left] at hbit
  · rintro rfl
    rfl

theorem toNat_setWidth_lt {x : BitVec w} {k : ℕ} (h : x.toNat < 2 ^ k) (v : ℕ) :
    (x.setWidth v).toNat < 2 ^ k := by
  rw [BitVec.toNat_setWidth]
  exact Nat.lt_of_le_of_lt (Nat.mod_le _ _) h

/-- A shift that loses no bit may be done before a widening. -/
theorem setWidth_shiftLeft_of_fits {x : BitVec w} {n k v : ℕ} (h : x.toNat < 2 ^ k)
    (hk : k + n ≤ w) : (x <<< n).setWidth v = x.setWidth v <<< n := by
  apply BitVec.eq_of_getLsbD_eq
  intro i hi
  rw [BitVec.getLsbD_setWidth, BitVec.getLsbD_shiftLeft, BitVec.getLsbD_shiftLeft,
    BitVec.getLsbD_setWidth]
  by_cases hn : i < n
  · simp [hn]
  · have hsub : i - n < v := by omega
    by_cases hw : i < w
    · simp [hi, hn, hw, hsub]
    · have hlt : x.toNat < 2 ^ (i - n) :=
        Nat.lt_of_lt_of_le h (Nat.pow_le_pow_right (by decide) (by omega))
      have hzero : x.getLsbD (i - n) = false := Nat.testBit_lt_two_pow hlt
      simp [hw, hzero]

/-- Two neighbouring parts of a word, put together. -/
theorem or_parts (x : BitVec w) (lo n m v : ℕ) :
    ((x >>> lo).setWidth n).setWidth v ||| ((x >>> (lo + n)).setWidth m).setWidth v <<< n =
      ((x >>> lo).setWidth (n + m)).setWidth v := by
  apply BitVec.eq_of_getLsbD_eq
  intro i hi
  simp only [BitVec.getLsbD_or, BitVec.getLsbD_setWidth, BitVec.getLsbD_shiftLeft,
    BitVec.getLsbD_ushiftRight, hi, decide_true, Bool.true_and]
  by_cases hn : i < n
  · have hnm : i < n + m := by omega
    simp [hn, hnm]
  · have hsub : i - n < v := by omega
    have hadd : lo + n + (i - n) = lo + i := by omega
    have hm : i - n < m ↔ i < n + m := by omega
    simp [hn, hsub, hadd, hm]

theorem or_parts_low (x : BitVec w) (n m v : ℕ) :
    (x.setWidth n).setWidth v ||| ((x >>> n).setWidth m).setWidth v <<< n =
      (x.setWidth (n + m)).setWidth v := by
  have h := or_parts x 0 n m v
  rwa [Nat.zero_add, BitVec.ushiftRight_zero] at h

theorem or_parts_zero (w n v : ℕ) : (0#w).setWidth v ||| (0#w).setWidth v <<< n = 0#v := by
  rw [BitVec.setWidth_zero, BitVec.zero_shiftLeft, BitVec.or_zero]

/-- A word is its upper half over its lower half. -/
theorem append_halves (x : BitVec (n + m)) :
    (x >>> m).setWidth n ++ x.setWidth m = x := by
  apply BitVec.eq_of_getLsbD_eq
  intro i hi
  rw [BitVec.getLsbD_append, BitVec.getLsbD_setWidth, BitVec.getLsbD_setWidth,
    BitVec.getLsbD_ushiftRight]
  by_cases hm : i < m
  · simp [hm]
  · have hsub : i - m < n := by omega
    have hadd : m + (i - m) = i := by omega
    simp [hm, hsub, hadd]

theorem ushiftRight_append (hi : BitVec n) (low : BitVec m) :
    ((hi ++ low) >>> m).setWidth n = hi := by
  apply BitVec.eq_of_getLsbD_eq
  intro i h
  rw [BitVec.getLsbD_setWidth, BitVec.getLsbD_ushiftRight, BitVec.getLsbD_append,
    if_neg (by omega), Nat.add_sub_cancel_left, decide_eq_true h, Bool.true_and]

theorem append_inj_left {hi hi' : BitVec n} (low : BitVec m) :
    hi ++ low = hi' ++ low ↔ hi = hi' := by
  constructor
  · intro h
    rw [← ushiftRight_append hi low, h, ushiftRight_append]
  · rintro rfl
    rfl

theorem toNat_append_eq (hi : BitVec n) (low : BitVec m) :
    (hi ++ low).toNat = hi.toNat * 2 ^ m + low.toNat := by
  rw [BitVec.toNat_append, ← Nat.shiftLeft_add_eq_or_of_lt low.isLt, Nat.shiftLeft_eq]

/-- Addition to a word in two parts: the low parts add, and the high parts take the carry. -/
theorem append_add (hi : BitVec n) (low : BitVec m) (x : BitVec (n + m)) :
    (hi ++ low) + x =
      (hi + (x >>> m).setWidth n + BitVec.ofNat n ((low.toNat + (x.setWidth m).toNat) / 2 ^ m)) ++
        (low + x.setWidth m) := by
  conv_lhs => rw [← append_halves x]
  generalize (x >>> m).setWidth n = xhi
  generalize x.setWidth m = xlow
  apply BitVec.eq_of_toNat_eq
  have hsplit : hi.toNat * 2 ^ m + low.toNat + (xhi.toNat * 2 ^ m + xlow.toNat) =
      low.toNat + xlow.toNat + 2 ^ m * (hi.toNat + xhi.toNat) := by ring
  rw [BitVec.toNat_add, toNat_append_eq, toNat_append_eq, toNat_append_eq, hsplit, Nat.add_comm n m,
    Nat.pow_add, Nat.mod_mul, Nat.add_mul_mod_self_left,
    Nat.add_mul_div_left _ _ (Nat.two_pow_pos m), BitVec.toNat_add, BitVec.toNat_add,
    BitVec.toNat_add, BitVec.toNat_ofNat, ← Nat.add_mod, Nat.add_comm (_ / _)]
  ring

theorem append_eq_add (hi : BitVec n) (low : BitVec m) :
    hi ++ low = (hi ++ 0#m) + low.setWidth (n + m) := by
  have hlow : low.toNat < 2 ^ (n + m) :=
    low.isLt.trans_le (Nat.pow_le_pow_right (by decide) (Nat.le_add_left m n))
  have hlt := (hi ++ low).isLt
  apply BitVec.eq_of_toNat_eq
  rw [toNat_append_eq] at hlt
  rw [BitVec.toNat_add, toNat_append_eq, toNat_append_eq, BitVec.toNat_setWidth,
    Nat.mod_eq_of_lt hlow, BitVec.toNat_zero, Nat.add_zero, Nat.mod_eq_of_lt hlt]

theorem append_zero_add (hi : BitVec n) (x : BitVec (n + m)) :
    (hi ++ 0#m) + x = (hi + (x >>> m).setWidth n) ++ x.setWidth m := by
  have hcarry : ((0#m).toNat + (x.setWidth m).toNat) / 2 ^ m = 0 := by
    rw [BitVec.toNat_zero, Nat.zero_add]
    exact Nat.div_eq_of_lt (x.setWidth m).isLt
  rw [append_add, hcarry, BitVec.zero_add]
  exact congrArg (· ++ x.setWidth m) (BitVec.add_zero _)

/-- Two masks leave the same of a word when the bits in which they differ are clear in it. -/
theorem and_eq_and_iff (x a b : BitVec w) : x &&& a = x &&& b ↔ x &&& (a ^^^ b) = 0#w := by
  have hdistrib : x &&& (a ^^^ b) = x &&& a ^^^ x &&& b := by
    apply BitVec.eq_of_getLsbD_eq
    intro i _
    simp only [BitVec.getLsbD_and, BitVec.getLsbD_xor, Bool.and_xor_distrib_left]
  rw [hdistrib, BitVec.xor_eq_zero_iff]

/-- The lowest bits of a byte as a mask. -/
theorem and_lowOnes (x : BitVec 8) (k : ℕ) : x &&& (BitVec.allOnes k).setWidth 8 = bits x 0 k := by
  apply BitVec.eq_of_getLsbD_eq
  intro i hi
  rw [getLsbD_bits _ _ _ hi, BitVec.getLsbD_and, BitVec.getLsbD_setWidth, BitVec.getLsbD_allOnes,
    Nat.zero_add, Bool.and_comm, decide_eq_true hi, Bool.true_and]

end Desmume.Library
