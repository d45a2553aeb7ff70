import Desmume.Library.Literals
import Mathlib.Data.Nat.Bitwise
import Mathlib.Tactic.Common

/-! The arithmetic of a processor with a carry flag: addition with carry in and carry out, and
the shifts that also give the last bit shifted out. -/

namespace Desmume.Library

variable {w : ℕ}

/-- The result of an addition, with its carry out and its signed overflow. -/
@[ext]
structure AluSum (w : ℕ) where
  result : BitVec w
  carry : Bool
  overflow : Bool
deriving DecidableEq

def addWithCarry (x y : BitVec w) (carry : Bool) : AluSum w :=
  let unsignedSum := x.toNat + y.toNat + carry.toNat
  let signedSum := x.toInt + y.toInt + carry.toNat
  let result := BitVec.ofNat w unsignedSum
  { result
    carry := decide (result.toNat ≠ unsignedSum)
    overflow := decide (result.toInt ≠ signedSum) }

theorem addWithCarry_result (x y : BitVec w) (carry : Bool) :
    (addWithCarry x y carry).result = x + y + BitVec.ofNat w carry.toNat := by
  apply BitVec.eq_of_toNat_eq
  simp only [addWithCarry, BitVec.toNat_ofNat, BitVec.toNat_add, Nat.add_mod, Nat.mod_mod]

theorem addWithCarry_carry (x y : BitVec w) (carry : Bool) :
    (addWithCarry x y carry).carry = decide (2 ^ w ≤ x.toNat + y.toNat + carry.toNat) := by
  have hx := x.isLt
  have hy := y.isLt
  simp only [addWithCarry, BitVec.toNat_ofNat]
  apply decide_eq_decide.mpr
  constructor
  · intro h
    by_contra hlt
    exact h (Nat.mod_eq_of_lt (Nat.not_le.mp hlt))
  · intro hle h
    have := Nat.mod_lt (x.toNat + y.toNat + carry.toNat) (Nat.two_pow_pos w)
    omega

/-- Signed overflow: the operands have one sign and the result the other. -/
theorem addWithCarry_overflow (hw : 0 < w) (x y : BitVec w) (carry : Bool) :
    (addWithCarry x y carry).overflow =
      (x.msb == y.msb && (addWithCarry x y carry).result.msb != x.msb) := by
  have hc : carry.toNat ≤ 1 := carry.toNat_le
  have hx := x.isLt
  have hy := y.isLt
  have hmod : (addWithCarry x y carry).result.toNat =
      (x.toNat + y.toNat + carry.toNat) % 2 ^ w := BitVec.toNat_ofNat _ _
  have hsum : (addWithCarry x y carry).result.toNat = x.toNat + y.toNat + carry.toNat ∨
      (addWithCarry x y carry).result.toNat + 2 ^ w = x.toNat + y.toNat + carry.toNat := by
    rw [hmod]
    by_cases hlt : x.toNat + y.toNat + carry.toNat < 2 ^ w
    · exact .inl (Nat.mod_eq_of_lt hlt)
    · right
      rw [Nat.mod_eq_sub_mod (Nat.not_lt.mp hlt), Nat.mod_eq_of_lt (by omega)]
      omega
  have hr := (addWithCarry x y carry).result.isLt
  change decide ((addWithCarry x y carry).result.toInt ≠ x.toInt + y.toInt + carry.toNat) = _
  generalize (addWithCarry x y carry).result = r at *
  simp only [BitVec.msb_eq_toInt, BitVec.toInt_eq_toNat_cond]
  have heven : 2 ^ w = 2 * 2 ^ (w - 1) := by
    rw [← Nat.pow_succ', Nat.succ_eq_add_one, Nat.sub_add_cancel hw]
  apply Bool.eq_iff_iff.mpr
  simp only [decide_eq_true_eq, Bool.and_eq_true, beq_iff_eq, bne_iff_ne, decide_eq_decide, ne_eq]
  clear hmod
  generalize 2 ^ w = M at *
  split_ifs <;> omega

theorem addWithCarry_comm (x y : BitVec w) (carry : Bool) :
    addWithCarry x y carry = addWithCarry y x carry := by
  simp only [addWithCarry, Nat.add_comm x.toNat, Int.add_comm x.toInt]

/-- Subtraction is the addition of the complement with the carry set. -/
theorem addWithCarry_not_result (x y : BitVec w) (carry : Bool) :
    (addWithCarry x (~~~y) carry).result = x - y - BitVec.ofNat w (!carry).toNat := by
  rw [addWithCarry_result]
  cases carry <;>
    simp [BitVec.not_eq_neg_add, BitVec.sub_eq_add_neg, BitVec.add_assoc, BitVec.add_left_neg]

theorem addWithCarry_not_carry (x y : BitVec w) (carry : Bool) :
    (addWithCarry x (~~~y) carry).carry = decide (y.toNat + (!carry).toNat ≤ x.toNat) := by
  have hx := x.isLt
  have hy := y.isLt
  rw [addWithCarry_carry, BitVec.toNat_not]
  apply decide_eq_decide.mpr
  cases carry <;> simp only [Bool.toNat_true, Bool.toNat_false, Bool.not_true, Bool.not_false] <;>
    omega

/-! ### Shifts -/

/-- `x : Zeros(n)`, cut back to its low bits; the carry is the bit just above them. -/
def lslC (x : BitVec w) (n : ℕ) : BitVec w × Bool :=
  let extended := x ++ 0#n
  (extended.setWidth w, extended.getLsbD w)

/-- `ZeroExtend(x)` without its low `n` bits, the highest of which is the carry. -/
def lsrC (x : BitVec w) (n : ℕ) : BitVec w × Bool :=
  let extended := x.setWidth (w + n)
  (extended.extractLsb' n w, extended.getLsbD (n - 1))

def asrC (x : BitVec w) (n : ℕ) : BitVec w × Bool :=
  let extended := x.signExtend (w + n)
  (extended.extractLsb' n w, extended.getLsbD (n - 1))

def rorC (x : BitVec w) (n : ℕ) : BitVec w × Bool :=
  let m := n % w
  let result := (x >>> m) ||| (x <<< (w - m))
  (result, result.msb)

def rrxC (x : BitVec w) (carry : Bool) : BitVec w × Bool :=
  ((BitVec.cons carry x).extractLsb' 1 w, x.getLsbD 0)

theorem lslC_fst (x : BitVec w) (n : ℕ) : (lslC x n).1 = x <<< n := by
  apply BitVec.eq_of_getLsbD_eq
  intro i hi
  simp only [lslC, BitVec.getLsbD_setWidth, BitVec.getLsbD_append, BitVec.getLsbD_shiftLeft, hi]
  split <;> simp_all

theorem lslC_snd (x : BitVec w) (n : ℕ) :
    (lslC x n).2 = if n ≤ w then x.getLsbD (w - n) else false := by
  simp only [lslC, BitVec.getLsbD_append]
  split <;> split <;> first | rfl | omega | simp

theorem lsrC_fst (x : BitVec w) (n : ℕ) : (lsrC x n).1 = x >>> n := by
  apply BitVec.eq_of_getLsbD_eq
  intro i hi
  simp only [lsrC, BitVec.getLsbD_extractLsb', BitVec.getLsbD_setWidth, BitVec.getLsbD_ushiftRight, hi,
    decide_true, Bool.true_and]
  rw [decide_eq_true (by omega), Bool.true_and]

theorem lsrC_snd (x : BitVec w) {n : ℕ} (hn : 0 < n) : (lsrC x n).2 = x.getLsbD (n - 1) := by
  simp only [lsrC, BitVec.getLsbD_setWidth]
  rw [decide_eq_true (by omega), Bool.true_and]

theorem asrC_fst (x : BitVec w) (n : ℕ) : (asrC x n).1 = x.sshiftRight n := by
  apply BitVec.eq_of_getLsbD_eq
  intro i hi
  simp only [asrC, BitVec.getLsbD_extractLsb', BitVec.getLsbD_signExtend, BitVec.getLsbD_sshiftRight]
  rw [decide_eq_true hi, decide_eq_true (show n + i < w + n by omega),
    decide_eq_false (show ¬ w ≤ i by omega)]
  rfl

theorem asrC_snd (x : BitVec w) {n : ℕ} (hn : 0 < n) :
    (asrC x n).2 = if n ≤ w then x.getLsbD (n - 1) else x.msb := by
  simp only [asrC, BitVec.getLsbD_signExtend]
  rw [decide_eq_true (by omega), Bool.true_and]
  split <;> split <;> first | rfl | omega

end Desmume.Library
