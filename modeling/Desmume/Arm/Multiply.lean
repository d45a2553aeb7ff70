import Desmume.Arm.DataProcessing
import Desmume.Library.WordParts

/-! The multiplications that accumulate in 64 bits: `RdHi:RdLo` is added to in two halves, and the
halfword forms add to the upper half what belongs in the lower one. -/

namespace Desmume.Arm
open Desmume.Library

/-- `LWORD`. -/
def lword (x : Word) : Word := (x <<< 16).sshiftRight 16

/-- `HWORD`. -/
def hword (x : Word) : Word := x.sshiftRight 16

section Handlers

variable (i : Word) (cpu : ArmCpu)

/-- `cpu->R[REG_POS(i,16)] = high + cpu->R[REG_POS(i,16)] + CarryFrom(tmp, cpu->R[REG_POS(i,12)]);
cpu->R[REG_POS(i,12)] += tmp`. -/
def accumulateLong (high tmp : Word) : ArmCpu :=
  let carry := BitVec.ofNat 32 (carryFrom tmp (cpu.R (regPos i 12))).toNat
  let cpu := cpu.setR (regPos i 16) (high + cpu.R (regPos i 16) + carry)
  cpu.setR (regPos i 12) (cpu.R (regPos i 12) + tmp)

/-- The flags of the forms with the S bit. -/
def longFlags : ArmCpu :=
  cpu.setCPSR
    { cpu.CPSR with
      N := (cpu.R (regPos i 16)).getLsbD 31
      Z := cpu.R (regPos i 16) == 0 && cpu.R (regPos i 12) == 0 }

/-- `OP_UMLAL`. -/
def opUMLAL : ArmCpu :=
  let res := (cpu.R (regPos i 0)).setWidth 64 * (cpu.R (regPos i 8)).setWidth 64
  accumulateLong i cpu ((res >>> 32).setWidth 32) (res.setWidth 32)

/-- `OP_UMLAL_S`. -/
def opUMLAL_S : ArmCpu := longFlags i (opUMLAL i cpu)

/-- `OP_SMLAL`. -/
def opSMLAL : ArmCpu :=
  let res := (cpu.R (regPos i 8)).signExtend 64 * (cpu.R (regPos i 0)).signExtend 64
  accumulateLong i cpu ((res.sshiftRight 32).setWidth 32) (res.setWidth 32)

/-- `OP_SMLAL_S`. -/
def opSMLAL_S : ArmCpu := longFlags i (opSMLAL i cpu)

/-- `res = (u64)tmp + cpu->R[REG_POS(i,12)]; cpu->R[REG_POS(i,12)] = (u32)res;
cpu->R[REG_POS(i,16)] += res + ((tmp<0)*0xFFFFFFFF)`. -/
def accumulateHalves (tmp : BitVec 64) : ArmCpu :=
  let res := tmp + (cpu.R (regPos i 12)).setWidth 64
  let cpu := cpu.setR (regPos i 12) (res.setWidth 32)
  let sign : BitVec 64 := if tmp.msb then 0xFFFFFFFF else 0
  cpu.setR (regPos i 16) (cpu.R (regPos i 16) + (res + sign).setWidth 32)

/-- `OP_SMLAL_B_B`. -/
def opSMLAL_B_B : ArmCpu :=
  accumulateHalves i cpu ((lword (cpu.R (regPos i 0)) * lword (cpu.R (regPos i 8))).signExtend 64)

/-- `OP_SMLAL_B_T`. -/
def opSMLAL_B_T : ArmCpu :=
  accumulateHalves i cpu ((lword (cpu.R (regPos i 0)) * hword (cpu.R (regPos i 8))).signExtend 64)

/-- `OP_SMLAL_T_B`, which alone multiplies in 64 bits. -/
def opSMLAL_T_B : ArmCpu :=
  accumulateHalves i cpu
    ((hword (cpu.R (regPos i 0))).signExtend 64 * (lword (cpu.R (regPos i 8))).signExtend 64)

/-- `OP_SMLAL_T_T`. -/
def opSMLAL_T_T : ArmCpu :=
  accumulateHalves i cpu ((hword (cpu.R (regPos i 0)) * hword (cpu.R (regPos i 8))).signExtend 64)

end Handlers

/-! ### The instructions -/

/-- The half of a register that a halfword multiplication takes. -/
inductive Half where
  | B
  | T
deriving DecidableEq, Repr

def Half.of (h : Half) (x : Word) : BitVec 16 :=
  match h with
  | .B => x.setWidth 16
  | .T => (x >>> 16).setWidth 16

/-- The instructions that multiply and accumulate in 64 bits. -/
inductive LongMultiply where
  | UMLAL
  | UMLAL_S
  | SMLAL
  | SMLAL_S
  | halves (x y : Half)
deriving DecidableEq, Repr

namespace LongMultiply

def execute (op : LongMultiply) (i : Word) (cpu : ArmCpu) : ArmCpu :=
  match op with
  | .UMLAL => opUMLAL i cpu
  | .UMLAL_S => opUMLAL_S i cpu
  | .SMLAL => opSMLAL i cpu
  | .SMLAL_S => opSMLAL_S i cpu
  | .halves .B .B => opSMLAL_B_B i cpu
  | .halves .B .T => opSMLAL_B_T i cpu
  | .halves .T .B => opSMLAL_T_B i cpu
  | .halves .T .T => opSMLAL_T_T i cpu

/-- The full product of the two operands. -/
def product (op : LongMultiply) (i : Word) (cpu : ArmCpu) : ℤ :=
  match op with
  | .UMLAL | .UMLAL_S => (cpu.R (regPos i 0)).toNat * (cpu.R (regPos i 8)).toNat
  | .SMLAL | .SMLAL_S => (cpu.R (regPos i 0)).toInt * (cpu.R (regPos i 8)).toInt
  | .halves x y => (x.of (cpu.R (regPos i 0))).toInt * (y.of (cpu.R (regPos i 8))).toInt

end LongMultiply

/-- `RdHi:RdLo`. -/
def rdPair (i : Word) (cpu : ArmCpu) : BitVec 64 := cpu.R (regPos i 16) ++ cpu.R (regPos i 12)

/-- `RdHi:RdLo` has the product added, modulo `2^64`. -/
def AddsProduct (op : LongMultiply) (i : Word) (cpu : ArmCpu) : Prop :=
  rdPair i (op.execute i cpu) = rdPair i cpu + BitVec.ofInt 64 (op.product i cpu)

/-- A halfword form adds exactly when the upper half of the product plus `RdLo` is its lower half,
less one for a negative product: at three sums. -/
def LongMultiply.AddsAt (op : LongMultiply) (i : Word) (cpu : ArmCpu) : Prop :=
  match op with
  | .halves .. =>
    let p := op.product i cpu
    let lo := (cpu.R (regPos i 12)).toNat
    (0 ≤ p ∧ (p + lo = 0 ∨ p + lo = 2 ^ 32 + 1)) ∨ (p < 0 ∧ p + lo = 1)
  | _ => True

/-! ### The two halves of a sum -/

variable {i : Word}

theorem carryFrom_eq_div (tmp lo : Word) :
    (carryFrom tmp lo).toNat = (lo.toNat + tmp.toNat) / 2 ^ 32 := by
  have htmp := tmp.isLt
  have hlo := lo.isLt
  rw [carryFrom]
  by_cases h : 0xFFFFFFFF - tmp < lo
  · rw [decide_eq_true h]
    have hcarry : 2 ^ 32 ≤ lo.toNat + tmp.toNat := by bv_omega
    rw [Bool.toNat_true]
    omega
  · rw [decide_eq_false h]
    have hcarry : lo.toNat + tmp.toNat < 2 ^ 32 := by bv_omega
    rw [Bool.toNat_false]
    omega

theorem sshiftRight_high (x : BitVec 64) :
    (x.sshiftRight 32).setWidth 32 = (x >>> 32).setWidth 32 := by
  apply BitVec.eq_of_getLsbD_eq
  intro k hk
  have hlt : 32 + k < 64 := by omega
  have hle : ¬ 64 ≤ k := by omega
  rw [BitVec.getLsbD_setWidth, BitVec.getLsbD_setWidth, BitVec.getLsbD_sshiftRight,
    BitVec.getLsbD_ushiftRight, if_pos hlt, decide_eq_false hle, Bool.not_false, Bool.true_and]

theorem rdPair_setR (hdistinct : regPos i 16 ≠ regPos i 12) (cpu : ArmCpu) (hi lo : Word) :
    rdPair i ((cpu.setR (regPos i 16) hi).setR (regPos i 12) lo) = hi ++ lo := by
  rw [rdPair, ArmCpu.setR_R_self, ArmCpu.setR_R_of_ne _ hdistinct, ArmCpu.setR_R_self]

theorem rdPair_setR_swap (hdistinct : regPos i 16 ≠ regPos i 12) (cpu : ArmCpu) (hi lo : Word) :
    rdPair i ((cpu.setR (regPos i 12) lo).setR (regPos i 16) hi) = hi ++ lo := by
  rw [rdPair, ArmCpu.setR_R_self, ArmCpu.setR_R_of_ne _ hdistinct.symm, ArmCpu.setR_R_self]

theorem accumulateLong_rdPair (hdistinct : regPos i 16 ≠ regPos i 12) (cpu : ArmCpu)
    (res : BitVec 64) :
    rdPair i (accumulateLong i cpu ((res >>> 32).setWidth 32) (res.setWidth 32)) =
      rdPair i cpu + res := by
  have hsum := append_add (n := 32) (m := 32) (cpu.R (regPos i 16)) (cpu.R (regPos i 12)) res
  rw [← carryFrom_eq_div] at hsum
  have hlo : (cpu.setR (regPos i 16) ((res >>> 32).setWidth 32 + cpu.R (regPos i 16) +
      BitVec.ofNat 32 (carryFrom (res.setWidth 32) (cpu.R (regPos i 12))).toNat)).R (regPos i 12) =
      cpu.R (regPos i 12) := ArmCpu.setR_R_of_ne _ hdistinct.symm _
  rw [accumulateLong, rdPair_setR hdistinct, hlo, BitVec.add_comm _ (cpu.R (regPos i 16)), rdPair]
  exact hsum.symm

theorem rdPair_longFlags (cpu : ArmCpu) : rdPair i (longFlags i cpu) = rdPair i cpu := rfl

theorem setWidth_mul_ofInt (x y : Word) :
    x.setWidth 64 * y.setWidth 64 = BitVec.ofInt 64 (x.toNat * y.toNat) := by
  apply BitVec.eq_of_toNat_eq
  rw [BitVec.toNat_mul, BitVec.toNat_setWidth, BitVec.toNat_setWidth, BitVec.toNat_ofInt,
    ← Nat.mul_mod, ← Int.natCast_mul, ← Int.natCast_emod, Int.toNat_natCast]

theorem signExtend_mul_ofInt {v : ℕ} (w : ℕ) (x y : BitVec v) :
    x.signExtend w * y.signExtend w = BitVec.ofInt w (x.toInt * y.toInt) := by
  rw [BitVec.signExtend, BitVec.signExtend, BitVec.ofInt_mul]

/-! ### The halfword forms -/

theorem lword_eq (x : Word) : lword x = (Half.B.of x).signExtend 32 := by
  apply BitVec.eq_of_getLsbD_eq
  intro k hk
  have hmsb : (x <<< 16).msb = (x.setWidth 16).msb := by
    rw [BitVec.msb_eq_getLsbD_last, BitVec.msb_eq_getLsbD_last, BitVec.getLsbD_shiftLeft,
      BitVec.getLsbD_setWidth]
    rfl
  have hge : ¬ 32 ≤ k := by omega
  rw [lword, Half.of, BitVec.getLsbD_signExtend, BitVec.getLsbD_sshiftRight, hmsb,
    decide_eq_false hge, decide_eq_true hk, Bool.not_false]
  by_cases hlow : k < 16
  · have hsum : 16 + k < 32 := by omega
    have hback : ¬ 16 + k < 16 := by omega
    rw [if_pos hsum, if_pos hlow, BitVec.getLsbD_shiftLeft, BitVec.getLsbD_setWidth,
      decide_eq_true hsum, decide_eq_false hback, decide_eq_true hlow, Nat.add_sub_cancel_left]
    rfl
  · have hsum : ¬ 16 + k < 32 := by omega
    rw [if_neg hsum, if_neg hlow]

theorem hword_eq (x : Word) : hword x = (Half.T.of x).signExtend 32 := by
  apply BitVec.eq_of_getLsbD_eq
  intro k hk
  have hmsb : x.msb = ((x >>> 16).setWidth 16).msb := by
    rw [BitVec.msb_eq_getLsbD_last, BitVec.msb_eq_getLsbD_last, BitVec.getLsbD_setWidth,
      BitVec.getLsbD_ushiftRight]
    rfl
  have hge : ¬ 32 ≤ k := by omega
  rw [hword, Half.of, BitVec.getLsbD_signExtend, BitVec.getLsbD_sshiftRight, hmsb,
    decide_eq_false hge, decide_eq_true hk, Bool.not_false]
  by_cases hlow : k < 16
  · have hsum : 16 + k < 32 := by omega
    rw [if_pos hsum, if_pos hlow, BitVec.getLsbD_setWidth, BitVec.getLsbD_ushiftRight,
      decide_eq_true hlow, Bool.true_and, Bool.true_and]
  · have hsum : ¬ 16 + k < 32 := by omega
    rw [if_neg hsum, if_neg hlow]

/-- A product of two halves takes 31 bits and a sign. -/
theorem half_product_bounds (x y : BitVec 16) :
    -2 ^ 30 ≤ x.toInt * y.toInt ∧ x.toInt * y.toInt ≤ 2 ^ 30 :=
  ⟨BitVec.le_toInt_mul_toInt, BitVec.toInt_mul_toInt_le⟩

/-- A product of two halves in 32 bits is exact. -/
theorem half_product_word (x y : BitVec 16) :
    (x.signExtend 32 * y.signExtend 32).signExtend 64 = BitVec.ofInt 64 (x.toInt * y.toInt) := by
  obtain ⟨h0, h1⟩ := half_product_bounds x y
  rw [signExtend_mul_ofInt, BitVec.signExtend, BitVec.toInt_ofInt, Int.bmod_eq_of_le]
  · omega
  · omega

theorem half_product_long (x y : BitVec 16) :
    (x.signExtend 32).signExtend 64 * (y.signExtend 32).signExtend 64 =
      BitVec.ofInt 64 (x.toInt * y.toInt) := by
  rw [signExtend_mul_ofInt, BitVec.toInt_signExtend_of_le (by decide),
    BitVec.toInt_signExtend_of_le (by decide)]

theorem execute_halves (x y : Half) (i : Word) (cpu : ArmCpu) :
    (LongMultiply.halves x y).execute i cpu =
      accumulateHalves i cpu (BitVec.ofInt 64 ((LongMultiply.halves x y).product i cpu)) := by
  cases x <;> cases y <;>
    simp only [LongMultiply.execute, LongMultiply.product, opSMLAL_B_B, opSMLAL_B_T, opSMLAL_T_B,
      opSMLAL_T_T, lword_eq, hword_eq, half_product_word, half_product_long]

/-- The upper half gets the lower half of the sum, where its upper half belongs. -/
theorem accumulateHalves_rdPair_iff (hdistinct : regPos i 16 ≠ regPos i 12) (cpu : ArmCpu)
    (tmp res : BitVec 64) (hres : res = tmp + (cpu.R (regPos i 12)).setWidth 64) :
    rdPair i (accumulateHalves i cpu tmp) = rdPair i cpu + tmp ↔
      (res + (if tmp.msb then 0xFFFFFFFF else 0)).setWidth 32 = (res >>> 32).setWidth 32 := by
  have hpair : rdPair i cpu + tmp =
      (cpu.R (regPos i 16) + (res >>> 32).setWidth 32) ++ res.setWidth 32 := by
    have hsplit := append_eq_add (cpu.R (regPos i 16)) (cpu.R (regPos i 12))
    have hsum := append_zero_add (n := 32) (m := 32) (cpu.R (regPos i 16)) res
    rw [rdPair, hsplit, BitVec.add_assoc, BitVec.add_comm _ tmp, ← hsum, hres]
  have hhi : (cpu.setR (regPos i 12) (res.setWidth 32)).R (regPos i 16) = cpu.R (regPos i 16) :=
    ArmCpu.setR_R_of_ne _ hdistinct _
  rw [hpair, accumulateHalves, ← hres]
  rw [rdPair_setR_swap hdistinct, hhi, append_inj_left, BitVec.add_right_inj]

theorem toNat_ofInt_add (p : ℤ) (lo : Word) (h : -2 ^ 63 ≤ p) (h' : p < 2 ^ 63) :
    ((BitVec.ofInt 64 p + lo.setWidth 64).toNat : ℤ) =
      if 0 ≤ p + lo.toNat then p + lo.toNat else p + lo.toNat + 2 ^ 64 := by
  have hlo := lo.isLt
  rw [BitVec.toNat_add, BitVec.toNat_setWidth, BitVec.toNat_ofInt,
    Nat.mod_eq_of_lt (a := lo.toNat) (by omega)]
  split_ifs <;> omega

theorem halves_sum_iff {p : ℤ} (hlower : -2 ^ 30 ≤ p) (hupper : p ≤ 2 ^ 30) (lo : Word)
    (tmp res : BitVec 64) (htmp : tmp = BitVec.ofInt 64 p) (hres : res = tmp + lo.setWidth 64) :
    (res + (if tmp.msb then 0xFFFFFFFF else 0)).setWidth 32 = (res >>> 32).setWidth 32 ↔
      (0 ≤ p ∧ (p + lo.toNat = 0 ∨ p + lo.toNat = 2 ^ 32 + 1)) ∨ (p < 0 ∧ p + lo.toNat = 1) := by
  have hlo := lo.isLt
  have hint : tmp.toInt = p := by
    rw [htmp, BitVec.toInt_ofInt, Int.bmod_eq_of_le] <;> omega
  have hmsb : tmp.msb = decide (p < 0) := by rw [BitVec.msb_eq_toInt, hint]
  have hnat : (res.toNat : ℤ) =
      if 0 ≤ p + lo.toNat then p + lo.toNat else p + lo.toNat + 2 ^ 64 := by
    rw [hres, htmp]
    exact toNat_ofInt_add p lo (by omega) (by omega)
  rw [hmsb, ← BitVec.toNat_inj, BitVec.toNat_setWidth, BitVec.toNat_setWidth,
    BitVec.toNat_ushiftRight, Nat.shiftRight_eq_div_pow]
  by_cases hneg : p < 0
  · rw [if_pos (decide_eq_true hneg), BitVec.toNat_add]
    change (res.toNat + 0xFFFFFFFF) % 2 ^ 64 % 2 ^ 32 = _ ↔ _
    generalize res.toNat = n at hnat ⊢
    split_ifs at hnat with hsum
    · have hhigh : n / 2 ^ 32 = 0 := by omega
      rw [hhigh]
      omega
    · have hhigh : n / 2 ^ 32 = 0xFFFFFFFF := by omega
      rw [hhigh]
      omega
  · rw [if_neg (by simpa using hneg), show res + 0 = res from BitVec.add_zero res]
    generalize res.toNat = n at hnat ⊢
    rw [if_pos (by omega)] at hnat
    have hhigh : n / 2 ^ 32 = 0 ∨ n / 2 ^ 32 = 1 := by omega
    rcases hhigh with hhigh | hhigh <;> rw [hhigh] <;> omega

/-! ### The instructions -/

/-- The upper and the lower word of a product, with the carry between them. -/
theorem addsProduct_word (hdistinct : regPos i 16 ≠ regPos i 12) (cpu : ArmCpu) :
    AddsProduct .UMLAL i cpu ∧ AddsProduct .SMLAL i cpu := by
  constructor
  · change rdPair i (accumulateLong _ _ _ _) = _
    rw [accumulateLong_rdPair hdistinct, setWidth_mul_ofInt]
    rfl
  · change rdPair i (accumulateLong _ _ _ _) = _
    rw [sshiftRight_high, accumulateLong_rdPair hdistinct, signExtend_mul_ofInt, Int.mul_comm]
    rfl

/-- The flags leave the sum alone. -/
theorem addsProduct_flags (op opS : LongMultiply) {i : Word} {cpu : ArmCpu}
    (hexecute : opS.execute i cpu = longFlags i (op.execute i cpu))
    (hproduct : opS.product i cpu = op.product i cpu) (h : AddsProduct op i cpu) :
    AddsProduct opS i cpu := by
  rw [AddsProduct, hexecute, rdPair_longFlags, hproduct]
  exact h

theorem addsProduct_iff (op : LongMultiply) (i : Word) (hdistinct : regPos i 16 ≠ regPos i 12)
    (cpu : ArmCpu) : AddsProduct op i cpu ↔ op.AddsAt i cpu := by
  obtain ⟨hunsigned, hsigned⟩ := addsProduct_word hdistinct cpu
  cases op with
  | UMLAL => exact iff_of_true hunsigned trivial
  | UMLAL_S => exact iff_of_true (addsProduct_flags .UMLAL .UMLAL_S rfl rfl hunsigned) trivial
  | SMLAL => exact iff_of_true hsigned trivial
  | SMLAL_S => exact iff_of_true (addsProduct_flags .SMLAL .SMLAL_S rfl rfl hsigned) trivial
  | halves x y =>
    obtain ⟨hlower, hupper⟩ :=
      half_product_bounds (x.of (cpu.R (regPos i 0))) (y.of (cpu.R (regPos i 8)))
    change _ ≤ (LongMultiply.halves x y).product i cpu at hlower
    change (LongMultiply.halves x y).product i cpu ≤ _ at hupper
    rw [AddsProduct, execute_halves, LongMultiply.AddsAt]
    generalize (LongMultiply.halves x y).product i cpu = p at hlower hupper ⊢
    rw [accumulateHalves_rdPair_iff hdistinct cpu (BitVec.ofInt 64 p) _ rfl]
    exact halves_sum_iff hlower hupper (cpu.R (regPos i 12)) (BitVec.ofInt 64 p) _ rfl rfl

/-- A processor whose registers hold their own numbers. -/
def numbered : ArmCpu := (init .arm9 0 0).withR fun n => BitVec.ofNat 32 n.val

/-- `SMLALBB R0, R1, R2, R3`: 6 is added to the upper half as well. -/
theorem addsProduct_numbered : AddsProduct (.halves .B .B) 0xE1410382 numbered ↔
    (LongMultiply.halves .B .B).AddsAt 0xE1410382 numbered :=
  addsProduct_iff (.halves .B .B) 0xE1410382 (by decide) numbered

theorem smlal_not_adds :
    ¬ ∀ op i cpu, regPos i 16 ≠ regPos i 12 → AddsProduct op i cpu := by
  intro h
  have hadds := h (.halves .B .B) 0xE1410382 numbered (by decide)
  have hhigh := congrArg (BitVec.extractLsb' 32 32) hadds
  exact absurd hhigh (by decide +kernel)

end Desmume.Arm
