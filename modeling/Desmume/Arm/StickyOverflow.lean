import Desmume.Arm.Multiply
import Desmume.Library.SignedWord
import Mathlib.Algebra.Order.Ring.Abs

/-! The instructions that set `Q`: the halfword multiplications that accumulate in 32 bits and the
saturating additions. -/

namespace Desmume.Arm
open Desmume.Library

/-- `SIGNED_OVERFLOW`. -/
def signedOverflow (a b c : Word) : Bool :=
  ((a &&& b &&& ~~~c) ||| (~~~a &&& ~~~b &&& c)).getLsbD 31

/-- `SIGNED_UNDERFLOW`. -/
def signedUnderflow (a b c : Word) : Bool :=
  ((a &&& ~~~b &&& ~~~c) ||| (~~~a &&& b &&& c)).getLsbD 31

/-- `0x80000000-BIT31(res)`. -/
def clamped (res : Word) : Word := 0x80000000 - BitVec.ofNat 32 (res.getLsbD 31).toNat

/-- `cpu->CPSR.bits.Q = 1`. -/
def ArmCpu.setQ (cpu : ArmCpu) : ArmCpu := cpu.setCPSR { cpu.CPSR with Q := true }

section Handlers

variable (i : Word) (cpu : ArmCpu)

/-- `OP_SMLA_B_B`, which reads the accumulator again after it has written the result. -/
def opSMLA_B_B : ArmCpu :=
  let tmp := ((cpu.R (regPos i 0)).setWidth 16).signExtend 32 *
    ((cpu.R (regPos i 8)).setWidth 16).signExtend 32
  let cpu := cpu.setR (regPos i 16) (tmp + cpu.R (regPos i 12))
  if overflowFromADD (cpu.R (regPos i 16)) tmp (cpu.R (regPos i 12)) then cpu.setQ else cpu

/-- `cpu->R[REG_POS(i,16)] = tmp + a`, with `Q` for the overflow. -/
def multiplyAdd (tmp : Word) : ArmCpu :=
  let a := cpu.R (regPos i 12)
  let cpu := cpu.setR (regPos i 16) (tmp + a)
  if signedOverflow tmp a (cpu.R (regPos i 16)) then cpu.setQ else cpu

/-- `OP_SMLA_B_T`. -/
def opSMLA_B_T : ArmCpu :=
  multiplyAdd i cpu (lword (cpu.R (regPos i 0)) * hword (cpu.R (regPos i 8)))

/-- `OP_SMLA_T_B`. -/
def opSMLA_T_B : ArmCpu :=
  multiplyAdd i cpu (hword (cpu.R (regPos i 0)) * lword (cpu.R (regPos i 8)))

/-- `OP_SMLA_T_T`. -/
def opSMLA_T_T : ArmCpu :=
  multiplyAdd i cpu (hword (cpu.R (regPos i 0)) * hword (cpu.R (regPos i 8)))

/-- `cpu->R[REG_POS(i,16)] = tmp + a`, where `tmp` has 64 bits. -/
def multiplyAddWide (tmp : BitVec 64) : ArmCpu :=
  let a := cpu.R (regPos i 12)
  let cpu := cpu.setR (regPos i 16) ((tmp + a.setWidth 64).setWidth 32)
  if signedOverflow (tmp.setWidth 32) a (cpu.R (regPos i 16)) then cpu.setQ else cpu

/-- `OP_SMLAW_B`. -/
def opSMLAW_B : ArmCpu :=
  let tmp := (lword (cpu.R (regPos i 8))).signExtend 64 * (cpu.R (regPos i 0)).signExtend 64
  multiplyAddWide i cpu (tmp.sshiftRight 16)

/-- `OP_SMLAW_T`. -/
def opSMLAW_T : ArmCpu :=
  let tmp := (hword (cpu.R (regPos i 8))).signExtend 64 * (cpu.R (regPos i 0)).signExtend 64
  multiplyAddWide i cpu (tmp.sshiftRight 16 &&& 0xFFFFFFFF)

/-- The end of the saturating additions: `Rd` gets the limit or the result. -/
def storeClamped (overflow : Bool) (res : Word) : ArmCpu :=
  if overflow then cpu.setQ.setR (regPos i 12) (clamped res)
  else
    let cpu := cpu.setR (regPos i 12) res
    if regPos i 12 = 15 then (cpu.setR 15 (cpu.R 15 &&& 0xFFFFFFFC)).jump else cpu

/-- `OP_QADD`. -/
def opQADD : ArmCpu :=
  let res := cpu.R (regPos i 16) + cpu.R (regPos i 0)
  storeClamped i cpu (signedOverflow (cpu.R (regPos i 16)) (cpu.R (regPos i 0)) res) res

/-- `OP_QSUB`. -/
def opQSUB : ArmCpu :=
  let res := cpu.R (regPos i 0) - cpu.R (regPos i 16)
  storeClamped i cpu (signedUnderflow (cpu.R (regPos i 0)) (cpu.R (regPos i 16)) res) res

/-- `mul = cpu->R[REG_POS(i,16)]<<1`, clamped, with `Q` for the overflow. -/
def doubled : Word × ArmCpu :=
  let mul := cpu.R (regPos i 16) <<< 1
  if (cpu.R (regPos i 16)).getLsbD 31 ≠ mul.getLsbD 31 then (clamped mul, cpu.setQ) else (mul, cpu)

/-- `OP_QDADD`. -/
def opQDADD : ArmCpu :=
  let (mul, cpu) := doubled i cpu
  let res := mul + cpu.R (regPos i 0)
  storeClamped i cpu (signedOverflow (cpu.R (regPos i 0)) mul res) res

/-- `OP_QDSUB`. -/
def opQDSUB : ArmCpu :=
  let (mul, cpu) := doubled i cpu
  let res := cpu.R (regPos i 0) - mul
  storeClamped i cpu (signedUnderflow (cpu.R (regPos i 0)) mul res) res

end Handlers

/-! ### The instructions -/

/-- The instructions that set `Q`. -/
inductive StickyOp where
  | SMLA (x y : Half)
  | SMLAW (y : Half)
  | QADD
  | QSUB
  | QDADD
  | QDSUB
deriving DecidableEq, Repr

namespace StickyOp

def execute (op : StickyOp) (i : Word) (cpu : ArmCpu) : ArmCpu :=
  match op with
  | .SMLA .B .B => opSMLA_B_B i cpu
  | .SMLA .B .T => opSMLA_B_T i cpu
  | .SMLA .T .B => opSMLA_T_B i cpu
  | .SMLA .T .T => opSMLA_T_T i cpu
  | .SMLAW .B => opSMLAW_B i cpu
  | .SMLAW .T => opSMLAW_T i cpu
  | .QADD => opQADD i cpu
  | .QSUB => opQSUB i cpu
  | .QDADD => opQDADD i cpu
  | .QDSUB => opQDSUB i cpu

/-- The saturating additions. -/
def clamps : StickyOp → Bool
  | .SMLA .. | .SMLAW .. => false
  | _ => true

def rd (op : StickyOp) (i : Word) : Fin 16 := if op.clamps then regPos i 12 else regPos i 16

/-- Twice `Rn`, before it is clamped. -/
def twice (i : Word) (cpu : ArmCpu) : ℤ := 2 * (cpu.R (regPos i 16)).toInt

/-- The exact sum. -/
def sum (op : StickyOp) (i : Word) (cpu : ArmCpu) : ℤ :=
  let rm := cpu.R (regPos i 0)
  let rs := cpu.R (regPos i 8)
  let acc := (cpu.R (regPos i 12)).toInt
  let rn := (cpu.R (regPos i 16)).toInt
  match op with
  | .SMLA x y => (x.of rm).toInt * (y.of rs).toInt + acc
  | .SMLAW y => (rm.toInt * (y.of rs).toInt) / 2 ^ 16 + acc
  | .QADD => rm.toInt + rn
  | .QSUB => rm.toInt - rn
  | .QDADD => rm.toInt + (saturate 32 (twice i cpu)).toInt
  | .QDSUB => rm.toInt - (saturate 32 (twice i cpu)).toInt

/-- What the destination gets. -/
def result (op : StickyOp) (i : Word) (cpu : ArmCpu) : Word :=
  if op.clamps then saturate 32 (op.sum i cpu) else BitVec.ofInt 32 (op.sum i cpu)

/-- The sum, or twice `Rn` in a form that doubles, is no signed word. -/
def Overflows (op : StickyOp) (i : Word) (cpu : ArmCpu) : Prop :=
  ¬ Fits 32 (op.sum i cpu) ∨ (op = .QDADD ∨ op = .QDSUB) ∧ ¬ Fits 32 (twice i cpu)

instance (op : StickyOp) (i : Word) (cpu : ArmCpu) : Decidable (op.Overflows i cpu) :=
  inferInstanceAs (Decidable (_ ∨ _ ∧ _))

end StickyOp

/-- The result is stored, `Q` records an overflow, and nothing else of the registers changes. -/
structure StoresExactly (op : StickyOp) (i : Word) (cpu : ArmCpu) : Prop where
  result : (op.execute i cpu).R (op.rd i) = op.result i cpu
  flag : (op.execute i cpu).CPSR.Q = (cpu.CPSR.Q || decide (op.Overflows i cpu))
  frame : ∀ r, r ≠ op.rd i → (op.execute i cpu).R r = cpu.R r

/-- A saturating addition to `R15` whose sum is not clamped, and that the processor goes on from. -/
def StickyOp.Jumps (op : StickyOp) (i : Word) (cpu : ArmCpu) : Prop :=
  op.clamps = true ∧ op.rd i = 15 ∧ Fits 32 (op.sum i cpu)

/-- What the instructions do. -/
structure StoresAligned (op : StickyOp) (i : Word) (cpu : ArmCpu) : Prop where
  result : ¬ op.Jumps i cpu → (op.execute i cpu).R (op.rd i) = op.result i cpu
  jump : op.Jumps i cpu → (op.execute i cpu).R 15 = op.result i cpu &&& 0xFFFFFFFC ∧
    (op.execute i cpu).next_instruction = op.result i cpu &&& 0xFFFFFFFC
  flag : (op = .SMLA .B .B → regPos i 16 ≠ regPos i 12) →
    (op.execute i cpu).CPSR.Q = (cpu.CPSR.Q || decide (op.Overflows i cpu))
  sticky : cpu.CPSR.Q = true → (op.execute i cpu).CPSR.Q = true
  frame : ∀ r, r ≠ op.rd i → (op.execute i cpu).R r = cpu.R r

/-! ### The overflow formulas -/

theorem signedOverflow_eq (a b : Word) : signedOverflow a b (a + b) = a.saddOverflow b := by
  rw [BitVec.saddOverflow_eq, signedOverflow, msb_eq, msb_eq, msb_eq]
  simp only [BitVec.getLsbD_or, BitVec.getLsbD_and, BitVec.getLsbD_not]
  cases a.getLsbD 31 <;> cases b.getLsbD 31 <;> cases (a + b).getLsbD 31 <;> rfl

theorem signedUnderflow_eq (a b : Word) : signedUnderflow a b (a - b) = a.ssubOverflow b := by
  rw [BitVec.ssubOverflow_eq, signedUnderflow, msb_eq, msb_eq, msb_eq]
  simp only [BitVec.getLsbD_or, BitVec.getLsbD_and, BitVec.getLsbD_not]
  cases a.getLsbD 31 <;> cases b.getLsbD 31 <;> cases (a - b).getLsbD 31 <;> rfl

theorem overflowFromADD_eq_saddOverflow (a b : Word) :
    overflowFromADD (a + b) a b = a.saddOverflow b := by
  rw [BitVec.saddOverflow_eq, overflowFromADD_eq]
  cases a.msb <;> cases b.msb <;> cases (a + b).msb <;> rfl

theorem clamped_eq (res : Word) : clamped res = limit 32 res.msb := by
  rw [clamped, limit, msb_eq]
  cases res.getLsbD 31 <;> rfl

theorem ofInt_add_toInt (x : ℤ) (y : Word) : BitVec.ofInt 32 x + y = BitVec.ofInt 32 (x + y.toInt) := by
  rw [BitVec.ofInt_add, BitVec.ofInt_toInt]

theorem setWidth_ofInt (x : ℤ) : (BitVec.ofInt 64 x).setWidth 32 = BitVec.ofInt 32 x := by
  apply BitVec.eq_of_toNat_eq
  rw [BitVec.toNat_setWidth, BitVec.toNat_ofInt, BitVec.toNat_ofInt]
  omega

/-! ### One instruction -/

/-- `R[rd]` gets `v`, and an overflow sets `Q`. -/
structure Leaves (cpu cpu' : ArmCpu) (rd : Fin 16) (v : Word) (overflow : Bool) : Prop where
  registers : cpu'.R = Function.update cpu.R rd v
  flag : cpu'.CPSR.Q = (cpu.CPSR.Q || overflow)

variable {i : Word} {cpu : ArmCpu}

theorem leaves_setQ (rd : Fin 16) (v : Word) (overflow : Bool) :
    Leaves cpu (if overflow then (cpu.setR rd v).setQ else cpu.setR rd v) rd v overflow := by
  cases overflow with
  | false => exact ⟨rfl, (Bool.or_false _).symm⟩
  | true => exact ⟨rfl, (Bool.or_true _).symm⟩

theorem leaves_multiplyAdd {P : ℤ} (hP : Fits 32 P) :
    Leaves cpu (multiplyAdd i cpu (BitVec.ofInt 32 P)) (regPos i 16)
      (BitVec.ofInt 32 (P + (cpu.R (regPos i 12)).toInt))
      (decide (¬ Fits 32 (P + (cpu.R (regPos i 12)).toInt))) := by
  have hint : (BitVec.ofInt 32 P).toInt = P := toInt_ofInt_of_fits (by decide) hP
  rw [multiplyAdd]
  simp only [ArmCpu.setR_R_self]
  rw [signedOverflow_eq, saddOverflow_eq_not_fits, hint, ofInt_add_toInt]
  exact leaves_setQ ..

theorem leaves_multiplyAddWide {P : ℤ} (hP : Fits 32 P) {tmp : BitVec 64}
    (htmp : tmp.setWidth 32 = BitVec.ofInt 32 P) :
    Leaves cpu (multiplyAddWide i cpu tmp) (regPos i 16)
      (BitVec.ofInt 32 (P + (cpu.R (regPos i 12)).toInt))
      (decide (¬ Fits 32 (P + (cpu.R (regPos i 12)).toInt))) := by
  have hsum : (tmp + (cpu.R (regPos i 12)).setWidth 64).setWidth 32 =
      BitVec.ofInt 32 P + cpu.R (regPos i 12) := by
    rw [BitVec.setWidth_add _ _ (by decide), htmp, BitVec.setWidth_setWidth_of_le _ (by decide),
      BitVec.setWidth_eq]
  have hplain := @leaves_multiplyAdd i cpu P hP
  rw [multiplyAdd] at hplain
  rw [multiplyAddWide, hsum, htmp]
  exact hplain

/-- The overflow goes unnoticed where the sum has replaced the accumulator. -/
theorem leaves_opSMLA_B_B {P : ℤ} (hP : Fits 32 P)
    (hprod : ((cpu.R (regPos i 0)).setWidth 16).signExtend 32 *
      ((cpu.R (regPos i 8)).setWidth 16).signExtend 32 = BitVec.ofInt 32 P) :
    Leaves cpu (opSMLA_B_B i cpu) (regPos i 16)
      (BitVec.ofInt 32 (P + (cpu.R (regPos i 12)).toInt))
      (decide (regPos i 16 ≠ regPos i 12 ∧ ¬ Fits 32 (P + (cpu.R (regPos i 12)).toInt))) := by
  have hint : (BitVec.ofInt 32 P).toInt = P := toInt_ofInt_of_fits (by decide) hP
  rw [opSMLA_B_B, hprod]
  simp only [ArmCpu.setR_R_self]
  by_cases hsame : regPos i 16 = regPos i 12
  · have hnone : ∀ r tmp, overflowFromADD r tmp r = false := by
      intro r tmp
      rw [overflowFromADD_eq]
      cases r.msb <;> cases tmp.msb <;> rfl
    rw [← hsame, ArmCpu.setR_R_self, hnone, ofInt_add_toInt, decide_eq_false (fun h => h.1 rfl)]
    exact leaves_setQ (regPos i 16) _ false
  · have hacc : (cpu.setR (regPos i 16) (BitVec.ofInt 32 P + cpu.R (regPos i 12))).R (regPos i 12) =
        cpu.R (regPos i 12) := ArmCpu.setR_R_of_ne _ (Ne.symm hsame) _
    rw [hacc, overflowFromADD_eq_saddOverflow, saddOverflow_eq_not_fits, hint, ofInt_add_toInt]
    simp only [ne_eq, hsame, not_false_eq_true, true_and]
    exact leaves_setQ ..

/-- A saturating addition with the exact sum `S`. -/
structure LeavesClamped (cpu cpu' : ArmCpu) (rd : Fin 16) (S : ℤ) (overflow : Bool) : Prop where
  plain : ¬ (rd = 15 ∧ Fits 32 S) → cpu'.R = Function.update cpu.R rd (saturate 32 S)
  jump : rd = 15 ∧ Fits 32 S →
    cpu'.R = Function.update cpu.R rd (saturate 32 S &&& 0xFFFFFFFC) ∧
      cpu'.next_instruction = saturate 32 S &&& 0xFFFFFFFC
  flag : cpu'.CPSR.Q = (cpu.CPSR.Q || overflow)

theorem leaves_storeClamped {S : ℤ} (hlow : -2 ^ 32 ≤ S) (hhigh : S < 2 ^ 32) :
    LeavesClamped cpu (storeClamped i cpu (decide (¬ Fits 32 S)) (BitVec.ofInt 32 S))
      (regPos i 12) S (decide (¬ Fits 32 S)) := by
  by_cases hfits : Fits 32 S
  · rw [decide_eq_false (not_not_intro hfits), storeClamped, if_neg Bool.false_ne_true]
    constructor
    · intro h
      have hpc : regPos i 12 ≠ 15 := fun hc => h ⟨hc, hfits⟩
      rw [if_neg hpc, saturate_of_fits hfits]
      rfl
    · rintro ⟨hpc, -⟩
      rw [if_pos hpc, saturate_of_fits hfits, hpc, ArmCpu.setR_R_self]
      refine ⟨Function.update_idem .., ?_⟩
      exact ArmCpu.setR_R_self (cpu.setR 15 (BitVec.ofInt 32 S)) 15 _
    · rw [Bool.or_false]
      split_ifs <;> rfl
  · rw [decide_eq_true hfits, storeClamped, if_pos rfl, clamped_eq,
      ← saturate_of_overflow (by decide) hlow hhigh hfits]
    constructor
    · intro _
      rfl
    · rintro ⟨-, hc⟩
      exact absurd hc hfits
    · exact (Bool.or_true _).symm

/-- Sums of two words stay within a bit more than a word. -/
theorem sum_bounds (x y : Word) :
    (-2 ^ 32 ≤ x.toInt + y.toInt ∧ x.toInt + y.toInt < 2 ^ 32) ∧
      -2 ^ 32 ≤ x.toInt - y.toInt ∧ x.toInt - y.toInt < 2 ^ 32 := by
  obtain ⟨hx, hx'⟩ := fits_toInt x
  obtain ⟨hy, hy'⟩ := fits_toInt y
  refine ⟨⟨?_, ?_⟩, ?_, ?_⟩ <;> omega

theorem leaves_clampedSum (x y : Word) :
    LeavesClamped cpu (storeClamped i cpu (signedOverflow x y (x + y)) (x + y)) (regPos i 12)
      (x.toInt + y.toInt) (decide (¬ Fits 32 (x.toInt + y.toInt))) := by
  obtain ⟨⟨hlow, hhigh⟩, -⟩ := sum_bounds x y
  have hsum : x + y = BitVec.ofInt 32 (x.toInt + y.toInt) := by
    rw [BitVec.ofInt_add, BitVec.ofInt_toInt, BitVec.ofInt_toInt]
  have hstore := @leaves_storeClamped i cpu _ hlow hhigh
  rwa [signedOverflow_eq, saddOverflow_eq_not_fits, hsum]

theorem leaves_clampedDifference (x y : Word) :
    LeavesClamped cpu (storeClamped i cpu (signedUnderflow x y (x - y)) (x - y)) (regPos i 12)
      (x.toInt - y.toInt) (decide (¬ Fits 32 (x.toInt - y.toInt))) := by
  obtain ⟨-, hlow, hhigh⟩ := sum_bounds x y
  have hsum : x - y = BitVec.ofInt 32 (x.toInt - y.toInt) := by
    rw [Int.sub_eq_add_neg, BitVec.ofInt_add, BitVec.ofInt_neg, BitVec.ofInt_toInt,
      BitVec.ofInt_toInt, BitVec.sub_eq_add_neg]
  have hstore := @leaves_storeClamped i cpu _ hlow hhigh
  rwa [signedUnderflow_eq, ssubOverflow_eq_not_fits, hsum]

theorem doubled_eq (i : Word) (cpu : ArmCpu) :
    doubled i cpu = (saturate 32 (StickyOp.twice i cpu),
      if Fits 32 (StickyOp.twice i cpu) then cpu else cpu.setQ) := by
  have htwice : StickyOp.twice i cpu = (cpu.R (regPos i 16)).toInt + (cpu.R (regPos i 16)).toInt :=
    Int.two_mul _
  have hshift : cpu.R (regPos i 16) <<< 1 = cpu.R (regPos i 16) + cpu.R (regPos i 16) := by
    apply BitVec.eq_of_toNat_eq
    rw [BitVec.toNat_shiftLeft, BitVec.toNat_add, Nat.shiftLeft_eq, Nat.pow_one, Nat.mul_two]
  rw [htwice, doubled, hshift]
  generalize cpu.R (regPos i 16) = x
  obtain ⟨⟨hlow, hhigh⟩, -⟩ := sum_bounds x x
  have hsum : x + x = BitVec.ofInt 32 (x.toInt + x.toInt) := by
    rw [BitVec.ofInt_add, BitVec.ofInt_toInt]
  have hover : (x.getLsbD 31 ≠ (x + x).getLsbD 31) ↔ ¬ Fits 32 (x.toInt + x.toInt) := by
    rw [← decide_eq_true_iff (p := ¬ Fits 32 (x.toInt + x.toInt)), ← saddOverflow_eq_not_fits,
      BitVec.saddOverflow_eq, msb_eq, msb_eq]
    cases x.getLsbD 31 <;> cases (x + x).getLsbD 31 <;> decide
  by_cases hfits : Fits 32 (x.toInt + x.toInt)
  · rw [if_pos hfits, saturate_of_fits hfits, ← hsum]
    exact if_neg fun h => hover.mp h hfits
  · rw [if_neg hfits, saturate_of_overflow (by decide) hlow hhigh hfits, ← hsum, ← clamped_eq]
    exact if_pos (hover.mpr hfits)

/-! ### Every instruction -/

theorem half_product_fits (x y : BitVec 16) : Fits 32 (x.toInt * y.toInt) := by
  obtain ⟨hlow, hhigh⟩ := half_product_bounds x y
  constructor <;> omega

theorem leaves_SMLA (x y : Half) :
    Leaves cpu ((StickyOp.SMLA x y).execute i cpu) (regPos i 16)
      (BitVec.ofInt 32 ((StickyOp.SMLA x y).sum i cpu))
      (decide ((StickyOp.SMLA x y = .SMLA .B .B → regPos i 16 ≠ regPos i 12) ∧
        ¬ Fits 32 ((StickyOp.SMLA x y).sum i cpu))) := by
  have hadd : ∀ a b : BitVec 16, Leaves cpu
      (multiplyAdd i cpu (a.signExtend 32 * b.signExtend 32)) (regPos i 16)
      (BitVec.ofInt 32 (a.toInt * b.toInt + (cpu.R (regPos i 12)).toInt))
      (decide (¬ Fits 32 (a.toInt * b.toInt + (cpu.R (regPos i 12)).toInt))) := by
    intro a b
    rw [signExtend_mul_ofInt]
    exact leaves_multiplyAdd (half_product_fits a b)
  cases x with
  | B =>
    cases y with
    | B =>
      have hbb := @leaves_opSMLA_B_B i cpu _
        (half_product_fits (Half.B.of (cpu.R (regPos i 0))) (Half.B.of (cpu.R (regPos i 8))))
        (signExtend_mul_ofInt 32 _ _)
      simp only [forall_const]
      exact hbb
    | T =>
      simp only [StickyOp.SMLA.injEq, reduceCtorEq, and_false, false_implies, true_and]
      rw [StickyOp.execute, opSMLA_B_T, lword_eq, hword_eq]
      exact hadd _ _
  | T =>
    simp only [StickyOp.SMLA.injEq, reduceCtorEq, false_and, false_implies, true_and]
    cases y with
    | B =>
      rw [StickyOp.execute, opSMLA_T_B, lword_eq, hword_eq]
      exact hadd _ _
    | T =>
      rw [StickyOp.execute, opSMLA_T_T, hword_eq, hword_eq]
      exact hadd _ _

theorem wide_product_bounds (x : Word) (y : BitVec 16) :
    -2 ^ 46 ≤ x.toInt * y.toInt ∧ x.toInt * y.toInt ≤ 2 ^ 46 := by
  obtain ⟨hx, hx'⟩ := fits_toInt x
  obtain ⟨hy, hy'⟩ := fits_toInt y
  have hxabs : |x.toInt| ≤ 2 ^ 31 := abs_le.mpr ⟨hx, hx'.le⟩
  have hyabs : |y.toInt| ≤ 2 ^ 15 := abs_le.mpr ⟨hy, hy'.le⟩
  have habs : |x.toInt * y.toInt| ≤ 2 ^ 31 * 2 ^ 15 := by
    rw [abs_mul]
    exact mul_le_mul hxabs hyabs (abs_nonneg _) (by decide)
  exact abs_le.mp habs

/-- The upper 32 bits of a product of a word and a half. -/
theorem wide_product_fits (x : Word) (y : BitVec 16) : Fits 32 (x.toInt * y.toInt / 2 ^ 16) := by
  obtain ⟨hlow, hhigh⟩ := wide_product_bounds x y
  constructor <;> omega

theorem wide_product (x : Word) (y : BitVec 16) :
    (((y.signExtend 32).signExtend 64 * x.signExtend 64).sshiftRight 16).setWidth 32 =
      BitVec.ofInt 32 (x.toInt * y.toInt / 2 ^ 16) := by
  obtain ⟨hlow, hhigh⟩ := wide_product_bounds x y
  have hfits : Fits 64 (x.toInt * y.toInt) := ⟨by omega, by omega⟩
  have hshift : ((BitVec.ofInt 64 (x.toInt * y.toInt)).sshiftRight 16).toInt =
      x.toInt * y.toInt / 2 ^ 16 := by
    rw [BitVec.toInt_sshiftRight, toInt_ofInt_of_fits (by decide) hfits, Int.shiftRight_eq_div_pow]
    rfl
  rw [signExtend_mul_ofInt, BitVec.toInt_signExtend_of_le (by decide), Int.mul_comm,
    ← setWidth_ofInt, ← hshift, BitVec.ofInt_toInt]

theorem setWidth_lowWord (x : BitVec 64) : (x &&& 0xFFFFFFFF).setWidth 32 = x.setWidth 32 := by
  have hmask : (0xFFFFFFFF : BitVec 64).setWidth 32 = BitVec.allOnes 32 := by decide
  rw [BitVec.setWidth_and, hmask, BitVec.and_allOnes]

theorem leaves_SMLAW (y : Half) :
    Leaves cpu ((StickyOp.SMLAW y).execute i cpu) (regPos i 16)
      (BitVec.ofInt 32 ((StickyOp.SMLAW y).sum i cpu))
      (decide (¬ Fits 32 ((StickyOp.SMLAW y).sum i cpu))) := by
  cases y with
  | B =>
    rw [StickyOp.execute, opSMLAW_B, lword_eq]
    exact leaves_multiplyAddWide (wide_product_fits _ _) (wide_product _ _)
  | T =>
    rw [StickyOp.execute, opSMLAW_T, hword_eq]
    exact leaves_multiplyAddWide (wide_product_fits _ _)
      ((setWidth_lowWord _).trans (wide_product _ _))

theorem leaves_doubling {S : ℤ} {cpu' : ArmCpu}
    (h : LeavesClamped (doubled i cpu).2 cpu' (regPos i 12) S (decide (¬ Fits 32 S))) :
    LeavesClamped cpu cpu' (regPos i 12) S
      (decide (¬ Fits 32 S ∨ ¬ Fits 32 (StickyOp.twice i cpu))) := by
  rw [doubled_eq] at h
  obtain ⟨hplain, hjump, hflag⟩ := h
  by_cases hfits : Fits 32 (StickyOp.twice i cpu)
  · rw [if_pos hfits] at hplain hjump hflag
    refine ⟨hplain, hjump, ?_⟩
    simp only [hfits, not_true_eq_false, or_false]
    exact hflag
  · rw [if_neg hfits] at hplain hjump hflag
    refine ⟨hplain, hjump, ?_⟩
    simp only [hfits, not_false_eq_true, or_true, decide_true, Bool.or_true]
    rw [hflag]
    exact Bool.true_or _

theorem leaves_clamps {op : StickyOp} (h : op.clamps = true) :
    LeavesClamped cpu (op.execute i cpu) (regPos i 12) (op.sum i cpu)
      (decide (op.Overflows i cpu)) := by
  have hregs : (doubled i cpu).2.R = cpu.R := by
    rw [doubled_eq]
    split_ifs <;> rfl
  have hmul : (doubled i cpu).1 = saturate 32 (StickyOp.twice i cpu) := by rw [doubled_eq]
  cases op with
  | SMLA => exact absurd h Bool.false_ne_true
  | SMLAW => exact absurd h Bool.false_ne_true
  | QADD =>
    have hsum := @leaves_clampedSum i cpu (cpu.R (regPos i 16)) (cpu.R (regPos i 0))
    rw [Int.add_comm] at hsum
    simp only [StickyOp.Overflows, reduceCtorEq, or_self, false_and, or_false]
    exact hsum
  | QSUB =>
    simp only [StickyOp.Overflows, reduceCtorEq, or_self, false_and, or_false]
    exact leaves_clampedDifference _ _
  | QDADD =>
    have hsum := @leaves_clampedSum i (doubled i cpu).2 (cpu.R (regPos i 0))
      (saturate 32 (StickyOp.twice i cpu))
    rw [BitVec.add_comm] at hsum
    simp only [StickyOp.Overflows, reduceCtorEq, or_false, true_and]
    apply leaves_doubling
    have hexecute : opQDADD i cpu =
        let res := (doubled i cpu).1 + (doubled i cpu).2.R (regPos i 0)
        storeClamped i (doubled i cpu).2
          (signedOverflow ((doubled i cpu).2.R (regPos i 0)) (doubled i cpu).1 res) res := rfl
    rw [StickyOp.execute, hexecute, hregs, hmul]
    exact hsum
  | QDSUB =>
    have hdiff := @leaves_clampedDifference i (doubled i cpu).2 (cpu.R (regPos i 0))
      (saturate 32 (StickyOp.twice i cpu))
    simp only [StickyOp.Overflows, reduceCtorEq, false_or, true_and]
    apply leaves_doubling
    have hexecute : opQDSUB i cpu =
        let res := (doubled i cpu).2.R (regPos i 0) - (doubled i cpu).1
        storeClamped i (doubled i cpu).2
          (signedUnderflow ((doubled i cpu).2.R (regPos i 0)) (doubled i cpu).1 res) res := rfl
    rw [StickyOp.execute, hexecute, hregs, hmul]
    exact hdiff

theorem storesAligned_of_leaves {op : StickyOp} (hop : op.clamps = false) {overflow : Bool}
    (h : Leaves cpu (op.execute i cpu) (regPos i 16) (BitVec.ofInt 32 (op.sum i cpu)) overflow)
    (hflag : (op = .SMLA .B .B → regPos i 16 ≠ regPos i 12) →
      overflow = decide (op.Overflows i cpu)) : StoresAligned op i cpu := by
  have hrd : op.rd i = regPos i 16 := by
    rw [StickyOp.rd, hop]
    rfl
  have hresult : op.result i cpu = BitVec.ofInt 32 (op.sum i cpu) := by
    rw [StickyOp.result, hop]
    rfl
  have hjumps : ¬ op.Jumps i cpu := by
    rintro ⟨hc, -⟩
    rw [hop] at hc
    exact Bool.false_ne_true hc
  refine ⟨fun _ => ?_, fun hj => absurd hj hjumps, fun hne => ?_, fun hq => ?_, fun r hr => ?_⟩
  · rw [h.registers, hrd, hresult, Function.update_self]
  · rw [h.flag, hflag hne]
  · rw [h.flag, hq, Bool.true_or]
  · rw [h.registers, Function.update_of_ne (hrd ▸ hr)]

theorem storesAligned_of_leavesClamped {op : StickyOp} (hop : op.clamps = true)
    (h : LeavesClamped cpu (op.execute i cpu) (regPos i 12) (op.sum i cpu)
      (decide (op.Overflows i cpu))) : StoresAligned op i cpu := by
  have hrd : op.rd i = regPos i 12 := by
    rw [StickyOp.rd, hop]
    rfl
  have hresult : op.result i cpu = saturate 32 (op.sum i cpu) := by
    rw [StickyOp.result, hop]
    rfl
  have hjumps : op.Jumps i cpu ↔ regPos i 12 = 15 ∧ Fits 32 (op.sum i cpu) := by
    rw [StickyOp.Jumps, hrd]
    exact and_iff_right hop
  refine ⟨fun hj => ?_, fun hj => ?_, fun _ => h.flag, fun hq => ?_, fun r hr => ?_⟩
  · rw [h.plain (mt hjumps.mpr hj), hrd, hresult, Function.update_self]
  · obtain ⟨hregisters, hnext⟩ := h.jump (hjumps.mp hj)
    rw [hregisters, hresult, (hjumps.mp hj).1, Function.update_self]
    exact ⟨rfl, hnext⟩
  · rw [h.flag, hq, Bool.true_or]
  · rw [hrd] at hr
    by_cases hj : regPos i 12 = 15 ∧ Fits 32 (op.sum i cpu)
    · rw [(h.jump hj).1, Function.update_of_ne hr]
    · rw [h.plain hj, Function.update_of_ne hr]

theorem storesAligned (op : StickyOp) (i : Word) (cpu : ArmCpu) : StoresAligned op i cpu := by
  cases op with
  | SMLA x y =>
    refine storesAligned_of_leaves rfl (leaves_SMLA x y) fun hne => ?_
    simp only [StickyOp.Overflows, reduceCtorEq, or_self, false_and, or_false]
    exact decide_eq_decide.mpr (and_iff_right hne)
  | SMLAW y =>
    refine storesAligned_of_leaves rfl (leaves_SMLAW y) fun _ => ?_
    simp only [StickyOp.Overflows, reduceCtorEq, or_self, false_and, or_false]
  | QADD => exact storesAligned_of_leavesClamped rfl (leaves_clamps rfl)
  | QSUB => exact storesAligned_of_leavesClamped rfl (leaves_clamps rfl)
  | QDADD => exact storesAligned_of_leavesClamped rfl (leaves_clamps rfl)
  | QDSUB => exact storesAligned_of_leavesClamped rfl (leaves_clamps rfl)

/-- `QADD R15, R1, R0` with the sum 1. -/
theorem qadd_pc_not_exact : ¬ ∀ op i cpu, StoresExactly op i cpu := by
  intro h
  have hresult := (h .QADD 0xE100F051 numbered).result
  exact absurd hresult (by decide +kernel)

/-- The overflow of `SMLABB R0, R1, R2, R0` leaves `Q` as it was. -/
theorem smlabb_same_register {i : Word} {cpu : ArmCpu} (hsame : regPos i 16 = regPos i 12) :
    (opSMLA_B_B i cpu).CPSR.Q = cpu.CPSR.Q := by
  have h := @leaves_SMLA i cpu .B .B
  rw [decide_eq_false (fun hc => hc.1 rfl hsame)] at h
  exact h.flag.trans (Bool.or_false _)

end Desmume.Arm
