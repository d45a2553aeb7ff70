import Desmume.Arm.CpuDefs
import Desmume.Library.Alu

/-! The second operand of a data-processing instruction: the shift macros, and the barrel
shifter of the architecture that they implement. -/

namespace Desmume.Arm

open Desmume.Library

/-- The shift macros, by the shift and by where its amount comes from. -/
inductive Operand2 where
  | lslImm
  | lslReg
  | lsrImm
  | lsrReg
  | asrImm
  | asrReg
  | rorImm
  | rorReg
  | immValue
deriving DecidableEq, Repr

/-- `(i>>7)&0x1F`. -/
def shiftImm (i : Word) : ℕ := ((i >>> 7) &&& 0x1F).toNat

namespace ArmCpu

/-- `cpu->R[REG_POS(i,0)]`. -/
def rm (cpu : ArmCpu) (i : Word) : Word := cpu.R (regPos i 0)

/-- `(cpu->R[REG_POS(i,8)])&0xFF`. -/
def rsLow (cpu : ArmCpu) (i : Word) : ℕ := (cpu.R (regPos i 8) &&& 0xFF).toNat

end ArmCpu

/-- `BIT31(x)*0xFFFFFFFF`. -/
def signFill (x : Word) : Word := if x.getLsbD 31 then 0xFFFFFFFF else 0

/-- `ROR`. -/
def ror (x : Word) (n : ℕ) : Word := (x >>> n) ||| (x <<< (32 - n))

/-- `((u32)cpu->CPSR.bits.C<<31)|(x>>1)`. -/
def rrx (carry : Bool) (x : Word) : Word := (if carry then (0x80000000 : Word) else 0) ||| (x >>> 1)

section Macros

variable (i : Word) (cpu : ArmCpu)

/-- `LSL_IMM`. -/
def lslImm : Word := cpu.rm i <<< shiftImm i

/-- `S_LSL_IMM`, with `c`. -/
def sLslImm : Word × Bool :=
  let shift_op := shiftImm i
  if shift_op = 0 then (cpu.rm i, cpu.CPSR.C)
  else (cpu.rm i <<< shift_op, (cpu.rm i).getLsbD (32 - shift_op))

/-- `LSL_REG`. -/
def lslReg : Word :=
  let shift_op := cpu.rsLow i
  if 32 ≤ shift_op then 0 else cpu.rm i <<< shift_op

/-- `S_LSL_REG`. -/
def sLslReg : Word × Bool :=
  let shift_op := cpu.rsLow i
  if shift_op = 0 then (cpu.rm i, cpu.CPSR.C)
  else if shift_op < 32 then (cpu.rm i <<< shift_op, (cpu.rm i).getLsbD (32 - shift_op))
  else if shift_op = 32 then (0, (cpu.rm i).getLsbD 0)
  else (0, false)

/-- `LSR_IMM`. -/
def lsrImm : Word :=
  let shift_op := shiftImm i
  if shift_op ≠ 0 then cpu.rm i >>> shift_op else 0

/-- `S_LSR_IMM`. -/
def sLsrImm : Word × Bool :=
  let shift_op := shiftImm i
  if shift_op = 0 then (0, (cpu.rm i).getLsbD 31)
  else (cpu.rm i >>> shift_op, (cpu.rm i).getLsbD (shift_op - 1))

/-- `LSR_REG`. -/
def lsrReg : Word :=
  let shift_op := cpu.rsLow i
  if 32 ≤ shift_op then 0 else cpu.rm i >>> shift_op

/-- `S_LSR_REG`. -/
def sLsrReg : Word × Bool :=
  let shift_op := cpu.rsLow i
  if shift_op = 0 then (cpu.rm i, cpu.CPSR.C)
  else if shift_op < 32 then (cpu.rm i >>> shift_op, (cpu.rm i).getLsbD (shift_op - 1))
  else if shift_op = 32 then (0, (cpu.rm i).getLsbD 31)
  else (0, false)

/-- `ASR_IMM`. -/
def asrImm : Word :=
  let shift_op := shiftImm i
  if shift_op = 0 then signFill (cpu.rm i) else (cpu.rm i).sshiftRight shift_op

/-- `S_ASR_IMM`. -/
def sAsrImm : Word × Bool :=
  let shift_op := shiftImm i
  if shift_op = 0 then (signFill (cpu.rm i), (cpu.rm i).getLsbD 31)
  else ((cpu.rm i).sshiftRight shift_op, (cpu.rm i).getLsbD (shift_op - 1))

/-- `ASR_REG`. -/
def asrReg : Word :=
  let shift_op := cpu.rsLow i
  if shift_op = 0 then cpu.rm i
  else if shift_op < 32 then (cpu.rm i).sshiftRight shift_op
  else signFill (cpu.rm i)

/-- `S_ASR_REG`. -/
def sAsrReg : Word × Bool :=
  let shift_op := cpu.rsLow i
  if shift_op = 0 then (cpu.rm i, cpu.CPSR.C)
  else if shift_op < 32 then
    ((cpu.rm i).sshiftRight shift_op, (cpu.rm i).getLsbD (shift_op - 1))
  else (signFill (cpu.rm i), (cpu.rm i).getLsbD 31)

/-- `ROR_IMM`. -/
def rorImm : Word :=
  let shift_op := shiftImm i
  if shift_op = 0 then rrx cpu.CPSR.C (cpu.rm i) else ror (cpu.rm i) shift_op

/-- `S_ROR_IMM`. -/
def sRorImm : Word × Bool :=
  let shift_op := shiftImm i
  if shift_op = 0 then (rrx cpu.CPSR.C (cpu.rm i), (cpu.rm i).getLsbD 0)
  else (ror (cpu.rm i) shift_op, (cpu.rm i).getLsbD (shift_op - 1))

/-- `ROR_REG`. -/
def rorReg : Word :=
  let shift_op := cpu.rsLow i
  if shift_op = 0 ∨ shift_op % 32 = 0 then cpu.rm i else ror (cpu.rm i) (shift_op % 32)

/-- `S_ROR_REG`. -/
def sRorReg : Word × Bool :=
  let shift_op := cpu.rsLow i
  if shift_op = 0 then (cpu.rm i, cpu.CPSR.C)
  else
    let shift_op := shift_op % 32
    if shift_op = 0 then (cpu.rm i, (cpu.rm i).getLsbD 31)
    else (ror (cpu.rm i) shift_op, (cpu.rm i).getLsbD (shift_op - 1))

/-- `IMM_VALUE`. -/
def immValue : Word := ror (i &&& 0xFF) ((i >>> 7) &&& 0x1E).toNat

/-- `S_IMM_VALUE`. -/
def sImmValue : Word × Bool :=
  (immValue i, if (i >>> 8) &&& 0xF ≠ 0 then (immValue i).getLsbD 31 else cpu.CPSR.C)

end Macros

/-- The operand as the handlers without the S bit compute it. -/
def shiftOp (form : Operand2) (i : Word) (cpu : ArmCpu) : Word :=
  match form with
  | .lslImm => lslImm i cpu
  | .lslReg => lslReg i cpu
  | .lsrImm => lsrImm i cpu
  | .lsrReg => lsrReg i cpu
  | .asrImm => asrImm i cpu
  | .asrReg => asrReg i cpu
  | .rorImm => rorImm i cpu
  | .rorReg => rorReg i cpu
  | .immValue => immValue i

/-- The operand and the carry of the logical handlers with the S bit. -/
def sShiftOp (form : Operand2) (i : Word) (cpu : ArmCpu) : Word × Bool :=
  match form with
  | .lslImm => sLslImm i cpu
  | .lslReg => sLslReg i cpu
  | .lsrImm => sLsrImm i cpu
  | .lsrReg => sLsrReg i cpu
  | .asrImm => sAsrImm i cpu
  | .asrReg => sAsrReg i cpu
  | .rorImm => sRorImm i cpu
  | .rorReg => sRorReg i cpu
  | .immValue => sImmValue i cpu

/-! ### The barrel shifter -/

inductive ShiftType where
  | lsl
  | lsr
  | asr
  | ror
  | rrx
deriving DecidableEq, Repr

/-- `Shift_C`. -/
def shiftC (x : Word) (type : ShiftType) (amount : ℕ) (carry : Bool) : Word × Bool :=
  if amount = 0 then (x, carry)
  else
    match type with
    | .lsl => lslC x amount
    | .lsr => lsrC x amount
    | .asr => asrC x amount
    | .ror => rorC x amount
    | .rrx => rrxC x carry

/-- `DecodeImmShift`: an amount of zero stands for 32, or for a rotation through the carry. -/
def decodeImmShift (type : ShiftType) (imm5 : ℕ) : ShiftType × ℕ :=
  match type with
  | .lsl => (.lsl, imm5)
  | .lsr => (.lsr, if imm5 = 0 then 32 else imm5)
  | .asr => (.asr, if imm5 = 0 then 32 else imm5)
  | .ror => if imm5 = 0 then (.rrx, 1) else (.ror, imm5)
  | .rrx => (.rrx, 1)

namespace Operand2

def shift : Operand2 → ShiftType
  | .lslImm | .lslReg => .lsl
  | .lsrImm | .lsrReg => .lsr
  | .asrImm | .asrReg => .asr
  | .rorImm | .rorReg | .immValue => .ror

def byRegister : Operand2 → Bool
  | .lslReg | .lsrReg | .asrReg | .rorReg => true
  | _ => false

end Operand2

/-- The second operand and the shifter carry of the architecture. -/
def operand2C (form : Operand2) (i : Word) (cpu : ArmCpu) : Word × Bool :=
  if form = .immValue then
    shiftC ((i.extractLsb' 0 8).setWidth 32) .ror (2 * (i.extractLsb' 8 4).toNat) cpu.CPSR.C
  else if form.byRegister then
    shiftC (cpu.R (regPos i 0)) form.shift
      ((cpu.R (regPos i 8)).extractLsb' 0 8).toNat cpu.CPSR.C
  else
    let shift := decodeImmShift form.shift (i.extractLsb' 7 5).toNat
    shiftC (cpu.R (regPos i 0)) shift.1 shift.2 cpu.CPSR.C

/-! ### The macros compute the architecture's operand -/

theorem shiftImm_eq (i : Word) : shiftImm i = (i.extractLsb' 7 5).toNat := by
  rw [shiftImm, BitVec.toNat_and, BitVec.toNat_ushiftRight, BitVec.extractLsb'_toNat]
  exact Nat.and_two_pow_sub_one_eq_mod _ 5

theorem rsLow_eq (i : Word) (cpu : ArmCpu) :
    cpu.rsLow i = ((cpu.R (regPos i 8)).extractLsb' 0 8).toNat := by
  rw [ArmCpu.rsLow, BitVec.toNat_and, BitVec.extractLsb'_toNat, Nat.shiftRight_zero]
  exact Nat.and_two_pow_sub_one_eq_mod _ 8

theorem shiftImm_lt (i : Word) : shiftImm i < 32 := by
  rw [shiftImm_eq]
  exact BitVec.isLt _

theorem msb_eq (x : Word) : x.msb = x.getLsbD 31 := BitVec.msb_eq_getLsbD_last x

theorem sshiftRight_eq_signFill (x : Word) {n : ℕ} (hn : 32 ≤ n) : x.sshiftRight n = signFill x := by
  apply BitVec.eq_of_getLsbD_eq
  intro k hk
  rw [BitVec.getLsbD_sshiftRight, decide_eq_false (Nat.not_le.mpr hk), if_neg (by omega), signFill,
    msb_eq]
  cases x.getLsbD 31 with
  | false => rw [if_neg Bool.false_ne_true, BitVec.ofNat_eq_ofNat, BitVec.getLsbD_zero]; rfl
  | true =>
    rw [if_pos rfl, show (0xFFFFFFFF : Word) = BitVec.allOnes 32 by decide, BitVec.getLsbD_allOnes,
      decide_eq_true hk]
    rfl

theorem ror_zero (x : Word) : ror x 0 = x := by
  rw [ror, BitVec.ushiftRight_zero, BitVec.shiftLeft_eq_zero (by decide), BitVec.or_zero]

theorem ror_last (x : Word) {n : ℕ} (h0 : 0 < n) (hn : n < 32) :
    (ror x n).getLsbD 31 = x.getLsbD (n - 1) := by
  have hlow : x.getLsbD (n + 31) = false := BitVec.getLsbD_of_ge x _ (by omega)
  rw [← msb_eq, BitVec.msb_eq_getLsbD_last, ror, BitVec.getLsbD_or, BitVec.getLsbD_ushiftRight,
    BitVec.getLsbD_shiftLeft, hlow, Bool.false_or, decide_eq_true (by decide),
    decide_eq_false (show ¬ 31 < 32 - n by omega), show 31 - (32 - n) = n - 1 by omega]
  rfl

theorem rrx_eq (x : Word) (carry : Bool) : rrx carry x = (rrxC x carry).1 := by
  apply BitVec.eq_of_getLsbD_eq
  intro k hk
  rw [rrx, rrxC, BitVec.getLsbD_or, BitVec.getLsbD_ushiftRight, BitVec.getLsbD_extractLsb',
    BitVec.getLsbD_cons, decide_eq_true hk]
  by_cases h31 : k = 31
  · subst h31
    cases carry <;> simp
  · have hbit : (if carry then (0x80000000 : Word) else 0).getLsbD k = false := by
      cases carry with
      | false => simp
      | true =>
        rw [if_pos rfl]
        interval_cases k <;> first | rfl | omega
    rw [hbit, if_neg (by omega)]
    simp

theorem shiftC_lsl (x : Word) (n : ℕ) (carry : Bool) :
    shiftC x .lsl n carry =
      if n = 0 then (x, carry)
      else if n < 32 then (x <<< n, x.getLsbD (32 - n))
      else if n = 32 then (0, x.getLsbD 0)
      else (0, false) := by
  rw [shiftC]
  split_ifs with h0 hlt h32
  · rfl
  · exact Prod.ext (lslC_fst x n) ((lslC_snd x n).trans (if_pos hlt.le))
  · subst h32
    exact Prod.ext ((lslC_fst x 32).trans (BitVec.shiftLeft_eq_zero (by decide)))
      (lslC_snd x 32)
  · exact Prod.ext ((lslC_fst x n).trans (BitVec.shiftLeft_eq_zero (by omega)))
      ((lslC_snd x n).trans (if_neg (by omega)))

theorem shiftC_lsr (x : Word) (n : ℕ) (carry : Bool) :
    shiftC x .lsr n carry =
      if n = 0 then (x, carry)
      else if n < 32 then (x >>> n, x.getLsbD (n - 1))
      else if n = 32 then (0, x.getLsbD 31)
      else (0, false) := by
  rw [shiftC]
  split_ifs with h0 hlt h32
  · rfl
  · exact Prod.ext (lsrC_fst x n) (lsrC_snd x (by omega))
  · subst h32
    exact Prod.ext ((lsrC_fst x 32).trans (BitVec.ushiftRight_eq_zero (by decide)))
      (lsrC_snd x (by decide))
  · exact Prod.ext ((lsrC_fst x n).trans (BitVec.ushiftRight_eq_zero (by omega)))
      ((lsrC_snd x (by omega)).trans (BitVec.getLsbD_of_ge x _ (by omega)))

theorem shiftC_asr (x : Word) (n : ℕ) (carry : Bool) :
    shiftC x .asr n carry =
      if n = 0 then (x, carry)
      else if n < 32 then (x.sshiftRight n, x.getLsbD (n - 1))
      else (signFill x, x.getLsbD 31) := by
  rw [shiftC]
  split_ifs with h0 hlt
  · rfl
  · exact Prod.ext (asrC_fst x n) ((asrC_snd x (by omega)).trans (if_pos hlt.le))
  · refine Prod.ext ((asrC_fst x n).trans (sshiftRight_eq_signFill x (by omega))) ?_
    refine (asrC_snd x (by omega)).trans ?_
    split_ifs with h32
    · rw [show n = 32 by omega]
    · exact msb_eq x

theorem shiftC_ror (x : Word) (n : ℕ) (carry : Bool) :
    shiftC x .ror n carry =
      if n = 0 then (x, carry)
      else if n % 32 = 0 then (x, x.getLsbD 31)
      else (ror x (n % 32), x.getLsbD (n % 32 - 1)) := by
  have hlt : n % 32 < 32 := Nat.mod_lt _ (by decide)
  have hresult : rorC x n = (ror x (n % 32), (ror x (n % 32)).getLsbD 31) := Prod.ext rfl (msb_eq _)
  rw [shiftC]
  split_ifs with h0 hmod
  · rfl
  · simp only [hresult, hmod, ror_zero]
  · simp only [hresult, ror_last x (Nat.pos_of_ne_zero hmod) hlt]

theorem shiftC_rrx (x : Word) (carry : Bool) :
    shiftC x .rrx 1 carry = (rrx carry x, x.getLsbD 0) :=
  Prod.ext (rrx_eq x carry).symm rfl

theorem rotation_eq (i : Word) : ((i >>> 7) &&& 0x1E).toNat = 2 * (i.extractLsb' 8 4).toNat := by
  have hbits : (i >>> 7) &&& (0x1E : Word) = (i.extractLsb' 8 4).setWidth 32 <<< 1 := by
    apply BitVec.eq_of_getLsbD_eq
    intro k hk
    interval_cases k <;> simp
  have hlt := (i.extractLsb' 8 4).isLt
  rw [hbits, BitVec.toNat_shiftLeft, BitVec.toNat_setWidth, Nat.shiftLeft_eq]
  omega

theorem immValue_eq (i : Word) :
    immValue i = ror ((i.extractLsb' 0 8).setWidth 32) (2 * (i.extractLsb' 8 4).toNat) := by
  have hbits : i &&& 0xFF = (i.extractLsb' 0 8).setWidth 32 := by
    apply BitVec.eq_of_getLsbD_eq
    intro k hk
    interval_cases k <;> simp
  rw [immValue, rotation_eq, hbits]

/-- The test for a rotation. -/
theorem rotated_iff (i : Word) : (i >>> 8) &&& 0xF ≠ 0 ↔ 2 * (i.extractLsb' 8 4).toNat ≠ 0 := by
  have hval : ((i >>> 8) &&& 0xF).toNat = (i.extractLsb' 8 4).toNat := by
    rw [BitVec.toNat_and, BitVec.toNat_ushiftRight, BitVec.extractLsb'_toNat]
    exact Nat.and_two_pow_sub_one_eq_mod _ 4
  rw [ne_eq, ← BitVec.toNat_inj, hval]
  simp

/-- Every macro with a carry computes the operand and the shifter carry of the architecture. -/
theorem sShiftOp_eq (form : Operand2) (i : Word) (cpu : ArmCpu) :
    sShiftOp form i cpu = operand2C form i cpu := by
  have himm := shiftImm_lt i
  cases form with
  | lslImm =>
    simp only [sShiftOp, sLslImm, operand2C, Operand2.byRegister, Operand2.shift, decodeImmShift,
      ← shiftImm_eq, reduceCtorEq, if_false, Bool.false_eq_true, shiftC_lsl, himm, if_true]
    rfl
  | lslReg =>
    simp only [sShiftOp, sLslReg, operand2C, Operand2.byRegister, Operand2.shift, ← rsLow_eq,
      reduceCtorEq, if_false, if_true, shiftC_lsl]
    rfl
  | lsrImm =>
    simp only [sShiftOp, sLsrImm, operand2C, Operand2.byRegister, Operand2.shift, decodeImmShift,
      ← shiftImm_eq, reduceCtorEq, if_false, Bool.false_eq_true, shiftC_lsr]
    by_cases h0 : shiftImm i = 0
    · simp only [h0, if_true]
      rfl
    · simp only [h0, if_false, himm, if_true]
      rfl
  | lsrReg =>
    simp only [sShiftOp, sLsrReg, operand2C, Operand2.byRegister, Operand2.shift, ← rsLow_eq,
      reduceCtorEq, if_false, if_true, shiftC_lsr]
    rfl
  | asrImm =>
    simp only [sShiftOp, sAsrImm, operand2C, Operand2.byRegister, Operand2.shift, decodeImmShift,
      ← shiftImm_eq, reduceCtorEq, if_false, Bool.false_eq_true, shiftC_asr]
    by_cases h0 : shiftImm i = 0
    · simp only [h0, if_true]
      rfl
    · simp only [h0, if_false, himm, if_true]
      rfl
  | asrReg =>
    simp only [sShiftOp, sAsrReg, operand2C, Operand2.byRegister, Operand2.shift, ← rsLow_eq,
      reduceCtorEq, if_false, if_true, shiftC_asr]
    rfl
  | rorImm =>
    simp only [sShiftOp, sRorImm, operand2C, Operand2.byRegister, Operand2.shift, decodeImmShift,
      ← shiftImm_eq, reduceCtorEq, if_false, Bool.false_eq_true]
    by_cases h0 : shiftImm i = 0
    · simp only [h0, if_true, shiftC_rrx]
      rfl
    · simp only [h0, if_false, shiftC_ror, Nat.mod_eq_of_lt himm]
      rfl
  | rorReg =>
    simp only [sShiftOp, sRorReg, operand2C, Operand2.byRegister, Operand2.shift, ← rsLow_eq,
      reduceCtorEq, if_false, if_true, shiftC_ror]
    rfl
  | immValue =>
    have hlt : 2 * (i.extractLsb' 8 4).toNat < 32 := by
      have := (i.extractLsb' 8 4).isLt
      omega
    rw [sShiftOp, sImmValue, operand2C, if_pos rfl, immValue_eq, shiftC_ror, Nat.mod_eq_of_lt hlt]
    by_cases h0 : 2 * (i.extractLsb' 8 4).toNat = 0
    · rw [if_neg (fun h => (rotated_iff i).mp h h0), if_pos h0, h0, ror_zero]
    · rw [if_pos ((rotated_iff i).mpr h0), if_neg h0, if_neg h0, ror_last _ (Nat.pos_of_ne_zero h0) hlt]

/-- The macros without a carry compute the same operand. -/
theorem shiftOp_eq (form : Operand2) (i : Word) (cpu : ArmCpu) :
    shiftOp form i cpu = (operand2C form i cpu).1 := by
  rw [← sShiftOp_eq]
  have himm := shiftImm_lt i
  have hmod : cpu.rsLow i % 32 < 32 := Nat.mod_lt _ (by decide)
  cases form with
  | lslImm =>
    simp only [shiftOp, lslImm, sShiftOp, sLslImm]
    split_ifs with h
    · rw [h, BitVec.shiftLeft_zero]
    · rfl
  | lslReg =>
    simp only [shiftOp, lslReg, sShiftOp, sLslReg]
    split_ifs <;> first | rfl | omega | simp [*]
  | lsrImm =>
    simp only [shiftOp, lsrImm, sShiftOp, sLsrImm]
    split_ifs <;> first | rfl | contradiction
  | lsrReg =>
    simp only [shiftOp, lsrReg, sShiftOp, sLsrReg]
    split_ifs <;> first | rfl | omega | simp [*]
  | asrImm =>
    simp only [shiftOp, asrImm, sShiftOp, sAsrImm]
    split_ifs <;> rfl
  | asrReg =>
    simp only [shiftOp, asrReg, sShiftOp, sAsrReg]
    split_ifs <;> rfl
  | rorImm =>
    simp only [shiftOp, rorImm, sShiftOp, sRorImm]
    split_ifs <;> rfl
  | rorReg =>
    simp only [shiftOp, rorReg, sShiftOp, sRorReg]
    split_ifs <;> first | rfl | omega
  | immValue => rfl

end Desmume.Arm
