import Desmume.Arm.ThumbEncoding

/-! The data-processing instructions of THUMB state against those of ARM state. -/

namespace Desmume.Arm

open Desmume.Library

/-! ### The operands of the ARM words -/

section Operands

variable (op : Opcode) (S : Bool) (rd rn rm : BitVec 4) (cpu : ArmCpu)

theorem rm_dpShift (type : ShiftType) (imm : BitVec 5) :
    cpu.rm (dpShift op S rd rn rm type imm) = cpu.R (reg rm) := by
  rw [ArmCpu.rm, regPos_dpShift]

theorem lslImm_plain : lslImm (dpShift op S rd rn rm .lsl 0) cpu = cpu.R (reg rm) := by
  rw [lslImm, shiftImm_dpShift, rm_dpShift]
  exact BitVec.shiftLeft_zero _

theorem sLslImm_plain :
    sLslImm (dpShift op S rd rn rm .lsl 0) cpu = (cpu.R (reg rm), cpu.CPSR.C) := by
  rw [sLslImm, shiftImm_dpShift, rm_dpShift]
  rfl

theorem immValue_plain (imm : BitVec 8) : immValue (dpImm op S rd rn 0 imm) = imm.setWidth 32 := by
  rw [immValue_dpImm]
  exact ror_zero _

theorem immValue_scaled (imm : BitVec 8) :
    immValue (dpImm op S rd rn 15 imm) = imm.setWidth 32 <<< 2 := by
  have himm := imm.isLt
  have hshift : (imm.setWidth 32 : Word) >>> 30 = 0 := by
    apply BitVec.eq_of_toNat_eq
    rw [BitVec.toNat_ushiftRight, BitVec.toNat_setWidth, Nat.shiftRight_eq_div_pow]
    change imm.toNat % 2 ^ 32 / 2 ^ 30 = 0
    omega
  rw [immValue_dpImm]
  change (imm.setWidth 32 : Word) >>> 30 ||| (imm.setWidth 32 : Word) <<< 2 = _
  rw [hshift]
  exact BitVec.zero_or

theorem sImmValue_plain (imm : BitVec 8) :
    sImmValue (dpImm op S rd rn 0 imm) cpu = (imm.setWidth 32, cpu.CPSR.C) := by
  have hrot : ¬ (dpImm op S rd rn 0 imm >>> 8) &&& 0xF ≠ 0 := by
    have h : (0#4 ++ imm).extractLsb' 8 4 = 0#4 :=
      (BitVec.extractLsb'_append_eq_of_le le_rfl).trans BitVec.extractLsb'_eq_self
    rw [rotated_iff, dpImm, word_extract_operand _ _ _ _ (by decide), not_not]
    exact congrArg (fun b => 2 * b.toNat) h
  rw [sImmValue, immValue_plain, if_neg hrot]

theorem sLslImm_dpShift {imm : BitVec 5} (h : imm.toNat ≠ 0) :
    sLslImm (dpShift op S rd rn rm .lsl imm) cpu =
      (cpu.R (reg rm) <<< imm.toNat, (cpu.R (reg rm)).getLsbD (32 - imm.toNat)) := by
  simp only [sLslImm, shiftImm_dpShift, rm_dpShift, if_neg h]

theorem sLsrImm_dpShift (imm : BitVec 5) :
    sLsrImm (dpShift op S rd rn rm .lsr imm) cpu =
      if imm.toNat = 0 then ((0 : Word), (cpu.R (reg rm)).getLsbD 31)
      else (cpu.R (reg rm) >>> imm.toNat, (cpu.R (reg rm)).getLsbD (imm.toNat - 1)) := by
  simp only [sLsrImm, shiftImm_dpShift, rm_dpShift]

theorem sAsrImm_dpShift (imm : BitVec 5) :
    sAsrImm (dpShift op S rd rn rm .asr imm) cpu =
      if imm.toNat = 0 then (signFill (cpu.R (reg rm)), (cpu.R (reg rm)).getLsbD 31)
      else ((cpu.R (reg rm)).sshiftRight imm.toNat, (cpu.R (reg rm)).getLsbD (imm.toNat - 1)) := by
  simp only [sAsrImm, shiftImm_dpShift, rm_dpShift]

theorem rm_dpRegShift (type : ShiftType) (rs : BitVec 4) :
    cpu.rm (dpRegShift op S rd rn rm type rs) = cpu.R (reg rm) := by
  rw [ArmCpu.rm, (regPos_dpRegShift op S rd rn rm type rs).1]

theorem rsLow_dpRegShift (type : ShiftType) (rs : BitVec 4) :
    cpu.rsLow (dpRegShift op S rd rn rm type rs) = (cpu.R (reg rs) &&& 0xFF).toNat := by
  rw [ArmCpu.rsLow, (regPos_dpRegShift op S rd rn rm type rs).2]

end Operands

section Words

variable (op : BitVec 12) {rn rd : BitVec 4} (operand : BitVec 12) (cpu : ArmCpu)

theorem rn_word : cpu.rn (word op rn rd operand) = cpu.R (reg rn) := by
  rw [ArmCpu.rn, regPos_word_rn]

theorem opPlain_word (hd : reg rd ≠ 15) (v : Word) :
    opPlain (word op rn rd operand) v cpu = cpu.setR (reg rd) v := by
  rw [opPlain_eq, regPos_word_rd]
  rwa [regPos_word_rd]

theorem opLogicalS_word (hd : reg rd ≠ 15) (v : Word) (c : Bool) :
    opLogicalS (word op rn rd operand) v c cpu =
      (cpu.setR (reg rd) v).setFlags (v.getLsbD 31) (v == 0) c cpu.CPSR.V := by
  unfold opLogicalS
  rw [regPos_word_rd, if_neg hd]
  rfl

theorem opArithmeticS_word (hd : reg rd ≠ 15) (v : Word) (C V : Bool) :
    opArithmeticS (word op rn rd operand) v C V cpu =
      (cpu.setR (reg rd) v).setFlags (v.getLsbD 31) (v == 0) C V := by
  unfold opArithmeticS
  rw [regPos_word_rd, if_neg hd]

end Words

namespace Thumb

section DataProcessing

variable (i : Word) (cpu : ArmCpu)

theorem regNum_ne_pc (n : ℕ) : regNum i n ≠ 15 := regNum_ne i n (by decide)

theorem reg_lo_ne (n : ℕ) : reg (lo i n) ≠ 15 := by
  rw [reg_lo]
  exact regNum_ne_pc i n

/-- Writing a register its own value changes nothing. -/
theorem setR_self (n : Fin 16) : cpu.setR n (cpu.R n) = cpu := by
  rw [ArmCpu.setR, Function.update_eq_self]
  rfl

theorem and_eq :
    handlerS .and .lslImm (dpShift .and true (lo i 0) (lo i 0) (lo i 3) .lsl 0) cpu =
      opAND i cpu := by
  simp only [handlerS, sShiftOp, sLslImm_plain, opANDS]
  rw [dpShift, opLogicalS_word _ _ _ (reg_lo_ne i 0), rn_word, reg_lo, reg_lo]
  rfl

theorem eor_eq :
    handlerS .eor .lslImm (dpShift .eor true (lo i 0) (lo i 0) (lo i 3) .lsl 0) cpu =
      opEOR i cpu := by
  simp only [handlerS, sShiftOp, sLslImm_plain, opEORS]
  rw [dpShift, opLogicalS_word _ _ _ (reg_lo_ne i 0), rn_word, reg_lo, reg_lo]
  rfl

theorem orr_eq :
    handlerS .orr .lslImm (dpShift .orr true (lo i 0) (lo i 0) (lo i 3) .lsl 0) cpu =
      opORR i cpu := by
  simp only [handlerS, sShiftOp, sLslImm_plain, opORRS]
  rw [dpShift, opLogicalS_word _ _ _ (reg_lo_ne i 0), rn_word, reg_lo, reg_lo]
  rfl

theorem bic_eq :
    handlerS .bic .lslImm (dpShift .bic true (lo i 0) (lo i 0) (lo i 3) .lsl 0) cpu =
      opBIC i cpu := by
  simp only [handlerS, sShiftOp, sLslImm_plain, opBICS]
  rw [dpShift, opLogicalS_word _ _ _ (reg_lo_ne i 0), rn_word, reg_lo, reg_lo]
  rfl

theorem mvn_eq :
    handlerS .mvn .lslImm (dpShift .mvn true (lo i 0) 0 (lo i 3) .lsl 0) cpu = opMVN i cpu := by
  simp only [handlerS, sShiftOp, sLslImm_plain, opMVNS]
  rw [dpShift, opLogicalS_word _ _ _ (reg_lo_ne i 0), reg_lo, reg_lo]
  rfl

theorem tst_eq :
    handlerS .tst .lslImm (dpShift .tst true 0 (lo i 0) (lo i 3) .lsl 0) cpu =
      Thumb.opTST i cpu := by
  simp only [handlerS, handler, sShiftOp, sLslImm_plain]
  rw [Arm.opTST, dpShift, rn_word, reg_lo, reg_lo]
  rfl

theorem addReg_eq :
    handlerS .add .lslImm (dpShift .add true (lo i 0) (lo i 3) (lo i 6) .lsl 0) cpu =
      opADD_REG i cpu := by
  simp only [handlerS, shiftOp, lslImm_plain, opADDS]
  rw [dpShift, opArithmeticS_word _ _ _ (reg_lo_ne i 0), rn_word, reg_lo, reg_lo, reg_lo]
  rfl

theorem subReg_eq :
    handlerS .sub .lslImm (dpShift .sub true (lo i 0) (lo i 3) (lo i 6) .lsl 0) cpu =
      opSUB_REG i cpu := by
  simp only [handlerS, shiftOp, lslImm_plain, opSUBS]
  rw [dpShift, opArithmeticS_word _ _ _ (reg_lo_ne i 0), rn_word, reg_lo, reg_lo, reg_lo]
  rfl

theorem addImm8_eq :
    handlerS .add .immValue (dpImm .add true (lo i 8) (lo i 8) 0 (imm8Field i)) cpu =
      opADD_IMM8 i cpu := by
  simp only [handlerS, shiftOp, immValue_plain, opADDS, ← imm8_eq]
  rw [dpImm, opArithmeticS_word _ _ _ (reg_lo_ne i 8), rn_word, reg_lo]
  rfl

theorem subImm8_eq :
    handlerS .sub .immValue (dpImm .sub true (lo i 8) (lo i 8) 0 (imm8Field i)) cpu =
      opSUB_IMM8 i cpu := by
  simp only [handlerS, shiftOp, immValue_plain, opSUBS, ← imm8_eq]
  rw [dpImm, opArithmeticS_word _ _ _ (reg_lo_ne i 8), rn_word, reg_lo]
  rfl

theorem subImm3_eq :
    handlerS .sub .immValue (dpImm .sub true (lo i 0) (lo i 3) 0 (imm3Field i)) cpu =
      opSUB_IMM3 i cpu := by
  simp only [handlerS, shiftOp, immValue_plain, opSUBS, ← imm3_eq]
  rw [dpImm, opArithmeticS_word _ _ _ (reg_lo_ne i 0), rn_word, reg_lo, reg_lo]
  rfl

/-- Adding zero carries and overflows never: `ADDS` with zero leaves the flags of the separate
branch of the handler. -/
theorem addImm3_eq :
    handlerS .add .immValue (dpImm .add true (lo i 0) (lo i 3) 0 (imm3Field i)) cpu =
      opADD_IMM3 i cpu := by
  simp only [handlerS, shiftOp, immValue_plain, opADDS, ← imm3_eq]
  rw [dpImm, opArithmeticS_word _ _ _ (reg_lo_ne i 0), rn_word, reg_lo, reg_lo, opADD_IMM3]
  split_ifs with h
  · have hcarry : carryFrom (cpu.R (regNum i 3)) 0 = false := by
      apply decide_eq_false
      exact BitVec.not_lt_zero
    have hoverflow : overflowFromADD (cpu.R (regNum i 3)) (cpu.R (regNum i 3)) 0 = false := by
      rw [overflowFromADD_eq, bne_self_eq_false, Bool.and_false]
    have hsum : cpu.R (regNum i 3) + 0 = cpu.R (regNum i 3) := BitVec.add_zero _
    rw [h, hsum, hcarry, hoverflow]
    rfl
  · rfl

theorem movImm8_eq :
    handlerS .mov .immValue (dpImm .mov true (lo i 8) 0 0 (imm8Field i)) cpu =
      opMOV_IMM8 i cpu := by
  simp only [handlerS, sShiftOp, sImmValue_plain, opMOVS, ← imm8_eq]
  rw [dpImm, opLogicalS_word _ _ _ (reg_lo_ne i 8), reg_lo]
  rfl

theorem cmpImm8_eq :
    handlerS .cmp .immValue (dpImm .cmp true 0 (lo i 8) 0 (imm8Field i)) cpu =
      opCMP_IMM8 i cpu := by
  simp only [handlerS, handler, shiftOp, immValue_plain, ← imm8_eq]
  rw [Arm.opCMP, dpImm, rn_word, reg_lo]
  rfl

theorem cmp_eq :
    handlerS .cmp .lslImm (dpShift .cmp true 0 (lo i 0) (lo i 3) .lsl 0) cpu =
      Thumb.opCMP i cpu := by
  simp only [handlerS, handler, shiftOp, lslImm_plain]
  rw [Arm.opCMP, dpShift, rn_word, reg_lo, reg_lo]
  rfl

theorem cmn_eq :
    handlerS .cmn .lslImm (dpShift .cmn true 0 (lo i 0) (lo i 3) .lsl 0) cpu =
      Thumb.opCMN i cpu := by
  simp only [handlerS, handler, shiftOp, lslImm_plain]
  rw [Arm.opCMN, dpShift, rn_word, reg_lo, reg_lo]
  rfl

theorem cmpSpe_eq :
    handlerS .cmp .lslImm (dpShift .cmp true 0 (hi i) (rmHi i) .lsl 0) cpu =
      opCMP_SPE i cpu := by
  simp only [handlerS, handler, shiftOp, lslImm_plain]
  rw [Arm.opCMP, dpShift, rn_word, reg_hi, reg_rmHi]
  rfl

theorem neg_eq :
    handlerS .rsb .immValue (dpImm .rsb true (lo i 0) (lo i 3) 0 0) cpu = opNEG i cpu := by
  have hzero : (0 : BitVec 8).setWidth 32 = (0 : Word) := by decide
  simp only [handlerS, shiftOp, immValue_plain, opRSBS, hzero]
  rw [dpImm, opArithmeticS_word _ _ _ (reg_lo_ne i 0), rn_word, reg_lo, reg_lo]
  rfl

/-- The fields of the words for two low registers. -/
theorem lowWord_fields (op : Opcode) :
    regPos (dpShift op true (lo i 0) (lo i 0) (lo i 3) .lsl 0) 12 = regNum i 0 ∧
      cpu.rn (dpShift op true (lo i 0) (lo i 0) (lo i 3) .lsl 0) = cpu.lo i 0 ∧
      lslImm (dpShift op true (lo i 0) (lo i 0) (lo i 3) .lsl 0) cpu = cpu.lo i 3 := by
  refine ⟨?_, ?_, ?_⟩
  · rw [dpShift, regPos_word_rd, reg_lo]
  · rw [dpShift, rn_word, reg_lo]
    rfl
  · rw [lslImm_plain, reg_lo]
    rfl

/-- The carry is compared with the other operand; by the symmetry of the sum it is the same. -/
theorem adc_eq :
    handlerS .adc .lslImm (dpShift .adc true (lo i 0) (lo i 0) (lo i 3) .lsl 0) cpu =
      opADC_REG i cpu := by
  have hsum := sum_adc (cpu.lo i 3) (cpu.lo i 0) cpu.CPSR.C
  rw [addWithCarry_comm, sum_adc (cpu.lo i 0), BitVec.add_comm (cpu.lo i 3)] at hsum
  have hcarry := congrArg AluSum.carry hsum
  obtain ⟨hd, hn, hm⟩ := lowWord_fields i cpu .adc
  generalize dpShift .adc true (lo i 0) (lo i 0) (lo i 3) .lsl 0 = w at hd hn hm
  simp only [handlerS, shiftOp, hm, opADCS, hn, hd, if_neg (regNum_ne_pc i 0),
    opADC_REG]
  simp only at hcarry
  rw [hcarry]

theorem sbc_eq :
    handlerS .sbc .lslImm (dpShift .sbc true (lo i 0) (lo i 0) (lo i 3) .lsl 0) cpu =
      opSBC_REG i cpu := by
  obtain ⟨hd, hn, hm⟩ := lowWord_fields i cpu .sbc
  generalize dpShift .sbc true (lo i 0) (lo i 0) (lo i 3) .lsl 0 = w at hd hn hm
  simp only [handlerS, shiftOp, hm, opSBCS, hn, hd, if_neg (regNum_ne_pc i 0),
    opSBC_REG]

theorem addSpe_eq (h : regHi i ≠ 15) :
    handler .add .lslImm (dpShift .add false (hi i) (hi i) (rmHi i) .lsl 0) cpu =
      opADD_SPE i cpu := by
  simp only [handler, shiftOp, lslImm_plain, Arm.opADD, opADD_SPE, if_neg h]
  rw [dpShift, opPlain_word, rn_word, reg_hi, reg_rmHi]
  rwa [reg_hi]

/-- The no-operation that `OP_MOV_LSL_IMM` singles out is the move of `R0` to itself. -/
theorem movSpe_eq (h : regHi i ≠ 15) :
    handler .mov .lslImm (dpShift .mov false (hi i) 0 (rmHi i) .lsl 0) cpu =
      opMOV_SPE i cpu := by
  have hd : reg (hi i) ≠ 15 := by rwa [reg_hi]
  have hmove : Arm.opMOV (dpShift .mov false (hi i) 0 (rmHi i) .lsl 0)
      (lslImm (dpShift .mov false (hi i) 0 (rmHi i) .lsl 0) cpu) cpu = opMOV_SPE i cpu := by
    simp only [lslImm_plain, Arm.opMOV, opMOV_SPE, if_neg h]
    rw [dpShift, opPlain_word _ _ _ hd, reg_hi, reg_rmHi]
  simp only [handler, shiftOp]
  split_ifs with hnop
  · rw [← hmove, hnop.2]
    exact (opMOV_nop cpu).symm
  · exact hmove

theorem add2Sp_eq :
    handler .add .immValue (dpImm .add false (lo i 8) 13 15 (imm8Field i)) cpu =
      opADD_2SP i cpu := by
  simp only [handler, shiftOp, immValue_scaled, Arm.opADD, ← imm8_eq]
  rw [dpImm, opPlain_word _ _ _ (reg_lo_ne i 8), rn_word, reg_lo]
  rfl

theorem adjustPSp_eq :
    handler .add .immValue (dpImm .add false 13 13 15 (imm7Field i)) cpu =
      opADJUST_P_SP i cpu := by
  simp only [handler, shiftOp, immValue_scaled, Arm.opADD, ← imm7_eq]
  rw [dpImm, opPlain_word _ _ _ (by decide), rn_word]
  rfl

theorem adjustMSp_eq :
    handler .sub .immValue (dpImm .sub false 13 13 15 (imm7Field i)) cpu =
      opADJUST_M_SP i cpu := by
  simp only [handler, shiftOp, immValue_scaled, Arm.opSUB, ← imm7_eq]
  rw [dpImm, opPlain_word _ _ _ (by decide), rn_word]
  rfl

theorem mulReg_eq : opMUL_S (muls (lo i 0) (lo i 3) (lo i 0)) cpu = opMUL_REG i cpu := by
  have hrd : regPos (muls (lo i 0) (lo i 3) (lo i 0)) 16 = regNum i 0 :=
    (regPos_word_rn _ _ _ _).trans (reg_lo i 0)
  have hrm : regPos (muls (lo i 0) (lo i 3) (lo i 0)) 0 = regNum i 3 :=
    (regPos_nibbles _ _ _ _ _ _).trans (reg_lo i 3)
  have hrs : regPos (muls (lo i 0) (lo i 3) (lo i 0)) 8 = regNum i 0 := by
    rw [muls, regPos_word_operand _ _ _ _ (by decide), nibbles_high, reg_lo]
  simp only [opMUL_S, hrd, hrm, hrs, BitVec.mul_comm (cpu.R (regNum i 3))]
  rfl

/-! ### Shifts -/

/-- A move with the flags of the shifter, to a low register from one. -/
theorem movs_eq (form : Operand2) {w : Word} {p : Word × Bool} (hd : regPos w 12 = regNum i 0)
    (hm : regPos w 0 ≠ 15) (hp : sShiftOp form w cpu = p) :
    handlerS .mov form w cpu = (cpu.setR (regNum i 0) p.1).setNZC p.1 p.2 := by
  simp only [handlerS, hp, moveBias_eq (fun _ => hm), opMOVS, opLogicalS, hd,
    if_neg (regNum_ne_pc i 0)]
  rfl

theorem movsShift_eq (type : ShiftType) (imm : BitVec 5) {p : Word × Bool}
    (hp : sShiftOp type.immForm (dpShift .mov true (lo i 0) 0 (lo i 3) type imm) cpu = p) :
    handlerS .mov type.immForm (dpShift .mov true (lo i 0) 0 (lo i 3) type imm) cpu =
      (cpu.setR (regNum i 0) p.1).setNZC p.1 p.2 := by
  have hd : regPos (dpShift .mov true (lo i 0) 0 (lo i 3) type imm) 12 = regNum i 0 :=
    (regPos_word_rd _ _ _ _).trans (reg_lo i 0)
  have hm : regPos (dpShift .mov true (lo i 0) 0 (lo i 3) type imm) 0 ≠ 15 := by
    rw [regPos_dpShift]
    exact reg_lo_ne i 3
  exact movs_eq i cpu _ hd hm hp

/-- The flags of a register shifted out. -/
theorem setNZC_zero (C : Bool) : cpu.setNZC 0 C = cpu.setFlags false true C cpu.CPSR.V := by
  have hN : (0 : Word).getLsbD 31 = false := by decide
  have hZ : ((0 : Word) == 0) = true := by decide
  rw [ArmCpu.setNZC, hN, hZ]

theorem lsl0_eq :
    handlerS .mov .lslImm (dpShift .mov true (lo i 0) 0 (lo i 3) .lsl 0) cpu = opLSL_0 i cpu := by
  refine (movsShift_eq i cpu .lsl 0 (sLslImm_plain _ _ _ _ _ _)).trans ?_
  rw [reg_lo]
  rfl

theorem lsl_eq (h : (imm5Field i).toNat ≠ 0) :
    handlerS .mov .lslImm (dpShift .mov true (lo i 0) 0 (lo i 3) .lsl (imm5Field i)) cpu =
      opLSL i cpu := by
  refine (movsShift_eq i cpu .lsl _ (sLslImm_dpShift _ _ _ _ _ _ h)).trans ?_
  rw [reg_lo, ← imm5_eq]
  rfl

theorem lsr0_eq :
    handlerS .mov .lsrImm (dpShift .mov true (lo i 0) 0 (lo i 3) .lsr 0) cpu = opLSR_0 i cpu := by
  refine (movsShift_eq i cpu .lsr 0 (sLsrImm_dpShift _ _ _ _ _ _ _)).trans ?_
  rw [if_pos (by decide), reg_lo]
  exact setNZC_zero _ _

theorem lsr_eq (h : (imm5Field i).toNat ≠ 0) :
    handlerS .mov .lsrImm (dpShift .mov true (lo i 0) 0 (lo i 3) .lsr (imm5Field i)) cpu =
      opLSR i cpu := by
  refine (movsShift_eq i cpu .lsr _ (sLsrImm_dpShift _ _ _ _ _ _ _)).trans ?_
  rw [if_neg h, reg_lo, ← imm5_eq]
  rfl

theorem asr0_eq :
    handlerS .mov .asrImm (dpShift .mov true (lo i 0) 0 (lo i 3) .asr 0) cpu = opASR_0 i cpu := by
  refine (movsShift_eq i cpu .asr 0 (sAsrImm_dpShift _ _ _ _ _ _ _)).trans ?_
  rw [if_pos (by decide), reg_lo]
  rfl

theorem asr_eq (h : (imm5Field i).toNat ≠ 0) :
    handlerS .mov .asrImm (dpShift .mov true (lo i 0) 0 (lo i 3) .asr (imm5Field i)) cpu =
      opASR i cpu := by
  refine (movsShift_eq i cpu .asr _ (sAsrImm_dpShift _ _ _ _ _ _ _)).trans ?_
  rw [if_neg h, reg_lo, ← imm5_eq]
  rfl

/-- The word of a shift by a register, and what the macros read from it. -/
theorem regShift_fields (type : ShiftType) :
    regPos (dpRegShift .mov true (lo i 0) 0 (lo i 0) type (lo i 3)) 12 = regNum i 0 ∧
      regPos (dpRegShift .mov true (lo i 0) 0 (lo i 0) type (lo i 3)) 0 ≠ 15 ∧
      cpu.rm (dpRegShift .mov true (lo i 0) 0 (lo i 0) type (lo i 3)) = cpu.lo i 0 ∧
      cpu.rsLow (dpRegShift .mov true (lo i 0) 0 (lo i 0) type (lo i 3)) = shiftAmount i cpu := by
  refine ⟨(regPos_word_rd _ _ _ _).trans (reg_lo i 0), ?_, ?_, ?_⟩
  · rw [(regPos_dpRegShift .mov true (lo i 0) 0 (lo i 0) type (lo i 3)).1]
    exact reg_lo_ne i 0
  · rw [rm_dpRegShift, reg_lo]
    rfl
  · rw [rsLow_dpRegShift, reg_lo]
    rfl

/-- A shift by nothing keeps the register and the carry. -/
theorem setR_self_setNZC :
    (cpu.setR (regNum i 0) (cpu.lo i 0)).setNZC (cpu.lo i 0) cpu.CPSR.C = cpu.setNZ (cpu.lo i 0) :=
  congrArg (fun c : ArmCpu => c.setNZC (cpu.lo i 0) cpu.CPSR.C) (setR_self cpu (regNum i 0))

theorem lslReg_eq :
    handlerS .mov .lslReg (dpRegShift .mov true (lo i 0) 0 (lo i 0) .lsl (lo i 3)) cpu =
      opLSL_REG i cpu := by
  obtain ⟨hd, h15, hm, hs⟩ := regShift_fields i cpu .lsl
  refine (movs_eq i cpu .lslReg hd h15 rfl).trans ?_
  simp only [sShiftOp, sLslReg, hm, hs, opLSL_REG]
  split_ifs with h0 hlt h32
  · exact setR_self_setNZC i cpu
  · rfl
  · exact setNZC_zero _ _
  · exact setNZC_zero _ _

theorem lsrReg_eq :
    handlerS .mov .lsrReg (dpRegShift .mov true (lo i 0) 0 (lo i 0) .lsr (lo i 3)) cpu =
      opLSR_REG i cpu := by
  obtain ⟨hd, h15, hm, hs⟩ := regShift_fields i cpu .lsr
  refine (movs_eq i cpu .lsrReg hd h15 rfl).trans ?_
  simp only [sShiftOp, sLsrReg, hm, hs, opLSR_REG]
  split_ifs with h0 hlt h32
  · exact setR_self_setNZC i cpu
  · rfl
  · exact setNZC_zero _ _
  · exact setNZC_zero _ _

theorem asrReg_eq :
    handlerS .mov .asrReg (dpRegShift .mov true (lo i 0) 0 (lo i 0) .asr (lo i 3)) cpu =
      opASR_REG i cpu := by
  obtain ⟨hd, h15, hm, hs⟩ := regShift_fields i cpu .asr
  refine (movs_eq i cpu .asrReg hd h15 rfl).trans ?_
  simp only [sShiftOp, sAsrReg, hm, hs, opASR_REG]
  split_ifs with h0 hlt
  · exact setR_self_setNZC i cpu
  · rfl
  · rfl

theorem rorReg_eq :
    handlerS .mov .rorReg (dpRegShift .mov true (lo i 0) 0 (lo i 0) .ror (lo i 3)) cpu =
      opROR_REG i cpu := by
  obtain ⟨hd, h15, hm, hs⟩ := regShift_fields i cpu .ror
  refine (movs_eq i cpu .rorReg hd h15 rfl).trans ?_
  simp only [sShiftOp, sRorReg, hm, hs, opROR_REG]
  split_ifs with h0 hmod
  · exact setR_self_setNZC i cpu
  · exact congrArg (fun c : ArmCpu => c.setNZC (cpu.lo i 0) ((cpu.lo i 0).getLsbD 31))
      (setR_self cpu (regNum i 0))
  · rfl

end DataProcessing

end Thumb

end Desmume.Arm
