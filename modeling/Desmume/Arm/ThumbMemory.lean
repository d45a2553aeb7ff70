import Desmume.Arm.ThumbAlu

/-! The loads, stores and block transfers of THUMB state against those of ARM state. -/

namespace Desmume.Arm

variable {μ : Type*}

section Addresses

variable (rd rn rm : BitVec 4) (s : Machine μ)

theorem adrImm12_memImm (byte load : Bool) (imm : BitVec 12) :
    adrImm12 (memImm byte load rd rn imm) s = s.cpu.R (reg rn) + imm.setWidth 32 := by
  rw [adrImm12, immOff12_memImm, memImm, rn_word]

theorem adrLslImm_memReg (byte load : Bool) :
    adrLslImm (memReg byte load rd rn rm) s = s.cpu.R (reg rn) + s.cpu.R (reg rm) := by
  rw [adrLslImm, lslImm_memReg, memReg, rn_word]

theorem adrImm8_halfImm (load : Bool) (immH immL : BitVec 4) :
    adrImm8 (halfImm load rd rn immH immL) s = s.cpu.R (reg rn) + (immH ++ immL).setWidth 32 := by
  rw [adrImm8, immOff_halfImm, halfImm, rn_word]

theorem adrReg_halfReg (load : Bool) (sh : BitVec 2) :
    adrReg (halfReg load sh rd rn rm) s = s.cpu.R (reg rn) + s.cpu.R (reg rm) := by
  rw [adrReg, halfReg, rn_word, ArmCpu.rm, regPos_nibbles]

theorem rdValue_word (op operand : BitVec 12) :
    rdValue (word op rn rd operand) s = s.cpu.R (reg rd) := by
  rw [rdValue, regPos_word_rd]

theorem opLDR_word (bus : Bus μ) (op operand : BitVec 12) {adr : Word} (hd : reg rd ≠ 15) :
    opLDR bus (word op rn rd operand) adr s =
      s.load bus.READ32 (rotateUnaligned adr) (reg rd) adr := by
  rw [opLDR, regPos_word_rd, if_neg hd]

end Addresses

namespace Thumb

section Memory

variable (bus : Bus μ) (i : Word) (s : Machine μ)

theorem strbImm_eq :
    opSTRB_P_IMM_OFF bus (memImm true false (lo i 0) (lo i 3) (0#7 ++ imm5Field i)) s =
      opSTRB_IMM_OFF bus i s := by
  simp only [opSTRB_P_IMM_OFF, adrImm12_memImm, ← offset8_eq]
  rw [memImm, rdValue_word, reg_lo, reg_lo]
  rfl

theorem ldrbImm_eq :
    opLDRB_P_IMM_OFF bus (memImm true true (lo i 0) (lo i 3) (0#7 ++ imm5Field i)) s =
      opLDRB_IMM_OFF bus i s := by
  simp only [opLDRB_P_IMM_OFF, adrImm12_memImm, ← offset8_eq]
  rw [memImm, regPos_word_rd, reg_lo, reg_lo]
  rfl

theorem strImm_eq :
    opSTR_P_IMM_OFF bus (memImm false false (lo i 0) (lo i 3) (0#5 ++ imm5Field i ++ 0#2)) s =
      opSTR_IMM_OFF bus i s := by
  simp only [opSTR_P_IMM_OFF, adrImm12_memImm, ← offset32_eq]
  rw [memImm, rdValue_word, reg_lo, reg_lo]
  rfl

theorem ldrImm_eq :
    opLDR_P_IMM_OFF bus (memImm false true (lo i 0) (lo i 3) (0#5 ++ imm5Field i ++ 0#2)) s =
      opLDR_IMM_OFF bus i s := by
  simp only [opLDR_P_IMM_OFF, adrImm12_memImm, ← offset32_eq]
  rw [memImm, opLDR_word _ _ _ _ _ _ (reg_lo_ne i 0), reg_lo, reg_lo]
  rfl

theorem strhImm_eq :
    opSTRH_P_IMM_OFF bus (halfImm false (lo i 0) (lo i 3) (offsetHigh i) (offsetLow i)) s =
      opSTRH_IMM_OFF bus i s := by
  simp only [opSTRH_P_IMM_OFF, adrImm8_halfImm, ← offset16_eq]
  rw [halfImm, rdValue_word, reg_lo, reg_lo]
  rfl

theorem ldrhImm_eq :
    opLDRH_P_IMM_OFF bus (halfImm true (lo i 0) (lo i 3) (offsetHigh i) (offsetLow i)) s =
      opLDRH_IMM_OFF bus i s := by
  simp only [opLDRH_P_IMM_OFF, adrImm8_halfImm, ← offset16_eq]
  rw [halfImm, regPos_word_rd, reg_lo, reg_lo]
  rfl

theorem strSpRel_eq :
    opSTR_P_IMM_OFF bus (memImm false false (lo i 8) 13 (0#2 ++ imm8Field i ++ 0#2)) s =
      opSTR_SPREL bus i s := by
  simp only [opSTR_P_IMM_OFF, adrImm12_memImm, ← offsetSp_eq]
  rw [memImm, rdValue_word, reg_lo]
  rfl

/-- The ARM load rotates the word that `OP_LDR_SPREL` leaves as it is. -/
theorem ldrSpRel_arm :
    opLDR_P_IMM_OFF bus (memImm false true (lo i 8) 13 (0#2 ++ imm8Field i ++ 0#2)) s =
      s.load bus.READ32 (rotateUnaligned (adrSp i s)) (regNum i 8) (adrSp i s) := by
  simp only [opLDR_P_IMM_OFF, adrImm12_memImm, ← offsetSp_eq]
  rw [memImm, opLDR_word _ _ _ _ _ _ (reg_lo_ne i 8), reg_lo]
  rfl

theorem strReg_eq :
    opSTR_P_LSL_IMM_OFF bus (memReg false false (lo i 0) (lo i 3) (lo i 6)) s =
      opSTR_REG_OFF bus i s := by
  simp only [opSTR_P_LSL_IMM_OFF, adrLslImm_memReg]
  rw [memReg, rdValue_word, reg_lo, reg_lo, reg_lo, BitVec.add_comm]
  rfl

theorem ldrReg_eq :
    opLDR_P_LSL_IMM_OFF bus (memReg false true (lo i 0) (lo i 3) (lo i 6)) s =
      opLDR_REG_OFF bus i s := by
  simp only [opLDR_P_LSL_IMM_OFF, adrLslImm_memReg]
  rw [memReg, opLDR_word _ _ _ _ _ _ (reg_lo_ne i 0), reg_lo, reg_lo, reg_lo]
  rfl

theorem strbReg_eq :
    opSTRB_P_LSL_IMM_OFF bus (memReg true false (lo i 0) (lo i 3) (lo i 6)) s =
      opSTRB_REG_OFF bus i s := by
  simp only [opSTRB_P_LSL_IMM_OFF, adrLslImm_memReg]
  rw [memReg, rdValue_word, reg_lo, reg_lo, reg_lo]
  rfl

theorem ldrbReg_eq :
    opLDRB_P_LSL_IMM_OFF bus (memReg true true (lo i 0) (lo i 3) (lo i 6)) s =
      opLDRB_REG_OFF bus i s := by
  simp only [opLDRB_P_LSL_IMM_OFF, adrLslImm_memReg]
  rw [memReg, regPos_word_rd, reg_lo, reg_lo, reg_lo]
  rfl

theorem strhReg_eq :
    opSTRH_P_REG_OFF bus (halfReg false 1 (lo i 0) (lo i 3) (lo i 6)) s =
      opSTRH_REG_OFF bus i s := by
  simp only [opSTRH_P_REG_OFF, adrReg_halfReg]
  rw [halfReg, rdValue_word, reg_lo, reg_lo, reg_lo]
  rfl

theorem ldrhReg_eq :
    opLDRH_P_REG_OFF bus (halfReg true 1 (lo i 0) (lo i 3) (lo i 6)) s =
      opLDRH_REG_OFF bus i s := by
  simp only [opLDRH_P_REG_OFF, adrReg_halfReg]
  rw [halfReg, regPos_word_rd, reg_lo, reg_lo, reg_lo]
  rfl

theorem ldrsbReg_eq :
    opLDRSB_P_REG_OFF bus (halfReg true 2 (lo i 0) (lo i 3) (lo i 6)) s =
      opLDRSB_REG_OFF bus i s := by
  simp only [opLDRSB_P_REG_OFF, adrReg_halfReg]
  rw [halfReg, regPos_word_rd, reg_lo, reg_lo, reg_lo]
  rfl

theorem ldrshReg_eq :
    opLDRSH_P_REG_OFF bus (halfReg true 3 (lo i 0) (lo i 3) (lo i 6)) s =
      opLDRSH_REG_OFF bus i s := by
  simp only [opLDRSH_P_REG_OFF, adrReg_halfReg]
  rw [halfReg, regPos_word_rd, reg_lo, reg_lo, reg_lo]
  rfl

end Memory

/-! ### Block transfers -/

section Block

variable (bus : Bus μ)

/-- `OP_PUSH` keeps the address one word below the one that `OP_STMDB_W` keeps. -/
theorem transfer_push (i : Word) (rs : List (Fin 16)) (adr : Word) (s : Machine μ) :
    transfer i (pushReg bus) rs (adr - 4, s) =
      ((transfer i (storeDown bus) rs (adr, s)).1 - 4, (transfer i (storeDown bus) rs (adr, s)).2) := by
  induction rs generalizing adr s with
  | nil => rfl
  | cons r rs ih =>
    rw [transfer, transfer, List.foldl_cons, List.foldl_cons]
    split_ifs with h
    · exact ih (adr - 4) _
    · exact ih adr s

variable (i : Word) (s : Machine μ)

section Lists

variable {i} {P U load : Bool} {rn : BitVec 4} {high : BitVec 8}

theorem listed_low {r : Fin 16} (hr : r.val < 8) :
    listed (block P U load rn (high ++ imm8Field i)) r = listed i r := by
  rw [listed_block, BitVec.getLsbD_append, if_pos hr, imm8Field, BitVec.getLsbD_extractLsb',
    decide_eq_true hr, Bool.true_and, Nat.zero_add]
  rfl

theorem listed_high {r : Fin 16} (hr : 8 ≤ r.val) :
    listed (block P U load rn (high ++ imm8Field i)) r = high.getLsbD (r.val - 8) := by
  rw [listed_block, BitVec.getLsbD_append, if_neg (Nat.not_lt.mpr hr)]

theorem transfer_low {rs : List (Fin 16)} (h : ∀ r ∈ rs, r.val < 8)
    (op : Fin 16 → Transfer μ → Transfer μ) (t : Transfer μ) :
    transfer (block P U load rn (high ++ imm8Field i)) op rs t = transfer i op rs t :=
  transfer_congr (fun r hr => listed_low (h r hr)) t

theorem transfer_high {rs : List (Fin 16)} (h : ∀ r ∈ rs, 8 ≤ r.val)
    (op : Fin 16 → Transfer μ → Transfer μ) (t : Transfer μ) :
    transfer (block P U load rn (0#8 ++ imm8Field i)) op rs t = t := by
  apply transfer_unlisted
  intro r hr
  rw [listed_high (h r hr), BitVec.getLsbD_zero]

end Lists

theorem stmia_eq :
    opSTMIA_W bus (block false true false (lo i 8) (0#8 ++ imm8Field i)) s =
      opSTMIA_THUMB bus i s := by
  have hlist : ascending ++ [15] = up ++ [8, 9, 10, 11, 12, 13, 14, 15] := rfl
  rw [opSTMIA_W, opSTMIA_THUMB, regPos_block, reg_lo, hlist, transfer_append,
    transfer_high (by decide), transfer_low (by decide)]
  rfl

theorem ldmia_transfer {rn : BitVec 4} (t : Transfer μ) :
    loadListedPc bus (block false true true rn (0#8 ++ imm8Field i))
      (transfer (block false true true rn (0#8 ++ imm8Field i)) (loadUp bus) ascending t) =
      transfer i (loadUp bus) up t := by
  have hlist : ascending = up ++ [8, 9, 10, 11, 12, 13, 14] := rfl
  have hpc : listed (block false true true rn (0#8 ++ imm8Field i)) 15 = false :=
    listed_high (by decide)
  rw [loadListedPc, if_neg (by rw [hpc]; decide), hlist, transfer_append, transfer_high (by decide),
    transfer_low (by decide)]

theorem ldmia_eq (h : listed i (regNum i 8) = false) :
    opLDMIA_W bus (block false true true (lo i 8) (0#8 ++ imm8Field i)) s =
      opLDMIA_THUMB bus i s := by
  rw [opLDMIA_W, opLDMIA_THUMB, ldmia_transfer, regPos_block, reg_lo,
    listed_low (regNum_lt i 8), h]
  rfl

theorem pop_eq :
    opLDMIA_W bus (block false true true 13 (0#8 ++ imm8Field i)) s = opPOP bus i s := by
  rw [opLDMIA_W, opPOP, ldmia_transfer, regPos_block, listed_high (by decide)]
  rfl

theorem push_eq :
    opSTMDB_W bus (block true false false 13 (0#8 ++ imm8Field i)) s = opPUSH bus i s := by
  have hlist : 15 :: descending = [15, 14, 13, 12, 11, 10, 9, 8] ++ down := rfl
  rw [opSTMDB_W, opPUSH, regPos_block, hlist, transfer_append, transfer_low (by decide),
    transfer_high (by decide), transfer_push]
  simp only [BitVec.sub_add_cancel]
  rfl

/-- Of the high registers a `PUSH` with `LR` stores `R14`, before the low ones. -/
theorem transfer_lr (t : Transfer μ) :
    transfer (block true false false 13 (0b01000000#8 ++ imm8Field i)) (storeDown bus)
      [15, 14, 13, 12, 11, 10, 9, 8] t = storeDown bus 14 t := by
  have hlisted : ∀ r : Fin 16, 8 ≤ r.val →
      listed (block true false false 13 (0b01000000#8 ++ imm8Field i)) r =
        (0b01000000#8).getLsbD (r.val - 8) :=
    fun r hr => listed_high hr
  have h15 : ¬ listed (block true false false 13 (0b01000000#8 ++ imm8Field i)) 15 := by
    rw [hlisted 15 (by decide)]
    decide
  have h14 : listed (block true false false 13 (0b01000000#8 ++ imm8Field i)) 14 := by
    rw [hlisted 14 (by decide)]
    decide
  have hrest : ∀ r ∈ ([13, 12, 11, 10, 9, 8] : List (Fin 16)),
      listed (block true false false 13 (0b01000000#8 ++ imm8Field i)) r = false := by
    intro r hr
    rw [hlisted r (by revert r; decide)]
    revert r
    decide
  rw [transfer, List.foldl_cons, List.foldl_cons, if_neg h15, if_pos h14]
  exact transfer_unlisted hrest _

theorem pushLr_eq :
    opSTMDB_W bus (block true false false 13 (0b01000000#8 ++ imm8Field i)) s =
      opPUSH_LR bus i s := by
  have hlist : 15 :: descending = [15, 14, 13, 12, 11, 10, 9, 8] ++ down := rfl
  have hbase : regPos (block true false false 13 (0b01000000#8 ++ imm8Field i)) 16 = 13 :=
    regPos_block _ _ _ _ _
  have hfirst : pushReg bus 14 (s.cpu.R 13 - 4, s) =
      ((storeDown bus 14 (s.cpu.R 13, s)).1 - 4, (storeDown bus 14 (s.cpu.R 13, s)).2) := rfl
  rw [opSTMDB_W, opPUSH_LR, hbase, hlist, transfer_append, transfer_lr,
    transfer_low (by decide), hfirst, transfer_push]
  simp only [BitVec.sub_add_cancel]

end Block

end Thumb

end Desmume.Arm
