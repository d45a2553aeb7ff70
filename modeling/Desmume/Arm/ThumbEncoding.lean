import Desmume.Arm.Thumb

/-! The ARM instructions that the THUMB instructions abbreviate, as instruction words. -/

namespace Desmume.Arm

variable {μ : Type*}

/-! ### Words of ARM state -/

namespace Opcode

def code : Opcode → BitVec 4
  | .and => 0
  | .eor => 1
  | .sub => 2
  | .rsb => 3
  | .add => 4
  | .adc => 5
  | .sbc => 6
  | .rsc => 7
  | .tst => 8
  | .teq => 9
  | .cmp => 10
  | .cmn => 11
  | .orr => 12
  | .mov => 13
  | .bic => 14
  | .mvn => 15

end Opcode

/-- The register a field names. -/
def reg (b : BitVec 4) : Fin 16 := Fin.ofNat 16 b.toNat

/-- The layout most instructions share: condition and operation, `Rn`, `Rd`, and an operand. -/
def word (op : BitVec 12) (rn rd : BitVec 4) (operand : BitVec 12) : Word :=
  op ++ rn ++ rd ++ operand

/-- An operand of three hexadecimal digits. -/
def nibbles (a b c : BitVec 4) : BitVec 12 := a ++ b ++ c

/-- `AL` and the opcode of a data-processing instruction. -/
def dpCode (I : Bool) (op : Opcode) (S : Bool) : BitVec 12 :=
  0xE#4 ++ 0#2 ++ BitVec.ofBool I ++ op.code ++ BitVec.ofBool S

/-- The two bits that select a shift. -/
def ShiftType.code : ShiftType → BitVec 2
  | .lsl => 0
  | .lsr => 1
  | .asr => 2
  | .ror | .rrx => 3

/-- `<op>{S} Rd, Rn, Rm, <type> #imm`. -/
def dpShift (op : Opcode) (S : Bool) (rd rn rm : BitVec 4) (type : ShiftType) (imm : BitVec 5) :
    Word :=
  word (dpCode false op S) rn rd (imm ++ type.code ++ 0#1 ++ rm)

/-- `<op>{S} Rd, Rn, Rm, <type> Rs`. -/
def dpRegShift (op : Opcode) (S : Bool) (rd rn rm : BitVec 4) (type : ShiftType) (rs : BitVec 4) :
    Word :=
  word (dpCode false op S) rn rd (nibbles rs (0#1 ++ type.code ++ 1#1) rm)

/-- `<op>{S} Rd, Rn, #imm`, with `imm` rotated right by twice `rot`. -/
def dpImm (op : Opcode) (S : Bool) (rd rn rot : BitVec 4) (imm : BitVec 8) : Word :=
  word (dpCode true op S) rn rd (rot ++ imm)

/-- `MULS Rd, Rm, Rs`. -/
def muls (rd rm rs : BitVec 4) : Word := word 0xE01 rd 0 (nibbles rs 9 rm)

/-- `LDR Rd, [Rn, #imm]` and the forms for bytes and stores. -/
def memImm (byte load : Bool) (rd rn : BitVec 4) (imm : BitVec 12) : Word :=
  word (0xE#4 ++ 0b01011#5 ++ BitVec.ofBool byte ++ 0#1 ++ BitVec.ofBool load) rn rd imm

/-- `LDR Rd, [Rn, Rm]` and the forms for bytes and stores. -/
def memReg (byte load : Bool) (rd rn rm : BitVec 4) : Word :=
  word (0xE#4 ++ 0b01111#5 ++ BitVec.ofBool byte ++ 0#1 ++ BitVec.ofBool load) rn rd (nibbles 0 0 rm)

/-- `LDRH Rd, [Rn, #imm]` and `STRH`. -/
def halfImm (load : Bool) (rd rn : BitVec 4) (immH immL : BitVec 4) : Word :=
  word (0xE#4 ++ 0b0001110#7 ++ BitVec.ofBool load) rn rd (nibbles immH 0xB immL)

/-- `LDRH Rd, [Rn, Rm]`, `STRH`, `LDRSB` and `LDRSH`, by the bits `sh`. -/
def halfReg (load : Bool) (sh : BitVec 2) (rd rn rm : BitVec 4) : Word :=
  word (0xE#4 ++ 0b0001100#7 ++ BitVec.ofBool load) rn rd (nibbles 0 (1#1 ++ sh ++ 1#1) rm)

/-- `LDM<mode> Rn!, {list}` and `STM`, by the bits `P` and `U`. -/
def block (P U load : Bool) (rn : BitVec 4) (list : BitVec 16) : Word :=
  word (0xE#4 ++ 0b100#3 ++ BitVec.ofBool P ++ BitVec.ofBool U ++ 0b01#2 ++ BitVec.ofBool load) rn
    (list.extractLsb' 12 4) (list.extractLsb' 0 12)

/-! ### The fields of a word -/

theorem regPos_eq (i : Word) (n : ℕ) : regPos i n = reg (i.extractLsb' n 4) := by
  apply Fin.ext
  change (i >>> n).toNat % 16 = ((i >>> n).toNat % 2 ^ 4) % 16
  omega

section Fields

variable (op : BitVec 12) (rn rd : BitVec 4) (operand : BitVec 12)

theorem word_getLsbD (k : ℕ) :
    (word op rn rd operand).getLsbD k =
      if k < 12 then operand.getLsbD k
      else if k < 16 then rd.getLsbD (k - 12)
      else if k < 20 then rn.getLsbD (k - 16)
      else op.getLsbD (k - 20) := by
  have h1 : k - 12 < 4 ↔ k < 16 := by omega
  have h2 : k - 12 - 4 < 4 ↔ k < 20 := by omega
  rw [word, BitVec.getLsbD_append, BitVec.getLsbD_append, BitVec.getLsbD_append]
  by_cases h12 : k < 12
  · simp [h12]
  · simp only [h12, h1, h2, if_false]
    split_ifs <;> rfl

theorem word_extract_operand {k m : ℕ} (h : k + m ≤ 12) :
    (word op rn rd operand).extractLsb' k m = operand.extractLsb' k m :=
  BitVec.extractLsb'_append_eq_of_add_le h

theorem word_extract_op (k m : ℕ) :
    (word op rn rd operand).extractLsb' (20 + k) m = op.extractLsb' k m := by
  apply BitVec.eq_of_getLsbD_eq
  intro j hj
  rw [BitVec.getLsbD_extractLsb', BitVec.getLsbD_extractLsb', word_getLsbD, if_neg (by omega),
    if_neg (by omega), if_neg (by omega), show 20 + k + j - 20 = k + j by omega]

theorem word_bit_operand {k : ℕ} (h : k < 12) :
    (word op rn rd operand).getLsbD k = operand[k] := by
  rw [← BitVec.getLsbD_eq_getElem, word_getLsbD, if_pos h]

theorem word_bit_op {k : ℕ} (h : k < 12) :
    (word op rn rd operand).getLsbD (20 + k) = op[k] := by
  rw [← BitVec.getLsbD_eq_getElem, word_getLsbD, if_neg (by omega), if_neg (by omega),
    if_neg (by omega), show 20 + k - 20 = k by omega]

theorem regPos_word_rd : regPos (word op rn rd operand) 12 = reg rd := by
  rw [regPos_eq]
  congr 1
  apply BitVec.eq_of_getLsbD_eq
  intro j hj
  rw [BitVec.getLsbD_extractLsb', word_getLsbD, if_neg (by omega), if_pos (by omega),
    show 12 + j - 12 = j by omega, decide_eq_true hj]
  rfl

theorem regPos_word_rn : regPos (word op rn rd operand) 16 = reg rn := by
  rw [regPos_eq]
  congr 1
  apply BitVec.eq_of_getLsbD_eq
  intro j hj
  rw [BitVec.getLsbD_extractLsb', word_getLsbD, if_neg (by omega), if_neg (by omega),
    if_pos (by omega), show 16 + j - 16 = j by omega, decide_eq_true hj]
  rfl

theorem regPos_word_operand {k : ℕ} (h : k ≤ 8) :
    regPos (word op rn rd operand) k = reg (operand.extractLsb' k 4) := by
  rw [regPos_eq, word_extract_operand _ _ _ _ (by omega)]

end Fields

section Nibbles

variable (a b c : BitVec 4)

theorem nibbles_low : (nibbles a b c).extractLsb' 0 4 = c :=
  (BitVec.extractLsb'_append_eq_of_add_le le_rfl).trans BitVec.extractLsb'_eq_self

theorem nibbles_high : (nibbles a b c).extractLsb' 8 4 = a := by
  apply BitVec.eq_of_getLsbD_eq
  intro k hk
  simp only [nibbles, BitVec.getLsbD_extractLsb', BitVec.getLsbD_append]
  interval_cases k <;> rfl

theorem nibbles_bit {k : ℕ} (h : k < 4) : (nibbles a b c)[4 + k] = b[k] := by
  rw [← BitVec.getLsbD_eq_getElem, ← BitVec.getLsbD_eq_getElem, nibbles]
  simp only [BitVec.getLsbD_append]
  interval_cases k <;> rfl

theorem nibbles_middle {k m : ℕ} (h : k + m ≤ 4) :
    (nibbles a b c).extractLsb' (4 + k) m = b.extractLsb' k m := by
  apply BitVec.eq_of_getLsbD_eq
  intro j hj
  rw [BitVec.getLsbD_extractLsb', BitVec.getLsbD_extractLsb', BitVec.getLsbD_eq_getElem (by omega),
    BitVec.getLsbD_eq_getElem (by omega), ← nibbles_bit a b c (show k + j < 4 by omega)]
  simp only [Nat.add_assoc]

end Nibbles

/-! ### Data-processing words -/

/-- The operand macro of a shift by an immediate. -/
def ShiftType.immForm : ShiftType → Operand2
  | .lsl => .lslImm
  | .lsr => .lsrImm
  | .asr => .asrImm
  | .ror | .rrx => .rorImm

/-- The operand macro of a shift by a register. -/
def ShiftType.regForm : ShiftType → Operand2
  | .lsl => .lslReg
  | .lsr => .lsrReg
  | .asr => .asrReg
  | .ror | .rrx => .rorReg

section DataProcessing

variable (I : Bool) (op : Opcode) (S : Bool) (rn rd : BitVec 4) (operand : BitVec 12)

theorem dpCode_extract : (dpCode I op S).extractLsb' 1 4 = op.code := by
  cases I <;> cases S <;> cases op <;> rfl

theorem opcodeOf_dp : opcodeOf (word (dpCode I op S) rn rd operand) = op := by
  rw [opcodeOf, show 21 = 20 + 1 from rfl, word_extract_op, dpCode_extract]
  cases op <;> rfl

theorem dp_bit25 : (word (dpCode I op S) rn rd operand).getLsbD 25 = I := by
  refine (word_bit_op _ rn rd operand (show 5 < 12 by decide)).trans ?_
  cases I <;> cases S <;> cases op <;> rfl

theorem dp_bit20 : (word (dpCode I op S) rn rd operand).getLsbD 20 = S := by
  refine (word_bit_op _ rn rd operand (show 0 < 12 by decide)).trans ?_
  cases I <;> cases S <;> cases op <;> rfl

theorem dp_isDataProcessing (hoperand : I = false → ¬ (operand[7] = true ∧ operand[4] = true))
    (htest : op.isTest = true → S = true) :
    IsDataProcessing (word (dpCode I op S) rn rd operand) := by
  have h27 : (dpCode I op S)[7] = false := by cases I <;> cases S <;> cases op <;> rfl
  have h26 : (dpCode I op S)[6] = false := by cases I <;> cases S <;> cases op <;> rfl
  refine ⟨(word_bit_op _ rn rd operand (show 7 < 12 by decide)).trans h27,
    (word_bit_op _ rn rd operand (show 6 < 12 by decide)).trans h26, ?_, ?_⟩
  · rw [dp_bit25, word_bit_operand _ _ _ _ (by decide), word_bit_operand _ _ _ _ (by decide)]
    exact hoperand
  · rw [opcodeOf_dp, dp_bit20]
    exact htest

/-- The handler that the table has for a data-processing word. -/
theorem armInstruction_dp (bus : Bus μ) {form : Operand2}
    (hoperand : I = false → ¬ (operand[7] = true ∧ operand[4] = true))
    (htest : op.isTest = true → S = true)
    (hform : operandForm (word (dpCode I op S) rn rd operand) = form) :
    armInstruction bus (word (dpCode I op S) rn rd operand) = some fun s =>
      { s with
        cpu := if S then handlerS op form (word (dpCode I op S) rn rd operand) s.cpu
          else handler op form (word (dpCode I op S) rn rd operand) s.cpu } := by
  rw [armInstruction, if_pos (dp_isDataProcessing I op S rn rd operand hoperand htest)]
  congr 1
  funext s
  rw [dataProcessing, dp_bit20, opcodeOf_dp, hform]

end DataProcessing

section Operands

variable (op : Opcode) (S : Bool) (rd rn rm : BitVec 4) (type : ShiftType)

theorem shiftOperand_extract (imm : BitVec 5) (ty : BitVec 2) :
    (imm ++ ty ++ 0#1 ++ rm).extractLsb' 0 4 = rm ∧
    (imm ++ ty ++ 0#1 ++ rm).getLsbD 4 = false ∧
    (imm ++ ty ++ 0#1 ++ rm).extractLsb' 5 2 = ty ∧
    (imm ++ ty ++ 0#1 ++ rm).extractLsb' 7 5 = imm := by
  refine ⟨?_, ?_, ?_, ?_⟩
  · exact (BitVec.extractLsb'_append_eq_of_add_le le_rfl).trans BitVec.extractLsb'_eq_self
  · simp only [BitVec.getLsbD_append]
    rfl
  · apply BitVec.eq_of_getLsbD_eq
    intro k hk
    simp only [BitVec.getLsbD_extractLsb', BitVec.getLsbD_append]
    interval_cases k <;> rfl
  · apply BitVec.eq_of_getLsbD_eq
    intro k hk
    simp only [BitVec.getLsbD_extractLsb', BitVec.getLsbD_append]
    interval_cases k <;> rfl

theorem armInstruction_dpShift (bus : Bus μ) (imm : BitVec 5) (htest : op.isTest = true → S = true) :
    armInstruction bus (dpShift op S rd rn rm type imm) = some fun s =>
      { s with
        cpu := if S then handlerS op type.immForm (dpShift op S rd rn rm type imm) s.cpu
          else handler op type.immForm (dpShift op S rd rn rm type imm) s.cpu } := by
  obtain ⟨-, h4, htype, -⟩ := shiftOperand_extract rm imm type.code
  apply armInstruction_dp _ _ _ _ _ _ _ _ htest
  · unfold operandForm
    rw [dp_bit25, word_extract_operand _ _ _ _ (by decide), word_bit_operand _ _ _ _ (by decide)]
    rw [BitVec.getLsbD_eq_getElem (by decide)] at h4
    rw [htype, h4]
    cases type <;> rfl
  · rintro - ⟨-, h⟩
    exact Bool.false_ne_true (h4.symm.trans h)

theorem armInstruction_dpRegShift (bus : Bus μ) (rs : BitVec 4) (htest : op.isTest = true → S = true) :
    armInstruction bus (dpRegShift op S rd rn rm type rs) = some fun s =>
      { s with
        cpu := if S then handlerS op type.regForm (dpRegShift op S rd rn rm type rs) s.cpu
          else handler op type.regForm (dpRegShift op S rd rn rm type rs) s.cpu } := by
  have h4 := nibbles_bit rs (0#1 ++ type.code ++ 1#1) rm (show 0 < 4 by decide)
  have h7 := nibbles_bit rs (0#1 ++ type.code ++ 1#1) rm (show 3 < 4 by decide)
  have htype := nibbles_middle rs (0#1 ++ type.code ++ 1#1) rm (show 1 + 2 ≤ 4 by decide)
  apply armInstruction_dp _ _ _ _ _ _ _ _ htest
  · unfold operandForm
    rw [dp_bit25, word_extract_operand _ _ _ _ (by decide), word_bit_operand _ _ _ _ (by decide)]
    rw [htype, h4]
    cases type <;> rfl
  · rintro - ⟨h, -⟩
    refine Bool.false_ne_true (Eq.trans ?_ (h7.symm.trans h))
    cases type <;> rfl

theorem armInstruction_dpImm (bus : Bus μ) (rot : BitVec 4) (imm : BitVec 8)
    (htest : op.isTest = true → S = true) :
    armInstruction bus (dpImm op S rd rn rot imm) = some fun s =>
      { s with
        cpu := if S then handlerS op .immValue (dpImm op S rd rn rot imm) s.cpu
          else handler op .immValue (dpImm op S rd rn rot imm) s.cpu } := by
  refine armInstruction_dp true op S rn rd (rot ++ imm) bus (fun h => ?_) htest ?_
  · cases h
  · rw [operandForm, dp_bit25, if_pos rfl]

theorem shiftImm_dpShift (imm : BitVec 5) : shiftImm (dpShift op S rd rn rm type imm) = imm.toNat := by
  rw [shiftImm_eq, dpShift, word_extract_operand _ _ _ _ (by decide)]
  exact congrArg _ (shiftOperand_extract rm imm type.code).2.2.2

theorem regPos_dpShift (imm : BitVec 5) : regPos (dpShift op S rd rn rm type imm) 0 = reg rm := by
  rw [dpShift, regPos_word_operand _ _ _ _ (by decide)]
  exact congrArg _ (shiftOperand_extract rm imm type.code).1

theorem regPos_dpRegShift (rs : BitVec 4) :
    regPos (dpRegShift op S rd rn rm type rs) 0 = reg rm ∧
      regPos (dpRegShift op S rd rn rm type rs) 8 = reg rs := by
  rw [dpRegShift, regPos_word_operand _ _ _ _ (by decide), regPos_word_operand _ _ _ _ (by decide),
    nibbles_low, nibbles_high]
  exact ⟨rfl, rfl⟩

theorem immValue_dpImm (rot : BitVec 4) (imm : BitVec 8) :
    immValue (dpImm op S rd rn rot imm) = ror (imm.setWidth 32) (2 * rot.toNat) := by
  have himm : (rot ++ imm).extractLsb' 0 8 = imm :=
    (BitVec.extractLsb'_append_eq_of_add_le le_rfl).trans BitVec.extractLsb'_eq_self
  have hrot : (rot ++ imm).extractLsb' 8 4 = rot :=
    (BitVec.extractLsb'_append_eq_of_le le_rfl).trans BitVec.extractLsb'_eq_self
  rw [immValue_eq, dpImm, word_extract_operand _ _ _ _ (by decide),
    word_extract_operand _ _ _ _ (by decide)]
  exact congrArg₂ (fun x n => ror (x.setWidth 32) (2 * n.toNat)) himm hrot

end Operands

/-! ### The other words -/

section Memory

variable (bus : Bus μ) (rd rn rm : BitVec 4)

theorem armInstruction_other (op operand : BitVec 12)
    (h : op[7] = true ∨ op[6] = true ∨ op[5] = false ∧ operand[7] = true ∧ operand[4] = true) :
    armInstruction bus (word op rn rd operand) =
      otherInstruction bus (word op rn rd operand) (op.extractLsb' 0 8).toNat
        (operand.extractLsb' 4 4).toNat := by
  have h27 := word_bit_op op rn rd operand (show 7 < 12 by decide)
  have h26 := word_bit_op op rn rd operand (show 6 < 12 by decide)
  have h25 := word_bit_op op rn rd operand (show 5 < 12 by decide)
  have h7 := word_bit_operand op rn rd operand (show 7 < 12 by decide)
  have h4 := word_bit_operand op rn rd operand (show 4 < 12 by decide)
  have hnot : ¬ IsDataProcessing (word op rn rd operand) := by
    rintro ⟨n27, n26, hextra, -⟩
    rcases h with h | h | ⟨h5, h⟩
    · exact Bool.false_ne_true (n27.symm.trans (h27.trans h))
    · exact Bool.false_ne_true (n26.symm.trans (h26.trans h))
    · exact hextra (h25.trans h5) ⟨h7.trans h.1, h4.trans h.2⟩
  have hhigh := word_extract_op op rn rd operand 0 8
  rw [armInstruction, if_neg hnot, word_extract_operand _ _ _ _ (show 4 + 4 ≤ 12 by decide), ← hhigh]

theorem armInstruction_nibbles (op : BitVec 12) (a b c : BitVec 4)
    (h : op[7] = true ∨ op[6] = true ∨ op[5] = false ∧ b[3] = true ∧ b[0] = true) :
    armInstruction bus (word op rn rd (nibbles a b c)) =
      otherInstruction bus (word op rn rd (nibbles a b c)) (op.extractLsb' 0 8).toNat b.toNat := by
  have hmiddle := nibbles_middle a b c (show 0 + 4 ≤ 4 by decide)
  rw [armInstruction_other, hmiddle, BitVec.extractLsb'_eq_self]
  rcases h with h | h | ⟨h5, h7, h4⟩
  · exact .inl h
  · exact .inr (.inl h)
  · exact .inr (.inr ⟨h5, (nibbles_bit a b c (show 3 < 4 by decide)).trans h7,
      (nibbles_bit a b c (show 0 < 4 by decide)).trans h4⟩)

theorem armInstruction_memImm (byte load : Bool) (imm : BitVec 12) :
    armInstruction bus (memImm byte load rd rn imm) = some (match byte, load with
      | false, false => opSTR_P_IMM_OFF bus (memImm byte load rd rn imm)
      | false, true => opLDR_P_IMM_OFF bus (memImm byte load rd rn imm)
      | true, false => opSTRB_P_IMM_OFF bus (memImm byte load rd rn imm)
      | true, true => opLDRB_P_IMM_OFF bus (memImm byte load rd rn imm)) := by
  rw [memImm, armInstruction_other]
  · cases byte <;> cases load <;> rfl
  · right
    left
    cases byte <;> cases load <;> rfl

theorem armInstruction_memReg (byte load : Bool) :
    armInstruction bus (memReg byte load rd rn rm) = some (match byte, load with
      | false, false => opSTR_P_LSL_IMM_OFF bus (memReg byte load rd rn rm)
      | false, true => opLDR_P_LSL_IMM_OFF bus (memReg byte load rd rn rm)
      | true, false => opSTRB_P_LSL_IMM_OFF bus (memReg byte load rd rn rm)
      | true, true => opLDRB_P_LSL_IMM_OFF bus (memReg byte load rd rn rm)) := by
  rw [memReg, armInstruction_nibbles]
  · cases byte <;> cases load <;> rfl
  · right
    left
    cases byte <;> cases load <;> rfl

theorem armInstruction_halfImm (load : Bool) (immH immL : BitVec 4) :
    armInstruction bus (halfImm load rd rn immH immL) = some (match load with
      | false => opSTRH_P_IMM_OFF bus (halfImm load rd rn immH immL)
      | true => opLDRH_P_IMM_OFF bus (halfImm load rd rn immH immL)) := by
  rw [halfImm, armInstruction_nibbles]
  · cases load <;> rfl
  · cases load <;> decide

theorem armInstruction_halfReg :
    armInstruction bus (halfReg false 1 rd rn rm) =
        some (opSTRH_P_REG_OFF bus (halfReg false 1 rd rn rm)) ∧
      armInstruction bus (halfReg true 1 rd rn rm) =
        some (opLDRH_P_REG_OFF bus (halfReg true 1 rd rn rm)) ∧
      armInstruction bus (halfReg true 2 rd rn rm) =
        some (opLDRSB_P_REG_OFF bus (halfReg true 2 rd rn rm)) ∧
      armInstruction bus (halfReg true 3 rd rn rm) =
        some (opLDRSH_P_REG_OFF bus (halfReg true 3 rd rn rm)) := by
  simp only [halfReg]
  refine ⟨?_, ?_, ?_, ?_⟩ <;> rw [armInstruction_nibbles] <;> first | rfl | decide

theorem armInstruction_muls (rs : BitVec 4) :
    armInstruction bus (muls rd rm rs) =
      some fun s => { s with cpu := opMUL_S (muls rd rm rs) s.cpu } := by
  rw [muls, armInstruction_nibbles]
  · rfl
  · decide

theorem armInstruction_block (list : BitVec 16) :
    armInstruction bus (block true false false rn list) =
        some (opSTMDB_W bus (block true false false rn list)) ∧
      armInstruction bus (block false true false rn list) =
        some (opSTMIA_W bus (block false true false rn list)) ∧
      armInstruction bus (block false true true rn list) =
        some (opLDMIA_W bus (block false true true rn list)) := by
  simp only [block]
  refine ⟨?_, ?_, ?_⟩ <;> rw [armInstruction_other] <;> first | rfl | exact .inl rfl

theorem immOff12_memImm (byte load : Bool) (imm : BitVec 12) :
    immOff12 (memImm byte load rd rn imm) = imm.setWidth 32 := by
  apply BitVec.eq_of_getLsbD_eq
  intro k hk
  rw [immOff12, memImm, BitVec.getLsbD_and, word_getLsbD, BitVec.getLsbD_setWidth]
  by_cases h : k < 12
  · rw [if_pos h]
    interval_cases k <;> simp
  · have hmask : (0xFFF : Word).getLsbD k = false := by
      rw [show (0xFFF : Word) = (BitVec.allOnes 12).setWidth 32 by decide, BitVec.getLsbD_setWidth,
        BitVec.getLsbD_of_ge _ _ (Nat.not_lt.mp h), Bool.and_false]
    rw [hmask, BitVec.getLsbD_of_ge imm k (Nat.not_lt.mp h), Bool.and_false, Bool.and_false]

theorem regPos_nibbles (op : BitVec 12) (a b c : BitVec 4) :
    regPos (word op rn rd (nibbles a b c)) 0 = reg c := by
  rw [regPos_word_operand _ _ _ _ (by decide), nibbles_low]

theorem lslImm_memReg (byte load : Bool) (cpu : ArmCpu) :
    lslImm (memReg byte load rd rn rm) cpu = cpu.R (reg rm) := by
  have hshift : shiftImm (memReg byte load rd rn rm) = 0 := by
    rw [shiftImm_eq, memReg, word_extract_operand _ _ _ _ (by decide)]
    have : (nibbles 0 0 rm).extractLsb' 7 5 = 0 := by
      apply BitVec.eq_of_getLsbD_eq
      intro k hk
      simp only [nibbles, BitVec.getLsbD_extractLsb', BitVec.getLsbD_append]
      interval_cases k <;> rfl
    rw [this]
    rfl
  rw [lslImm, hshift, BitVec.shiftLeft_zero, ArmCpu.rm, memReg, regPos_nibbles]

theorem immOff_halfImm (load : Bool) (immH immL : BitVec 4) :
    immOff (halfImm load rd rn immH immL) = (immH ++ immL).setWidth 32 := by
  have hhigh : (halfImm load rd rn immH immL >>> 4) &&& 0xF0 = (immH ++ 0#4).setWidth 32 := by
    apply BitVec.eq_of_getLsbD_eq
    intro k hk
    simp only [halfImm, nibbles, BitVec.getLsbD_and, BitVec.getLsbD_ushiftRight, word_getLsbD,
      BitVec.getLsbD_setWidth, BitVec.getLsbD_append]
    interval_cases k <;> simp
  have hlow : halfImm load rd rn immH immL &&& 0xF = immL.setWidth 32 := by
    apply BitVec.eq_of_getLsbD_eq
    intro k hk
    simp only [halfImm, nibbles, BitVec.getLsbD_and, word_getLsbD, BitVec.getLsbD_setWidth,
      BitVec.getLsbD_append]
    interval_cases k <;> simp
  have h := immL.isLt
  have h' := immH.isLt
  apply BitVec.eq_of_toNat_eq
  rw [immOff, hhigh, hlow]
  simp only [BitVec.toNat_add, BitVec.toNat_setWidth, BitVec.toNat_append]
  rw [← Nat.shiftLeft_add_eq_or_of_lt h]
  simp only [BitVec.toNat_ofNat, Nat.zero_mod, Nat.or_zero, Nat.shiftLeft_eq]
  omega

theorem regPos_block (P U load : Bool) (list : BitVec 16) :
    regPos (block P U load rn list) 16 = reg rn := regPos_word_rn _ _ _ _

theorem listed_block (P U load : Bool) (list : BitVec 16) (r : Fin 16) :
    listed (block P U load rn list) r = list.getLsbD r := by
  rw [listed, block, word_getLsbD]
  have := r.isLt
  split_ifs with h12
  · rw [BitVec.getLsbD_extractLsb', decide_eq_true h12, Nat.zero_add]
    rfl
  · rw [BitVec.getLsbD_extractLsb', decide_eq_true (by omega), show 12 + (r.val - 12) = r.val by omega]
    rfl

end Memory

namespace Thumb

/-! ### The abbreviated instruction -/

/-- A register field of three bits. -/
def lo (i : Word) (n : ℕ) : BitVec 4 := (i.extractLsb' n 3).setWidth 4

/-- The register field that bit 7 extends. -/
def hi (i : Word) : BitVec 4 := i.extractLsb' 7 1 ++ i.extractLsb' 0 3

/-- The register field of four bits. -/
def rmHi (i : Word) : BitVec 4 := i.extractLsb' 3 4

def imm3Field (i : Word) : BitVec 8 := (i.extractLsb' 6 3).setWidth 8

def imm5Field (i : Word) : BitVec 5 := i.extractLsb' 6 5

def imm7Field (i : Word) : BitVec 8 := (i.extractLsb' 0 7).setWidth 8

def imm8Field (i : Word) : BitVec 8 := i.extractLsb' 0 8

/-- The high digit of a halfword offset. -/
def offsetHigh (i : Word) : BitVec 4 := 0#2 ++ i.extractLsb' 9 2

/-- The low digit of a halfword offset. -/
def offsetLow (i : Word) : BitVec 4 := i.extractLsb' 6 3 ++ 0#1

/-- The ARM instruction that a THUMB instruction abbreviates. -/
def Op.armWord (op : Op) (i : Word) : Word :=
  match op with
  | .LSL_0 => dpShift .mov true (lo i 0) 0 (lo i 3) .lsl 0
  | .LSL => dpShift .mov true (lo i 0) 0 (lo i 3) .lsl (imm5Field i)
  | .LSR_0 => dpShift .mov true (lo i 0) 0 (lo i 3) .lsr 0
  | .LSR => dpShift .mov true (lo i 0) 0 (lo i 3) .lsr (imm5Field i)
  | .ASR_0 => dpShift .mov true (lo i 0) 0 (lo i 3) .asr 0
  | .ASR => dpShift .mov true (lo i 0) 0 (lo i 3) .asr (imm5Field i)
  | .ADD_REG => dpShift .add true (lo i 0) (lo i 3) (lo i 6) .lsl 0
  | .SUB_REG => dpShift .sub true (lo i 0) (lo i 3) (lo i 6) .lsl 0
  | .ADD_IMM3 => dpImm .add true (lo i 0) (lo i 3) 0 (imm3Field i)
  | .SUB_IMM3 => dpImm .sub true (lo i 0) (lo i 3) 0 (imm3Field i)
  | .MOV_IMM8 => dpImm .mov true (lo i 8) 0 0 (imm8Field i)
  | .CMP_IMM8 => dpImm .cmp true 0 (lo i 8) 0 (imm8Field i)
  | .ADD_IMM8 => dpImm .add true (lo i 8) (lo i 8) 0 (imm8Field i)
  | .SUB_IMM8 => dpImm .sub true (lo i 8) (lo i 8) 0 (imm8Field i)
  | .AND => dpShift .and true (lo i 0) (lo i 0) (lo i 3) .lsl 0
  | .EOR => dpShift .eor true (lo i 0) (lo i 0) (lo i 3) .lsl 0
  | .LSL_REG => dpRegShift .mov true (lo i 0) 0 (lo i 0) .lsl (lo i 3)
  | .LSR_REG => dpRegShift .mov true (lo i 0) 0 (lo i 0) .lsr (lo i 3)
  | .ASR_REG => dpRegShift .mov true (lo i 0) 0 (lo i 0) .asr (lo i 3)
  | .ADC_REG => dpShift .adc true (lo i 0) (lo i 0) (lo i 3) .lsl 0
  | .SBC_REG => dpShift .sbc true (lo i 0) (lo i 0) (lo i 3) .lsl 0
  | .ROR_REG => dpRegShift .mov true (lo i 0) 0 (lo i 0) .ror (lo i 3)
  | .TST => dpShift .tst true 0 (lo i 0) (lo i 3) .lsl 0
  | .NEG => dpImm .rsb true (lo i 0) (lo i 3) 0 0
  | .CMP => dpShift .cmp true 0 (lo i 0) (lo i 3) .lsl 0
  | .CMN => dpShift .cmn true 0 (lo i 0) (lo i 3) .lsl 0
  | .ORR => dpShift .orr true (lo i 0) (lo i 0) (lo i 3) .lsl 0
  | .MUL_REG => muls (lo i 0) (lo i 3) (lo i 0)
  | .BIC => dpShift .bic true (lo i 0) (lo i 0) (lo i 3) .lsl 0
  | .MVN => dpShift .mvn true (lo i 0) 0 (lo i 3) .lsl 0
  | .ADD_SPE => dpShift .add false (hi i) (hi i) (rmHi i) .lsl 0
  | .CMP_SPE => dpShift .cmp true 0 (hi i) (rmHi i) .lsl 0
  | .MOV_SPE => dpShift .mov false (hi i) 0 (rmHi i) .lsl 0
  | .LDR_PCREL => memImm false true (lo i 8) 15 (0#2 ++ imm8Field i ++ 0#2)
  | .STR_REG_OFF => memReg false false (lo i 0) (lo i 3) (lo i 6)
  | .STRH_REG_OFF => halfReg false 1 (lo i 0) (lo i 3) (lo i 6)
  | .STRB_REG_OFF => memReg true false (lo i 0) (lo i 3) (lo i 6)
  | .LDRSB_REG_OFF => halfReg true 2 (lo i 0) (lo i 3) (lo i 6)
  | .LDR_REG_OFF => memReg false true (lo i 0) (lo i 3) (lo i 6)
  | .LDRH_REG_OFF => halfReg true 1 (lo i 0) (lo i 3) (lo i 6)
  | .LDRB_REG_OFF => memReg true true (lo i 0) (lo i 3) (lo i 6)
  | .LDRSH_REG_OFF => halfReg true 3 (lo i 0) (lo i 3) (lo i 6)
  | .STR_IMM_OFF => memImm false false (lo i 0) (lo i 3) (0#5 ++ imm5Field i ++ 0#2)
  | .LDR_IMM_OFF => memImm false true (lo i 0) (lo i 3) (0#5 ++ imm5Field i ++ 0#2)
  | .STRB_IMM_OFF => memImm true false (lo i 0) (lo i 3) (0#7 ++ imm5Field i)
  | .LDRB_IMM_OFF => memImm true true (lo i 0) (lo i 3) (0#7 ++ imm5Field i)
  | .STRH_IMM_OFF =>
    halfImm false (lo i 0) (lo i 3) (offsetHigh i) (offsetLow i)
  | .LDRH_IMM_OFF =>
    halfImm true (lo i 0) (lo i 3) (offsetHigh i) (offsetLow i)
  | .STR_SPREL => memImm false false (lo i 8) 13 (0#2 ++ imm8Field i ++ 0#2)
  | .LDR_SPREL => memImm false true (lo i 8) 13 (0#2 ++ imm8Field i ++ 0#2)
  | .ADD_2PC => dpImm .add false (lo i 8) 15 15 (imm8Field i)
  | .ADD_2SP => dpImm .add false (lo i 8) 13 15 (imm8Field i)
  | .ADJUST_P_SP => dpImm .add false 13 13 15 (imm7Field i)
  | .ADJUST_M_SP => dpImm .sub false 13 13 15 (imm7Field i)
  | .PUSH => block true false false 13 (0#8 ++ imm8Field i)
  | .PUSH_LR => block true false false 13 (0b01000000#8 ++ imm8Field i)
  | .POP => block false true true 13 (0#8 ++ imm8Field i)
  | .POP_PC => block false true true 13 (0b10000000#8 ++ imm8Field i)
  | .STMIA_THUMB => block false true false (lo i 8) (0#8 ++ imm8Field i)
  | .LDMIA_THUMB => block false true true (lo i 8) (0#8 ++ imm8Field i)

/-! ### The fields of a THUMB instruction -/

section Fields

variable (i : Word)

theorem reg_lo (n : ℕ) : reg (lo i n) = regNum i n := by
  apply Fin.ext
  have h : ((i >>> n) &&& 7).toNat = (i >>> n).toNat % 8 := Nat.and_two_pow_sub_one_eq_mod _ 3
  change (lo i n).toNat % 16 = ((i >>> n) &&& 7).toNat % 16
  rw [h, lo, BitVec.toNat_setWidth, BitVec.extractLsb'_toNat, BitVec.toNat_ushiftRight]
  omega

theorem regNum_lt (n : ℕ) : (regNum i n).val < 8 := by
  have h : ((i >>> n) &&& 7).toNat = (i >>> n).toNat % 8 := Nat.and_two_pow_sub_one_eq_mod _ 3
  change ((i >>> n) &&& 7).toNat % 16 < 8
  omega

theorem regNum_ne (n : ℕ) {r : Fin 16} (hr : 8 ≤ r.val) : regNum i n ≠ r := by
  have := regNum_lt i n
  rintro rfl
  omega

theorem reg_hi : reg (hi i) = regHi i := by
  have h : (hi i).setWidth 32 = (i &&& 7) ||| ((i >>> 4) &&& 8) := by
    apply BitVec.eq_of_getLsbD_eq
    intro k hk
    simp only [hi, BitVec.getLsbD_setWidth, BitVec.getLsbD_append, BitVec.getLsbD_extractLsb',
      BitVec.getLsbD_or, BitVec.getLsbD_and, BitVec.getLsbD_ushiftRight]
    interval_cases k <;> simp
  rw [regHi, ← h, BitVec.toNat_setWidth, Nat.mod_eq_of_lt (by omega)]
  rfl

theorem reg_rmHi : reg (rmHi i) = regPos i 3 := (regPos_eq i 3).symm

theorem imm5_eq : imm5 i = (imm5Field i).toNat := by
  rw [imm5, imm5Field, BitVec.toNat_and, BitVec.toNat_ushiftRight, BitVec.extractLsb'_toNat]
  exact Nat.and_two_pow_sub_one_eq_mod _ 5

theorem imm3_eq : imm3 i = (imm3Field i).setWidth 32 := by
  apply BitVec.eq_of_getLsbD_eq
  intro k hk
  rw [imm3, imm3Field]
  interval_cases k <;> simp

theorem imm7_eq : i &&& 0x7F = (imm7Field i).setWidth 32 := by
  apply BitVec.eq_of_getLsbD_eq
  intro k hk
  rw [imm7Field]
  interval_cases k <;> simp

theorem imm8_eq : imm8 i = (imm8Field i).setWidth 32 := by
  apply BitVec.eq_of_getLsbD_eq
  intro k hk
  rw [imm8, imm8Field]
  interval_cases k <;> simp

theorem offset8_eq : (i >>> 6) &&& 0x1F = (0#7 ++ imm5Field i).setWidth 32 := by
  apply BitVec.eq_of_getLsbD_eq
  intro k hk
  simp only [imm5Field, BitVec.getLsbD_setWidth, BitVec.getLsbD_append, BitVec.getLsbD_extractLsb']
  interval_cases k <;> simp

theorem offset16_eq : (i >>> 5) &&& 0x3E = (offsetHigh i ++ offsetLow i).setWidth 32 := by
  apply BitVec.eq_of_getLsbD_eq
  intro k hk
  simp only [offsetHigh, offsetLow, BitVec.getLsbD_setWidth, BitVec.getLsbD_append, BitVec.getLsbD_extractLsb']
  interval_cases k <;> simp

theorem offset32_eq : (i >>> 4) &&& 0x7C = (0#5 ++ imm5Field i ++ 0#2).setWidth 32 := by
  apply BitVec.eq_of_getLsbD_eq
  intro k hk
  simp only [imm5Field, BitVec.getLsbD_setWidth, BitVec.getLsbD_append, BitVec.getLsbD_extractLsb']
  interval_cases k <;> simp

theorem offsetSp_eq : imm8 i <<< 2 = (0#2 ++ imm8Field i ++ 0#2).setWidth 32 := by
  apply BitVec.eq_of_getLsbD_eq
  intro k hk
  simp only [imm8, imm8Field, BitVec.getLsbD_setWidth, BitVec.getLsbD_append,
    BitVec.getLsbD_extractLsb']
  interval_cases k <;> simp

end Fields

end Thumb

end Desmume.Arm
