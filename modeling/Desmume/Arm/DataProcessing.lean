import Desmume.Arm.Shifter

/-! The data-processing instructions: the sixteen handler families, and the architecture's
definition of the instruction that they implement. -/

namespace Desmume.Arm

open Desmume.Library

inductive Opcode where
  | and
  | eor
  | sub
  | rsb
  | add
  | adc
  | sbc
  | rsc
  | tst
  | teq
  | cmp
  | cmn
  | orr
  | mov
  | bic
  | mvn
deriving DecidableEq, Repr

/-! ### The handlers -/

/-- `CarryFrom`. -/
def carryFrom (left right : Word) : Bool := decide (0xFFFFFFFF - left < right)

/-- `BorrowFrom`. -/
def borrowFrom (left right : Word) : Bool := decide (left < right)

/-- `OverflowFromADD`. -/
def overflowFromADD (alu_out left right : Word) : Bool :=
  ((0 ≤ left.toInt && 0 ≤ right.toInt) || (left.toInt < 0 && right.toInt < 0)) &&
    ((left.toInt < 0 && 0 ≤ alu_out.toInt) || (0 ≤ left.toInt && alu_out.toInt < 0))

/-- `OverflowFromSUB`. -/
def overflowFromSUB (alu_out left right : Word) : Bool :=
  ((left.toInt < 0 && 0 ≤ right.toInt) || (0 ≤ left.toInt && right.toInt < 0)) &&
    ((left.toInt < 0 && 0 ≤ alu_out.toInt) || (0 ≤ left.toInt && alu_out.toInt < 0))

namespace ArmCpu

/-- `cpu->CPSR.bits.C` as a number. -/
def carryIn (cpu : ArmCpu) : Word := BitVec.ofNat 32 cpu.CPSR.C.toNat

/-- `!cpu->CPSR.bits.C`. -/
def borrowIn (cpu : ArmCpu) : Word := BitVec.ofNat 32 (!cpu.CPSR.C).toNat

def setFlags (cpu : ArmCpu) (N Z C V : Bool) : ArmCpu :=
  cpu.setCPSR { cpu.CPSR with N, Z, C, V }

/-- The end of the handlers with the S bit when `Rd` is `R15`. -/
def returnToSPSR (cpu : ArmCpu) : ArmCpu :=
  let cpu := cpu.restoreSPSR
  (cpu.setR 15 (cpu.R 15 &&& (0xFFFFFFFC ||| (if cpu.CPSR.T then (2 : Word) else 0)))).jump

end ArmCpu

/-- The handlers without the S bit, on the value they write to `Rd`. -/
def opPlain (i v : Word) (cpu : ArmCpu) : ArmCpu :=
  let cpu := cpu.setR (regPos i 12) v
  if regPos i 12 = 15 then cpu.jump else cpu

/-- The logical handlers with the S bit. -/
def opLogicalS (i v : Word) (c : Bool) (cpu : ArmCpu) : ArmCpu :=
  let cpu := cpu.setR (regPos i 12) v
  if regPos i 12 = 15 then cpu.returnToSPSR
  else cpu.setFlags (v.getLsbD 31) (v == 0) c cpu.CPSR.V

/-- The arithmetic handlers with the S bit, with the flags they compute. -/
def opArithmeticS (i v : Word) (C V : Bool) (cpu : ArmCpu) : ArmCpu :=
  let cpu := cpu.setR (regPos i 12) v
  if regPos i 12 = 15 then cpu.returnToSPSR else cpu.setFlags (v.getLsbD 31) (v == 0) C V

theorem opLogicalS_pc {i : Word} (hd : regPos i 12 = 15) (v : Word) (c : Bool) (cpu : ArmCpu) :
    opLogicalS i v c cpu = (cpu.setR 15 v).returnToSPSR := by
  unfold opLogicalS
  rw [hd, if_pos rfl]

theorem opArithmeticS_pc {i : Word} (hd : regPos i 12 = 15) (v : Word) (C V : Bool) (cpu : ArmCpu) :
    opArithmeticS i v C V cpu = (cpu.setR 15 v).returnToSPSR := by
  unfold opArithmeticS
  rw [hd, if_pos rfl]

section Families

variable (i shift_op : Word) (cpu : ArmCpu)

/-- `cpu->R[REG_POS(i,16)]`. -/
def ArmCpu.rn (cpu : ArmCpu) (i : Word) : Word := cpu.R (regPos i 16)

/-- `OP_AND`. -/
def opAND : ArmCpu := opPlain i (cpu.rn i &&& shift_op) cpu

/-- `OP_ANDS`. -/
def opANDS (c : Bool) : ArmCpu := opLogicalS i (cpu.rn i &&& shift_op) c cpu

/-- `OP_EOR`. -/
def opEOR : ArmCpu := opPlain i (cpu.rn i ^^^ shift_op) cpu

/-- `OP_EORS`. -/
def opEORS (c : Bool) : ArmCpu := opLogicalS i (cpu.rn i ^^^ shift_op) c cpu

/-- `OP_SUB`. -/
def opSUB : ArmCpu := opPlain i (cpu.rn i - shift_op) cpu

/-- `OP_SUBS`. -/
def opSUBS : ArmCpu :=
  let v := cpu.rn i
  opArithmeticS i (v - shift_op) (!borrowFrom v shift_op)
    (overflowFromSUB (v - shift_op) v shift_op) cpu

/-- `OP_RSB`. -/
def opRSB : ArmCpu := opPlain i (shift_op - cpu.rn i) cpu

/-- `OP_RSBS`. -/
def opRSBS : ArmCpu :=
  let v := cpu.rn i
  opArithmeticS i (shift_op - v) (!borrowFrom shift_op v)
    (overflowFromSUB (shift_op - v) shift_op v) cpu

/-- `OP_ADD`. -/
def opADD : ArmCpu := opPlain i (cpu.rn i + shift_op) cpu

/-- `OP_ADDS`. -/
def opADDS : ArmCpu :=
  let v := cpu.rn i
  opArithmeticS i (v + shift_op) (carryFrom v shift_op)
    (overflowFromADD (v + shift_op) v shift_op) cpu

/-- `OP_ADC`. -/
def opADC : ArmCpu := opPlain i (cpu.rn i + shift_op + cpu.carryIn) cpu

/-- `OP_ADCS`. -/
def opADCS : ArmCpu :=
  let v := cpu.rn i
  if regPos i 12 = 15 then (cpu.setR 15 (v + shift_op + cpu.carryIn)).returnToSPSR
  else
    let result := if !cpu.CPSR.C then v + shift_op else v + shift_op + 1
    let C := if !cpu.CPSR.C then decide (result < v) else decide (result ≤ v)
    (cpu.setR (regPos i 12) result).setFlags (result.getLsbD 31) (result == 0) C
      (((v ^^^ shift_op ^^^ 0xFFFFFFFF) &&& (v ^^^ result)).getLsbD 31)

/-- `OP_SBC`. -/
def opSBC : ArmCpu := opPlain i (cpu.rn i - shift_op - cpu.borrowIn) cpu

/-- `OP_SBCS`. -/
def opSBCS : ArmCpu :=
  let v := cpu.rn i
  if regPos i 12 = 15 then (cpu.setR 15 (v - shift_op - cpu.borrowIn)).returnToSPSR
  else
    let result := if !cpu.CPSR.C then v - shift_op - 1 else v - shift_op
    let C := if !cpu.CPSR.C then decide (shift_op < v) else decide (shift_op ≤ v)
    (cpu.setR (regPos i 12) result).setFlags (result.getLsbD 31) (result == 0) C
      (((v ^^^ shift_op) &&& (v ^^^ result)).getLsbD 31)

/-- `OP_RSC`. -/
def opRSC : ArmCpu := opPlain i (shift_op - cpu.rn i + cpu.carryIn - 1) cpu

/-- `OP_RSCS`. -/
def opRSCS : ArmCpu :=
  let v := cpu.rn i
  if regPos i 12 = 15 then (cpu.setR 15 (shift_op - v - cpu.borrowIn)).returnToSPSR
  else
    let result := if !cpu.CPSR.C then shift_op - v - 1 else shift_op - v
    let C := if !cpu.CPSR.C then decide (v < shift_op) else decide (v ≤ shift_op)
    (cpu.setR (regPos i 12) result).setFlags (result.getLsbD 31) (result == 0) C
      (((shift_op ^^^ v) &&& (shift_op ^^^ result)).getLsbD 31)

/-- `OP_TST`. -/
def opTST (c : Bool) : ArmCpu :=
  let tmp := cpu.rn i &&& shift_op
  cpu.setFlags (tmp.getLsbD 31) (tmp == 0) c cpu.CPSR.V

/-- `OP_TEQ`. -/
def opTEQ (c : Bool) : ArmCpu :=
  let tmp := cpu.rn i ^^^ shift_op
  cpu.setFlags (tmp.getLsbD 31) (tmp == 0) c cpu.CPSR.V

/-- `OP_CMP`. -/
def opCMP : ArmCpu :=
  let tmp := cpu.rn i - shift_op
  cpu.setFlags (tmp.getLsbD 31) (tmp == 0) (!borrowFrom (cpu.rn i) shift_op)
    (overflowFromSUB tmp (cpu.rn i) shift_op)

/-- `OP_CMN`. -/
def opCMN : ArmCpu :=
  let tmp := cpu.rn i + shift_op
  cpu.setFlags (tmp.getLsbD 31) (tmp == 0) (carryFrom (cpu.rn i) shift_op)
    (overflowFromADD tmp (cpu.rn i) shift_op)

/-- `OP_ORR`. -/
def opORR : ArmCpu := opPlain i (cpu.rn i ||| shift_op) cpu

/-- `OP_ORRS`. -/
def opORRS (c : Bool) : ArmCpu := opLogicalS i (cpu.rn i ||| shift_op) c cpu

/-- `OP_MOV`. -/
def opMOV : ArmCpu := opPlain i shift_op cpu

/-- `OP_MOVS`. -/
def opMOVS (c : Bool) : ArmCpu := opLogicalS i shift_op c cpu

/-- `OP_BIC`. -/
def opBIC : ArmCpu := opPlain i (cpu.rn i &&& ~~~shift_op) cpu

/-- `OP_BICS`. -/
def opBICS (c : Bool) : ArmCpu := opLogicalS i (cpu.rn i &&& ~~~shift_op) c cpu

/-- `OP_MVN`. -/
def opMVN : ArmCpu := opPlain i (~~~shift_op) cpu

/-- `OP_MVNS`. -/
def opMVNS (c : Bool) : ArmCpu := opLogicalS i (~~~shift_op) c cpu

end Families

/-- `if (REG_POS(i,0) == 15) shift_op += 4`, in the moves of a register shifted left or right by
a register. -/
def moveBias (form : Operand2) (i shift_op : Word) : Word :=
  if (form = .lslReg ∨ form = .lsrReg) ∧ regPos i 0 = 15 then shift_op + 4 else shift_op

/-- The handlers `OP_xxx_<form>`. -/
def handler (op : Opcode) (form : Operand2) (i : Word) (cpu : ArmCpu) : ArmCpu :=
  let shift_op := shiftOp form i cpu
  let s := sShiftOp form i cpu
  match op with
  | .and => opAND i shift_op cpu
  | .eor => opEOR i shift_op cpu
  | .sub => opSUB i shift_op cpu
  | .rsb => opRSB i shift_op cpu
  | .add => opADD i shift_op cpu
  | .adc => opADC i shift_op cpu
  | .sbc => opSBC i shift_op cpu
  | .rsc => opRSC i shift_op cpu
  | .tst => opTST i s.1 cpu s.2
  | .teq => opTEQ i s.1 cpu s.2
  | .cmp => opCMP i shift_op cpu
  | .cmn => opCMN i shift_op cpu
  | .orr => opORR i shift_op cpu
  | .mov =>
    if form = .lslImm ∧ i = 0xE1A00000 then cpu else opMOV i (moveBias form i shift_op) cpu
  | .bic => opBIC i shift_op cpu
  | .mvn => opMVN i shift_op cpu

/-- The handlers `OP_xxx_S_<form>`; the comparisons have no others. -/
def handlerS (op : Opcode) (form : Operand2) (i : Word) (cpu : ArmCpu) : ArmCpu :=
  let shift_op := shiftOp form i cpu
  let s := sShiftOp form i cpu
  match op with
  | .and => opANDS i s.1 cpu s.2
  | .eor => opEORS i s.1 cpu s.2
  | .sub => opSUBS i shift_op cpu
  | .rsb => opRSBS i shift_op cpu
  | .add => opADDS i shift_op cpu
  | .adc => opADCS i shift_op cpu
  | .sbc => opSBCS i shift_op cpu
  | .rsc => opRSCS i shift_op cpu
  | .tst | .teq | .cmp | .cmn => handler op form i cpu
  | .orr => opORRS i s.1 cpu s.2
  | .mov => opMOVS i (moveBias form i s.1) cpu s.2
  | .bic => opBICS i s.1 cpu s.2
  | .mvn => opMVNS i s.1 cpu s.2

/-! ### The instruction word -/

def opcodeOf (i : Word) : Opcode :=
  match (i.extractLsb' 21 4).toNat with
  | 0 => .and
  | 1 => .eor
  | 2 => .sub
  | 3 => .rsb
  | 4 => .add
  | 5 => .adc
  | 6 => .sbc
  | 7 => .rsc
  | 8 => .tst
  | 9 => .teq
  | 10 => .cmp
  | 11 => .cmn
  | 12 => .orr
  | 13 => .mov
  | 14 => .bic
  | _ => .mvn

def operandForm (i : Word) : Operand2 :=
  if i.getLsbD 25 then .immValue
  else
    match (i.extractLsb' 5 2).toNat, i.getLsbD 4 with
    | 0, false => .lslImm
    | 0, true => .lslReg
    | 1, false => .lsrImm
    | 1, true => .lsrReg
    | 2, false => .asrImm
    | 2, true => .asrReg
    | _, false => .rorImm
    | _, true => .rorReg

def Opcode.isTest : Opcode → Bool
  | .tst | .teq | .cmp | .cmn => true
  | _ => false

/-- The data-processing encodings: the other words of the group are multiplications, extra
loads and stores, and accesses to the status registers. -/
def IsDataProcessing (i : Word) : Prop :=
  i.getLsbD 27 = false ∧ i.getLsbD 26 = false ∧
    (i.getLsbD 25 = false → ¬ (i.getLsbD 7 = true ∧ i.getLsbD 4 = true)) ∧
    ((opcodeOf i).isTest = true → i.getLsbD 20 = true)

/-- The entries of `arm_instructions_set` for the data-processing encodings. -/
def dataProcessing (i : Word) (cpu : ArmCpu) : ArmCpu :=
  if i.getLsbD 20 then handlerS (opcodeOf i) (operandForm i) i cpu
  else handler (opcodeOf i) (operandForm i) i cpu

/-! ### The architecture -/

namespace Opcode

/-- The addition an arithmetic opcode performs. -/
def sum (op : Opcode) (n m : Word) (carry : Bool) : Option (AluSum 32) :=
  match op with
  | .sub | .cmp => some (addWithCarry n (~~~m) true)
  | .rsb => some (addWithCarry (~~~n) m true)
  | .add | .cmn => some (addWithCarry n m false)
  | .adc => some (addWithCarry n m carry)
  | .sbc => some (addWithCarry n (~~~m) carry)
  | .rsc => some (addWithCarry (~~~n) m carry)
  | _ => none

def logical (op : Opcode) (n m : Word) : Word :=
  match op with
  | .eor | .teq => n ^^^ m
  | .orr => n ||| m
  | .mov => m
  | .bic => n &&& ~~~m
  | .mvn => ~~~m
  | _ => n &&& m

end Opcode

/-- What the architecture has an instruction do: `Rd` gets the result unless the opcode only
compares, and the flags change with the S bit alone. -/
def archExecute (op : Opcode) (form : Operand2) (S : Bool) (i : Word) (cpu : ArmCpu) : ArmCpu :=
  let n := cpu.R (regPos i 16)
  let (m, shifterCarry) := operand2C form i cpu
  let (result, C, V) :=
    match op.sum n m cpu.CPSR.C with
    | some sum => (sum.result, sum.carry, sum.overflow)
    | none => (op.logical n m, shifterCarry, cpu.CPSR.V)
  let cpu := if op.isTest then cpu else cpu.setR (regPos i 12) result
  if S then cpu.setFlags result.msb (result == 0) C V else cpu

/-! ### The flag formulas -/

theorem overflowFromADD_eq (alu left right : Word) :
    overflowFromADD alu left right = (left.msb == right.msb && alu.msb != left.msb) := by
  simp only [overflowFromADD, BitVec.msb_eq_toInt]
  grind

theorem overflowFromSUB_eq (alu left right : Word) :
    overflowFromSUB alu left right = (left.msb == !right.msb && alu.msb != left.msb) := by
  simp only [overflowFromSUB, BitVec.msb_eq_toInt]
  grind

theorem sum_add (n m : Word) :
    addWithCarry n m false = ⟨n + m, carryFrom n m, overflowFromADD (n + m) n m⟩ := by
  have hresult : (addWithCarry n m false).result = n + m := by
    rw [addWithCarry_result]
    exact BitVec.add_zero _
  apply AluSum.ext
  · exact hresult
  · rw [addWithCarry_carry, carryFrom]
    apply decide_eq_decide.mpr
    simp only [Bool.toNat_false]
    bv_omega
  · rw [addWithCarry_overflow (by decide), hresult, overflowFromADD_eq]

theorem sum_sub (n m : Word) :
    addWithCarry n (~~~m) true = ⟨n - m, !borrowFrom n m, overflowFromSUB (n - m) n m⟩ := by
  have hresult : (addWithCarry n (~~~m) true).result = n - m := by
    rw [addWithCarry_not_result]
    exact BitVec.sub_zero _
  apply AluSum.ext
  · exact hresult
  · rw [addWithCarry_not_carry, borrowFrom, ← decide_not]
    apply decide_eq_decide.mpr
    simp only [Bool.not_true, Bool.toNat_false]
    bv_omega
  · rw [addWithCarry_overflow (by decide), hresult, overflowFromSUB_eq, BitVec.msb_not]
    rfl

theorem sum_adc (n m : Word) (carry : Bool) :
    let result := if !carry then n + m else n + m + 1
    addWithCarry n m carry =
      ⟨result, if !carry then decide (result < n) else decide (result ≤ n),
        ((n ^^^ m ^^^ 0xFFFFFFFF) &&& (n ^^^ result)).getLsbD 31⟩ := by
  intro result
  have hresult : (addWithCarry n m carry).result = result := by
    rw [addWithCarry_result]
    cases carry with
    | false => exact BitVec.add_zero _
    | true => rfl
  apply AluSum.ext
  · exact hresult
  · rw [addWithCarry_carry]
    cases carry <;> apply decide_eq_decide.mpr <;>
      simp only [result, Bool.toNat_false, Bool.toNat_true, Bool.not_false, Bool.not_true, if_true,
        Bool.false_eq_true, if_false] <;> bv_omega
  · rw [addWithCarry_overflow (by decide), hresult, msb_eq, msb_eq, msb_eq]
    generalize result = r
    simp only [BitVec.getLsbD_and, BitVec.getLsbD_xor]
    cases n.getLsbD 31 <;> cases m.getLsbD 31 <;> cases r.getLsbD 31 <;> rfl

theorem sum_sbc (n m : Word) (carry : Bool) :
    let result := if !carry then n - m - 1 else n - m
    addWithCarry n (~~~m) carry =
      ⟨result, if !carry then decide (m < n) else decide (m ≤ n),
        ((n ^^^ m) &&& (n ^^^ result)).getLsbD 31⟩ := by
  intro result
  have hresult : (addWithCarry n (~~~m) carry).result = result := by
    rw [addWithCarry_not_result]
    cases carry with
    | false => rfl
    | true => exact BitVec.sub_zero _
  apply AluSum.ext
  · exact hresult
  · rw [addWithCarry_not_carry]
    cases carry <;> apply decide_eq_decide.mpr <;>
      simp only [Bool.toNat_false, Bool.toNat_true, Bool.not_false, Bool.not_true] <;> bv_omega
  · rw [addWithCarry_overflow (by decide), hresult, BitVec.msb_not, msb_eq, msb_eq, msb_eq]
    generalize result = r
    simp only [BitVec.getLsbD_and, BitVec.getLsbD_xor]
    cases n.getLsbD 31 <;> cases m.getLsbD 31 <;> cases r.getLsbD 31 <;> rfl

theorem sum_rsb (n m : Word) :
    addWithCarry (~~~n) m true = ⟨m - n, !borrowFrom m n, overflowFromSUB (m - n) m n⟩ := by
  rw [addWithCarry_comm, sum_sub]

/-! ### The handlers implement the architecture -/

theorem moveBias_eq {form : Operand2} {i : Word} (hm : form ≠ .immValue → regPos i 0 ≠ 15)
    (shift_op : Word) : moveBias form i shift_op = shift_op := by
  rw [moveBias, if_neg]
  rintro ⟨hform, h15⟩
  rcases hform with rfl | rfl <;> exact hm (by decide) h15

theorem opPlain_eq {i : Word} (hd : regPos i 12 ≠ 15) (v : Word) (cpu : ArmCpu) :
    opPlain i v cpu = cpu.setR (regPos i 12) v := if_neg hd

/-- The `MOV R0, R0` that `OP_MOV_LSL_IMM` skips would change nothing. -/
theorem opMOV_nop (cpu : ArmCpu) :
    opMOV 0xE1A00000 (shiftOp .lslImm 0xE1A00000 cpu) cpu = cpu := by
  have hv : shiftOp .lslImm 0xE1A00000 cpu = cpu.R 0 := BitVec.shiftLeft_zero _
  rw [opMOV, opPlain_eq (by decide), hv]
  change cpu.withR (Function.update cpu.R 0 (cpu.R 0)) = cpu
  rw [Function.update_eq_self]
  rfl

theorem handler_eq {op : Opcode} {form : Operand2} {i : Word}
    (hd : op.isTest = false → regPos i 12 ≠ 15) (hm : form ≠ .immValue → regPos i 0 ≠ 15)
    (cpu : ArmCpu) : handler op form i cpu = archExecute op form op.isTest i cpu := by
  have hplain := fun h v => opPlain_eq (hd h) v cpu
  have hop := shiftOp_eq form i cpu
  have hops := sShiftOp_eq form i cpu
  have hnop := opMOV_nop cpu
  unfold handler archExecute
  generalize operand2C form i cpu = operand at hop hops
  obtain ⟨m, c⟩ := operand
  cases op with
  | and | eor | orr | bic | mvn =>
    simp only [hop]
    exact hplain rfl _
  | sub =>
    simp only [hop, Opcode.sum, sum_sub]
    exact hplain rfl _
  | rsb =>
    simp only [hop, Opcode.sum, sum_rsb]
    exact hplain rfl _
  | add =>
    simp only [hop, Opcode.sum, sum_add]
    exact hplain rfl _
  | adc =>
    simp only [hop, Opcode.sum, addWithCarry_result]
    exact hplain rfl _
  | sbc =>
    simp only [hop, Opcode.sum, addWithCarry_not_result]
    exact hplain rfl _
  | rsc =>
    have hvalue : m - cpu.rn i - cpu.borrowIn = m - cpu.rn i + cpu.carryIn - 1 := by
      rw [ArmCpu.borrowIn, ArmCpu.carryIn]
      cases cpu.CPSR.C <;> simp [BitVec.add_sub_cancel]
    simp only [hop, Opcode.sum, addWithCarry_comm (~~~cpu.R (regPos i 16)), addWithCarry_not_result]
    exact (hplain rfl _).trans (congrArg _ hvalue.symm)
  | tst | teq =>
    simp only [hops, msb_eq]
    rfl
  | cmp =>
    simp only [hop, Opcode.sum, sum_sub, msb_eq]
    rfl
  | cmn =>
    simp only [hop, Opcode.sum, sum_add, msb_eq]
    rfl
  | mov =>
    by_cases h : form = .lslImm ∧ i = 0xE1A00000
    · obtain ⟨rfl, rfl⟩ := h
      rw [hop] at hnop
      exact hnop.symm.trans (hplain rfl _)
    · simp only [hop, moveBias_eq hm, if_neg h]
      exact hplain rfl _

theorem handlerS_eq {op : Opcode} {form : Operand2} {i : Word}
    (hd : op.isTest = false → regPos i 12 ≠ 15) (hm : form ≠ .immValue → regPos i 0 ≠ 15)
    (cpu : ArmCpu) : handlerS op form i cpu = archExecute op form true i cpu := by
  have hlogical : op.isTest = false → ∀ v c, opLogicalS i v c cpu =
      (cpu.setR (regPos i 12) v).setFlags v.msb (v == 0) c cpu.CPSR.V := by
    intro h v c
    rw [opLogicalS, if_neg (hd h), msb_eq]
    rfl
  have harith : op.isTest = false → ∀ v C V, opArithmeticS i v C V cpu =
      (cpu.setR (regPos i 12) v).setFlags v.msb (v == 0) C V := by
    intro h v C V
    rw [opArithmeticS, if_neg (hd h), msb_eq]
  have htest := fun h : op.isTest = true => (handler_eq hd hm cpu).trans (by rw [h])
  have hop := shiftOp_eq form i cpu
  have hops := sShiftOp_eq form i cpu
  cases op with
  | tst | teq | cmp | cmn => exact htest rfl
  | and | eor | orr | bic | mvn =>
    simp only [handlerS, archExecute, hops]
    exact hlogical rfl _ _
  | mov =>
    simp only [handlerS, archExecute, hops, moveBias_eq hm]
    exact hlogical rfl _ _
  | sub =>
    simp only [handlerS, archExecute, hop, Opcode.sum, sum_sub]
    exact harith rfl _ _ _
  | rsb =>
    simp only [handlerS, archExecute, hop, Opcode.sum, sum_rsb]
    exact harith rfl _ _ _
  | add =>
    simp only [handlerS, archExecute, hop, Opcode.sum, sum_add]
    exact harith rfl _ _ _
  | adc =>
    simp only [handlerS, archExecute, hop, Opcode.sum, sum_adc, opADCS, if_neg (hd rfl), msb_eq]
    rfl
  | sbc =>
    simp only [handlerS, archExecute, hop, Opcode.sum, sum_sbc, opSBCS, if_neg (hd rfl), msb_eq]
    rfl
  | rsc =>
    simp only [handlerS, archExecute, hop, Opcode.sum, addWithCarry_comm (~~~cpu.R (regPos i 16)),
      sum_sbc, opRSCS, if_neg (hd rfl), msb_eq]
    rfl

/-- Every data-processing instruction that writes no program counter, and shifts none, leaves
in the registers and the flags what the architecture says, and nothing else changed. -/
theorem dataProcessing_eq (i : Word) (cpu : ArmCpu) (hi : IsDataProcessing i)
    (hd : (opcodeOf i).isTest = false → regPos i 12 ≠ 15)
    (hm : i.getLsbD 25 = false → regPos i 0 ≠ 15) :
    dataProcessing i cpu = archExecute (opcodeOf i) (operandForm i) (i.getLsbD 20) i cpu := by
  have hform : operandForm i ≠ .immValue → regPos i 0 ≠ 15 := by
    intro hform
    apply hm
    rw [operandForm] at hform
    split at hform
    · exact absurd rfl hform
    · exact eq_false_of_ne_true ‹_›
  rw [dataProcessing]
  split_ifs with hS
  · rw [hS, handlerS_eq hd hform]
  · have htest : (opcodeOf i).isTest = false := eq_false_of_ne_true fun h => hS (hi.2.2.2 h)
    rw [handler_eq hd hform, htest, eq_false_of_ne_true hS]

/-- `ADDS R2, R1, R3`. -/
theorem adds_eq :
    dataProcessing 0xE0912003 (init .arm9 0 0) =
      archExecute .add .lslImm true 0xE0912003 (init .arm9 0 0) :=
  dataProcessing_eq 0xE0912003 (init .arm9 0 0) ⟨rfl, rfl, by decide, by decide⟩ (by decide) (by decide)

end Desmume.Arm
