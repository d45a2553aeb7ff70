import Desmume.Arm.LoadStore

/-! The THUMB instructions: their handlers and the table that dispatches to them. -/

namespace Desmume.Arm

variable {μ : Type*}

/-- `REG_NUM`. -/
def regNum (i : Word) (n : ℕ) : Fin 16 := Fin.ofNat 16 ((i >>> n) &&& 7).toNat

namespace ArmCpu

/-- `cpu->R[REG_NUM(i, n)]`. -/
def lo (cpu : ArmCpu) (i : Word) (n : ℕ) : Word := cpu.R (regNum i n)

/-- `N` and `Z` of a result, the other flags as they were. -/
def setNZ (cpu : ArmCpu) (v : Word) : ArmCpu :=
  cpu.setFlags (v.getLsbD 31) (v == 0) cpu.CPSR.C cpu.CPSR.V

/-- `N`, `Z` and `C`. -/
def setNZC (cpu : ArmCpu) (v : Word) (C : Bool) : ArmCpu :=
  cpu.setFlags (v.getLsbD 31) (v == 0) C cpu.CPSR.V

end ArmCpu

namespace Thumb

section Handlers

variable (i : Word) (cpu : ArmCpu)

/-! ### Shifts -/

/-- `(i>>6) & 0x1F`. -/
def imm5 : ℕ := ((i >>> 6) &&& 0x1F).toNat

/-- `cpu->R[REG_NUM(i, 3)] & 0xFF`. -/
def shiftAmount : ℕ := (cpu.lo i 3 &&& 0xFF).toNat

/-- `OP_LSL_0`. -/
def opLSL_0 : ArmCpu := (cpu.setR (regNum i 0) (cpu.lo i 3)).setNZ (cpu.lo i 3)

/-- `OP_LSL`. -/
def opLSL : ArmCpu :=
  let r := cpu.lo i 3 <<< imm5 i
  (cpu.setR (regNum i 0) r).setNZC r ((cpu.lo i 3).getLsbD (32 - imm5 i))

/-- `OP_LSL_REG`. -/
def opLSL_REG : ArmCpu :=
  let v := shiftAmount i cpu
  if v = 0 then cpu.setNZ (cpu.lo i 0)
  else if v < 32 then
    let r := cpu.lo i 0 <<< v
    (cpu.setR (regNum i 0) r).setNZC r ((cpu.lo i 0).getLsbD (32 - v))
  else
    let C := if v = 32 then (cpu.lo i 0).getLsbD 0 else false
    (cpu.setR (regNum i 0) 0).setFlags false true C cpu.CPSR.V

/-- `OP_LSR_0`. -/
def opLSR_0 : ArmCpu :=
  (cpu.setR (regNum i 0) 0).setFlags false true ((cpu.lo i 3).getLsbD 31) cpu.CPSR.V

/-- `OP_LSR`. -/
def opLSR : ArmCpu :=
  let r := cpu.lo i 3 >>> imm5 i
  (cpu.setR (regNum i 0) r).setNZC r ((cpu.lo i 3).getLsbD (imm5 i - 1))

/-- `OP_LSR_REG`. -/
def opLSR_REG : ArmCpu :=
  let v := shiftAmount i cpu
  if v = 0 then cpu.setNZ (cpu.lo i 0)
  else if v < 32 then
    let r := cpu.lo i 0 >>> v
    (cpu.setR (regNum i 0) r).setNZC r ((cpu.lo i 0).getLsbD (v - 1))
  else
    let C := if v = 32 then (cpu.lo i 0).getLsbD 31 else false
    (cpu.setR (regNum i 0) 0).setFlags false true C cpu.CPSR.V

/-- `OP_ASR_0`. -/
def opASR_0 : ArmCpu :=
  let r := signFill (cpu.lo i 3)
  (cpu.setR (regNum i 0) r).setNZC r ((cpu.lo i 3).getLsbD 31)

/-- `OP_ASR`. -/
def opASR : ArmCpu :=
  let r := (cpu.lo i 3).sshiftRight (imm5 i)
  (cpu.setR (regNum i 0) r).setNZC r ((cpu.lo i 3).getLsbD (imm5 i - 1))

/-- `OP_ASR_REG`. -/
def opASR_REG : ArmCpu :=
  let v := shiftAmount i cpu
  if v = 0 then cpu.setNZ (cpu.lo i 0)
  else if v < 32 then
    let r := (cpu.lo i 0).sshiftRight v
    (cpu.setR (regNum i 0) r).setNZC r ((cpu.lo i 0).getLsbD (v - 1))
  else
    let r := signFill (cpu.lo i 0)
    (cpu.setR (regNum i 0) r).setNZC r ((cpu.lo i 0).getLsbD 31)

/-- `OP_ROR_REG`. -/
def opROR_REG : ArmCpu :=
  let v := shiftAmount i cpu
  if v = 0 then cpu.setNZ (cpu.lo i 0)
  else
    let v := v % 32
    if v = 0 then cpu.setNZC (cpu.lo i 0) ((cpu.lo i 0).getLsbD 31)
    else
      let r := ror (cpu.lo i 0) v
      (cpu.setR (regNum i 0) r).setNZC r ((cpu.lo i 0).getLsbD (v - 1))

/-! ### Additions, subtractions and comparisons -/

/-- `R[d] = n + m` with the four flags. -/
def addFlags (d : Fin 16) (n m : Word) : ArmCpu :=
  (cpu.setR d (n + m)).setFlags ((n + m).getLsbD 31) (n + m == 0) (carryFrom n m)
    (overflowFromADD (n + m) n m)

/-- The flags of `n - m`. -/
def subFlags (n m : Word) : ArmCpu :=
  cpu.setFlags ((n - m).getLsbD 31) (n - m == 0) (!borrowFrom n m) (overflowFromSUB (n - m) n m)

/-- `(i>>6) & 7`. -/
def imm3 : Word := (i >>> 6) &&& 7

/-- `i & 0xFF`. -/
def imm8 : Word := i &&& 0xFF

/-- `REG_NUM(i, 0) | ((i>>4)&8)`. -/
def regHi : Fin 16 := Fin.ofNat 16 ((i &&& 7) ||| ((i >>> 4) &&& 8)).toNat

/-- `OP_ADD_IMM3`. -/
def opADD_IMM3 : ArmCpu :=
  let Rn := cpu.lo i 3
  if imm3 i = 0 then (cpu.setR (regNum i 0) Rn).setFlags (Rn.getLsbD 31) (Rn == 0) false false
  else addFlags cpu (regNum i 0) Rn (imm3 i)

/-- `OP_ADD_IMM8`. -/
def opADD_IMM8 : ArmCpu := addFlags cpu (regNum i 8) (cpu.lo i 8) (imm8 i)

/-- `OP_ADD_REG`. -/
def opADD_REG : ArmCpu := addFlags cpu (regNum i 0) (cpu.lo i 3) (cpu.lo i 6)

/-- `OP_ADD_SPE`. -/
def opADD_SPE : ArmCpu :=
  let Rd := regHi i
  let cpu := cpu.setR Rd (cpu.R Rd + cpu.R (regPos i 3))
  if Rd = 15 then cpu.jump else cpu

/-- `OP_ADD_2PC`. -/
def opADD_2PC : ArmCpu := cpu.setR (regNum i 8) ((cpu.R 15 &&& 0xFFFFFFFC) + imm8 i <<< 2)

/-- `OP_ADD_2SP`. -/
def opADD_2SP : ArmCpu := cpu.setR (regNum i 8) (cpu.R 13 + imm8 i <<< 2)

/-- `OP_SUB_IMM3`. -/
def opSUB_IMM3 : ArmCpu :=
  let Rn := cpu.lo i 3
  subFlags (cpu.setR (regNum i 0) (Rn - imm3 i)) Rn (imm3 i)

/-- `OP_SUB_IMM8`. -/
def opSUB_IMM8 : ArmCpu :=
  let Rd := cpu.lo i 8
  subFlags (cpu.setR (regNum i 8) (Rd - imm8 i)) Rd (imm8 i)

/-- `OP_SUB_REG`. -/
def opSUB_REG : ArmCpu :=
  let Rn := cpu.lo i 3
  let Rm := cpu.lo i 6
  subFlags (cpu.setR (regNum i 0) (Rn - Rm)) Rn Rm

/-- `OP_MOV_IMM8`. -/
def opMOV_IMM8 : ArmCpu := (cpu.setR (regNum i 8) (imm8 i)).setNZ (imm8 i)

/-- `OP_MOV_SPE`. -/
def opMOV_SPE : ArmCpu :=
  let Rd := regHi i
  let cpu := cpu.setR Rd (cpu.R (regPos i 3))
  if Rd = 15 then cpu.jump else cpu

/-- `OP_CMP_IMM8`. -/
def opCMP_IMM8 : ArmCpu := subFlags cpu (cpu.lo i 8) (imm8 i)

/-- `OP_CMP`. -/
def opCMP : ArmCpu := subFlags cpu (cpu.lo i 0) (cpu.lo i 3)

/-- `OP_CMP_SPE`. -/
def opCMP_SPE : ArmCpu := subFlags cpu (cpu.R (regHi i)) (cpu.R (regPos i 3))

/-- `OP_ADC_REG`. -/
def opADC_REG : ArmCpu :=
  let Rd := cpu.lo i 0
  let Rm := cpu.lo i 3
  let r := if !cpu.CPSR.C then Rd + Rm else Rd + Rm + 1
  let C := if !cpu.CPSR.C then decide (r < Rm) else decide (r ≤ Rm)
  (cpu.setR (regNum i 0) r).setFlags (r.getLsbD 31) (r == 0) C
    (((Rd ^^^ Rm ^^^ 0xFFFFFFFF) &&& (Rd ^^^ r)).getLsbD 31)

/-- `OP_SBC_REG`. -/
def opSBC_REG : ArmCpu :=
  let Rd := cpu.lo i 0
  let Rm := cpu.lo i 3
  let r := if !cpu.CPSR.C then Rd - Rm - 1 else Rd - Rm
  let C := if !cpu.CPSR.C then decide (Rm < Rd) else decide (Rm ≤ Rd)
  (cpu.setR (regNum i 0) r).setFlags (r.getLsbD 31) (r == 0) C
    (((Rd ^^^ Rm) &&& (Rd ^^^ r)).getLsbD 31)

/-- `OP_NEG`. -/
def opNEG : ArmCpu :=
  let Rm := cpu.lo i 3
  subFlags (cpu.setR (regNum i 0) (0 - Rm)) 0 Rm

/-- `OP_CMN`. -/
def opCMN : ArmCpu :=
  let n := cpu.lo i 0
  let m := cpu.lo i 3
  cpu.setFlags ((n + m).getLsbD 31) (n + m == 0) (carryFrom n m) (overflowFromADD (n + m) n m)

/-! ### Logic and multiplication -/

/-- `R[REG_NUM(i, 0)] = v` with `N` and `Z`. -/
def logical (v : Word) : ArmCpu := (cpu.setR (regNum i 0) v).setNZ v

/-- `OP_AND`. -/
def opAND : ArmCpu := logical i cpu (cpu.lo i 0 &&& cpu.lo i 3)

/-- `OP_EOR`. -/
def opEOR : ArmCpu := logical i cpu (cpu.lo i 0 ^^^ cpu.lo i 3)

/-- `OP_ORR`. -/
def opORR : ArmCpu := logical i cpu (cpu.lo i 0 ||| cpu.lo i 3)

/-- `OP_BIC`. -/
def opBIC : ArmCpu := logical i cpu (cpu.lo i 0 &&& ~~~cpu.lo i 3)

/-- `OP_MVN`. -/
def opMVN : ArmCpu := logical i cpu (~~~cpu.lo i 3)

/-- `OP_TST`. -/
def opTST : ArmCpu := cpu.setNZ (cpu.lo i 0 &&& cpu.lo i 3)

/-- `OP_MUL_REG`. -/
def opMUL_REG : ArmCpu := logical i cpu (cpu.lo i 0 * cpu.lo i 3)

/-! ### The stack pointer -/

/-- `OP_ADJUST_P_SP`. -/
def opADJUST_P_SP : ArmCpu := cpu.setR 13 (cpu.R 13 + (i &&& 0x7F) <<< 2)

/-- `OP_ADJUST_M_SP`. -/
def opADJUST_M_SP : ArmCpu := cpu.setR 13 (cpu.R 13 - (i &&& 0x7F) <<< 2)

end Handlers

/-! ### Loads and stores -/

section Memory

variable (bus : Bus μ) (i : Word) (s : Machine μ)

/-- `R[REG_NUM(i, 3)] + R[REG_NUM(i, 6)]`. -/
def adrReg : Word := s.cpu.lo i 3 + s.cpu.lo i 6

/-- `R[13] + ((i&0xFF)<<2)`. -/
def adrSp : Word := s.cpu.R 13 + imm8 i <<< 2

/-- `OP_STRB_IMM_OFF`. -/
def opSTRB_IMM_OFF : Machine μ :=
  s.store bus.WRITE8 ((s.cpu.lo i 0).setWidth 8) (s.cpu.lo i 3 + ((i >>> 6) &&& 0x1F))

/-- `OP_LDRB_IMM_OFF`. -/
def opLDRB_IMM_OFF : Machine μ :=
  s.load bus.READ8 (BitVec.setWidth 32) (regNum i 0) (s.cpu.lo i 3 + ((i >>> 6) &&& 0x1F))

/-- `OP_STRB_REG_OFF`. -/
def opSTRB_REG_OFF : Machine μ := s.store bus.WRITE8 ((s.cpu.lo i 0).setWidth 8) (adrReg i s)

/-- `OP_LDRB_REG_OFF`. -/
def opLDRB_REG_OFF : Machine μ := s.load bus.READ8 (BitVec.setWidth 32) (regNum i 0) (adrReg i s)

/-- `OP_LDRSB_REG_OFF`. -/
def opLDRSB_REG_OFF : Machine μ := s.load bus.READ8 (BitVec.signExtend 32) (regNum i 0) (adrReg i s)

/-- `OP_STRH_IMM_OFF`. -/
def opSTRH_IMM_OFF : Machine μ :=
  s.store bus.WRITE16 ((s.cpu.lo i 0).setWidth 16) (s.cpu.lo i 3 + ((i >>> 5) &&& 0x3E))

/-- `OP_LDRH_IMM_OFF`. -/
def opLDRH_IMM_OFF : Machine μ :=
  s.load bus.READ16 (BitVec.setWidth 32) (regNum i 0) (s.cpu.lo i 3 + ((i >>> 5) &&& 0x3E))

/-- `OP_STRH_REG_OFF`. -/
def opSTRH_REG_OFF : Machine μ := s.store bus.WRITE16 ((s.cpu.lo i 0).setWidth 16) (adrReg i s)

/-- `OP_LDRH_REG_OFF`. -/
def opLDRH_REG_OFF : Machine μ := s.load bus.READ16 (BitVec.setWidth 32) (regNum i 0) (adrReg i s)

/-- `OP_LDRSH_REG_OFF`. -/
def opLDRSH_REG_OFF : Machine μ :=
  s.load bus.READ16 (BitVec.signExtend 32) (regNum i 0) (adrReg i s)

/-- `OP_STR_IMM_OFF`. -/
def opSTR_IMM_OFF : Machine μ :=
  s.store bus.WRITE32 (s.cpu.lo i 0) (s.cpu.lo i 3 + ((i >>> 4) &&& 0x7C))

/-- `OP_LDR_IMM_OFF`. -/
def opLDR_IMM_OFF : Machine μ :=
  let adr := s.cpu.lo i 3 + ((i >>> 4) &&& 0x7C)
  s.load bus.READ32 (rotateUnaligned adr) (regNum i 0) adr

/-- `OP_STR_REG_OFF`. -/
def opSTR_REG_OFF : Machine μ :=
  s.store bus.WRITE32 (s.cpu.lo i 0) (s.cpu.lo i 6 + s.cpu.lo i 3)

/-- `OP_LDR_REG_OFF`. -/
def opLDR_REG_OFF : Machine μ :=
  s.load bus.READ32 (rotateUnaligned (adrReg i s)) (regNum i 0) (adrReg i s)

/-- `OP_STR_SPREL`. -/
def opSTR_SPREL : Machine μ := s.store bus.WRITE32 (s.cpu.lo i 8) (adrSp i s)

/-- `OP_LDR_SPREL`: the word is not rotated. -/
def opLDR_SPREL : Machine μ := s.load bus.READ32 id (regNum i 8) (adrSp i s)

/-- `OP_LDR_PCREL`. -/
def opLDR_PCREL : Machine μ :=
  s.load bus.READ32 id (regNum i 8) ((s.cpu.R 15 &&& 0xFFFFFFFC) + imm8 i <<< 2)

/-! ### Block transfers -/

/-- `for(j = 0; j<8; j++) if(BIT_N(i, j))`. -/
def up : List (Fin 16) := [0, 1, 2, 3, 4, 5, 6, 7]

/-- `for(j = 0; j<8; j++) if(BIT_N(i, 7-j))`. -/
def down : List (Fin 16) := [7, 6, 5, 4, 3, 2, 1, 0]

/-- `WRITE32(adr, R[reg]); adr -= 4`. -/
def pushReg (reg : Fin 16) (t : Transfer μ) : Transfer μ :=
  (t.1 - 4, t.2.store bus.WRITE32 (t.2.cpu.R reg) t.1)

/-- `OP_PUSH`. -/
def opPUSH : Machine μ :=
  let (adr, s) := transfer i (pushReg bus) down (s.cpu.R 13 - 4, s)
  { s with cpu := s.cpu.setR 13 (adr + 4) }

/-- `OP_PUSH_LR`. -/
def opPUSH_LR : Machine μ :=
  let (adr, s) := transfer i (pushReg bus) down (pushReg bus 14 (s.cpu.R 13 - 4, s))
  { s with cpu := s.cpu.setR 13 (adr + 4) }

/-- `OP_POP`. -/
def opPOP : Machine μ :=
  let (adr, s) := transfer i (loadUp bus) up (s.cpu.R 13, s)
  { s with cpu := s.cpu.setR 13 adr }

/-- `OP_POP_PC`. -/
def opPOP_PC : Machine μ :=
  let (adr, s) := transfer i (loadUp bus) up (s.cpu.R 13, s)
  let v := (bus.READ32 adr s.mem).1
  let cpu :=
    if s.cpu.proc_ID = .arm9 then s.cpu.setCPSR { s.cpu.CPSR with T := v.getLsbD 0 } else s.cpu
  let cpu := (cpu.setR 15 (v &&& 0xFFFFFFFE)).jump
  ⟨cpu.setR 13 (adr + 4), (bus.READ32 adr s.mem).2⟩

/-- `OP_STMIA_THUMB`. -/
def opSTMIA_THUMB : Machine μ :=
  let (adr, s) := transfer i (storeUp bus) up (s.cpu.lo i 8, s)
  { s with cpu := s.cpu.setR (regNum i 8) adr }

/-- `OP_LDMIA_THUMB`. -/
def opLDMIA_THUMB : Machine μ :=
  let (adr, s) := transfer i (loadUp bus) up (s.cpu.lo i 8, s)
  if listed i (regNum i 8) then s else { s with cpu := s.cpu.setR (regNum i 8) adr }

end Memory

/-! ### The instruction table -/

/-- The handlers of data-processing instructions, loads, stores and block transfers. -/
inductive Op where
  | LSL_0 | LSL | LSR_0 | LSR | ASR_0 | ASR
  | ADD_REG | SUB_REG | ADD_IMM3 | SUB_IMM3
  | MOV_IMM8 | CMP_IMM8 | ADD_IMM8 | SUB_IMM8
  | AND | EOR | LSL_REG | LSR_REG | ASR_REG | ADC_REG | SBC_REG | ROR_REG
  | TST | NEG | CMP | CMN | ORR | MUL_REG | BIC | MVN
  | ADD_SPE | CMP_SPE | MOV_SPE
  | LDR_PCREL
  | STR_REG_OFF | STRH_REG_OFF | STRB_REG_OFF | LDRSB_REG_OFF
  | LDR_REG_OFF | LDRH_REG_OFF | LDRB_REG_OFF | LDRSH_REG_OFF
  | STR_IMM_OFF | LDR_IMM_OFF | STRB_IMM_OFF | LDRB_IMM_OFF | STRH_IMM_OFF | LDRH_IMM_OFF
  | STR_SPREL | LDR_SPREL
  | ADD_2PC | ADD_2SP | ADJUST_P_SP | ADJUST_M_SP
  | PUSH | PUSH_LR | POP | POP_PC
  | STMIA_THUMB | LDMIA_THUMB
deriving DecidableEq, Repr

/-- `thumb_instructions_set`, run by run of equal entries; branches and undefined encodings
are `none`. -/
def table : List (ℕ × Option Op) :=
  [(0x000, some .LSL_0), (0x001, some .LSL), (0x020, some .LSR_0), (0x021, some .LSR),
   (0x040, some .ASR_0), (0x041, some .ASR), (0x060, some .ADD_REG), (0x068, some .SUB_REG),
   (0x070, some .ADD_IMM3), (0x078, some .SUB_IMM3), (0x080, some .MOV_IMM8),
   (0x0A0, some .CMP_IMM8), (0x0C0, some .ADD_IMM8), (0x0E0, some .SUB_IMM8),
   (0x100, some .AND), (0x101, some .EOR), (0x102, some .LSL_REG), (0x103, some .LSR_REG),
   (0x104, some .ASR_REG), (0x105, some .ADC_REG), (0x106, some .SBC_REG), (0x107, some .ROR_REG),
   (0x108, some .TST), (0x109, some .NEG), (0x10A, some .CMP), (0x10B, some .CMN),
   (0x10C, some .ORR), (0x10D, some .MUL_REG), (0x10E, some .BIC), (0x10F, some .MVN),
   (0x110, some .ADD_SPE), (0x114, some .CMP_SPE), (0x118, some .MOV_SPE), (0x11C, none),
   (0x120, some .LDR_PCREL), (0x140, some .STR_REG_OFF), (0x148, some .STRH_REG_OFF),
   (0x150, some .STRB_REG_OFF), (0x158, some .LDRSB_REG_OFF), (0x160, some .LDR_REG_OFF),
   (0x168, some .LDRH_REG_OFF), (0x170, some .LDRB_REG_OFF), (0x178, some .LDRSH_REG_OFF),
   (0x180, some .STR_IMM_OFF), (0x1A0, some .LDR_IMM_OFF), (0x1C0, some .STRB_IMM_OFF),
   (0x1E0, some .LDRB_IMM_OFF), (0x200, some .STRH_IMM_OFF), (0x220, some .LDRH_IMM_OFF),
   (0x240, some .STR_SPREL), (0x260, some .LDR_SPREL), (0x280, some .ADD_2PC),
   (0x2A0, some .ADD_2SP), (0x2C0, some .ADJUST_P_SP), (0x2C2, some .ADJUST_M_SP), (0x2C4, none),
   (0x2D0, some .PUSH), (0x2D4, some .PUSH_LR), (0x2D8, none), (0x2F0, some .POP),
   (0x2F4, some .POP_PC), (0x2F8, none), (0x300, some .STMIA_THUMB), (0x320, some .LDMIA_THUMB),
   (0x340, none)]

/-- The entry at an index. -/
def entry (k : ℕ) : Option Op := ((table.takeWhile (·.1 ≤ k)).getLast?.map Prod.snd).join

/-- `thumb_instructions_set[i>>6]`. -/
def op? (i : Word) : Option Op := entry (i >>> 6).toNat

def execute (bus : Bus μ) (op : Op) (i : Word) (s : Machine μ) : Machine μ :=
  let onCpu (f : Word → ArmCpu → ArmCpu) : Machine μ := { s with cpu := f i s.cpu }
  match op with
  | .LSL_0 => onCpu opLSL_0
  | .LSL => onCpu opLSL
  | .LSR_0 => onCpu opLSR_0
  | .LSR => onCpu opLSR
  | .ASR_0 => onCpu opASR_0
  | .ASR => onCpu opASR
  | .ADD_REG => onCpu opADD_REG
  | .SUB_REG => onCpu opSUB_REG
  | .ADD_IMM3 => onCpu opADD_IMM3
  | .SUB_IMM3 => onCpu opSUB_IMM3
  | .MOV_IMM8 => onCpu opMOV_IMM8
  | .CMP_IMM8 => onCpu opCMP_IMM8
  | .ADD_IMM8 => onCpu opADD_IMM8
  | .SUB_IMM8 => onCpu opSUB_IMM8
  | .AND => onCpu opAND
  | .EOR => onCpu opEOR
  | .LSL_REG => onCpu opLSL_REG
  | .LSR_REG => onCpu opLSR_REG
  | .ASR_REG => onCpu opASR_REG
  | .ADC_REG => onCpu opADC_REG
  | .SBC_REG => onCpu opSBC_REG
  | .ROR_REG => onCpu opROR_REG
  | .TST => onCpu opTST
  | .NEG => onCpu opNEG
  | .CMP => onCpu opCMP
  | .CMN => onCpu opCMN
  | .ORR => onCpu opORR
  | .MUL_REG => onCpu opMUL_REG
  | .BIC => onCpu opBIC
  | .MVN => onCpu opMVN
  | .ADD_SPE => onCpu opADD_SPE
  | .CMP_SPE => onCpu opCMP_SPE
  | .MOV_SPE => onCpu opMOV_SPE
  | .LDR_PCREL => opLDR_PCREL bus i s
  | .STR_REG_OFF => opSTR_REG_OFF bus i s
  | .STRH_REG_OFF => opSTRH_REG_OFF bus i s
  | .STRB_REG_OFF => opSTRB_REG_OFF bus i s
  | .LDRSB_REG_OFF => opLDRSB_REG_OFF bus i s
  | .LDR_REG_OFF => opLDR_REG_OFF bus i s
  | .LDRH_REG_OFF => opLDRH_REG_OFF bus i s
  | .LDRB_REG_OFF => opLDRB_REG_OFF bus i s
  | .LDRSH_REG_OFF => opLDRSH_REG_OFF bus i s
  | .STR_IMM_OFF => opSTR_IMM_OFF bus i s
  | .LDR_IMM_OFF => opLDR_IMM_OFF bus i s
  | .STRB_IMM_OFF => opSTRB_IMM_OFF bus i s
  | .LDRB_IMM_OFF => opLDRB_IMM_OFF bus i s
  | .STRH_IMM_OFF => opSTRH_IMM_OFF bus i s
  | .LDRH_IMM_OFF => opLDRH_IMM_OFF bus i s
  | .STR_SPREL => opSTR_SPREL bus i s
  | .LDR_SPREL => opLDR_SPREL bus i s
  | .ADD_2PC => onCpu opADD_2PC
  | .ADD_2SP => onCpu opADD_2SP
  | .ADJUST_P_SP => onCpu opADJUST_P_SP
  | .ADJUST_M_SP => onCpu opADJUST_M_SP
  | .PUSH => opPUSH bus i s
  | .PUSH_LR => opPUSH_LR bus i s
  | .POP => opPOP bus i s
  | .POP_PC => opPOP_PC bus i s
  | .STMIA_THUMB => opSTMIA_THUMB bus i s
  | .LDMIA_THUMB => opLDMIA_THUMB bus i s

end Thumb

end Desmume.Arm
