import Desmume.Machine.Types
import Mathlib.Data.Fin.VecNotation
import Mathlib.Logic.Function.Basic
import Mathlib.Tactic.IntervalCases

/-! The processor state of the emulator: the active registers, the status registers and the
saved copies that `armcpu_switchMode` exchanges with them. -/

namespace Desmume.Arm

abbrev Word := BitVec 32

/-- `REG_POS`. -/
def regPos (i : Word) (n : ℕ) : Fin 16 := Fin.ofNat 16 (i >>> n).toNat

/-- `Mode`. -/
inductive Mode where
  | usr
  | fiq
  | irq
  | svc
  | abt
  | und
  | sys
deriving DecidableEq, Repr

def Mode.code : Mode → BitVec 5
  | .usr => 0x10
  | .fiq => 0x11
  | .irq => 0x12
  | .svc => 0x13
  | .abt => 0x17
  | .und => 0x1B
  | .sys => 0x1F

/-- The mode that a mode number of `switch` names. -/
def Mode.ofNat? : ℕ → Option Mode
  | 0x10 => some .usr
  | 0x11 => some .fiq
  | 0x12 => some .irq
  | 0x13 => some .svc
  | 0x17 => some .abt
  | 0x1B => some .und
  | 0x1F => some .sys
  | _ => none

@[simp] theorem Mode.ofNat?_code (m : Mode) : Mode.ofNat? m.code.toNat = some m := by
  cases m <;> rfl

/-- `Status_Reg`: the bit fields, from the low end of the word up. -/
structure StatusReg where
  mode : BitVec 5
  T : Bool
  F : Bool
  I : Bool
  RAZ : BitVec 19
  Q : Bool
  V : Bool
  C : Bool
  Z : Bool
  N : Bool
deriving DecidableEq, Repr

namespace StatusReg

/-- The other view of the union. -/
def val (s : StatusReg) : Word :=
  BitVec.ofBool s.N ++ BitVec.ofBool s.Z ++ BitVec.ofBool s.C ++ BitVec.ofBool s.V ++
    BitVec.ofBool s.Q ++ s.RAZ ++ BitVec.ofBool s.I ++ BitVec.ofBool s.F ++
    BitVec.ofBool s.T ++ s.mode

def ofVal (v : Word) : StatusReg where
  mode := v.extractLsb' 0 5
  T := v.getLsbD 5
  F := v.getLsbD 6
  I := v.getLsbD 7
  RAZ := v.extractLsb' 8 19
  Q := v.getLsbD 27
  V := v.getLsbD 28
  C := v.getLsbD 29
  Z := v.getLsbD 30
  N := v.getLsbD 31

@[simp] theorem val_ofVal (v : Word) : (ofVal v).val = v := by
  apply BitVec.eq_of_getLsbD_eq
  intro k hk
  simp only [val, ofVal, BitVec.getLsbD_append, BitVec.getLsbD_extractLsb', BitVec.getLsbD_ofBool]
  interval_cases k <;> simp [BitVec.getLsbD]

end StatusReg

/-- The fields of `armcpu_t` that the instructions below read or write. -/
structure ArmCpu where
  proc_ID : Proc
  instruction : Word
  instruct_adr : Word
  next_instruction : Word
  R : Fin 16 → Word
  CPSR : StatusReg
  SPSR : StatusReg
  R13_usr : Word
  R14_usr : Word
  R13_svc : Word
  R14_svc : Word
  R13_abt : Word
  R14_abt : Word
  R13_und : Word
  R14_und : Word
  R13_irq : Word
  R14_irq : Word
  R8_fiq : Word
  R9_fiq : Word
  R10_fiq : Word
  R11_fiq : Word
  R12_fiq : Word
  R13_fiq : Word
  R14_fiq : Word
  SPSR_svc : StatusReg
  SPSR_abt : StatusReg
  SPSR_und : StatusReg
  SPSR_irq : StatusReg
  SPSR_fiq : StatusReg
  intVector : Word
  waitIRQ : Bool

namespace ArmCpu

def withR (cpu : ArmCpu) (R : Fin 16 → Word) : ArmCpu := { cpu with R }

/-- `cpu->R[n] = v`. -/
def setR (cpu : ArmCpu) (n : Fin 16) (v : Word) : ArmCpu := cpu.withR (Function.update cpu.R n v)

theorem setR_withR (cpu : ArmCpu) (R : Fin 16 → Word) (n : Fin 16) (v : Word) :
    (cpu.withR R).setR n v = cpu.withR (Function.update R n v) := rfl

theorem setR_R (cpu : ArmCpu) (n : Fin 16) (v : Word) :
    (cpu.setR n v).R = Function.update cpu.R n v := rfl

@[simp] theorem setR_R_self (cpu : ArmCpu) (n : Fin 16) (v : Word) : (cpu.setR n v).R n = v := by
  rw [setR_R, Function.update_self]

theorem setR_R_of_ne (cpu : ArmCpu) {n r : Fin 16} (h : r ≠ n) (v : Word) :
    (cpu.setR n v).R r = cpu.R r := by
  rw [setR_R, Function.update_of_ne h]

/-- `cpu->next_instruction = v`. -/
def setNext (cpu : ArmCpu) (v : Word) : ArmCpu := { cpu with next_instruction := v }

def setCPSR (cpu : ArmCpu) (s : StatusReg) : ArmCpu := { cpu with CPSR := s }

def setSPSR (cpu : ArmCpu) (s : StatusReg) : ArmCpu := { cpu with SPSR := s }

/-- The five `SWAP`s of `R[8..12]` with their FIQ copies. -/
def swapFiq (cpu : ArmCpu) : ArmCpu :=
  { cpu with
    R := fun n => match n with
      | 8 => cpu.R8_fiq
      | 9 => cpu.R9_fiq
      | 10 => cpu.R10_fiq
      | 11 => cpu.R11_fiq
      | 12 => cpu.R12_fiq
      | n => cpu.R n
    R8_fiq := cpu.R 8
    R9_fiq := cpu.R 9
    R10_fiq := cpu.R 10
    R11_fiq := cpu.R 11
    R12_fiq := cpu.R 12 }

/-- The first `switch` of `armcpu_switchMode`: the registers of the mode that is left. -/
def saveBank (cpu : ArmCpu) : Option Mode → ArmCpu
  | some .usr | some .sys => { cpu with R13_usr := cpu.R 13, R14_usr := cpu.R 14 }
  | some .fiq =>
    { cpu.swapFiq with R13_fiq := cpu.R 13, R14_fiq := cpu.R 14, SPSR_fiq := cpu.SPSR }
  | some .irq => { cpu with R13_irq := cpu.R 13, R14_irq := cpu.R 14, SPSR_irq := cpu.SPSR }
  | some .svc => { cpu with R13_svc := cpu.R 13, R14_svc := cpu.R 14, SPSR_svc := cpu.SPSR }
  | some .abt => { cpu with R13_abt := cpu.R 13, R14_abt := cpu.R 14, SPSR_abt := cpu.SPSR }
  | some .und => { cpu with R13_und := cpu.R 13, R14_und := cpu.R 14, SPSR_und := cpu.SPSR }
  | none => cpu

/-- The second `switch`: the registers of the mode that is entered. User mode has no saved
status register to load. -/
def loadBank (cpu : ArmCpu) : Option Mode → ArmCpu
  | some .usr | some .sys => (cpu.setR 13 cpu.R13_usr).setR 14 cpu.R14_usr
  | some .fiq =>
    { (cpu.swapFiq.setR 13 cpu.R13_fiq).setR 14 cpu.R14_fiq with SPSR := cpu.SPSR_fiq }
  | some .irq => { (cpu.setR 13 cpu.R13_irq).setR 14 cpu.R14_irq with SPSR := cpu.SPSR_irq }
  | some .svc => { (cpu.setR 13 cpu.R13_svc).setR 14 cpu.R14_svc with SPSR := cpu.SPSR_svc }
  | some .abt => { (cpu.setR 13 cpu.R13_abt).setR 14 cpu.R14_abt with SPSR := cpu.SPSR_abt }
  | some .und => { (cpu.setR 13 cpu.R13_und).setR 14 cpu.R14_und with SPSR := cpu.SPSR_und }
  | none => cpu

def setMode (cpu : ArmCpu) (mode : BitVec 5) : ArmCpu :=
  { cpu with CPSR := { cpu.CPSR with mode := mode } }

end ArmCpu

/-- `armcpu_switchMode`. -/
def switchMode (cpu : ArmCpu) (mode : BitVec 8) : ArmCpu :=
  let cpu := cpu.saveBank (Mode.ofNat? cpu.CPSR.mode.toNat)
  let cpu := cpu.loadBank (Mode.ofNat? mode.toNat)
  cpu.setMode ((mode &&& 0x1F).setWidth 5)

namespace ArmCpu

/-- `SPSR = cpu->SPSR; armcpu_switchMode(cpu, SPSR.bits.mode); cpu->CPSR = SPSR`. -/
def restoreSPSR (cpu : ArmCpu) : ArmCpu :=
  let SPSR := cpu.SPSR
  (switchMode cpu (SPSR.mode.setWidth 8)).setCPSR SPSR

/-- `cpu->next_instruction = cpu->R[15]`. -/
def jump (cpu : ArmCpu) : ArmCpu := cpu.setNext (cpu.R 15)

end ArmCpu

/-- `armcpu_prefetch`: the address of the next instruction, aligned for the state that `T`
selects, becomes the current one, and `R[15]` runs two instructions ahead of it. The word
fetched is a parameter. -/
def prefetch (cpu : ArmCpu) (fetched : Word) : ArmCpu :=
  if cpu.CPSR.T = false then
    let curInstruction := cpu.next_instruction &&& 0xFFFFFFFC
    { cpu.setR 15 (curInstruction + 8) with
      instruct_adr := curInstruction
      next_instruction := curInstruction + 4
      instruction := fetched }
  else
    let curInstruction := cpu.next_instruction &&& 0xFFFFFFFE
    { cpu.setR 15 (curInstruction + 4) with
      instruct_adr := curInstruction
      next_instruction := curInstruction + 2
      instruction := fetched }

/-- `armcpu_init`, started at `adr`. -/
def init (proc_ID : Proc) (adr fetched : Word) : ArmCpu :=
  let sys : StatusReg := .ofVal 0x1F
  let zero : StatusReg := .ofVal 0
  prefetch
    { proc_ID
      instruction := 0
      instruct_adr := 0
      next_instruction := adr &&& ~~~1
      R := fun _ => 0
      CPSR := { sys with T := adr.getLsbD 0 }
      SPSR := sys
      R13_usr := 0
      R14_usr := 0
      R13_svc := 0
      R14_svc := 0
      R13_abt := 0
      R14_abt := 0
      R13_und := 0
      R14_und := 0
      R13_irq := 0
      R14_irq := 0
      R8_fiq := 0
      R9_fiq := 0
      R10_fiq := 0
      R11_fiq := 0
      R12_fiq := 0
      R13_fiq := 0
      R14_fiq := 0
      SPSR_svc := zero
      SPSR_abt := zero
      SPSR_und := zero
      SPSR_irq := zero
      SPSR_fiq := zero
      intVector := if proc_ID = .arm9 then 0xFFFF0000 else 0
      waitIRQ := false } fetched

end Desmume.Arm
