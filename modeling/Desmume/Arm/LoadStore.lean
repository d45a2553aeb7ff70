import Desmume.Arm.BlockLoad
import Desmume.Arm.DataProcessing

/-! The loads, stores and block transfers of ARM state, over the memory of a processor. -/

namespace Desmume.Arm

variable {μ : Type*}

/-- `_MMU_read08`, `_MMU_write08` and their wider siblings. A read too may change a device. -/
structure Bus (μ : Type*) where
  read08 : Word → μ → BitVec 8 × μ
  read16 : Word → μ → BitVec 16 × μ
  read32 : Word → μ → Word × μ
  write08 : Word → BitVec 8 → μ → μ
  write16 : Word → BitVec 16 → μ → μ
  write32 : Word → Word → μ → μ

/-- A processor and the memory it is connected to. -/
structure Machine (μ : Type*) where
  cpu : ArmCpu
  mem : μ

namespace Bus

variable (bus : Bus μ)

/-- `READ8`. -/
def READ8 (adr : Word) (mem : μ) : BitVec 8 × μ := bus.read08 adr mem

/-- `READ16`. -/
def READ16 (adr : Word) (mem : μ) : BitVec 16 × μ := bus.read16 (adr &&& 0xFFFFFFFE) mem

/-- `READ32`. -/
def READ32 (adr : Word) (mem : μ) : Word × μ := bus.read32 (adr &&& 0xFFFFFFFC) mem

/-- `WRITE8`. -/
def WRITE8 (adr : Word) (v : BitVec 8) (mem : μ) : μ := bus.write08 adr v mem

/-- `WRITE16`. -/
def WRITE16 (adr : Word) (v : BitVec 16) (mem : μ) : μ := bus.write16 (adr &&& 0xFFFFFFFE) v mem

/-- `WRITE32`. -/
def WRITE32 (adr : Word) (v : Word) (mem : μ) : μ := bus.write32 (adr &&& 0xFFFFFFFC) v mem

end Bus

/-! ### Loads and stores of one datum -/

namespace Machine

/-- A load: the value read at `adr`, extended to a word, goes to `R[n]`. -/
def load {w : ℕ} (read : Word → μ → BitVec w × μ) (extend : BitVec w → Word) (n : Fin 16) (adr : Word)
    (s : Machine μ) : Machine μ :=
  ⟨s.cpu.setR n (extend (read adr s.mem).1), (read adr s.mem).2⟩

def store {w : ℕ} (write : Word → BitVec w → μ → μ) (v : BitVec w) (adr : Word) (s : Machine μ) :
    Machine μ :=
  { s with mem := write adr v s.mem }

end Machine

/-- `ROR(x, 8*(adr&3))`. -/
def rotateUnaligned (adr x : Word) : Word := ror x (8 * (adr &&& 3)).toNat

/-- The program counter that a load leaves: bit 0 of the word selects the state on the ARM9
alone. -/
def loadPc (cpu : ArmCpu) : ArmCpu :=
  let cpu :=
    if cpu.proc_ID = .arm9 then
      (cpu.setCPSR { cpu.CPSR with T := (cpu.R 15).getLsbD 0 }).setR 15 (cpu.R 15 &&& 0xFFFFFFFE)
    else cpu.setR 15 (cpu.R 15 &&& 0xFFFFFFFC)
  cpu.jump

/-- `OP_LDR`. -/
def opLDR (bus : Bus μ) (i adr : Word) (s : Machine μ) : Machine μ :=
  let s := s.load bus.READ32 (rotateUnaligned adr) (regPos i 12) adr
  if regPos i 12 = 15 then { s with cpu := loadPc s.cpu } else s

/-- `IMM_OFF_12`. -/
def immOff12 (i : Word) : Word := i &&& 0xFFF

/-- `IMM_OFF`. -/
def immOff (i : Word) : Word := ((i >>> 4) &&& 0xF0) + (i &&& 0xF)

section Handlers

variable (bus : Bus μ) (i : Word) (s : Machine μ)

/-- `cpu->R[REG_POS(i,16)] + IMM_OFF_12`. -/
def adrImm12 : Word := s.cpu.rn i + immOff12 i

/-- `LSL_IMM; adr = cpu->R[REG_POS(i,16)] + shift_op`. -/
def adrLslImm : Word := s.cpu.rn i + lslImm i s.cpu

/-- `cpu->R[REG_POS(i,16)] + IMM_OFF`. -/
def adrImm8 : Word := s.cpu.rn i + immOff i

/-- `cpu->R[REG_POS(i,16)] + cpu->R[REG_POS(i,0)]`. -/
def adrReg : Word := s.cpu.rn i + s.cpu.rm i

/-- `cpu->R[REG_POS(i,12)]`. -/
def rdValue : Word := s.cpu.R (regPos i 12)

/-- `OP_LDR_P_IMM_OFF`. -/
def opLDR_P_IMM_OFF : Machine μ := opLDR bus i (adrImm12 i s) s

/-- `OP_LDR_P_LSL_IMM_OFF`. -/
def opLDR_P_LSL_IMM_OFF : Machine μ := opLDR bus i (adrLslImm i s) s

/-- `OP_LDRB_P_IMM_OFF`. -/
def opLDRB_P_IMM_OFF : Machine μ :=
  s.load bus.READ8 (BitVec.setWidth 32) (regPos i 12) (adrImm12 i s)

/-- `OP_LDRB_P_LSL_IMM_OFF`. -/
def opLDRB_P_LSL_IMM_OFF : Machine μ :=
  s.load bus.READ8 (BitVec.setWidth 32) (regPos i 12) (adrLslImm i s)

/-- `OP_STR_P_IMM_OFF`. -/
def opSTR_P_IMM_OFF : Machine μ := s.store bus.WRITE32 (rdValue i s) (adrImm12 i s)

/-- `OP_STR_P_LSL_IMM_OFF`. -/
def opSTR_P_LSL_IMM_OFF : Machine μ := s.store bus.WRITE32 (rdValue i s) (adrLslImm i s)

/-- `OP_STRB_P_IMM_OFF`. -/
def opSTRB_P_IMM_OFF : Machine μ :=
  s.store bus.WRITE8 ((rdValue i s).setWidth 8) (adrImm12 i s)

/-- `OP_STRB_P_LSL_IMM_OFF`. -/
def opSTRB_P_LSL_IMM_OFF : Machine μ :=
  s.store bus.WRITE8 ((rdValue i s).setWidth 8) (adrLslImm i s)

/-- `OP_LDRH_P_IMM_OFF`. -/
def opLDRH_P_IMM_OFF : Machine μ :=
  s.load bus.READ16 (BitVec.setWidth 32) (regPos i 12) (adrImm8 i s)

/-- `OP_LDRH_P_REG_OFF`. -/
def opLDRH_P_REG_OFF : Machine μ :=
  s.load bus.READ16 (BitVec.setWidth 32) (regPos i 12) (adrReg i s)

/-- `OP_STRH_P_IMM_OFF`. -/
def opSTRH_P_IMM_OFF : Machine μ :=
  s.store bus.WRITE16 ((rdValue i s).setWidth 16) (adrImm8 i s)

/-- `OP_STRH_P_REG_OFF`. -/
def opSTRH_P_REG_OFF : Machine μ :=
  s.store bus.WRITE16 ((rdValue i s).setWidth 16) (adrReg i s)

/-- `OP_LDRSB_P_REG_OFF`. -/
def opLDRSB_P_REG_OFF : Machine μ :=
  s.load bus.READ8 (BitVec.signExtend 32) (regPos i 12) (adrReg i s)

/-- `OP_LDRSH_P_REG_OFF`. -/
def opLDRSH_P_REG_OFF : Machine μ :=
  s.load bus.READ16 (BitVec.signExtend 32) (regPos i 12) (adrReg i s)

end Handlers

/-! ### Block transfers -/

/-- A block transfer under way: the next address and the machine. -/
abbrev Transfer (μ : Type*) := Word × Machine μ

section Block

variable (bus : Bus μ) (i : Word)

/-- `R[reg] = READ32(adr); adr += 4`. -/
def loadUp (reg : Fin 16) (t : Transfer μ) : Transfer μ :=
  (t.1 + 4, t.2.load bus.READ32 id reg t.1)

/-- `WRITE32(adr, R[reg]); adr += 4`. -/
def storeUp (reg : Fin 16) (t : Transfer μ) : Transfer μ :=
  (t.1 + 4, t.2.store bus.WRITE32 (t.2.cpu.R reg) t.1)

/-- `adr -= 4; WRITE32(adr, R[reg])`. -/
def storeDown (reg : Fin 16) (t : Transfer μ) : Transfer μ :=
  (t.1 - 4, t.2.store bus.WRITE32 (t.2.cpu.R reg) (t.1 - 4))

/-- The transfers of the registers of `rs` that the list of `i` names, one after the other. -/
def transfer (op : Fin 16 → Transfer μ → Transfer μ) (rs : List (Fin 16)) (t : Transfer μ) :
    Transfer μ :=
  rs.foldl (fun t r => if listed i r then op r t else t) t

/-- The program counter of a block load, after `R[15] = tmp`. -/
def loadListedPc (t : Transfer μ) : Transfer μ :=
  if listed i 15 then
    let t := loadUp bus 15 t
    (t.1, { t.2 with cpu := loadPc t.2.cpu })
  else t

/-- `~((2 << REG_POS(i,16))-1) & 0xFFFF`: the registers above the base. -/
def bitList : Word := ~~~(((2 : Word) <<< (regPos i 16).val) - 1) &&& 0xFFFF

/-- `OP_LDMIA_W`. -/
def opLDMIA_W (s : Machine μ) : Machine μ :=
  let (start, s) :=
    loadListedPc bus i (transfer i (loadUp bus) ascending (s.cpu.R (regPos i 16), s))
  if listed i (regPos i 16) then
    if i &&& bitList i ≠ 0 then { s with cpu := s.cpu.setR (regPos i 16) start } else s
  else { s with cpu := s.cpu.setR (regPos i 16) start }

/-- `OP_STMIA_W`. -/
def opSTMIA_W (s : Machine μ) : Machine μ :=
  let (start, s) := transfer i (storeUp bus) (ascending ++ [15]) (s.cpu.R (regPos i 16), s)
  { s with cpu := s.cpu.setR (regPos i 16) start }

/-- `OP_STMDB_W`. -/
def opSTMDB_W (s : Machine μ) : Machine μ :=
  let (start, s) := transfer i (storeDown bus) (15 :: descending) (s.cpu.R (regPos i 16), s)
  { s with cpu := s.cpu.setR (regPos i 16) start }

end Block

/-- Registers that no list names do not take part. -/
theorem transfer_unlisted {i : Word} {op : Fin 16 → Transfer μ → Transfer μ} {rs : List (Fin 16)}
    (h : ∀ r ∈ rs, listed i r = false) (t : Transfer μ) : transfer i op rs t = t := by
  induction rs with
  | nil => rfl
  | cons r rs ih =>
    have hr := h r List.mem_cons_self
    rw [transfer, List.foldl_cons, if_neg (by rw [hr]; exact Bool.false_ne_true)]
    exact ih fun q hq => h q (List.mem_cons_of_mem _ hq)

theorem transfer_append (i : Word) (op : Fin 16 → Transfer μ → Transfer μ) (rs qs : List (Fin 16))
    (t : Transfer μ) : transfer i op (rs ++ qs) t = transfer i op qs (transfer i op rs t) :=
  List.foldl_append

theorem transfer_congr {i j : Word} {op : Fin 16 → Transfer μ → Transfer μ} {rs : List (Fin 16)}
    (h : ∀ r ∈ rs, listed i r = listed j r) (t : Transfer μ) :
    transfer i op rs t = transfer j op rs t := by
  induction rs generalizing t with
  | nil => rfl
  | cons r rs ih =>
    rw [transfer, transfer, List.foldl_cons, List.foldl_cons, h r List.mem_cons_self]
    exact ih (fun q hq => h q (List.mem_cons_of_mem _ hq)) _

/-- `OP_MUL_S`. -/
def opMUL_S (i : Word) (cpu : ArmCpu) : ArmCpu :=
  let v := cpu.R (regPos i 0) * cpu.R (regPos i 8)
  (cpu.setR (regPos i 16) v).setFlags (v.getLsbD 31) (v == 0) cpu.CPSR.C cpu.CPSR.V

/-! ### The instruction table -/

instance (i : Word) : Decidable (IsDataProcessing i) :=
  inferInstanceAs (Decidable (_ ∧ _ ∧ (_ → ¬ (_ ∧ _)) ∧ (_ → _)))

/-- Entries of `arm_instructions_set` apart from the data-processing encodings, at bits 27 to 20
and bits 7 to 4 of the instruction. -/
def otherInstruction (bus : Bus μ) (i : Word) (high low : ℕ) : Option (Machine μ → Machine μ) :=
  match high, low with
  | 0x01, 0x9 => some fun s => { s with cpu := opMUL_S i s.cpu }
  | 0x18, 0xB => some (opSTRH_P_REG_OFF bus i)
  | 0x19, 0xB => some (opLDRH_P_REG_OFF bus i)
  | 0x19, 0xD => some (opLDRSB_P_REG_OFF bus i)
  | 0x19, 0xF => some (opLDRSH_P_REG_OFF bus i)
  | 0x1C, 0xB => some (opSTRH_P_IMM_OFF bus i)
  | 0x1D, 0xB => some (opLDRH_P_IMM_OFF bus i)
  | 0x58, _ => some (opSTR_P_IMM_OFF bus i)
  | 0x59, _ => some (opLDR_P_IMM_OFF bus i)
  | 0x5C, _ => some (opSTRB_P_IMM_OFF bus i)
  | 0x5D, _ => some (opLDRB_P_IMM_OFF bus i)
  | 0x78, 0x0 | 0x78, 0x8 => some (opSTR_P_LSL_IMM_OFF bus i)
  | 0x79, 0x0 | 0x79, 0x8 => some (opLDR_P_LSL_IMM_OFF bus i)
  | 0x7C, 0x0 | 0x7C, 0x8 => some (opSTRB_P_LSL_IMM_OFF bus i)
  | 0x7D, 0x0 | 0x7D, 0x8 => some (opLDRB_P_LSL_IMM_OFF bus i)
  | 0x8A, _ => some (opSTMIA_W bus i)
  | 0x8B, _ => some (opLDMIA_W bus i)
  | 0x92, _ => some (opSTMDB_W bus i)
  | _, _ => none

/-- `arm_instructions_set`, as far as the handlers above go. -/
def armInstruction (bus : Bus μ) (i : Word) : Option (Machine μ → Machine μ) :=
  if IsDataProcessing i then some fun s => { s with cpu := dataProcessing i s.cpu }
  else otherInstruction bus i (i.extractLsb' 20 8).toNat (i.extractLsb' 4 4).toNat

end Desmume.Arm
