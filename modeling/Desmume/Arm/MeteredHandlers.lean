import Desmume.Arm.LoadStore
import Desmume.Arm.Thumb
import Desmume.Arm.UserTransfer
import Desmume.Library.Ledger
import Desmume.Timing.CacheController

/-! The load and store handlers and the block transfers of both instruction sets with the cycles that they
charge, on a machine that keeps a ledger of its memory accesses. Each returns the first argument of
`MMU_aluMemCycles`; the second is the `c` of the meter. -/

namespace Desmume.Arm
open Library Memory Timing

section Handlers

variable {μ : Type*}

/-- `MMU_timing` and the `c` of a handler. -/
structure Meter where
  timing : DataTiming
  c : ℕ

/-- `c += MMU_memAccessCycles`. -/
def Meter.pay (proc : Proc) (m : Meter) (a : MemAccess) : Meter :=
  let (time, timing) := memAccessCycles proc a m.timing
  ⟨timing, m.c + time⟩

structure Metered (μ : Type*) where
  mem : μ
  ledger : Ledger MemAccess Meter

/-- The memory after an access. -/
def Metered.after (m : Metered μ) (a : MemAccess) (mem : μ) : Metered μ := ⟨mem, m.ledger.record a⟩

/-- The bus with a record of what goes over it. -/
def Bus.metered (bus : Bus μ) : Bus (Metered μ) where
  read08 adr m :=
    let (v, mem) := bus.read08 adr m.mem
    (v, m.after ⟨.w8, .read, adr⟩ mem)
  read16 adr m :=
    let (v, mem) := bus.read16 adr m.mem
    (v, m.after ⟨.w16, .read, adr⟩ mem)
  read32 adr m :=
    let (v, mem) := bus.read32 adr m.mem
    (v, m.after ⟨.w32, .read, adr⟩ mem)
  write08 adr v m := m.after ⟨.w8, .write, adr⟩ (bus.write08 adr v m.mem)
  write16 adr v m := m.after ⟨.w16, .write, adr⟩ (bus.write16 adr v m.mem)
  write32 adr v m := m.after ⟨.w32, .write, adr⟩ (bus.write32 adr v m.mem)

namespace Machine

/-- `c += MMU_memAccessCycles<PROCNUM,size,dir>(adr)`. -/
def charge (size : Width) (dir : AccessDirection) (adr : Word) (s : Machine (Metered μ)) :
    Machine (Metered μ) :=
  let ledger := s.mem.ledger.charge (Meter.pay s.cpu.proc_ID) ⟨size, dir, adr⟩
  { s with mem := { s.mem with ledger } }

def onCpu (f : ArmCpu → ArmCpu) (s : Machine μ) : Machine μ := { s with cpu := f s.cpu }

/-- The state in which a handler starts. -/
def meter (t : DataTiming) (s : Machine μ) : Machine (Metered μ) := ⟨s.cpu, s.mem, [], t, 0⟩

end Machine

/-! ### Transfers of one datum in ARM state -/

/-- `_P_` and `_M_` in the name of a handler. -/
inductive OffsetSign where
  | P | M
  deriving DecidableEq

def OffsetSign.apply (base off : Word) : OffsetSign → Word
  | .P => base + off
  | .M => base - off

/-- Nothing, `_PREIND` (or `PRE_INDE_`) and `_POSTIND` (or `POS_INDE_`) in the name of a handler. -/
inductive Indexing where
  | off | preind | postind
  deriving DecidableEq

/-- The offsets of the words and bytes. -/
inductive WordOffset where
  | IMM_OFF | LSL_IMM_OFF | LSR_IMM_OFF | ASR_IMM_OFF | ROR_IMM_OFF
  deriving DecidableEq

def WordOffset.value (i : Word) (cpu : ArmCpu) : WordOffset → Word
  | .IMM_OFF => immOff12 i
  | .LSL_IMM_OFF => lslImm i cpu
  | .LSR_IMM_OFF => lsrImm i cpu
  | .ASR_IMM_OFF => asrImm i cpu
  | .ROR_IMM_OFF => rorImm i cpu

/-- The offsets of the halfwords and of what is extended by its sign. -/
inductive HalfOffset where
  | IMM_OFF | REG_OFF
  deriving DecidableEq

def HalfOffset.value (i : Word) (cpu : ArmCpu) : HalfOffset → Word
  | .IMM_OFF => immOff i
  | .REG_OFF => cpu.rm i

/-- How the name of a handler ends: `P_LSL_IMM_OFF_PREIND` and the like. -/
structure Addressing (ω : Type) where
  sign : OffsetSign
  offset : ω
  index : Indexing
  deriving DecidableEq

namespace Indexing

/-- `adr`, from the base register and from it with the offset applied. -/
def adr (base moved : Word) : Indexing → Word
  | .postind => base
  | _ => moved

/-- The loads write the base back before they read. -/
def beforeLoad (i moved : Word) (s : Machine μ) : Indexing → Machine μ
  | .off => s
  | _ => s.onCpu fun cpu => cpu.setR (regPos i 16) moved

/-- The stores write the base back before they write if it is indexed before. -/
def beforeStore (i moved : Word) (s : Machine μ) : Indexing → Machine μ
  | .preind => s.onCpu fun cpu => cpu.setR (regPos i 16) moved
  | _ => s

def afterStore (i moved : Word) (s : Machine μ) : Indexing → Machine μ
  | .postind => s.onCpu fun cpu => cpu.setR (regPos i 16) moved
  | _ => s

end Indexing

section Single

variable (bus : Bus (Metered μ)) (i : Word) (s : Machine (Metered μ))

/-- A load of `w` bits: `adr`, the base written back, `R[Rd] = READ(adr)`, and its cycles. -/
def loadForm {w : ℕ} (read : Word → Metered μ → BitVec w × Metered μ) (extend : BitVec w → Word)
    (size : Width) (sign : OffsetSign) (off : Word) (index : Indexing) : ℕ × Machine (Metered μ) :=
  let moved := sign.apply (s.cpu.rn i) off
  let adr := index.adr (s.cpu.rn i) moved
  (3, ((index.beforeLoad i moved s).load read extend (regPos i 12) adr).charge size .read adr)

/-- A store of `w` bits. -/
def storeForm {w : ℕ} (write : Word → BitVec w → Metered μ → Metered μ) (narrow : Word → BitVec w)
    (size : Width) (sign : OffsetSign) (off : Word) (index : Indexing) : ℕ × Machine (Metered μ) :=
  let moved := sign.apply (s.cpu.rn i) off
  let adr := index.adr (s.cpu.rn i) moved
  let s := index.beforeStore i moved s
  (2, (index.afterStore i moved (s.store write (narrow (rdValue i s)) adr)).charge size .write adr)

/-- `OP_LDR_P_IMM_OFF` to `OP_LDR_M_ROR_IMM_OFF_POSTIND`: the macros `OP_LDR`, `OP_LDR_W` and
`OP_LDR_W2`. -/
def LDR (a : Addressing WordOffset) : ℕ × Machine (Metered μ) :=
  let moved := a.sign.apply (s.cpu.rn i) (a.offset.value i s.cpu)
  let adr := a.index.adr (s.cpu.rn i) moved
  let s := opLDR bus i adr (a.index.beforeLoad i moved s)
  (if regPos i 12 = 15 then 5 else 3, s.charge .w32 .read adr)

/-- `OP_LDRB_P_IMM_OFF` to `OP_LDRB_M_ROR_IMM_OFF_POSTIND`. -/
def LDRB (a : Addressing WordOffset) : ℕ × Machine (Metered μ) :=
  loadForm i s bus.READ8 (BitVec.setWidth 32) .w8 a.sign (a.offset.value i s.cpu) a.index

/-- `OP_STR_P_IMM_OFF` to `OP_STR_M_ROR_IMM_OFF_POSTIND`. -/
def STR (a : Addressing WordOffset) : ℕ × Machine (Metered μ) :=
  storeForm i s bus.WRITE32 id .w32 a.sign (a.offset.value i s.cpu) a.index

/-- `OP_STRB_P_IMM_OFF` to `OP_STRB_M_ROR_IMM_OFF_POSTIND`. -/
def STRB (a : Addressing WordOffset) : ℕ × Machine (Metered μ) :=
  storeForm i s bus.WRITE8 (BitVec.setWidth 8) .w8 a.sign (a.offset.value i s.cpu) a.index

/-- `OP_LDRH_P_IMM_OFF` to `OP_LDRH_POS_INDE_M_REG_OFF`. -/
def LDRH (a : Addressing HalfOffset) : ℕ × Machine (Metered μ) :=
  loadForm i s bus.READ16 (BitVec.setWidth 32) .w16 a.sign (a.offset.value i s.cpu) a.index

/-- `OP_LDRSH_P_IMM_OFF` to `OP_LDRSH_POS_INDE_M_REG_OFF`. -/
def LDRSH (a : Addressing HalfOffset) : ℕ × Machine (Metered μ) :=
  loadForm i s bus.READ16 (BitVec.signExtend 32) .w16 a.sign (a.offset.value i s.cpu) a.index

/-- `OP_LDRSB_P_IMM_OFF` to `OP_LDRSB_POS_INDE_M_REG_OFF`. -/
def LDRSB (a : Addressing HalfOffset) : ℕ × Machine (Metered μ) :=
  loadForm i s bus.READ8 (BitVec.signExtend 32) .w8 a.sign (a.offset.value i s.cpu) a.index

/-- `OP_STRH_P_IMM_OFF` to `OP_STRH_POS_INDE_M_REG_OFF`. -/
def STRH (a : Addressing HalfOffset) : ℕ × Machine (Metered μ) :=
  storeForm i s bus.WRITE16 (BitVec.setWidth 16) .w16 a.sign (a.offset.value i s.cpu) a.index

/-- `OP_LDREX`. -/
def LDREX : ℕ × Machine (Metered μ) :=
  let adr := s.cpu.rn i
  (3, (s.load bus.READ32 (rotateUnaligned adr) (regPos i 12) adr).charge .w32 .read adr)

/-- `OP_STREX`. -/
def STREX : ℕ × Machine (Metered μ) :=
  let adr := s.cpu.rn i
  let s := (s.store bus.WRITE32 (s.cpu.rm i) adr).onCpu fun cpu => cpu.setR (regPos i 12) 0
  (2, s.charge .w32 .write adr)

/-- `OP_SWP`. -/
def SWP : ℕ × Machine (Metered μ) :=
  let adr := s.cpu.rn i
  let (tmp, mem) := bus.READ32 adr s.mem
  let s := ({ s with mem } : Machine (Metered μ)).store bus.WRITE32 (s.cpu.rm i) adr
  let s := s.onCpu fun cpu => cpu.setR (regPos i 12) (rotateUnaligned adr tmp)
  (4, (s.charge .w32 .read adr).charge .w32 .write adr)

/-- `OP_SWPB`. -/
def SWPB : ℕ × Machine (Metered μ) :=
  let adr := s.cpu.rn i
  let (tmp, mem) := bus.READ8 adr s.mem
  let s := ({ s with mem } : Machine (Metered μ)).store bus.WRITE8 ((s.cpu.rm i).setWidth 8) adr
  let s := s.onCpu fun cpu => cpu.setR (regPos i 12) (tmp.setWidth 32)
  (4, (s.charge .w8 .read adr).charge .w8 .write adr)

end Single

/-! ### `LDRD` and `STRD` -/

section Double

variable (bus : Bus (Metered μ)) (i : Word)

/-- `BIT22(i) ? IMM_OFF : R[REG_POS(i,0)]`. -/
def doubleIndex (cpu : ArmCpu) : Word := if i.getLsbD 22 then immOff i else cpu.rm i

/-- `BIT23(i)`: up or down. -/
def doubleMoved (base : Word) (cpu : ArmCpu) : Word :=
  if i.getLsbD 23 then base + doubleIndex i cpu else base - doubleIndex i cpu

/-- Both words of a store, and their cycles. -/
def storeDouble (addr : Word) (s : Machine (Metered μ)) : Machine (Metered μ) :=
  let s := s.store bus.WRITE32 (s.cpu.R (regPos i 12)) addr
  let s := s.store bus.WRITE32 (s.cpu.R (regPos i 12 + 1)) (addr + 4)
  (s.charge .w32 .write addr).charge .w32 .write (addr + 4)

/-- Both words of a load, and their cycles. -/
def loadDouble (addr : Word) (s : Machine (Metered μ)) : Machine (Metered μ) :=
  let s := s.load bus.READ32 id (regPos i 12) addr
  let s := s.load bus.READ32 id (regPos i 12 + 1) (addr + 4)
  (s.charge .w32 .read addr).charge .w32 .read (addr + 4)

/-- `OP_LDRD_STRD_POST_INDEX`. -/
def LDRD_STRD_POST_INDEX (s : Machine (Metered μ)) : ℕ × Machine (Metered μ) :=
  let addr := s.cpu.rn i
  let s := s.onCpu fun cpu => cpu.setR (regPos i 16) (doubleMoved i addr cpu)
  let s :=
    if (regPos i 12).val % 2 = 0 then
      if i.getLsbD 5 then storeDouble bus i addr s else loadDouble bus i addr s
    else s
  (3, s)

/-- `OP_LDRD_STRD_OFFSET_PRE_INDEX`. -/
def LDRD_STRD_OFFSET_PRE_INDEX (s : Machine (Metered μ)) : ℕ × Machine (Metered μ) :=
  let addr := doubleMoved i (s.cpu.rn i) s.cpu
  let writeBack (s : Machine (Metered μ)) :=
    if i.getLsbD 21 then s.onCpu fun cpu => cpu.setR (regPos i 16) addr else s
  let s :=
    if (regPos i 12).val % 2 = 0 then
      if i.getLsbD 5 then writeBack (storeDouble bus i addr s) else loadDouble bus i addr (writeBack s)
    else s
  (3, s)

end Double

end Handlers

/-! ### Block transfers -/

section Blocks

variable {μ : Type}

/-- The address of a line, where `start` may move first. -/
def LdmForm.lineAdr (f : LdmForm) (start : Word) : Word :=
  if f.isBefore then f.advance 1 start else start

section Lines

variable (bus : Bus (Metered μ)) (i : Word) (f : LdmForm)

/-- `OP_L_IA`, `OP_L_IB`, `OP_L_DA` and `OP_L_DB`. -/
def loadLine (reg : Fin 16) (t : Transfer (Metered μ)) : Transfer (Metered μ) :=
  let s := t.2.load bus.READ32 id reg (f.lineAdr t.1)
  (f.advance 1 t.1, s.charge .w32 .read (f.lineAdr t.1))

/-- `WRITE32(start, R[b]); c += MMU_memAccessCycles(start)`, around the move of `start`. -/
def storeLine (b : Fin 16) (t : Transfer (Metered μ)) : Transfer (Metered μ) :=
  let s := t.2.store bus.WRITE32 (t.2.cpu.R b) (f.lineAdr t.1)
  (f.advance 1 t.1, s.charge .w32 .write (f.lineAdr t.1))

def loadLines (start : Word) (s : Machine (Metered μ)) : Transfer (Metered μ) :=
  transfer i (loadLine bus f) f.lines (start, s)

def storeLines (start : Word) (s : Machine (Metered μ)) : Transfer (Metered μ) :=
  transfer i (storeLine bus f) f.order (start, s)

/-- `tmp = READ32(adr)`, what becomes of the processor, and `c += MMU_memAccessCycles(charged)`. -/
def loadPcWord (adr charged : Word) (f : Word → ArmCpu → ArmCpu) (s : Machine (Metered μ)) :
    Machine (Metered μ) :=
  let (tmp, mem) := bus.READ32 adr s.mem
  (⟨f tmp s.cpu, mem⟩ : Machine (Metered μ)).charge .w32 .read charged

end Lines

/-- `R[15]`, `T` and `next_instruction` from the last word of a list. -/
def branchTo (tmp : Word) (cpu : ArmCpu) : ArmCpu := loadPc (cpu.setR 15 tmp)

/-- The write-back of `OP_LDMIA_W` and its siblings. -/
def writeBaseAbove (i start : Word) (cpu : ArmCpu) : ArmCpu :=
  if listed i (regPos i 16) then
    if i &&& bitList i ≠ 0 then cpu.setR (regPos i 16) start else cpu
  else cpu.setR (regPos i 16) start

section Blocks

variable (bus : Bus (Metered μ)) (i : Word) (s : Machine (Metered μ))

/-! ### `LDM` -/

/-- `OP_LDMIA`. -/
def LDMIA : ℕ × Machine (Metered μ) :=
  let (start, s) := loadLines bus i .ia (s.cpu.rn i) s
  (2, if listed i 15 then loadPcWord bus start start branchTo s else s)

/-- `OP_LDMIB`. -/
def LDMIB : ℕ × Machine (Metered μ) :=
  let (start, s) := loadLines bus i .ib (s.cpu.rn i) s
  if listed i 15 then (4, loadPcWord bus (start + 4) (start + 4) branchTo s) else (2, s)

/-- `OP_LDMDA`. -/
def LDMDA : ℕ × Machine (Metered μ) :=
  let start := s.cpu.rn i
  let (start, s) :=
    if listed i 15 then (start - 4, loadPcWord bus start start branchTo s) else (start, s)
  (2, (loadLines bus i .da start s).2)

/-- `OP_LDMDB`. -/
def LDMDB : ℕ × Machine (Metered μ) :=
  let start := s.cpu.rn i
  let (start, s) :=
    if listed i 15 then (start - 4, loadPcWord bus (start - 4) (start - 4) branchTo s) else (start, s)
  (2, (loadLines bus i .db start s).2)

/-- `OP_LDMIA_W`. -/
def LDMIA_W : ℕ × Machine (Metered μ) :=
  let (start, s) := loadLines bus i .ia (s.cpu.rn i) s
  let (start, s) :=
    if listed i 15 then (start + 4, loadPcWord bus start start branchTo s) else (start, s)
  (if listed i 15 then 4 else 2, s.onCpu (writeBaseAbove i start))

/-- `OP_LDMIB_W`. -/
def LDMIB_W : ℕ × Machine (Metered μ) :=
  let (start, s) := loadLines bus i .ib (s.cpu.rn i) s
  let (start, s) :=
    if listed i 15 then (start + 4, loadPcWord bus (start + 4) (start + 4) branchTo s) else (start, s)
  (if listed i 15 then 4 else 2, s.onCpu (writeBaseAbove i start))

/-- `OP_LDMDA_W`. -/
def LDMDA_W : ℕ × Machine (Metered μ) :=
  let start := s.cpu.rn i
  let (start, s) :=
    if listed i 15 then (start - 4, loadPcWord bus start start branchTo s) else (start, s)
  let (start, s) := loadLines bus i .da start s
  (2, s.onCpu (writeBaseAbove i start))

/-- `OP_LDMDB_W`. -/
def LDMDB_W : ℕ × Machine (Metered μ) :=
  let start := s.cpu.rn i
  let (start, s) :=
    if listed i 15 then (start - 4, loadPcWord bus (start - 4) (start - 4) branchTo s) else (start, s)
  let (start, s) := loadLines bus i .db start s
  (2, s.onCpu (writeBaseAbove i start))

/-! ### `LDM` with the S bit -/

/-- The path without `R15`, with or without `if (!BIT_N(i, REG_POS(i,16))) R[REG_POS(i,16)] = start`.
`ERROR1` leaves before any access. -/
def LDM2_USER (f : LdmForm) (writeBack : Bool) : ℕ × Machine (Metered μ) :=
  if s.cpu.inUserMode then (1, s)
  else
    let oldmode := s.cpu.CPSR.mode
    let (start, s) := loadLines bus i f (s.cpu.rn i) (s.switchTo Mode.sys.code)
    let s := if writeBack then s.onCpu (writeBase i start) else s
    (2, s.switchTo oldmode)

/-- `OP_LDMIA2`. -/
def LDMIA2 : ℕ × Machine (Metered μ) :=
  if listed i 15 then
    let (start, s) := loadLines bus i .ia (s.cpu.rn i) s
    (2, loadPcWord bus start start (fun tmp cpu => (cpu.setR 15 (pcMask tmp)).restoreSPSR.jump) s)
  else LDM2_USER bus i s .ia false

/-- `OP_LDMIB2`. -/
def LDMIB2 : ℕ × Machine (Metered μ) :=
  if listed i 15 then
    let (start, s) := loadLines bus i .ib (s.cpu.rn i) s
    (2, loadPcWord bus (start + 4) (start + 4)
      (fun tmp cpu => (cpu.setR 15 (pcMask tmp)).restoreSPSR.jump) s)
  else LDM2_USER bus i s .ib false

/-- `OP_LDMDA2`. -/
def LDMDA2 : ℕ × Machine (Metered μ) :=
  if listed i 15 then
    let start := s.cpu.rn i
    let s := loadPcWord bus start start (fun tmp cpu => (cpu.setR 15 (pcMask tmp)).copySPSR.jump) s
    let (_, s) := loadLines bus i .da (start - 4) s
    (2, s.onCpu ArmCpu.restoreSPSR)
  else LDM2_USER bus i s .da false

/-- `OP_LDMDB2`. -/
def LDMDB2 : ℕ × Machine (Metered μ) :=
  if listed i 15 then
    let start := s.cpu.rn i - 4
    let s := loadPcWord bus start start (fun tmp cpu => (cpu.setR 15 (pcMask tmp)).copySPSR.jump) s
    let (_, s) := loadLines bus i .db start s
    (2, s.onCpu ArmCpu.restoreSPSR)
  else LDM2_USER bus i s .db false

/-- `OP_LDMIA2_W`. -/
def LDMIA2_W : ℕ × Machine (Metered μ) :=
  if listed i 15 then
    let (start, s) := loadLines bus i .ia (s.cpu.rn i) s
    let s := s.onCpu (writeBase i (start + 4))
    (2, loadPcWord bus start start (fun tmp cpu => (cpu.setR 15 (pcMask tmp)).restoreSPSR.jump) s)
  else LDM2_USER bus i s .ia true

/-- `OP_LDMIB2_W`: `R15` is read at `start + 4` and `start` is charged. -/
def LDMIB2_W : ℕ × Machine (Metered μ) :=
  if listed i 15 then
    let (start, s) := loadLines bus i .ib (s.cpu.rn i) s
    let s := s.onCpu (writeBase i (start + 4))
    (2, loadPcWord bus (start + 4) start
      (fun tmp cpu => ((cpu.setR 15 (pcMask tmp)).copySPSR.jump).restoreSPSR) s)
  else LDM2_USER bus i s .ib true

/-- `OP_LDMDA2_W`. -/
def LDMDA2_W : ℕ × Machine (Metered μ) :=
  if listed i 15 then
    let start := s.cpu.rn i
    let s := loadPcWord bus start start (fun tmp cpu => (cpu.setR 15 (pcMask tmp)).jump) s
    let (start, s) := loadLines bus i .da (start - 4) s
    (2, s.onCpu fun cpu => (writeBase i start cpu).restoreSPSR)
  else LDM2_USER bus i s .da true

/-- `OP_LDMDB2_W`. -/
def LDMDB2_W : ℕ × Machine (Metered μ) :=
  if listed i 15 then
    let start := s.cpu.rn i - 4
    let s := loadPcWord bus start start (fun tmp cpu => (cpu.setR 15 (pcMask tmp)).copySPSR.jump) s
    let (start, s) := loadLines bus i .db start s
    (2, s.onCpu fun cpu => (writeBase i start cpu).restoreSPSR)
  else LDM2_USER bus i s .db true

/-! ### `STM` -/

/-- `OP_STMIA`, `OP_STMIB`, `OP_STMDA` and `OP_STMDB`. -/
def STM (f : LdmForm) : ℕ × Machine (Metered μ) := (1, (storeLines bus i f (s.cpu.rn i) s).2)

/-- `OP_STMIA_W`, `OP_STMIB_W`, `OP_STMDA_W` and `OP_STMDB_W`. -/
def STM_W (f : LdmForm) : ℕ × Machine (Metered μ) :=
  let (start, s) := storeLines bus i f (s.cpu.rn i) s
  (1, s.setR (regPos i 16) start)

/-- The block stores with the S bit, around what becomes of the base. -/
def STM2_USER (f : LdmForm) (base : Word → Machine (Metered μ) → Machine (Metered μ)) :
    ℕ × Machine (Metered μ) :=
  if s.cpu.CPSR.mode = Mode.usr.code then (2, s)
  else
    let oldmode := s.cpu.CPSR.mode
    let (start, s) := storeLines bus i f (s.cpu.rn i) (s.switchTo Mode.sys.code)
    (1, (base start s).switchTo oldmode)

/-- `OP_STMIA2`, `OP_STMIB2`, `OP_STMDA2` and `OP_STMDB2`. -/
def STM2 (f : LdmForm) : ℕ × Machine (Metered μ) := STM2_USER bus i s f fun _ s => s

/-- `OP_STMIB2_W`. -/
def STMIB2_W : ℕ × Machine (Metered μ) :=
  if s.cpu.CPSR.mode = Mode.usr.code then (2, s)
  else
    let oldmode := s.cpu.CPSR.mode
    let (start, s) := storeLines bus i .ib (s.cpu.rn i) (s.switchTo Mode.sys.code)
    (1, (s.switchTo oldmode).setR (regPos i 16) start)

/-- `OP_STMIA2_W`, `OP_STMIB2_W`, `OP_STMDA2_W` and `OP_STMDB2_W`. -/
def STM2_W : LdmForm → ℕ × Machine (Metered μ)
  | .ib => STMIB2_W bus i s
  | f => STM2_USER bus i s f (Machine.setR (regPos i 16))

end Blocks

/-! ### The table of the ARM handlers -/

inductive ArmMemOp where
  | LDR (a : Addressing WordOffset)
  | LDRB (a : Addressing WordOffset)
  | STR (a : Addressing WordOffset)
  | STRB (a : Addressing WordOffset)
  | LDRH (a : Addressing HalfOffset)
  | LDRSH (a : Addressing HalfOffset)
  | LDRSB (a : Addressing HalfOffset)
  | STRH (a : Addressing HalfOffset)
  | LDREX | STREX | SWP | SWPB
  | LDRD_STRD_POST_INDEX | LDRD_STRD_OFFSET_PRE_INDEX
  | LDM (f : LdmForm) | LDM_W (f : LdmForm) | LDM2 (f : LdmForm) | LDM2_W (f : LdmForm)
  | STM (f : LdmForm) | STM_W (f : LdmForm) | STM2 (f : LdmForm) | STM2_W (f : LdmForm)
  deriving DecidableEq

def ArmMemOp.execute (bus : Bus (Metered μ)) (i : Word) (s : Machine (Metered μ)) :
    ArmMemOp → ℕ × Machine (Metered μ)
  | LDR a => Arm.LDR bus i s a
  | LDRB a => Arm.LDRB bus i s a
  | STR a => Arm.STR bus i s a
  | STRB a => Arm.STRB bus i s a
  | LDRH a => Arm.LDRH bus i s a
  | LDRSH a => Arm.LDRSH bus i s a
  | LDRSB a => Arm.LDRSB bus i s a
  | STRH a => Arm.STRH bus i s a
  | LDREX => Arm.LDREX bus i s
  | STREX => Arm.STREX bus i s
  | SWP => Arm.SWP bus i s
  | SWPB => Arm.SWPB bus i s
  | LDRD_STRD_POST_INDEX => Arm.LDRD_STRD_POST_INDEX bus i s
  | LDRD_STRD_OFFSET_PRE_INDEX => Arm.LDRD_STRD_OFFSET_PRE_INDEX bus i s
  | LDM .ia => LDMIA bus i s
  | LDM .ib => LDMIB bus i s
  | LDM .da => LDMDA bus i s
  | LDM .db => LDMDB bus i s
  | LDM_W .ia => LDMIA_W bus i s
  | LDM_W .ib => LDMIB_W bus i s
  | LDM_W .da => LDMDA_W bus i s
  | LDM_W .db => LDMDB_W bus i s
  | LDM2 .ia => LDMIA2 bus i s
  | LDM2 .ib => LDMIB2 bus i s
  | LDM2 .da => LDMDA2 bus i s
  | LDM2 .db => LDMDB2 bus i s
  | LDM2_W .ia => LDMIA2_W bus i s
  | LDM2_W .ib => LDMIB2_W bus i s
  | LDM2_W .da => LDMDA2_W bus i s
  | LDM2_W .db => LDMDB2_W bus i s
  | STM f => Arm.STM bus i s f
  | STM_W f => Arm.STM_W bus i s f
  | STM2 f => Arm.STM2 bus i s f
  | STM2_W f => Arm.STM2_W bus i s f

/-! ### THUMB state -/

namespace Thumb

inductive MemOp where
  | STRB_IMM_OFF | LDRB_IMM_OFF | STRB_REG_OFF | LDRB_REG_OFF | LDRSB_REG_OFF
  | STRH_IMM_OFF | LDRH_IMM_OFF | STRH_REG_OFF | LDRH_REG_OFF | LDRSH_REG_OFF
  | STR_IMM_OFF | LDR_IMM_OFF | STR_REG_OFF | LDR_REG_OFF | STR_SPREL | LDR_SPREL | LDR_PCREL
  | PUSH | PUSH_LR | POP | POP_PC | STMIA_THUMB | LDMIA_THUMB
  deriving DecidableEq

section Handlers

variable (bus : Bus (Metered μ)) (i : Word) (s : Machine (Metered μ))

/-- `OP_LDR_IMM_OFF`: `adr = (adr&3)*8` comes before the charge. -/
def LDR_IMM_OFF : ℕ × Machine (Metered μ) :=
  let adr := s.cpu.lo i 3 + ((i >>> 4) &&& 0x7C)
  (3, (opLDR_IMM_OFF bus i s).charge .w32 .read ((adr &&& 3) * 8))

/-- `OP_LDR_REG_OFF`: likewise. -/
def LDR_REG_OFF : ℕ × Machine (Metered μ) :=
  let adr := adrReg i s
  (3, (opLDR_REG_OFF bus i s).charge .w32 .read ((adr &&& 3) * 8))

/-- A line of a block transfer, and its cycles. -/
def chargedLine (dir : AccessDirection) (line : Fin 16 → Transfer (Metered μ) → Transfer (Metered μ))
    (reg : Fin 16) (t : Transfer (Metered μ)) : Transfer (Metered μ) :=
  let (next, s) := line reg t
  (next, s.charge .w32 dir t.1)

/-- `OP_PUSH`. -/
def PUSH : ℕ × Machine (Metered μ) :=
  let (adr, s) := transfer i (chargedLine .write (pushReg bus)) down (s.cpu.R 13 - 4, s)
  (3, s.setR 13 (adr + 4))

/-- `OP_PUSH_LR`. -/
def PUSH_LR : ℕ × Machine (Metered μ) :=
  let push := chargedLine .write (pushReg bus)
  let (adr, s) := transfer i push down (push 14 (s.cpu.R 13 - 4, s))
  (4, s.setR 13 (adr + 4))

/-- `OP_POP`. -/
def POP : ℕ × Machine (Metered μ) :=
  let (adr, s) := transfer i (chargedLine .read (loadUp bus)) up (s.cpu.R 13, s)
  (2, s.setR 13 adr)

/-- `OP_POP_PC`. -/
def POP_PC : ℕ × Machine (Metered μ) :=
  let (adr, s) := transfer i (chargedLine .read (loadUp bus)) up (s.cpu.R 13, s)
  let s := loadPcWord bus adr adr (fun v cpu =>
    let cpu := if cpu.proc_ID = .arm9 then cpu.setCPSR { cpu.CPSR with T := v.getLsbD 0 } else cpu
    (cpu.setR 15 (v &&& 0xFFFFFFFE)).jump) s
  (5, s.setR 13 (adr + 4))

/-- `OP_STMIA_THUMB`. -/
def STMIA_THUMB : ℕ × Machine (Metered μ) :=
  let (adr, s) := transfer i (chargedLine .write (storeUp bus)) up (s.cpu.lo i 8, s)
  (2, s.setR (regNum i 8) adr)

/-- `OP_LDMIA_THUMB`. -/
def LDMIA_THUMB : ℕ × Machine (Metered μ) :=
  let (adr, s) := transfer i (chargedLine .read (loadUp bus)) up (s.cpu.lo i 8, s)
  (3, if listed i (regNum i 8) then s else s.setR (regNum i 8) adr)

/-- The handlers; what is charged where the handler is not above is `adr`. -/
def MemOp.execute : MemOp → ℕ × Machine (Metered μ)
  | STRB_IMM_OFF =>
    (2, (opSTRB_IMM_OFF bus i s).charge .w8 .write (s.cpu.lo i 3 + ((i >>> 6) &&& 0x1F)))
  | LDRB_IMM_OFF =>
    (3, (opLDRB_IMM_OFF bus i s).charge .w8 .read (s.cpu.lo i 3 + ((i >>> 6) &&& 0x1F)))
  | STRB_REG_OFF => (2, (opSTRB_REG_OFF bus i s).charge .w8 .write (adrReg i s))
  | LDRB_REG_OFF => (3, (opLDRB_REG_OFF bus i s).charge .w8 .read (adrReg i s))
  | LDRSB_REG_OFF => (3, (opLDRSB_REG_OFF bus i s).charge .w8 .read (adrReg i s))
  | STRH_IMM_OFF =>
    (2, (opSTRH_IMM_OFF bus i s).charge .w16 .write (s.cpu.lo i 3 + ((i >>> 5) &&& 0x3E)))
  | LDRH_IMM_OFF =>
    (3, (opLDRH_IMM_OFF bus i s).charge .w16 .read (s.cpu.lo i 3 + ((i >>> 5) &&& 0x3E)))
  | STRH_REG_OFF => (2, (opSTRH_REG_OFF bus i s).charge .w16 .write (adrReg i s))
  | LDRH_REG_OFF => (3, (opLDRH_REG_OFF bus i s).charge .w16 .read (adrReg i s))
  | LDRSH_REG_OFF => (3, (opLDRSH_REG_OFF bus i s).charge .w16 .read (adrReg i s))
  | STR_IMM_OFF =>
    (2, (opSTR_IMM_OFF bus i s).charge .w32 .write (s.cpu.lo i 3 + ((i >>> 4) &&& 0x7C)))
  | LDR_IMM_OFF => Thumb.LDR_IMM_OFF bus i s
  | STR_REG_OFF => (2, (opSTR_REG_OFF bus i s).charge .w32 .write (s.cpu.lo i 6 + s.cpu.lo i 3))
  | LDR_REG_OFF => Thumb.LDR_REG_OFF bus i s
  | STR_SPREL => (2, (opSTR_SPREL bus i s).charge .w32 .write (adrSp i s))
  | LDR_SPREL => (3, (opLDR_SPREL bus i s).charge .w32 .read (adrSp i s))
  | LDR_PCREL =>
    (3, (opLDR_PCREL bus i s).charge .w32 .read ((s.cpu.R 15 &&& 0xFFFFFFFC) + imm8 i <<< 2))
  | PUSH => Thumb.PUSH bus i s
  | PUSH_LR => Thumb.PUSH_LR bus i s
  | POP => Thumb.POP bus i s
  | POP_PC => Thumb.POP_PC bus i s
  | STMIA_THUMB => Thumb.STMIA_THUMB bus i s
  | LDMIA_THUMB => Thumb.LDMIA_THUMB bus i s

end Handlers

end Thumb

end Blocks

end Desmume.Arm
