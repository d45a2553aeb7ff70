import Desmume.Dma.ControlRegister
import Desmume.Library.FlatMemory

/-! The game card bus: the commands that start a transfer and the data accesses that count it
down, for a card in the slot and a rest of the machine that are left open. -/

namespace Desmume.Card
open Library Dma

/-- A transfer is started, or `MMU_GC_endTransfer` runs. -/
inductive GcEvent where
  | start | finish
  deriving DecidableEq, Repr

/-- `GCBUS_Controller`. The log is not in the source: what happened to the transfers so far, the
latest event first. -/
structure GcBusController where
  transferCount : ℤ
  log : List GcEvent
  deriving DecidableEq

/-- What else the bus reads and writes. `dev` is the card in slot 1 with the KEY2 state. -/
structure Machine (δ : Type) where
  regs : Proc → ℕ → BitVec 8
  auxSpiCnt : BitVec 16
  irqs : List (Proc × ℕ)
  dma : Proc → Fin 4 → DmaController
  dev : δ

structure GcBus (δ : Type) where
  machine : Machine δ
  dscard : Proc → GcBusController

/-- `slot1_device`, the seeding of KEY2 from a register page and the registers of other units. -/
structure Slot1 (δ : Type) where
  writeCommand : Proc → BitVec 64 → δ → δ
  readGcdatain : Proc → δ → BitVec 32 × δ
  writeGcdatain : Proc → BitVec 32 → δ → δ
  auxspiReset : Proc → δ → δ
  applySeed : Proc → (ℕ → BitVec 8) → δ → δ
  otherWrite8 : Proc → ℕ → BitVec 8 → Machine δ → Machine δ
  otherWrite16 : Proc → ℕ → BitVec 16 → Machine δ → Machine δ
  otherWrite32 : Proc → ℕ → BitVec 32 → Machine δ → Machine δ

def irqBitGcTransferComplete : ℕ := 19

/-- `blocksize_table`. -/
def blocksizeTable : Fin 8 → ℤ
  | 0 => 0
  | 1 => 0x200
  | 2 => 0x400
  | 3 => 0x800
  | 4 => 0x1000
  | 5 => 0x2000
  | 6 => 0x4000
  | 7 => 4

/-- The size of the transfer that a control word selects. -/
def blocksize (val : BitVec 32) : ℤ := blocksizeTable (val.extractLsb' 24 3).toFin

/-- Bit 31 of the control word. -/
def startBit (val : BitVec 32) : Bool := val.getLsbD 31

variable {δ : Type}

namespace Machine

/-- `GCROMCTRL` in the register page. -/
def gcromctrl (m : Machine δ) (proc : Proc) : BitVec 32 := readWord 4 (m.regs proc) 0x1A4

def setGcromctrl (m : Machine δ) (proc : Proc) (val : BitVec 32) : Machine δ :=
  { m with regs := Function.update m.regs proc (writeWord 4 (m.regs proc) 0x1A4 val) }

def makeIrq (m : Machine δ) (proc : Proc) (num : ℕ) : Machine δ :=
  { m with irqs := m.irqs ++ [(proc, num)] }

def triggerDma (m : Machine δ) (mode : EDMAMode) : Machine δ :=
  { m with dma := fun proc chan => (m.dma proc chan).tryTrigger mode }

/-- `MMU_GC_endTransfer`. -/
def endTransfer (m : Machine δ) (proc : Proc) : Machine δ :=
  let m := m.setGcromctrl proc (m.gcromctrl proc &&& 0x7F7FFFFF)
  if m.auxSpiCnt &&& 0x4000 ≠ 0 then m.makeIrq proc irqBitGcTransferComplete else m

/-- The strobe of bit 15. -/
def strobeSeed (slot1 : Slot1 δ) (m : Machine δ) (proc : Proc) (val : BitVec 32) : Machine δ :=
  if val.getLsbD 15 then { m with dev := slot1.applySeed proc (m.regs proc) m.dev } else m

/-- The command in the page goes to the card. -/
def writeCommand (slot1 : Slot1 δ) (m : Machine δ) (proc : Proc) : Machine δ :=
  { m with dev := slot1.writeCommand proc (readWord 8 (m.regs proc) 0x1A8) m.dev }

/-- `write_auxspicnt`, for the value that the register gets. -/
def writeAuxspicnt (slot1 : Slot1 δ) (proc : Proc) (val : BitVec 16) (m : Machine δ) : Machine δ :=
  let csOld := m.auxSpiCnt.getLsbD 6
  let cs := val.getLsbD 6
  let spi := val.getLsbD 13
  let reset := (!cs && csOld) || (spi && m.auxSpiCnt = 0 && !cs)
  { m with auxSpiCnt := val, dev := if reset then slot1.auxspiReset proc m.dev else m.dev }

end Machine

namespace GcBus

def setMachine (s : GcBus δ) (m : Machine δ) : GcBus δ := { s with machine := m }

def setCard (s : GcBus δ) (proc : Proc) (card : GcBusController) : GcBus δ :=
  { s with dscard := Function.update s.dscard proc card }

/-- `MMU_GC_endTransfer`, with the log. -/
def endTransfer (s : GcBus δ) (proc : Proc) : GcBus δ :=
  (s.setMachine (s.machine.endTransfer proc)).setCard proc
    { s.dscard proc with log := .finish :: (s.dscard proc).log }

variable (slot1 : Slot1 δ)

/-- The transfer of a command that the card got: one of no words is done at once. -/
def startTransfer (s : GcBus δ) (proc : Proc) (val : BitVec 32) : GcBus δ :=
  let s := s.setCard proc ⟨blocksize val, .start :: (s.dscard proc).log⟩
  if (s.dscard proc).transferCount = 0 then s.endTransfer proc
  else s.setMachine ((s.machine.setGcromctrl proc (val ||| 0x00800000)).triggerDma .card)

/-- `MMU_writeToGCControl`. -/
def writeToGcControl (s : GcBus δ) (proc : Proc) (val : BitVec 32) : GcBus δ :=
  let m := s.machine.strobeSeed slot1 proc val
  if startBit val then (s.setMachine (m.writeCommand slot1 proc)).startTransfer proc val
  else s.setMachine (m.setGcromctrl proc (val &&& 0x7F7FFFFF))

/-- The end of both data accesses: the transfer is counted down and ended if necessary. -/
def updateTransferCounter (s : GcBus δ) (proc : Proc) : GcBus δ :=
  let s := s.setCard proc
    { s.dscard proc with transferCount := (s.dscard proc).transferCount - 4 }
  if (s.dscard proc).transferCount ≤ 0 then s.endTransfer proc else s

/-- `MMU_readFromGC`. -/
def readFromGc (s : GcBus δ) (proc : Proc) : BitVec 32 × GcBus δ :=
  if (s.dscard proc).transferCount = 0 then (0, s)
  else
    let (val, dev) := slot1.readGcdatain proc s.machine.dev
    (val, (s.setMachine { s.machine with dev := dev }).updateTransferCounter proc)

/-- `MMU_writeToGC`. -/
def writeToGc (s : GcBus δ) (proc : Proc) (val : BitVec 32) : GcBus δ :=
  (s.setMachine { s.machine with dev := slot1.writeGcdatain proc val s.machine.dev }
    ).updateTransferCounter proc

/-- The 32-bit writes to the registers of both processors. -/
def write32 (s : GcBus δ) (proc : Proc) (adr : ℕ) (val : BitVec 32) : GcBus δ :=
  if adr = 0x040001A4 then s.writeToGcControl slot1 proc val
  else if adr = 0x04100010 then s.writeToGc slot1 proc val
  else s.setMachine (slot1.otherWrite32 proc adr val s.machine)

/-- The 16-bit writes: a half of the control word is completed from the page. -/
def write16 (s : GcBus δ) (proc : Proc) (adr : ℕ) (val : BitVec 16) : GcBus δ :=
  if adr = 0x040001A4 then
    s.writeToGcControl slot1 proc (s.machine.gcromctrl proc &&& 0xFFFF0000 ||| val.setWidth 32)
  else if adr = 0x040001A6 then
    s.writeToGcControl slot1 proc (s.machine.gcromctrl proc &&& 0xFFFF ||| val.setWidth 32 <<< 16)
  else if adr = 0x040001A0 then s.setMachine (s.machine.writeAuxspicnt slot1 proc val)
  else s.setMachine (slot1.otherWrite16 proc adr val s.machine)

/-- The 8-bit writes, which start nothing. -/
def write8 (s : GcBus δ) (proc : Proc) (adr : ℕ) (val : BitVec 8) : GcBus δ :=
  if adr = 0x040001A0 then
    s.setMachine (s.machine.writeAuxspicnt slot1 proc
      (s.machine.auxSpiCnt &&& 0xFF00 ||| val.setWidth 16))
  else if adr = 0x040001A1 then
    s.setMachine (s.machine.writeAuxspicnt slot1 proc
      (s.machine.auxSpiCnt &&& 0x00FF ||| val.setWidth 16 <<< 8))
  else s.setMachine (slot1.otherWrite8 proc adr val s.machine)

end GcBus

/-- A 32-bit read of `GCDATAIN`, or a write to any register. -/
inductive BusOp where
  | readData (proc : Proc)
  | write32 (proc : Proc) (adr : ℕ) (val : BitVec 32)
  | write16 (proc : Proc) (adr : ℕ) (val : BitVec 16)
  | write8 (proc : Proc) (adr : ℕ) (val : BitVec 8)

def gcStep (slot1 : Slot1 δ) (s : GcBus δ) : BusOp → GcBus δ
  | .readData proc => (s.readFromGc slot1 proc).2
  | .write32 proc adr val => s.write32 slot1 proc adr val
  | .write16 proc adr val => s.write16 slot1 proc adr val
  | .write8 proc adr val => s.write8 slot1 proc adr val

/-- An empty slot, and registers of other units that keep what is written. -/
def slot1None : Slot1 Unit where
  writeCommand _ _ dev := dev
  readGcdatain _ dev := (0xFFFFFFFF, dev)
  writeGcdatain _ _ dev := dev
  auxspiReset _ dev := dev
  applySeed _ _ dev := dev
  otherWrite8 proc adr val m :=
    { m with regs := Function.update m.regs proc (writeWord 1 (m.regs proc) (adr % 0x1000000) val) }
  otherWrite16 proc adr val m :=
    { m with regs := Function.update m.regs proc (writeWord 2 (m.regs proc) (adr % 0x1000000) val) }
  otherWrite32 proc adr val m :=
    { m with regs := Function.update m.regs proc (writeWord 4 (m.regs proc) (adr % 0x1000000) val) }

/-- A machine with an empty slot. -/
def idleMachine : Machine Unit where
  regs _ _ := 0
  auxSpiCnt := 0
  irqs := []
  dma := .initial
  dev := ()

/-- The bus after `MMU_Reset`, in any machine. -/
def gcReset (m : Machine δ) : GcBus δ := ⟨m, fun _ => ⟨0, []⟩⟩

end Desmume.Card
