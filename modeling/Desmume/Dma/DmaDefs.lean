import Desmume.Machine.Types
import Mathlib.Data.List.Iterate

/-! A DMA channel: its control register, the triggers and the events at which it copies a chunk,
pauses or stops. -/

namespace Desmume.Dma

inductive EDMAMode where
  | immediate | vBlank | hBlank | hStart | memDisplay | card | gbaSlot | gxFifo | wifi7 | gbaSlot7
  deriving DecidableEq, Repr

inductive EDMABitWidth where
  | bits16 | bits32
  deriving DecidableEq, Repr

inductive EDMASourceUpdate where
  | increment | decrement | fixed | invalid
  deriving DecidableEq, Repr

inductive EDMADestinationUpdate where
  | increment | decrement | fixed | incrementReload
  deriving DecidableEq, Repr

/-- `EDMAMode_*` by their numbers. -/
def edmaModes : Fin 8 → EDMAMode
  | 0 => .immediate
  | 1 => .vBlank
  | 2 => .hBlank
  | 3 => .hStart
  | 4 => .memDisplay
  | 5 => .card
  | 6 => .gbaSlot
  | 7 => .gxFifo

def edmaSourceUpdates : Fin 4 → EDMASourceUpdate
  | 0 => .increment
  | 1 => .decrement
  | 2 => .fixed
  | 3 => .invalid

def edmaDestinationUpdates : Fin 4 → EDMADestinationUpdate
  | 0 => .increment
  | 1 => .decrement
  | 2 => .fixed
  | 3 => .incrementReload

structure DmaController where
  procnum : Proc
  chan : Fin 4
  enable : Bool
  irq : Bool
  repeatMode : Bool
  startmodeBits : BitVec 3
  wordcount : BitVec 32
  startmode : EDMAMode
  bitWidth : EDMABitWidth
  sar : EDMASourceUpdate
  dar : EDMADestinationUpdate
  saddr : BitVec 32
  daddr : BitVec 32
  saddrUser : BitVec 32
  daddrUser : BitVec 32
  dmaCheck : Bool
  running : Bool
  paused : Bool
  triggered : Bool
  deriving DecidableEq

/-- A channel, the word transfers (from, to) it has done and the interrupts it has raised. -/
structure DmaState where
  dma : DmaController
  transfers : List (BitVec 32 × BitVec 32)
  irqs : List (Proc × ℕ)
  deriving DecidableEq

/-- What the channel looks at in the rest of the machine when its event is due. -/
structure DmaEnv where
  gxFifoSize : ℕ
  vCount : ℕ
  transferCount : BitVec 32

namespace DmaController

variable (c : DmaController)

def doSchedule : DmaController := { c with dmaCheck := true }

def clearCheck : DmaController := { c with dmaCheck := false }

def doPause : DmaController := { c with triggered := false, paused := true }

/-- The fields that a control word sets. -/
def setControl (val : BitVec 32) : DmaController :=
  { c with
    wordcount := val &&& 0x1FFFFF
    dar := edmaDestinationUpdates (val.extractLsb' 21 2).toFin
    sar := edmaSourceUpdates (val.extractLsb' 23 2).toFin
    repeatMode := val.getLsbD 25
    bitWidth := if val.getLsbD 26 then .bits32 else .bits16
    startmodeBits :=
      if c.procnum = .arm7 then val.extractLsb' 27 3 &&& 6 else val.extractLsb' 27 3
    irq := val.getLsbD 30
    enable := val.getLsbD 31 }

/-- `DmaController::write32`. -/
def write32 (val : BitVec 32) : DmaController :=
  let c' := c.setControl val
  let c' := if !c.enable && c'.enable then { c' with triggered := false } else c'
  let c' := if c'.enable then { c' with saddr := c.saddrUser, daddr := c.daddrUser } else c'
  if c'.startmode ≠ .immediate ∧ c'.startmode ≠ .gxFifo ∧ c.enable then c' else c'.doSchedule

def tryTrigger (mode : EDMAMode) : DmaController :=
  if c.startmode ≠ mode then c
  else if !c.enable then c
  else if c.running && !c.paused then c
  else { c with triggered := true }.doSchedule

/-- The start mode of the control word, by the encoding of the processor. -/
def latchStartmode : EDMAMode :=
  match c.procnum with
  | .arm9 => edmaModes c.startmodeBits.toFin
  | .arm7 =>
    match (c.startmodeBits >>> 1).toNat with
    | 0 => .immediate
    | 1 => .vBlank
    | 2 => .card
    | _ => if c.chan = 1 ∨ c.chan = 3 then .gbaSlot7 else .wifi7

def sz : BitVec 32 := if c.bitWidth = .bits16 then 2 else 4

def dstInc : BitVec 32 :=
  match c.dar with
  | .increment => c.sz
  | .decrement => -c.sz
  | .fixed => 0
  | .incrementReload => c.sz

/-- No increment for the mode that the source calls bogarted. -/
def srcInc : Option (BitVec 32) :=
  match c.sar with
  | .increment => some c.sz
  | .decrement => some (-c.sz)
  | .fixed => some 0
  | .invalid => none

/-- How many words the copy is about to move. -/
def copyCount (env : DmaEnv) : BitVec 32 :=
  let todo := if c.procnum = .arm9 ∧ c.wordcount = 0 then 0x200000 else c.wordcount
  let todo := if c.startmode = .memDisplay then 128 else todo
  let todo := if c.startmode = .card then env.transferCount / c.sz else todo
  if c.startmode = .gxFifo ∧ 112 < todo then 112 else todo

end DmaController

/-- The addresses of the next word. -/
def advance (srcinc dstinc : BitVec 32) (p : BitVec 32 × BitVec 32) : BitVec 32 × BitVec 32 :=
  (p.1 + srcinc, p.2 + dstinc)

/-- The addresses of `n` words copied in one go. -/
def copyWords (srcinc dstinc : BitVec 32) (p : BitVec 32 × BitVec 32) (n : ℕ) :
    List (BitVec 32 × BitVec 32) := List.iterate (advance srcinc dstinc) p n

/-- What is left in the channel after its words are copied up to the addresses `p`. -/
def DmaController.writeBack (c : DmaController) (p : BitVec 32 × BitVec 32) (todo : BitVec 32) :
    DmaController :=
  { c with
    saddr := p.1
    daddr := if c.dar = .incrementReload then c.daddr else p.2
    wordcount :=
      if c.repeatMode then c.wordcount
      else if c.startmode = .card then 0
      else c.wordcount - todo }

/-- `doCopy`. Its counter is signed. -/
def doCopy (env : DmaEnv) (s : DmaState) : DmaState :=
  let todo := s.dma.copyCount env
  let c := if s.dma.startmode = .memDisplay ∧ env.vCount = 191 then { s.dma with enable := false }
    else s.dma
  match c.srcInc with
  | none => { s with dma := c }
  | some srcinc =>
    let n := todo.toInt.toNat
    let p := (advance srcinc c.dstInc)^[n] (c.saddr, c.daddr)
    { s with
      dma := c.doSchedule.writeBack p todo
      transfers := s.transfers ++ copyWords srcinc c.dstInc (c.saddr, c.daddr) n }

def irqBitDma0 : ℕ := 8

def doStop (s : DmaState) : DmaState :=
  { s with
    dma := { s.dma with running := false, enable := s.dma.repeatMode && s.dma.enable }
    irqs := if s.dma.irq then s.irqs ++ [(s.dma.procnum, irqBitDma0 + s.dma.chan)] else s.irqs }

/-- The second half of `exec`: an enabled channel copies when it is triggered. -/
def execEnabled (env : DmaEnv) (s : DmaState) : DmaState :=
  if s.dma.enable then
    let mode := s.dma.latchStartmode
    let triggered := match mode with
      | .immediate => true
      | .gxFifo => s.dma.triggered || env.gxFifoSize ≤ 127
      | _ => s.dma.triggered
    let c := { s.dma with startmode := mode, triggered := triggered }
    if triggered then doCopy env { s with dma := { c with running := true, paused := false } }
    else { s with dma := c }
  else s

/-- `DmaController::exec`. -/
def exec (env : DmaEnv) (s : DmaState) : DmaState :=
  let s := { s with dma := s.dma.clearCheck }
  if s.dma.running then
    if s.dma.startmode = .gxFifo ∧ s.dma.wordcount > 0 then
      execEnabled env { s with dma := s.dma.doPause }
    else doStop s
  else execEnabled env s

/-- What happens to a channel between two writes of its control register. -/
inductive DmaEvent where
  | exec (env : DmaEnv)
  | trigger (mode : EDMAMode)

def dmaStep (s : DmaState) : DmaEvent → DmaState
  | .exec env => exec env s
  | .trigger mode => { s with dma := s.dma.tryTrigger mode }

end Desmume.Dma
