import Desmume.Dma.DmaDefs
import Desmume.Library.FlatMemory
import Desmume.Memory.MmuDefs

/-! The start of a scanline: the line counter, its wrap, the flags of the display status registers
and what the line signals. -/

namespace Desmume.Timing
open Library Dma Memory

def irqBitLcdVblank : BitVec 32 := 0x1
def irqBitLcdVmatch : BitVec 32 := 0x4

/-- The register pages of the processors at 0x04000000 and their pending interrupts. -/
structure LineRegs where
  reg : Proc → ℕ → BitVec 8
  regIfPending : Proc → BitVec 32

inductive LineSignal where
  | gfx3dVBlank | gfx3dVBlankEnd | dma (mode : EDMAMode)
  deriving DecidableEq

structure LineState where
  vcount : BitVec 32
  vblankEnded : Bool
  regs : LineRegs
  signals : List LineSignal

/-- `rigorousTiming` is the setting, `device` what the registers become under every other write. -/
structure LineEnv where
  rigorousTiming : Bool
  device : Proc → Width → BitVec 32 → BitVec 32 → LineRegs → LineRegs

namespace LineRegs

variable (r : LineRegs)

/-- DISPSTAT. -/
def dispstat (p : Proc) : BitVec 16 := readWord 2 (r.reg p) 4

def setDispstat (f : BitVec 16 → BitVec 16) : LineRegs :=
  { r with reg := fun p => writeWord 2 (r.reg p) 4 (f (r.dispstat p)) }

def pend (irq : BitVec 32) (due : Proc → Prop) [DecidablePred due] : LineRegs :=
  { r with regIfPending := fun p =>
      if due p then r.regIfPending p ||| irq else r.regIfPending p }

/-- The vblank flag is turned on and its interrupts are prepared. -/
def beginVblank : LineRegs :=
  let r := r.setDispstat (· ||| 1#16)
  r.pend irqBitLcdVblank fun p => r.dispstat p &&& 0x8#16 ≠ 0

def endVblank : LineRegs := r.setDispstat (· &&& 0xFFFE#16)

def endHblank : LineRegs := r.setDispstat (· &&& 0xFFFD#16)

def writeVcount (vcount : BitVec 32) : LineRegs :=
  let line := vcount.setWidth 16
  { r with reg := fun p => writeWord 2 (writeWord 2 (r.reg p) 6 line) 0x1006 line }

/-- `execHardware_gen_vmatch_goal`, of either processor. -/
def vmatchGoal (p : Proc) : BitVec 16 :=
  (r.dispstat p >>> 8) ||| ((r.dispstat p <<< 1) &&& 0x100#16)

/-- `execHardware_hstart_vcount`. -/
def matchVcount (vcount : BitVec 32) : LineRegs :=
  let r' := { r with reg := fun p => writeWord 2 (r.reg p) 4 <|
      if vcount = (r.vmatchGoal p).setWidth 32 then r.dispstat p ||| 4#16
      else r.dispstat p &&& 0xFFFB#16 }
  r'.pend irqBitLcdVmatch fun p =>
    vcount = (r.vmatchGoal p).setWidth 32 ∧ r'.dispstat p &&& 32#16 ≠ 0

end LineRegs

namespace LineState

variable (s : LineState)

def onRegs (f : LineRegs → LineRegs) : LineState := { s with regs := f s.regs }

def signal (x : LineSignal) : LineState := { s with signals := s.signals ++ [x] }

/-- `execHardware_hstart_vblankEnd`. -/
def hstartVblankEnd : LineState := { s.onRegs LineRegs.endVblank with vblankEnded := true }

/-- The cases of `execHardware_hstart` on the new line. -/
def enterLine (rigorousTiming : Bool) : LineState :=
  if s.vcount = 214 then if rigorousTiming then s.signal .gfx3dVBlankEnd else s
  else if s.vcount = 263 then { s with vcount := 0 }
  else if s.vcount = 262 then
    (if rigorousTiming then s else s.signal .gfx3dVBlankEnd).hstartVblankEnd
  else if s.vcount = 192 then (s.onRegs LineRegs.beginVblank).signal .gfx3dVBlank
  else s

/-- What `execHardware_hstart` does on every line. -/
def announceLine : LineState :=
  let s := s.onRegs (·.writeVcount s.vcount)
  let s := s.onRegs LineRegs.endHblank
  let s := s.onRegs (·.matchVcount s.vcount)
  let s := s.signal (.dma .hStart)
  if s.vcount < 192 then s.signal (.dma .memDisplay) else s

end LineState

/-- `execHardware_hstart`. -/
def execHardwareHstart (rigorousTiming : Bool) (s : LineState) : LineState :=
  ({ s with vcount := s.vcount + 1 }.enterLine rigorousTiming).announceLine

def regDispaVcount : BitVec 32 := 0x04000006

/-- A write of a processor, with the arm of `_MMU_ARM7_write16` for VCOUNT. -/
def writeReg (env : LineEnv) (proc : Proc) (width : Width) (adr val : BitVec 32) (s : LineState) :
    LineState :=
  if proc = .arm7 ∧ width = .w16 ∧ adr &&& 0x0FFFFFFE#32 = regDispaVcount then
    if 202 ≤ s.vcount.toNat ∧ s.vcount.toNat ≤ 212 then
      -- the value itself is not tested
      { s with vcount := (val.setWidth 16).setWidth 32 }
    else s
  else s.onRegs (env.device proc width adr val)

/-- The events of the frame loop: `ndsExec` is the entry of `NDS_exec`. -/
inductive LineOp where
  | ndsExec
  | hstart
  | write (proc : Proc) (width : Width) (adr val : BitVec 32)

def lineStep (env : LineEnv) (s : LineState) : LineOp → LineState
  | .ndsExec => { s with vblankEnded := false }
  | .hstart => execHardwareHstart env.rigorousTiming s
  | .write proc width adr val => writeReg env proc width adr val s

/-- `initSchedule`, over cleared registers. -/
def initSchedule : LineState := ⟨262, false, ⟨fun _ _ => 0, fun _ => 0⟩, []⟩

/-- The value that an operation assigns to the line counter, if it is a write to VCOUNT in the
window of lines that admits one. -/
def admitted (s : LineState) : LineOp → Option ℕ
  | .write proc width adr val =>
    if proc = .arm7 ∧ width = .w16 ∧ adr &&& 0x0FFFFFFE#32 = regDispaVcount then
      if 202 ≤ s.vcount.toNat ∧ s.vcount.toNat ≤ 212 then some (val.setWidth 16).toNat else none
    else none
  | _ => none

/-! What a step does to the line counter. -/

@[simp] theorem LineState.onRegs_vcount (s : LineState) (f : LineRegs → LineRegs) :
    (s.onRegs f).vcount = s.vcount := rfl

@[simp] theorem LineState.onRegs_vblankEnded (s : LineState) (f : LineRegs → LineRegs) :
    (s.onRegs f).vblankEnded = s.vblankEnded := rfl

@[simp] theorem LineState.signal_vcount (s : LineState) (x : LineSignal) :
    (s.signal x).vcount = s.vcount := rfl

@[simp] theorem LineState.signal_vblankEnded (s : LineState) (x : LineSignal) :
    (s.signal x).vblankEnded = s.vblankEnded := rfl

theorem LineState.announceLine_vcount (s : LineState) : s.announceLine.vcount = s.vcount := by
  rw [LineState.announceLine]
  split_ifs <;> simp only [LineState.signal_vcount, LineState.onRegs_vcount]

theorem LineState.announceLine_vblankEnded (s : LineState) :
    s.announceLine.vblankEnded = s.vblankEnded := by
  rw [LineState.announceLine]
  split_ifs <;> simp only [LineState.signal_vblankEnded, LineState.onRegs_vblankEnded]

theorem LineState.enterLine_vcount (s : LineState) (rigorousTiming : Bool) :
    (s.enterLine rigorousTiming).vcount = if s.vcount = 263 then 0 else s.vcount := by
  rw [LineState.enterLine]
  by_cases h214 : s.vcount = 214
  · have h263 : s.vcount ≠ 263 := by
      rw [h214]
      decide
    rw [if_pos h214, if_neg h263]
    split_ifs <;> rfl
  · rw [if_neg h214]
    by_cases h263 : s.vcount = 263
    · rw [if_pos h263, if_pos h263]
    · rw [if_neg h263, if_neg h263]
      split_ifs <;> rfl

theorem execHardwareHstart_vcount (rigorousTiming : Bool) (s : LineState) :
    (execHardwareHstart rigorousTiming s).vcount =
      if s.vcount + 1 = 263 then 0 else s.vcount + 1 := by
  rw [execHardwareHstart, LineState.announceLine_vcount, LineState.enterLine_vcount]

theorem execHardwareHstart_line (rigorousTiming : Bool) {s : LineState}
    (h : s.vcount.toNat ≤ 262) : (execHardwareHstart rigorousTiming s).vcount.toNat =
      if s.vcount.toNat = 262 then 0 else s.vcount.toNat + 1 := by
  have hnext : (s.vcount + 1).toNat = s.vcount.toNat + 1 := by
    rw [BitVec.toNat_add]
    exact Nat.mod_eq_of_lt (by change s.vcount.toNat + 1 < 2 ^ 32; omega)
  have hwrap : s.vcount + 1 = 263 ↔ s.vcount.toNat = 262 := by
    rw [BitVec.toNat_eq, hnext]
    change s.vcount.toNat + 1 = 263 ↔ _
    omega
  rw [execHardwareHstart_vcount]
  by_cases hlast : s.vcount.toNat = 262
  · rw [if_pos (hwrap.mpr hlast), if_pos hlast]
    rfl
  · rw [if_neg (fun h => hlast (hwrap.mp h)), if_neg hlast, hnext]

theorem execHardwareHstart_vblankEnded (rigorousTiming : Bool) {s : LineState}
    (h : s.vcount.toNat = 261) : (execHardwareHstart rigorousTiming s).vblankEnded = true := by
  have hnext : s.vcount + 1 = 262 := by
    apply BitVec.eq_of_toNat_eq
    rw [BitVec.toNat_add, h]
    rfl
  rw [execHardwareHstart, LineState.announceLine_vblankEnded, hnext]
  rfl

theorem lineStep_admitted {env : LineEnv} {s : LineState} {op : LineOp} {v : ℕ}
    (h : admitted s op = some v) : (lineStep env s op).vcount.toNat = v := by
  cases op with
  | ndsExec => exact absurd h (by exact nofun)
  | hstart => exact absurd h (by exact nofun)
  | write proc width adr val =>
    rw [admitted] at h
    split_ifs at h with hvcount hwindow
    rw [lineStep, writeReg, if_pos hvcount, if_pos hwindow, ← Option.some.inj h]
    exact BitVec.toNat_setWidth_of_le (by omega)

theorem admitted_window {s : LineState} {op : LineOp} {v : ℕ} (h : admitted s op = some v) :
    202 ≤ s.vcount.toNat ∧ s.vcount.toNat ≤ 212 := by
  cases op with
  | ndsExec => exact absurd h (by exact nofun)
  | hstart => exact absurd h (by exact nofun)
  | write proc width adr val =>
    rw [admitted] at h
    split_ifs at h with hvcount hwindow
    exact hwindow

theorem lineStep_kept {env : LineEnv} {s : LineState} {op : LineOp} (h : admitted s op = none)
    (hop : op ≠ .hstart) : (lineStep env s op).vcount = s.vcount := by
  cases op with
  | ndsExec => rfl
  | hstart => exact absurd rfl hop
  | write proc width adr val =>
    rw [admitted] at h
    rw [lineStep, writeReg]
    split_ifs at h ⊢ <;> rfl

end Desmume.Timing
