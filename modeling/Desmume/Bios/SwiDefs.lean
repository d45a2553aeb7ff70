import Desmume.Library.SeenRun
import Desmume.MathUnit.DivSqrtCoherence
import Mathlib.Data.Nat.Sqrt

/-! The BIOS calls that the emulator carries out itself, on the two processors over one hardware. -/

namespace Desmume.Bios
open Library

/-- What the calls touch of `armcpu_t`. -/
structure Armcpu where
  R : Fin 16 → BitVec 32
  instructAdr : BitVec 32
  nextInstruction : BitVec 32
  waitIRQ : Bool
  haltIEandIF : Bool
  intrWaitARMState : BitVec 8

/-- The two processors, and the memory with the rest of the hardware. -/
structure Nds (μ : Type) where
  cpu : Proc → Armcpu
  hw : μ

/-- The memory accesses of a processor, which may depend on the processor itself (the ARM7 sees its
BIOS only from within it) and change it (it may put itself to sleep), and what the calls ask of the
other hardware. -/
structure Bus (μ : Type) where
  read08 : Proc → BitVec 32 → Armcpu × μ → BitVec 8 × Armcpu × μ
  read16 : Proc → BitVec 32 → Armcpu × μ → BitVec 16 × Armcpu × μ
  read32 : Proc → BitVec 32 → Armcpu × μ → BitVec 32 × Armcpu × μ
  write08 : Proc → BitVec 32 → BitVec 8 → Armcpu × μ → Armcpu × μ
  write16 : Proc → BitVec 32 → BitVec 16 → Armcpu × μ → Armcpu × μ
  write32 : Proc → BitVec 32 → BitVec 32 → Armcpu × μ → Armcpu × μ
  cp15Ctrl : μ → BitVec 32
  dtcmRegion : μ → BitVec 32
  isDebugConsole : μ → Bool

variable {μ α : Type}

/-- A call: it fails where C leaves its result undefined, or where a loop has not ended in time. -/
abbrev Call (μ α : Type) := StateT (Nds μ) Option α

/-- Work on one processor and the hardware. -/
def access (p : Proc) (f : Armcpu × μ → α × Armcpu × μ) : Call μ α := fun s =>
  some ((f (s.cpu p, s.hw)).1,
    { cpu := Function.update s.cpu p (f (s.cpu p, s.hw)).2.1, hw := (f (s.cpu p, s.hw)).2.2 })

def getCpu (p : Proc) : Call μ Armcpu := access p fun x => (x.1, x)
def setCpu (p : Proc) (c : Armcpu) : Call μ Unit := access p fun x => ((), c, x.2)

def getR (p : Proc) (i : Fin 16) : Call μ (BitVec 32) := access p fun x => (x.1.R i, x)

def setR (p : Proc) (i : Fin 16) (val : BitVec 32) : Call μ Unit :=
  access p fun x => ((), { x.1 with R := Function.update x.1.R i val }, x.2)

/-- A look at the hardware, on behalf of a processor. -/
def getHw (p : Proc) (f : μ → α) : Call μ α := access p fun x => (f x.2, x)

def fromOption : Option α → Call μ α
  | none => failure
  | some a => pure a

variable (bus : Bus μ) (p : Proc)

def mmuRead08 (addr : BitVec 32) : Call μ (BitVec 8) := access p (bus.read08 p addr)
def mmuRead16 (addr : BitVec 32) : Call μ (BitVec 16) := access p (bus.read16 p addr)
def mmuRead32 (addr : BitVec 32) : Call μ (BitVec 32) := access p (bus.read32 p addr)

def mmuWrite08 (addr : BitVec 32) (val : BitVec 8) : Call μ Unit :=
  access p fun x => ((), bus.write08 p addr val x)
def mmuWrite16 (addr : BitVec 32) (val : BitVec 16) : Call μ Unit :=
  access p fun x => ((), bus.write16 p addr val x)
def mmuWrite32 (addr : BitVec 32) (val : BitVec 32) : Call μ Unit :=
  access p fun x => ((), bus.write32 p addr val x)

/-! ### Short calls -/

/-- `bios_nop_ARM9` and `bios_nop_ARM7`. -/
def biosNop : Call μ (BitVec 32) := pure 3

def softReset : Call μ (BitVec 32) := pure 1

def waitByLoop : Call μ (BitVec 32) := do
  let ctrl ← getHw p bus.cp15Ctrl
  let count ← getR p 0
  setR p 0 0
  return match p with
    | .arm9 => if ctrl &&& (1#32 <<< 16 ||| 1#32 <<< 18) ≠ 0 then count * 2 else count * 8
    | .arm7 => count * 4

/-- `wait4IRQ_ARM9` and `wait4IRQ_ARM7`. -/
def wait4IRQ : Call μ (BitVec 32) := do
  let c ← getCpu p
  setCpu p { c with waitIRQ := true, haltIEandIF := true }
  return 1

/-- The end of `intrWaitARM`, where the flags `intrFlag` of `intr` decide: either they are cleared and
the call is over, or the processor halts and comes back to the call. -/
def intrWaitEnd (intrFlagAdr intr intrFlag : BitVec 32) : Call μ (BitVec 32) := do
  let c ← getCpu p
  setCpu p { c with intrWaitARMState := 1 }
  if intrFlag ≠ 0 then
    mmuWrite32 bus p intrFlagAdr (intr ^^^ intrFlag)
    let c ← getCpu p
    setCpu p { c with intrWaitARMState := 0 }
    return 1
  else
    let c ← getCpu p
    setCpu p
      { c with
        waitIRQ := true
        haltIEandIF := true
        R := Function.update c.R 15 c.instructAdr
        nextInstruction := c.instructAdr }
    return 1

def intrWaitARM : Call μ (BitVec 32) := do
  let dtcmRegion ← getHw p bus.dtcmRegion
  let intrFlagAdr : BitVec 32 :=
    if p = .arm7 then 0x380FFF8 else (dtcmRegion &&& 0xFFFFF000) + 0x3FF8
  mmuWrite32 bus p 0x04000208 1
  let intr ← mmuRead32 bus p intrFlagAdr
  let c ← getCpu p
  let intrFlag := c.R 1 &&& intr
  -- on the first round the flags that are waited for may be thrown away
  if c.intrWaitARMState = 0 ∧ c.R 0 = 1 then
    mmuWrite32 bus p intrFlagAdr (intr ^^^ intrFlag)
    intrWaitEnd bus p intrFlagAdr (intr ^^^ intrFlag) 0
  else intrWaitEnd bus p intrFlagAdr intr intrFlag

def waitVBlankARM : Call μ (BitVec 32) := do
  setR p 0 1
  setR p 1 1
  intrWaitARM bus p

def sleep : Call μ (BitVec 32) := do
  mmuWrite08 bus p 0x04000301 0xC0
  return 1

def customHalt : Call μ (BitVec 32) := do
  let val ← getR p 2
  mmuWrite08 bus p 0x04000301 (val.setWidth 8)
  return 1

def customPost : Call μ (BitVec 32) := do
  let val ← getR p 0
  mmuWrite08 bus p 0x04000300 (val.setWidth 8)
  return 1

/-- `divide_ARM9` and `divide_ARM7`. -/
def divide : Call μ (BitVec 32) := do
  let num ← getR p 0
  let dnum ← getR p 1
  if dnum = 0 then return 0
  else
    let res ← fromOption (hostDiv num dnum)
    setR p 0 res.1
    setR p 1 res.2
    setR p 3 res.1.abs
    return 6

/-- The square root of a word in double precision, cut to a word. -/
def sqrtWord (x : BitVec 32) : BitVec 32 := BitVec.ofNat 32 x.toNat.sqrt

def biosSqrtArm9 : Call μ (BitVec 32) := do
  let x ← getR .arm9 0
  setR .arm9 0 (sqrtWord x)
  return 1

/-- `bios_sqrt_ARM7`, which reads the register of the ARM9. -/
def biosSqrtArm7 : Call μ (BitVec 32) := do
  let x ← getR .arm9 0
  setR .arm7 0 (sqrtWord x)
  return 1

/-- `isDebugger_ARM9` and `isDebugger_ARM7`. -/
def isDebugger : Call μ (BitVec 32) := do
  let debug ← getHw p bus.isDebugConsole
  setR p 0 (if debug then 1 else 0)
  return 1

/-- The lookup of `getSineTab`, `getPitchTab` and `getVolumeTab`. -/
def getTab {w : ℕ} (tab : List (BitVec w)) : Call μ (BitVec 32) := do
  let i ← getR .arm7 0
  match tab[i.toNat]? with
  | none => return 1
  | some x =>
    setR .arm7 0 (x.setWidth 32)
    return 1

def soundBias : Call μ (BitVec 32) := do
  let curBias ← mmuRead32 bus .arm7 0x04000504
  let newBias : BitVec 32 := if curBias = 0 then 0x000 else 0x200
  let delay := if curBias < newBias then newBias - curBias else curBias - newBias
  mmuWrite32 bus .arm7 0x04000504 newBias
  let count ← getR .arm7 1
  return count * delay

def getBootProcs : Call μ (BitVec 32) := do
  setR .arm7 0 0x00000A2E
  setR .arm7 1 0x00002C3C
  setR .arm7 3 0x000005FF
  return 1

/-! ### The division as the divider's module has it -/

/-- The call divides as the host does for it. -/
theorem divide_run (p : Proc) (s : Nds μ) :
    divide p s = (MathUnit.divideBy p fun q => (s.cpu q).R).map fun r =>
      (BitVec.ofNat 32 r.2, { s with cpu := fun q => { s.cpu q with R := r.1 q } }) := by
  have hread : ∀ i, (getR p i : Call μ (BitVec 32)) s = some ((s.cpu p).R i, s) := by
    intro i
    rw [getR, access, Function.update_eq_self]
  have hrun : divide p s = (if (s.cpu p).R 1 = 0 then pure 0 else (do
      let res ← fromOption (hostDiv ((s.cpu p).R 0) ((s.cpu p).R 1))
      setR p 0 res.1
      setR p 1 res.2
      setR p 3 res.1.abs
      return 6 : Call μ (BitVec 32))) s := by
    rw [divide, bind_apply, hread, Option.bind_some, bind_apply, hread, Option.bind_some]
  rw [hrun, MathUnit.divideBy]
  by_cases hzero : (s.cpu p).R 1 = 0
  · rw [if_pos hzero, if_pos hzero]
    rfl
  · rw [if_neg hzero, if_neg hzero]
    cases hostDiv ((s.cpu p).R 0) ((s.cpu p).R 1) with
    | none => rfl
    | some res =>
      refine congrArg some (Prod.ext rfl ?_)
      refine congrArg (Nds.mk · s.hw) ?_
      funext q
      rcases Proc.eq_or_eq_remote p q with rfl | rfl
      · simp
      · simp
end Desmume.Bios
