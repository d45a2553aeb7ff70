import Desmume.Library.FlatMemory
import Desmume.Library.PartialRun
import Desmume.Library.SignedWord
import Desmume.Machine.Types

/-! The timers of the two processors: their registers, the reads that compute a running counter
from the time of its next overflow, and the event that is due then. -/

namespace Desmume.Timers
open Library

/-- The value of `timerMODE` of a timer that counts the overflows of the one before it. -/
def countUpMode : ℕ := 0xFFFF

/-- The fields of a timer in `MMU` and `nds`. `counted` is not in the source: it is the number of
times the counter was counted up by the timer before it. -/
structure Timer where
  timer : BitVec 16
  timerMode : ℕ
  timerOn : Bool
  timerReload : BitVec 16
  timerCycle : ℕ
  counted : ℕ

/-- `regs` are the register pages at 0x04000000, `irqs` the interrupts made so far. -/
structure TimerState where
  ndsTimer : ℕ
  timers : Proc → ℕ → Timer
  regs : Proc → ℕ → BitVec 8
  irqs : List (Proc × ℕ)

namespace Timer

variable (t : Timer)

/-- The timer counts the cycles of the clock. -/
def Runs : Prop := t.timerOn = true ∧ t.timerMode ≠ countUpMode

/-- The timer counts the overflows of the one before it. -/
def CountsUp : Prop := t.timerOn = true ∧ t.timerMode = countUpMode

instance : Decidable t.Runs := inferInstanceAs (Decidable (_ ∧ _))
instance : Decidable t.CountsUp := inferInstanceAs (Decidable (_ ∧ _))

/-- The cycles from one overflow to the next. -/
def period : ℕ := (65536 - t.timerReload.toNat) <<< t.timerMode

/-- `read_timer`; no result when its assertion fails. -/
def readTimer (ndsTimer : ℕ) : Option (BitVec 16) :=
  if t.timerMode = countUpMode then some t.timer
  else if ¬ t.timerOn then some t.timer
  else
    let diff := s32 ((t.timerCycle : ℤ) - ndsTimer)
    if diff < 0 then none
    else
      let units := diff.tdiv (1 <<< t.timerMode : ℕ)
      if units = 65536 then some 0
      else if 65536 < units then some 0
      else some (BitVec.ofInt 16 (65535 - units))

/-- The shift of a prescaler selection, one more than on the hardware's clock. -/
def prescale (val : BitVec 16) : ℕ :=
  match (val &&& 7).toNat with
  | 0 => 0 + 1
  | 1 => 6 + 1
  | 2 => 8 + 1
  | 3 => 10 + 1
  | _ => countUpMode

/-- The value that a control write leaves: the reload value, or what a last read gives. -/
def lastValue (ndsTimer : ℕ) (val : BitVec 16) : Option (BitVec 16) :=
  if val.getLsbD 7 then some t.timerReload
  else if t.timerOn then t.readTimer ndsTimer
  else some t.timer

/-- `write_timer`. A shift by the mode of a counting timer is undefined, its result is `undef`. -/
def writeTimer (ndsTimer : ℕ) (val : BitVec 16) (undef : ℕ) : Option Timer :=
  (t.lastValue ndsTimer val).map fun value =>
    { t with
      timer := value
      timerOn := val.getLsbD 7
      timerMode := prescale val
      timerCycle := ndsTimer +
        if prescale val = countUpMode then undef
        else (65536 - t.timerReload.toNat) <<< prescale val }

/-- The counter goes up by one; the second value tells whether it overflowed. -/
def countUp : Timer × Bool :=
  ({ t with timer := t.timer + 1, counted := t.counted + 1 }, t.timer + 1 = 0)

def reload : Timer := { t with timer := t.timerReload }

theorem period_pos : 0 < t.period := by
  have := t.timerReload.isLt
  rw [period, Nat.shiftLeft_eq]
  exact Nat.mul_pos (by omega) (Nat.two_pow_pos _)

end Timer

/-- The loop that moves the next overflow behind the clock. -/
def catchUp (period : ℕ) (hperiod : 0 < period) (ndsTimer cycle : ℕ) : ℕ :=
  if cycle ≤ ndsTimer then catchUp period hperiod ndsTimer (cycle + period) else cycle
  termination_by ndsTimer + 1 - cycle

namespace TimerState

variable (s : TimerState) (proc : Proc)

def setTimer (i : ℕ) (t : Timer) : TimerState :=
  { s with timers := Function.update s.timers proc (Function.update (s.timers proc) i t) }

def readTimer (i : ℕ) : Option (BitVec 16) := (s.timers proc i).readTimer s.ndsTimer

/-- `T1WriteWord` on the register page. -/
def writePage (off : ℕ) (val : BitVec 16) : TimerState :=
  { s with regs := Function.update s.regs proc (writeWord 2 (s.regs proc) off val) }

/-- `write_timer`. -/
def writeTimer (i : ℕ) (val : BitVec 16) (undef : ℕ) : Option TimerState :=
  ((s.timers proc i).writeTimer s.ndsTimer val undef).map fun t =>
    (s.setTimer proc i t).writePage proc (0x102 + i * 4) val

def setReload (i : ℕ) (val : BitVec 16) : TimerState :=
  s.setTimer proc i { s.timers proc i with timerReload := val }

def irqBitTimer0 : ℕ := 3

/-- Bit 6 of the control register. -/
def irqEnabled (i : ℕ) : Bool :=
  ((readWord 2 (s.regs proc) (0x102 + i * 4) : BitVec 16) &&& 0x40) ≠ 0

/-- The reload of a counter that overflowed, with the interrupt it may raise. -/
def overflow (i : ℕ) : TimerState :=
  let s' := s.setTimer proc i (s.timers proc i).reload
  if s.irqEnabled proc i then { s' with irqs := s'.irqs ++ [(proc, irqBitTimer0 + i)] } else s'

/-- The next overflow of a timer moved behind the clock. -/
def caughtUp (i : ℕ) : TimerState :=
  let t := s.timers proc i
  s.setTimer proc i { t with timerCycle := catchUp t.period t.period_pos s.ndsTimer t.timerCycle }

def countedUp (i : ℕ) : TimerState := s.setTimer proc i (s.timers proc i).countUp.1

/-- The loop of `TSequenceItem_Timer::exec` from a timer on. -/
def execLoop (first : Bool) (i : ℕ) (s : TimerState) : TimerState :=
  if i < 4 then
    if ¬ (s.timers proc i).timerOn then s
    else if (s.timers proc i).timerMode = countUpMode then
      if (s.timers proc i).countUp.2 then
        execLoop first (i + 1) ((s.countedUp proc i).overflow proc i)
      else s.countedUp proc i
    else if ¬ first then s
    else execLoop false (i + 1) ((s.caughtUp proc i).overflow proc i)
  else s
  termination_by 4 - i

/-- `TSequenceItem_Timer::isTriggered`, with `enabled` as `schedule` sets it. -/
def Triggered (num : ℕ) : Prop :=
  (s.timers proc num).Runs ∧ (s.timers proc num).timerCycle ≤ s.ndsTimer

instance (num : ℕ) : Decidable (s.Triggered proc num) := inferInstanceAs (Decidable (_ ∧ _))

/-- `TSequenceItem_Timer::exec`. -/
def exec (num : ℕ) : TimerState := s.execLoop proc true num

/-! The arms of the memory functions for the registers of the timers, by the offset in the page. -/

/-- The timer whose counter register is at an offset, if any. -/
def counterAt (off : ℕ) : Option ℕ :=
  match off with
  | 0x100 => some 0
  | 0x104 => some 1
  | 0x108 => some 2
  | 0x10C => some 3
  | _ => none

def read16 (off : ℕ) : Option (BitVec 16) :=
  match counterAt off with
  | some i => s.readTimer proc i
  | none => some (readWord 2 (s.regs proc) off)

def read32 (off : ℕ) : BitVec 32 :=
  match counterAt off with
  | some i =>
    let val : BitVec 32 := BitVec.setWidth 32 (readWord 2 (s.regs proc) (off + 2) : BitVec 16)
    (s.timers proc i).timer.setWidth 32 ||| val <<< 16
  | none => readWord 4 (s.regs proc) off

/-- `_MMU_ARM9_read16`. -/
def mmuArm9Read16 (off : ℕ) : Option (BitVec 16) := s.read16 .arm9 off

/-- `_MMU_ARM7_read16`. -/
def mmuArm7Read16 (off : ℕ) : Option (BitVec 16) := s.read16 .arm7 off

/-- `_MMU_ARM9_read32`. -/
def mmuArm9Read32 (off : ℕ) : BitVec 32 := s.read32 .arm9 off

/-- `_MMU_ARM7_read32`. -/
def mmuArm7Read32 (off : ℕ) : BitVec 32 := s.read32 .arm7 off

end TimerState

/-- What happens to the timers. A 32-bit write sets the reload value and the control register. -/
inductive TimerOp where
  | advance (cycles : ℕ)
  | writeReload (proc : Proc) (i : Fin 4) (val : BitVec 16)
  | writeControl (proc : Proc) (i : Fin 4) (val : BitVec 16) (undef : ℕ)
  | write32 (proc : Proc) (i : Fin 4) (val : BitVec 32) (undef : ℕ)
  | writeByte (proc : Proc) (off : ℕ) (val : BitVec 8)
  | sequence (proc : Proc) (num : Fin 4)

def timerStep (s : TimerState) : TimerOp → Option TimerState
  | .advance cycles => some { s with ndsTimer := s.ndsTimer + cycles }
  | .writeReload proc i val => some (s.setReload proc i val)
  | .writeControl proc i val undef => s.writeTimer proc i val undef
  | .write32 proc i val undef =>
    ((s.setReload proc i (val.setWidth 16)).writePage proc (0x100 + i * 4)
      (val.setWidth 16)).writeTimer proc i (val.extractLsb' 16 16) undef
  | .writeByte proc off val =>
    some { s with regs := Function.update s.regs proc (Function.update (s.regs proc) off val) }
  | .sequence proc num => some (if s.Triggered proc num then s.exec proc num else s)

/-- `MMU_Reset`, at the reset of the clock. -/
def timerReset : TimerState :=
  ⟨0, fun _ _ => ⟨0, 0, false, 0, 0, 0⟩, fun _ _ => 0, []⟩

end Desmume.Timers
