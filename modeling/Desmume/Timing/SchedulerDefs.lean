import Desmume.Library.Loop
import Desmume.Machine.Types
import Mathlib.Data.Int.Order.Basic
import Mathlib.Data.List.FinRange

/-! The main loop of the console: the clocks of the two processors, the global clock, and the
instances of the inner loop with both processors and with the ARM7 dropped. Clocks are integers:
their differences are taken to be in range. -/

namespace Desmume.Timing

def kMaxWork : ℤ := 4000

def kIrqWait : ℤ := 4000

/-- What the scheduler reads of the processors and the hardware. -/
structure Flags where
  waitIRQ : Proc → Bool
  freezeBus : BitVec 32
  gxFifoSize : ℕ
  reschedule : Bool
  execute : Bool

/-- What a call of `armcpu_exec` returns and leaves. -/
structure Slice where
  cycles : ℕ
  cycles_pos : 0 < cycles
  flags : Flags

/-- The time of an event, and whether it is due at all. -/
structure Event where
  enabled : Bool
  next : ℤ

/-- The events of `Sequencer`; the display is always enabled. -/
structure Sequencer where
  dispcnt : ℤ
  divider : Event
  sqrtunit : Event
  gxfifo : Event
  dma : Proc → Fin 4 → Event
  timer : Proc → Fin 4 → Event

def Sequencer.events (q : Sequencer) : List Event :=
  [q.divider, q.sqrtunit, q.gxfifo] ++
    [Proc.arm9, .arm7].flatMap (fun p => (List.finRange 4).map (q.dma p)) ++
    [Proc.arm9, .arm7].flatMap (fun p => (List.finRange 4).map (q.timer p))

/-- `Sequencer::findNext`. -/
def Sequencer.findNext (q : Sequencer) : ℤ :=
  q.events.foldl (fun next e => if e.enabled then min next e.next else next) q.dispcnt

/-- The variables of `armInnerLoop`, with `nds_timer` and the number of slices executed. The
template argument `doarm7` is part of the state: its recursive call goes on without the ARM7. -/
structure Work where
  doarm7 : Bool
  arm9 : ℤ
  arm7 : ℤ
  ndsTimer : ℤ
  flags : Flags
  slices : ℕ

namespace Work

variable (w : Work)

/-- `minarmtime`. -/
def minarmtime : ℤ := if w.doarm7 then min w.arm9 w.arm7 else w.arm9

/-- The processor neither waits for an interrupt nor for the bus. -/
def Runs (p : Proc) : Prop := w.flags.waitIRQ p = false ∧ w.flags.freezeBus = 0

instance (p : Proc) : Decidable (w.Runs p) := inferInstanceAs (Decidable (_ ∧ _))

/-- The condition of the loop. -/
def Busy (s32next : ℤ) : Prop :=
  w.minarmtime < s32next ∧ w.flags.reschedule = false ∧ w.flags.execute = true

instance (s32next : ℤ) : DecidablePred (Busy · s32next) := fun _ =>
  inferInstanceAs (Decidable (_ ∧ _))

end Work

section Loop

variable (exec : ℕ → Slice) (base s32next : ℤ)

/-- The ARM9's part of a round that started at `timer`. -/
def arm9Turn (timer : ℤ) (w : Work) : Work :=
  if !w.doarm7 || w.arm9 ≤ timer then
    if w.Runs .arm9 then
      { w with
        arm9 := w.arm9 + (exec w.slices).cycles
        flags := (exec w.slices).flags
        slices := w.slices + 1 }
    else
      { w with
        arm9 := min s32next (w.arm9 + kIrqWait)
        flags := { w.flags with
          freezeBus :=
            if w.flags.gxFifoSize < 255 then w.flags.freezeBus &&& ~~~1 else w.flags.freezeBus } }
  else w

/-- The ARM7's part: a halted ARM7 that gets to the next event is dropped. -/
def arm7Turn (timer : ℤ) (w : Work) : Work :=
  if w.doarm7 && w.arm7 ≤ timer then
    if w.Runs .arm7 then
      { w with
        arm7 := w.arm7 + 2 * (exec w.slices).cycles
        flags := (exec w.slices).flags
        slices := w.slices + 1 }
    else
      let arm7 := min s32next (w.arm7 + kIrqWait)
      { w with arm7 := arm7, doarm7 := arm7 ≠ s32next }
  else w

/-- A round. The clock is set from the processors left, on the way into the recursive call too. -/
def round (w : Work) : Work :=
  let w := arm7Turn exec s32next w.minarmtime (arm9Turn exec s32next w.minarmtime w)
  { w with ndsTimer := base + w.minarmtime }

/-- `armInnerLoop`: a round gets the clock on by one at least. -/
def armInnerLoop (w : Work) : Option Work :=
  Library.runWhile (Work.Busy · s32next) (round exec base s32next) (s32next - w.minarmtime).toNat w

end Loop

/-- The clocks at the head of the loop of `NDS_exec`. -/
structure Clocks where
  ndsTimer : ℤ
  arm9Timer : ℤ
  arm7Timer : ℤ
  slices : ℕ

/-- What the hardware and its interrupts leave before a work unit. -/
structure Hardware where
  flags : Flags
  sequencer : Sequencer

namespace Clocks

variable (exec : ℕ → Slice) (c : Clocks) (hw : Hardware)

def s32next : ℤ := min hw.sequencer.findNext (c.ndsTimer + kMaxWork) - c.ndsTimer

def start : Work where
  doarm7 := true
  arm9 := c.arm9Timer - c.ndsTimer
  arm7 := c.arm7Timer - c.ndsTimer
  ndsTimer := c.ndsTimer
  flags := { hw.flags with reschedule := false }
  slices := c.slices

/-- What follows the inner loop: a processor that waits for an interrupt is set to the clock. -/
def finish (base : ℤ) (w : Work) : Clocks where
  ndsTimer := w.ndsTimer
  arm9Timer := if w.flags.waitIRQ .arm9 then w.ndsTimer else base + w.arm9
  arm7Timer := if w.flags.waitIRQ .arm7 then w.ndsTimer else base + w.arm7
  slices := w.slices

/-- An iteration of the loop of `NDS_exec`. -/
def iterate : Option Clocks :=
  (armInnerLoop exec c.ndsTimer (c.s32next hw) (c.start hw)).map (finish c.ndsTimer)

end Clocks

/-- `NDS_Reset`. -/
def resetClocks : Clocks := ⟨0, 0, 0, 0⟩

end Desmume.Timing
