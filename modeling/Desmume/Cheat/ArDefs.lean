import Desmume.Library.Loop
import Mathlib.Data.List.Basic

/-! The interpreter of Action Replay codes. Each line has an effect on the offset, the data register
and the memory, or on the control state: the skipping of a conditional and the FOR loop. -/

namespace Desmume.Cheat
open Library

def maxXxCode : ℕ := 1024

theorem three_le_maxXxCode : 3 ≤ maxXxCode := by decide

/-- `CHEATS_LIST`; `code` goes on with the memory behind the array. -/
structure CheatsList where
  code : ℕ → BitVec 32 × BitVec 32
  num : ℕ
  num_le : num ≤ maxXxCode

abbrev ArLine := BitVec 32 × BitVec 32

namespace ArLine

variable (line : ArLine)

def type : ℕ := (line.1 >>> 28).toNat

def subtype : ℕ := ((line.1 >>> 24) &&& 0xF#32).toNat

def hi : BitVec 32 := line.1 &&& 0x0FFFFFFF#32

def lo : BitVec 32 := line.2

/-- How many lines the parameter bytes of a copy take. -/
def parameterLines : ℕ := ((line.lo + 7) / 8).toNat

def IsEndif : Prop := line.type = 0xD ∧ line.subtype = 0

def IsFor : Prop := line.type = 0xC ∧ line.subtype = 0

def IsNext : Prop := line.type = 0xD ∧ line.subtype = 1

/-- NEXT and FLUSH. -/
def IsNextFlush : Prop := line.type = 0xD ∧ line.subtype = 2

instance : Decidable line.IsEndif := inferInstanceAs (Decidable (_ ∧ _))
instance : Decidable line.IsFor := inferInstanceAs (Decidable (_ ∧ _))
instance : Decidable line.IsNext := inferInstanceAs (Decidable (_ ∧ _))
instance : Decidable line.IsNextFlush := inferInstanceAs (Decidable (_ ∧ _))

end ArLine

namespace CheatsList

variable (list : CheatsList)

def line (i : ℤ) : ArLine := list.code i.toNat

/-- The byte `t` of the code from the line `i` on. -/
def byte (i : ℤ) (t : ℕ) : BitVec 8 :=
  let line := list.line (i + (t / 8 : ℕ))
  ((if t % 8 < 4 then line.1 else line.2) >>> (8 * (t % 4))).setWidth 8

end CheatsList

/-- The accesses of the ARM9 to a memory `μ`. -/
structure ArBus (μ : Type*) where
  read32 : BitVec 32 → μ → BitVec 32 × μ
  read16 : BitVec 32 → μ → BitVec 16 × μ
  read08 : BitVec 32 → μ → BitVec 8 × μ
  write32 : BitVec 32 → BitVec 32 → μ → μ
  write16 : BitVec 32 → BitVec 16 → μ → μ
  write08 : BitVec 32 → BitVec 8 → μ → μ

structure ArData (μ : Type*) where
  offset : BitVec 32
  datareg : BitVec 32
  counter : BitVec 32
  mem : μ

structure ArState (μ : Type*) where
  i : ℤ
  ifFlag : BitVec 32
  loopcount : BitVec 32
  loopbackline : ℤ
  loopFlag : Bool
  data : ArData μ

section Commands

variable {μ : Type*} (bus : ArBus μ) (list : CheatsList)

namespace ArData

variable (d : ArData μ)

/-- The address of a condition; zero stands for the offset. -/
def conditionAddress (hi : BitVec 32) : BitVec 32 := if hi = 0 then d.offset else hi

def ifWord (hi : BitVec 32) (cond : BitVec 32 → Bool) : ArData μ × Option Bool :=
  let r := bus.read32 (d.conditionAddress hi) d.mem
  ({ d with mem := r.2 }, some (cond r.1))

/-- Conditions on a half word, masked with the upper half of the parameter. -/
def ifHalf (hi lo : BitVec 32) (cond : BitVec 32 → BitVec 32 → Bool) : ArData μ × Option Bool :=
  let r := bus.read16 (d.conditionAddress hi) d.mem
  ({ d with mem := r.2 }, some (cond (lo &&& 0xFFFF#32) (~~~(lo >>> 16) &&& r.1.setWidth 32)))

/-- The last byte of the code array behind the line `i`, as an unsigned word. -/
def maxByteReadLocation (i : ℤ) : BitVec 32 := BitVec.ofInt 32 (2 * 4 * (maxXxCode - i - 1) - 1)

/-- Copy the parameter bytes of the line `i`. -/
def copyParameters (i : ℤ) (hi lo : BitVec 32) : ArData μ :=
  -- for the last line of the array the bound is the largest word
  if lo ≤ maxByteReadLocation i then
    let write (mem : μ) (t : ℕ) : μ :=
      bus.write08 (hi + d.offset + BitVec.ofNat 32 t) (list.byte (i + 1) t) mem
    { d with mem := (List.range lo.toNat).foldl write d.mem }
  else d

/-- Copy bytes of the memory, one by one. -/
def copyBytes (hi lo : BitVec 32) : ArData μ :=
  let copy (mem : μ) (t : ℕ) : μ :=
    let r := bus.read08 (d.offset + BitVec.ofNat 32 t) mem
    bus.write08 (hi + BitVec.ofNat 32 t) r.1 r.2
  { d with mem := (List.range lo.toNat).foldl copy d.mem }

/-- The commands of type `0xC`; a result of a condition is returned. -/
def commandC (subtype : ℕ) (lo : BitVec 32) : ArData μ × Option Bool :=
  match subtype with
  | 0x5 =>
    let counter := d.counter + 1
    ({ d with counter := counter },
      some (counter &&& (lo &&& 0xFFFF#32) == (lo >>> 8) &&& 0xFFFF#32))
  | 0x6 => ({ d with mem := bus.write32 lo d.offset d.mem }, none)
  | _ => (d, none)

/-- The commands of type `0xD`. -/
def commandD (subtype : ℕ) (lo : BitVec 32) : ArData μ :=
  match subtype with
  | 0x3 => { d with offset := lo }
  | 0x4 => { d with datareg := d.datareg + lo }
  | 0x5 => { d with datareg := lo }
  | 0x6 => { d with
      mem := bus.write32 (lo + d.offset) d.datareg d.mem
      offset := d.offset + 4 }
  | 0x7 => { d with
      mem := bus.write16 (lo + d.offset) (d.datareg.setWidth 16) d.mem
      offset := d.offset + 2 }
  | 0x8 => { d with
      mem := bus.write08 (lo + d.offset) (d.datareg.setWidth 8) d.mem
      offset := d.offset + 1 }
  | 0x9 =>
    let r := bus.read32 (lo + d.offset) d.mem
    { d with datareg := r.1, mem := r.2 }
  | 0xA =>
    let r := bus.read16 (lo + d.offset) d.mem
    { d with datareg := r.1.setWidth 32, mem := r.2 }
  | 0xB =>
    let r := bus.read08 (lo + d.offset) d.mem
    { d with datareg := r.1.setWidth 32, mem := r.2 }
  | 0xC => { d with offset := d.offset + lo }
  | _ => d

/-- The commands without control flow of their own, with the result of a condition. -/
def command (i : ℤ) : ArData μ × Option Bool :=
  let line := list.line i
  let hi := line.hi
  let lo := line.lo
  match line.type with
  | 0x0 =>
    if hi = 0 then (d, none)
    else if hi = 0x0000AA99#32 ∧ lo = 0 then (d, none)
    else ({ d with mem := bus.write32 (hi + d.offset) lo d.mem }, none)
  | 0x1 => ({ d with mem := bus.write16 (hi + d.offset) (lo.setWidth 16) d.mem }, none)
  | 0x2 => ({ d with mem := bus.write08 (hi + d.offset) (lo.setWidth 8) d.mem }, none)
  | 0x3 => d.ifWord bus hi fun val => val < lo
  | 0x4 =>
    if hi = 0x04332211#32 ∧ lo = 88776655#32 then (d, none)
    else d.ifWord bus hi fun val => lo < val
  | 0x5 => d.ifWord bus hi fun val => lo == val
  | 0x6 => d.ifWord bus hi fun val => lo != val
  | 0x7 => d.ifHalf bus hi lo fun lo val => val < lo
  | 0x8 => d.ifHalf bus hi lo fun lo val => lo < val
  | 0x9 => d.ifHalf bus hi lo fun lo val => lo == val
  | 0xA => d.ifHalf bus hi lo fun lo val => lo != val
  | 0xB =>
    let r := bus.read32 (hi + d.offset) d.mem
    ({ d with offset := r.1, mem := r.2 }, none)
  | 0xC => d.commandC bus line.subtype lo
  | 0xD => (d.commandD bus line.subtype lo, none)
  | 0xE => (d.copyParameters bus list i hi lo, none)
  | 0xF => (d.copyBytes bus hi lo, none)
  | _ => (d, none)

end ArData

namespace ArState

variable (s : ArState μ)

/-- A condition that holds ends a skipping, one that fails starts it. -/
def condition : Option Bool → BitVec 32
  | none => s.ifFlag
  | some true => if 0 < s.ifFlag then s.ifFlag - 1 else s.ifFlag
  | some false => s.ifFlag + 1

/-- C0: FOR. -/
def forLoop (lo : BitVec 32) : ArState μ :=
  { s with
    -- the bound wraps for the largest parameter
    loopFlag := s.loopcount < lo + 1
    loopcount := s.loopcount + 1
    loopbackline := s.i }

/-- D1: NEXT. -/
def next : ArState μ := if s.loopFlag then { s with i := s.loopbackline - 1 } else s

/-- D2: NEXT, and then FLUSH everything. -/
def nextFlush : ArState μ :=
  if s.loopFlag then { s with i := s.loopbackline - 1 }
  else
    { s with
      data := { s.data with offset := 0, datareg := 0, counter := 0 }
      loopcount := 0
      ifFlag := 0
      loopFlag := false }

/-- A line in a block whose condition failed. -/
def skip : ArState μ :=
  let line := list.line s.i
  let s := if line.type = 0xE then { s with i := s.i + line.parameterLines } else s
  let s := if line.IsEndif then { s with ifFlag := s.ifFlag - 1 } else s
  -- the flag of the block stays when the loop goes on
  if line.IsNextFlush then s.nextFlush else s

/-- A line that is executed. -/
def execute : ArState μ :=
  let line := list.line s.i
  if line.IsFor then s.forLoop line.lo
  else if line.IsNext then s.next
  else if line.IsNextFlush then s.nextFlush
  else
    let r := s.data.command bus list s.i
    { s with
      data := r.1
      ifFlag := s.condition r.2
      -- parameter bytes are not lines
      i := if line.type = 0xE then s.i + line.parameterLines else s.i }

/-- The body of the loop, with the `i++` of its head. -/
def step : ArState μ :=
  let s := if 0 < s.ifFlag then s.skip list else s.execute bus list
  { s with i := s.i + 1 }

/-- The condition of the loop. -/
def InList : Prop := s.i < list.num

instance : DecidablePred (InList (μ := μ) list) := fun s => inferInstanceAs (Decidable (s.i < _))

/-- The start of `ARparser` on a memory. -/
def start (mem : μ) : ArState μ := ⟨0, 0, 0, 0, false, ⟨0, 0, 0, mem⟩⟩

end ArState

end Commands

end Desmume.Cheat
