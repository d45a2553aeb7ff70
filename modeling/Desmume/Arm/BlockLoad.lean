import Desmume.Arm.CpuDefs
import Mathlib.Data.BitVec
import Mathlib.Tactic.Ring

/-! The block loads with the S bit. With `R15` in the list they return from an exception,
without it they load the user registers. -/

namespace Desmume.Arm

/-- `BIT_N` on the register list of a block transfer. -/
def listed (i : Word) (r : Fin 16) : Bool := i.getLsbD r

inductive LdmForm where
  | ia
  | ib
  | da
  | db
deriving DecidableEq, Repr

namespace LdmForm

/-- `start` moved on over `k` words. -/
def advance (f : LdmForm) (k : ℕ) (start : Word) : Word :=
  match f with
  | .ia | .ib => start + 4 * BitVec.ofNat 32 k
  | .da | .db => start - 4 * BitVec.ofNat 32 k

/-- Whether `start` moves before the word is read. -/
def isBefore : LdmForm → Bool
  | .ia | .da => false
  | .ib | .db => true

end LdmForm

/-- `OP_L_IA`, `OP_L_IB`, `OP_L_DA` and `OP_L_DB`, on the registers and `start`. -/
def opL (f : LdmForm) (mem : Word → Word) (i : Word) (s : ArmCpu × Word) (reg : Fin 16) :
    ArmCpu × Word :=
  if listed i reg then
    let next := f.advance 1 s.2
    (s.1.setR reg (mem (if f.isBefore then next else s.2)), next)
  else s

def ascending : List (Fin 16) := [0, 1, 2, 3, 4, 5, 6, 7, 8, 9, 10, 11, 12, 13, 14]

def descending : List (Fin 16) := [14, 13, 12, 11, 10, 9, 8, 7, 6, 5, 4, 3, 2, 1, 0]

/-- The registers of the lines `OP_L_xx(reg, start)` of a handler. -/
def LdmForm.lines : LdmForm → List (Fin 16)
  | .ia | .ib => ascending
  | .da | .db => descending

def opLs (f : LdmForm) (mem : Word → Word) (i : Word) (cpu : ArmCpu) (start : Word) :
    ArmCpu × Word :=
  f.lines.foldl (opL f mem i) (cpu, start)

/-- `tmp & (0XFFFFFFFC | (BIT0(tmp)<<1))`. -/
def pcMask (tmp : Word) : Word := tmp &&& (0xFFFFFFFC ||| ((tmp &&& 1) <<< 1))

namespace ArmCpu

def inUserMode (cpu : ArmCpu) : Bool :=
  cpu.CPSR.mode == Mode.usr.code || cpu.CPSR.mode == Mode.sys.code

/-- `cpu->CPSR = cpu->SPSR`. -/
def copySPSR (cpu : ArmCpu) : ArmCpu := cpu.setCPSR cpu.SPSR

end ArmCpu

/-- The path of the block loads without `R15`: the list is loaded in system mode. -/
def loadUser (f : LdmForm) (writeBack : Bool) (mem : Word → Word) (i : Word) (cpu : ArmCpu) :
    ArmCpu :=
  let start := cpu.R (regPos i 16)
  if cpu.inUserMode then cpu
  else
    let oldmode := cpu.CPSR.mode
    let (cpu, start) := opLs f mem i (switchMode cpu (Mode.sys.code.setWidth 8)) start
    let cpu :=
      if writeBack && !listed i (regPos i 16) then cpu.setR (regPos i 16) start else cpu
    switchMode cpu (oldmode.setWidth 8)

/-- `OP_LDMIA2`. -/
def ldmia2 (mem : Word → Word) (i : Word) (cpu : ArmCpu) : ArmCpu :=
  if listed i 15 then
    let (cpu, start) := opLs .ia mem i cpu (cpu.R (regPos i 16))
    let tmp := mem start
    ((cpu.setR 15 (pcMask tmp)).restoreSPSR).jump
  else loadUser .ia false mem i cpu

/-- `OP_LDMIB2`. -/
def ldmib2 (mem : Word → Word) (i : Word) (cpu : ArmCpu) : ArmCpu :=
  if listed i 15 then
    let (cpu, start) := opLs .ib mem i cpu (cpu.R (regPos i 16))
    let start := start + 4
    let tmp := mem start
    ((cpu.setR 15 (pcMask tmp)).restoreSPSR).jump
  else loadUser .ib false mem i cpu

/-- `OP_LDMDA2`. -/
def ldmda2 (mem : Word → Word) (i : Word) (cpu : ArmCpu) : ArmCpu :=
  if listed i 15 then
    let start := cpu.R (regPos i 16)
    let tmp := mem start
    let cpu := (cpu.setR 15 (pcMask tmp)).copySPSR
    let start := start - 4
    let (cpu, _) := opLs .da mem i cpu.jump start
    cpu.restoreSPSR
  else loadUser .da false mem i cpu

/-- `OP_LDMDB2`. -/
def ldmdb2 (mem : Word → Word) (i : Word) (cpu : ArmCpu) : ArmCpu :=
  if listed i 15 then
    let start := cpu.R (regPos i 16) - 4
    let tmp := mem start
    let cpu := (cpu.setR 15 (pcMask tmp)).copySPSR
    let (cpu, _) := opLs .db mem i cpu.jump start
    cpu.restoreSPSR
  else loadUser .db false mem i cpu

/-- `if (!BIT_N(i, REG_POS(i,16))) registres[REG_POS(i,16)] = start`. -/
def writeBase (i : Word) (start : Word) (cpu : ArmCpu) : ArmCpu :=
  if listed i (regPos i 16) then cpu else cpu.setR (regPos i 16) start

/-- `OP_LDMIA2_W`. -/
def ldmia2W (mem : Word → Word) (i : Word) (cpu : ArmCpu) : ArmCpu :=
  if listed i 15 then
    let (cpu, start) := opLs .ia mem i cpu (cpu.R (regPos i 16))
    let cpu := writeBase i (start + 4) cpu
    let tmp := mem start
    ((cpu.setR 15 (pcMask tmp)).restoreSPSR).jump
  else loadUser .ia true mem i cpu

/-- `OP_LDMIB2_W`. -/
def ldmib2W (mem : Word → Word) (i : Word) (cpu : ArmCpu) : ArmCpu :=
  if listed i 15 then
    let (cpu, start) := opLs .ib mem i cpu (cpu.R (regPos i 16))
    let cpu := writeBase i (start + 4) cpu
    let tmp := mem (start + 4)
    ((cpu.setR 15 (pcMask tmp)).copySPSR.jump).restoreSPSR
  else loadUser .ib true mem i cpu

/-- `OP_LDMDA2_W`. -/
def ldmda2W (mem : Word → Word) (i : Word) (cpu : ArmCpu) : ArmCpu :=
  if listed i 15 then
    let start := cpu.R (regPos i 16)
    let tmp := mem start
    let cpu := cpu.setR 15 (pcMask tmp)
    let start := start - 4
    let (cpu, start) := opLs .da mem i cpu.jump start
    (writeBase i start cpu).restoreSPSR
  else loadUser .da true mem i cpu

/-- `OP_LDMDB2_W`. -/
def ldmdb2W (mem : Word → Word) (i : Word) (cpu : ArmCpu) : ArmCpu :=
  if listed i 15 then
    let start := cpu.R (regPos i 16) - 4
    let tmp := mem start
    let cpu := (cpu.setR 15 (pcMask tmp)).copySPSR
    let (cpu, start) := opLs .db mem i cpu.jump start
    (writeBase i start cpu).restoreSPSR
  else loadUser .db true mem i cpu

/-- The handler of each addressing mode, with and without write-back. -/
def ldm2 : LdmForm → Bool → (Word → Word) → Word → ArmCpu → ArmCpu
  | .ia, false => ldmia2
  | .ib, false => ldmib2
  | .da, false => ldmda2
  | .db, false => ldmdb2
  | .ia, true => ldmia2W
  | .ib, true => ldmib2W
  | .da, true => ldmda2W
  | .db, true => ldmdb2W

/-! ### What the loads leave in the registers -/

/-- The registers in the order a block load goes through them. -/
def LdmForm.order (f : LdmForm) : List (Fin 16) :=
  match f with
  | .ia | .ib => f.lines ++ [15]
  | .da | .db => 15 :: f.lines

/-- The number of listed registers that `rs` has before `r`. -/
def countBefore (i : Word) (r : Fin 16) (rs : List (Fin 16)) : ℕ :=
  (rs.takeWhile (· ≠ r)).countP (listed i)

/-- Where the `k`th word of a block transfer from `base` lies. -/
def LdmForm.slot (f : LdmForm) (k : ℕ) (base : Word) : Word :=
  f.advance (if f.isBefore then k + 1 else k) base

theorem LdmForm.advance_advance (f : LdmForm) (j k : ℕ) (start : Word) :
    f.advance j (f.advance k start) = f.advance (k + j) start := by
  have hcast : BitVec.ofNat 32 (k + j) = BitVec.ofNat 32 k + BitVec.ofNat 32 j :=
    BitVec.ofNat_add k j
  cases f <;> simp only [advance, hcast] <;> ring

theorem LdmForm.slot_advance (f : LdmForm) (j k : ℕ) (start : Word) :
    f.slot j (f.advance k start) = f.slot (k + j) start := by
  rw [slot, slot, advance_advance]
  split <;> rfl

theorem LdmForm.slot_zero (f : LdmForm) (start : Word) :
    f.slot 0 start = if f.isBefore then f.advance 1 start else start := by
  cases f <;> simp [slot, isBefore, advance]

/-- A block load changes the registers alone. -/
theorem opL_foldl_frame (f : LdmForm) (mem : Word → Word) (i : Word) (rs : List (Fin 16))
    (s : ArmCpu × Word) :
    (rs.foldl (opL f mem i) s).1 = s.1.withR (rs.foldl (opL f mem i) s).1.R := by
  induction rs generalizing s with
  | nil => rfl
  | cons r rs ih =>
    rw [List.foldl_cons, ih]
    rw [opL]
    split <;> rfl

theorem opL_foldl_start (f : LdmForm) (mem : Word → Word) (i : Word) (rs : List (Fin 16))
    (s : ArmCpu × Word) :
    (rs.foldl (opL f mem i) s).2 = f.advance (rs.countP (listed i)) s.2 := by
  induction rs generalizing s with
  | nil => cases f <;> simp [LdmForm.advance]
  | cons r rs ih =>
    rw [List.foldl_cons, ih, List.countP_cons]
    rw [opL]
    split
    · rw [LdmForm.advance_advance, Nat.add_comm]
    · rfl

theorem opL_foldl_of_notMem {f : LdmForm} {mem : Word → Word} {i : Word} {rs : List (Fin 16)}
    {r : Fin 16} (hr : r ∉ rs) (s : ArmCpu × Word) :
    (rs.foldl (opL f mem i) s).1.R r = s.1.R r := by
  induction rs generalizing s with
  | nil => rfl
  | cons q rs ih =>
    rw [List.mem_cons, not_or] at hr
    rw [List.foldl_cons, ih hr.2, opL]
    split
    · exact Function.update_of_ne hr.1 _ _
    · rfl

/-- Each listed register gets the word of its place in the transfer. -/
theorem opL_foldl_R {f : LdmForm} {mem : Word → Word} {i : Word} {rs : List (Fin 16)}
    (hrs : rs.Nodup) {r : Fin 16} (hr : r ∈ rs) (s : ArmCpu × Word) :
    (rs.foldl (opL f mem i) s).1.R r =
      if listed i r then mem (f.slot (countBefore i r rs) s.2) else s.1.R r := by
  induction rs generalizing s with
  | nil => cases hr
  | cons q rs ih =>
    rw [List.nodup_cons] at hrs
    rw [List.foldl_cons]
    by_cases hq : r = q
    · subst hq
      rw [opL_foldl_of_notMem hrs.1, opL]
      split
      · rw [countBefore, List.takeWhile_cons_of_neg (by simp), List.countP_nil, LdmForm.slot_zero]
        exact Function.update_self _ _ _
      · rfl
    · rw [ih hrs.2 (List.mem_of_ne_of_mem hq hr)]
      have hbefore : countBefore i r (q :: rs) =
          (if listed i q then 1 else 0) + countBefore i r rs := by
        rw [countBefore, List.takeWhile_cons_of_pos (by simpa using Ne.symm hq), List.countP_cons,
          Nat.add_comm]
        rfl
      rw [hbefore, opL]
      by_cases hlist : listed i q
      · simp only [if_pos hlist, LdmForm.slot_advance]
        congr 1
        exact Function.update_of_ne hq _ _
      · simp only [if_neg hlist, Nat.zero_add]

end Desmume.Arm
