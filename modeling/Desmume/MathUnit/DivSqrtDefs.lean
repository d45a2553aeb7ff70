import Desmume.Library.FlatMemory
import Desmume.Library.PartialRun
import Desmume.Library.SquareRoot

/-! The divider and the square root unit of the ARM9: writes to their registers start a
computation, whose result the sequencer publishes some cycles later. -/

namespace Desmume.MathUnit
open Library

/-- The loop of `isqrt`. -/
def isqrtLoop (squaredbit remainder root : BitVec 64) : BitVec 64 :=
  if 0 < squaredbit.toNat then
    if squaredbit ||| root ≤ remainder then
      isqrtLoop (squaredbit >>> 2) (remainder - (squaredbit ||| root)) (root >>> 1 ||| squaredbit)
    else isqrtLoop (squaredbit >>> 2) remainder (root >>> 1)
  else root
  termination_by squaredbit.toNat
  decreasing_by all_goals
    rw [BitVec.toNat_ushiftRight, Nat.shiftRight_eq_div_pow]
    omega

def isqrt (x : BitVec 64) : BitVec 64 :=
  if x < 1 then 0
  else isqrtLoop ((BitVec.allOnes 64 >>> 1) &&& ~~~(BitVec.allOnes 64 >>> 2)) x 0

/-- `arm9Reg` is the register page at 0x04000000, the rest of the fields are those of `MMU` and
`MMU_new` under the units. -/
structure MathState where
  arm9Reg : ℕ → BitVec 8
  ndsTimer : ℕ
  divMode : BitVec 8
  divBusy : Bool
  div0 : Bool
  divRunning : Bool
  divResult : BitVec 64
  divMod : BitVec 64
  divCycles : ℕ
  sqrtMode : BitVec 8
  sqrtBusy : Bool
  sqrtRunning : Bool
  sqrtResult : BitVec 32
  sqrtCycles : ℕ

/-- `MMU_Reset`, at the reset of the timer. -/
def mathReset : MathState :=
  ⟨fun _ => 0, 0, 0, false, false, false, 0, 0, 0, 0, false, false, 0, 0⟩

/-- The radicand `execsqrt` reads. -/
def sqrtOperand (s : MathState) : BitVec 64 :=
  if s.sqrtMode ≠ 0 then readWord 8 s.arm9Reg 0x2B8
  else (readWord 4 s.arm9Reg 0x2B8).setWidth 64

def execsqrt (s : MathState) : MathState :=
  { s with
    sqrtBusy := true
    arm9Reg := writeWord 4 s.arm9Reg 0x2B4 0#32
    sqrtCycles := s.ndsTimer + 26
    sqrtResult := (isqrt (sqrtOperand s)).setWidth 32
    sqrtRunning := true }

/-- The numerator and the denominator `execdiv` reads in its mode. -/
def divOperands (s : MathState) : BitVec 64 × BitVec 64 :=
  if s.divMode = 0 then
    ((readWord 4 s.arm9Reg 0x290).signExtend 64, (readWord 4 s.arm9Reg 0x298).signExtend 64)
  else if s.divMode = 1 ∨ s.divMode = 3 then
    (readWord 8 s.arm9Reg 0x290, (readWord 4 s.arm9Reg 0x298).signExtend 64)
  else (readWord 8 s.arm9Reg 0x290, readWord 8 s.arm9Reg 0x298)

/-- The division itself. The one quotient that is out of range has no result. -/
def divide (num den : BitVec 64) : Option (BitVec 64 × BitVec 64) :=
  if den = 0 then some (if num.slt 0 then 1 else -1, num)
  else if num = BitVec.intMin 64 ∧ den = -1 then none
  else some (num.sdiv den, num.srem den)

/-- The four words of the two results are cleared while the divider is busy. -/
def clearDivResults (m : ℕ → BitVec 8) : ℕ → BitVec 8 :=
  writeWord 4 (writeWord 4 (writeWord 4 (writeWord 4 m 0x2A0 0#32) 0x2A4 0#32) 0x2A8 0#32) 0x2AC 0#32

def execdiv (s : MathState) : Option MathState :=
  (divide (divOperands s).1 (divOperands s).2).map fun results =>
    { s with
      divBusy := true
      div0 := (divOperands s).2 = 0 ∧ readWord 8 s.arm9Reg 0x298 = 0#64
      divCycles := s.ndsTimer + if s.divMode = 0 then 36 else 68
      arm9Reg := clearDivResults s.arm9Reg
      divResult := results.1
      divMod := results.2
      divRunning := true }

/-- The arms of `_MMU_ARM9_write16` for the registers of the units, by the offset in the page. -/
def arm9Write16 (adr : ℕ) (val : BitVec 16) (s : MathState) : Option MathState :=
  match adr with
  | 0x280 => execdiv { s with divMode := (val &&& 3#16).setWidth 8 }
  | 0x2B0 => some (execsqrt { s with sqrtMode := (val &&& 1#16).setWidth 8 })
  | adr => some { s with arm9Reg := writeWord 2 s.arm9Reg adr val }

/-- The arms of `_MMU_ARM9_write32`. -/
def arm9Write32 (adr : ℕ) (val : BitVec 32) (s : MathState) : Option MathState :=
  match adr with
  | 0x2B0 => some { s with sqrtMode := (val.setWidth 16 &&& 1#16).setWidth 8 }
  | 0x280 => some { s with divMode := (val.setWidth 16 &&& 3#16).setWidth 8 }
  | 0x290 | 0x294 | 0x298 | 0x29C => execdiv { s with arm9Reg := writeWord 4 s.arm9Reg adr val }
  | 0x2B8 | 0x2BC => some (execsqrt { s with arm9Reg := writeWord 4 s.arm9Reg adr val })
  | adr => some { s with arm9Reg := writeWord 4 s.arm9Reg adr val }

/-- `TSequenceItem_divider::exec`, if triggered. -/
def dividerExec (s : MathState) : MathState :=
  if s.divRunning ∧ s.divCycles ≤ s.ndsTimer then
    { s with
      divBusy := false
      arm9Reg := writeWord 8 (writeWord 8 s.arm9Reg 0x2A0 s.divResult) 0x2A8 s.divMod
      divRunning := false }
  else s

/-- `TSequenceItem_sqrtunit::exec`, if triggered. -/
def sqrtunitExec (s : MathState) : MathState :=
  if s.sqrtRunning ∧ s.sqrtCycles ≤ s.ndsTimer then
    { s with
      sqrtBusy := false
      arm9Reg := writeWord 4 s.arm9Reg 0x2B4 s.sqrtResult
      sqrtRunning := false }
  else s

/-- The offsets of the halves of DIVCNT, DIV_NUMER, DIV_DENOM, SQRTCNT and SQRT_PARAM. -/
def mathHalves : List ℕ :=
  [0x280, 0x282, 0x290, 0x292, 0x294, 0x296, 0x298, 0x29A, 0x29C, 0x29E, 0x2B0, 0x2B2, 0x2B8, 0x2BA,
    0x2BC, 0x2BE]

def mathWords : List ℕ := [0x280, 0x290, 0x294, 0x298, 0x29C, 0x2B0, 0x2B8, 0x2BC]

inductive MathOp where
  | write16 (adr : {a // a ∈ mathHalves}) (val : BitVec 16)
  | write32 (adr : {a // a ∈ mathWords}) (val : BitVec 32)
  | advance (cycles : ℕ)
  | sequence

def mathStep (s : MathState) : MathOp → Option MathState
  | .write16 adr val => arm9Write16 adr val s
  | .write32 adr val => arm9Write32 adr val s
  | .advance cycles => some { s with ndsTimer := s.ndsTimer + cycles }
  | .sequence => some (sqrtunitExec (dividerExec s))

/-- The timer runs on to the later deadline and the sequencer executes what is due. -/
def complete (s : MathState) : MathState :=
  sqrtunitExec (dividerExec { s with ndsTimer := max s.ndsTimer (max s.divCycles s.sqrtCycles) })

def divResults (s : MathState) : BitVec 64 × BitVec 64 :=
  (readWord 8 s.arm9Reg 0x2A0, readWord 8 s.arm9Reg 0x2A8)

def sqrtResultReg (s : MathState) : BitVec 32 := readWord 4 s.arm9Reg 0x2B4

/-! `isqrt` is the square root. -/

theorem isqrtLoop_toNat (k : ℕ) {squaredbit remainder root : BitVec 64} {a : ℕ}
    (hbit : squaredbit.toNat = 4 ^ k / 4) (hroot : root.toNat = 4 ^ k * a) :
    (isqrtLoop squaredbit remainder root).toNat = sqrtDigits k remainder.toNat root.toNat := by
  induction k generalizing squaredbit remainder root a with
  | zero =>
    rw [isqrtLoop, if_neg (by omega), sqrtDigits]
  | succ k ih =>
    rw [Nat.pow_succ] at hbit hroot
    rw [Nat.mul_div_cancel _ (by omega)] at hbit
    have hpos : 0 < 4 ^ k := Nat.pow_pos (by omega)
    have hpow : 4 ^ k = 2 ^ (2 * k) := by rw [Nat.pow_mul]
    -- the digit is below every digit found, so the disjunctions are sums
    have hor : (squaredbit ||| root).toNat = 4 ^ k + root.toNat := by
      have h := Nat.two_pow_add_eq_or_of_lt (i := 2 * k + 2) (b := 4 ^ k)
        (by rw [hpow]; exact Nat.pow_lt_pow_right (by omega) (by omega)) a
      have hroot' : root.toNat = 2 ^ (2 * k + 2) * a := by rw [hroot, hpow, Nat.pow_add]
      rw [BitVec.toNat_or, hbit, hroot', Nat.or_comm, ← h, Nat.add_comm]
    have hshift : (root >>> 1).toNat = 4 ^ k * (2 * a) := by
      rw [BitVec.toNat_ushiftRight, Nat.shiftRight_eq_div_pow, hroot]
      rw [show 4 ^ k * 4 * a = 4 ^ k * (2 * a) * 2 by ring, Nat.pow_one,
        Nat.mul_div_cancel _ Nat.two_pos]
    have hhalf : root.toNat / 2 = 4 ^ k * (2 * a) := by
      rw [← hshift, BitVec.toNat_ushiftRight, Nat.shiftRight_eq_div_pow, Nat.pow_one]
    have hor' : (root >>> 1 ||| squaredbit).toNat = 4 ^ k * (2 * a) + 4 ^ k := by
      have h := Nat.two_pow_add_eq_or_of_lt (i := 2 * k + 1) (b := 4 ^ k)
        (by rw [hpow]; exact Nat.pow_lt_pow_right (by omega) (by omega)) a
      have hshift' : 4 ^ k * (2 * a) = 2 ^ (2 * k + 1) * a := by
        rw [hpow, Nat.pow_succ, Nat.mul_assoc]
      rw [BitVec.toNat_or, hbit, hshift, hshift', ← h]
    have hnext : (squaredbit >>> 2).toNat = 4 ^ k / 4 := by
      rw [BitVec.toNat_ushiftRight, Nat.shiftRight_eq_div_pow, hbit]
    have hle : squaredbit ||| root ≤ remainder ↔ 4 ^ k + root.toNat ≤ remainder.toNat := by
      rw [BitVec.le_def, hor]
    rw [isqrtLoop, if_pos (by omega), sqrtDigits]
    by_cases hdigit : squaredbit ||| root ≤ remainder
    · rw [if_pos hdigit, if_pos (hle.mp hdigit), ih (a := 2 * a + 1) hnext (by rw [hor']; ring),
        BitVec.toNat_sub_of_le hdigit, hor, hor', hhalf]
    · rw [if_neg hdigit, if_neg (fun h => hdigit (hle.mpr h)), ih (a := 2 * a) hnext hshift, hshift,
        hhalf]

theorem isqrt_toNat (x : BitVec 64) : (isqrt x).toNat = Nat.sqrt x.toNat := by
  rw [isqrt]
  split_ifs with hx
  · have hzero : x.toNat = 0 := Nat.lt_one_iff.mp hx
    rw [hzero, Nat.sqrt_zero]
    rfl
  · rw [isqrtLoop_toNat 32 (a := 0) (by decide) rfl]
    have hlt : 0 * 0 + x.toNat < (0 + 2 ^ 32) * (0 + 2 ^ 32) := by
      have := x.isLt
      omega
    have h := sqrtDigits_eq_sqrt hlt
    rwa [Nat.zero_mul, Nat.zero_mul, Nat.zero_add] at h

theorem isqrt_setWidth_toNat (x : BitVec 64) :
    ((isqrt x).setWidth 32).toNat = Nat.sqrt x.toNat := by
  have hlt : Nat.sqrt x.toNat < 2 ^ 32 := Nat.sqrt_lt.mpr (by have := x.isLt; omega)
  rw [BitVec.toNat_setWidth, isqrt_toNat, Nat.mod_eq_of_lt hlt]

end Desmume.MathUnit
