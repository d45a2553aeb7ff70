import Desmume.Library.Literals
import Mathlib.Data.BitVec
import Mathlib.Tactic.Common

/-! Reflected cyclic checksums, bit by bit. Taking in bits is linear, so that the bits that leave
can be taken in on their own and the others shifted past them. -/

namespace Desmume.Library

variable {w : ℕ}

/-- A bit leaves; if it is set, `c` comes in. -/
def crcStep (x c : BitVec w) : BitVec w := if x.getLsbD 0 then x >>> 1 ^^^ c else x >>> 1

/-- So many bits leave, each with a constant of its own. -/
def crcSteps (cs : List (BitVec w)) (x : BitVec w) : BitVec w := cs.foldl crcStep x

theorem crcSteps_cons (c : BitVec w) (cs : List (BitVec w)) (x : BitVec w) :
    crcSteps (c :: cs) x = crcSteps cs (crcStep x c) := rfl

theorem crcSteps_append (cs cs' : List (BitVec w)) (x : BitVec w) :
    crcSteps (cs ++ cs') x = crcSteps cs' (crcSteps cs x) := List.foldl_append

/-- A byte is taken in, bit by bit. -/
def crcByte (poly crc : BitVec w) (b : BitVec 8) : BitVec w :=
  crcSteps (List.replicate 8 poly) (crc ^^^ b.setWidth w)

def crcBytes (poly crc : BitVec w) (bs : List (BitVec 8)) : BitVec w := bs.foldl (crcByte poly) crc

theorem crcBytes_append (poly crc : BitVec w) (as bs : List (BitVec 8)) :
    crcBytes poly crc (as ++ bs) = crcBytes poly (crcBytes poly crc as) bs := List.foldl_append

theorem crcStep_xor (x y c : BitVec w) : crcStep (x ^^^ y) c = crcStep x c ^^^ crcStep y c := by
  have hshift : (x ^^^ y) >>> 1 = x >>> 1 ^^^ y >>> 1 := BitVec.ushiftRight_xor_distrib ..
  simp only [crcStep, BitVec.getLsbD_xor, hshift]
  cases x.getLsbD 0 <;> cases y.getLsbD 0
  · rfl
  · exact BitVec.xor_assoc ..
  · change x >>> 1 ^^^ y >>> 1 ^^^ c = x >>> 1 ^^^ c ^^^ y >>> 1
    rw [BitVec.xor_assoc, BitVec.xor_comm (y >>> 1), BitVec.xor_assoc]
  · change x >>> 1 ^^^ y >>> 1 = x >>> 1 ^^^ c ^^^ (y >>> 1 ^^^ c)
    rw [BitVec.xor_comm (y >>> 1) c, BitVec.xor_assoc (x >>> 1), ← BitVec.xor_assoc c,
      BitVec.xor_self, BitVec.zero_xor]

theorem crcSteps_xor (cs : List (BitVec w)) (x y : BitVec w) :
    crcSteps cs (x ^^^ y) = crcSteps cs x ^^^ crcSteps cs y := by
  induction cs generalizing x y with
  | nil => rfl
  | cons c cs ih =>
    rw [crcSteps_cons, crcStep_xor, ih, crcSteps_cons, crcSteps_cons]

/-- Bits that are not set leave without a trace. -/
theorem crcSteps_of_low_zero {cs : List (BitVec w)} {x : BitVec w}
    (h : ∀ i < cs.length, x.getLsbD i = false) : crcSteps cs x = x >>> cs.length := by
  induction cs generalizing x with
  | nil => exact (BitVec.ushiftRight_zero x).symm
  | cons c cs ih =>
    have hstep : crcStep x c = x >>> 1 := by
      rw [crcStep, h 0 (Nat.succ_pos _)]
      rfl
    have hrest : ∀ i < cs.length, (x >>> 1).getLsbD i = false := by
      intro i hi
      rw [BitVec.getLsbD_ushiftRight]
      exact h (1 + i) (by rw [List.length_cons]; omega)
    rw [crcSteps_cons, hstep, ih hrest, List.length_cons, ← BitVec.shiftRight_add, Nat.add_comm]

/-- The lowest bits of a word, in its width. -/
def lowBits (n : ℕ) (x : BitVec w) : BitVec w := (x.setWidth n).setWidth w

theorem getLsbD_lowBits (n : ℕ) (x : BitVec w) (i : ℕ) :
    (lowBits n x).getLsbD i = (decide (i < n) && x.getLsbD i) := by
  rw [lowBits, BitVec.getLsbD_setWidth, BitVec.getLsbD_setWidth]
  by_cases hi : i < w
  · rw [decide_eq_true hi, Bool.true_and]
  · rw [BitVec.getLsbD_of_ge x i (Nat.le_of_not_lt hi), Bool.and_false, Bool.and_false]

/-- The bits that leave are taken in on their own. -/
theorem crcSteps_split (cs : List (BitVec w)) (x : BitVec w) :
    crcSteps cs x = x >>> cs.length ^^^ crcSteps cs (lowBits cs.length x) := by
  have hsplit : x = x ^^^ lowBits cs.length x ^^^ lowBits cs.length x := by
    rw [BitVec.xor_assoc, BitVec.xor_self, BitVec.xor_zero]
  have hzero : ∀ i < cs.length, (x ^^^ lowBits cs.length x).getLsbD i = false := by
    intro i hi
    rw [BitVec.getLsbD_xor, getLsbD_lowBits, decide_eq_true hi, Bool.true_and, Bool.xor_self]
  have hshift : (x ^^^ lowBits cs.length x) >>> cs.length = x >>> cs.length := by
    apply BitVec.eq_of_getLsbD_eq
    intro i _
    rw [BitVec.getLsbD_ushiftRight, BitVec.getLsbD_ushiftRight, BitVec.getLsbD_xor, getLsbD_lowBits,
      decide_eq_false (by omega), Bool.false_and, Bool.xor_false]
  calc crcSteps cs x = crcSteps cs (x ^^^ lowBits cs.length x ^^^ lowBits cs.length x) := by
        rw [← hsplit]
    _ = x >>> cs.length ^^^ crcSteps cs (lowBits cs.length x) := by
        rw [crcSteps_xor, crcSteps_of_low_zero hzero, hshift]

end Desmume.Library
