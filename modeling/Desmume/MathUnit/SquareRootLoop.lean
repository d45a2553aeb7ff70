import Desmume.MathUnit.DivSqrtDefs

/-! The loop of `isqrt` beside the same loop over unbounded numbers: the two go through the same
values, so that nothing in the loop leaves 64 bits, and they end with the square root. -/

namespace Desmume.MathUnit
open Library

/-- The variables of the loop. -/
structure SqrtVars (α : Type) where
  squaredbit : α
  remainder : α
  root : α

def SqrtVars.toNat (s : SqrtVars (BitVec 64)) : SqrtVars ℕ :=
  ⟨s.squaredbit.toNat, s.remainder.toNat, s.root.toNat⟩

/-- The body of the loop. -/
def isqrtBody (s : SqrtVars (BitVec 64)) : SqrtVars (BitVec 64) :=
  if s.squaredbit ||| s.root ≤ s.remainder then
    ⟨s.squaredbit >>> 2, s.remainder - (s.squaredbit ||| s.root), s.root >>> 1 ||| s.squaredbit⟩
  else ⟨s.squaredbit >>> 2, s.remainder, s.root >>> 1⟩

theorem isqrtBody_squaredbit (s : SqrtVars (BitVec 64)) :
    (isqrtBody s).squaredbit = s.squaredbit >>> 2 := by
  unfold isqrtBody
  split_ifs <;> rfl

/-- The variables at every test of the loop condition. -/
def isqrtTrace (s : SqrtVars (BitVec 64)) : List (SqrtVars (BitVec 64)) :=
  if 0 < s.squaredbit.toNat then s :: isqrtTrace (isqrtBody s) else [s]
  termination_by s.squaredbit.toNat
  decreasing_by
    rw [isqrtBody_squaredbit, BitVec.toNat_ushiftRight, Nat.shiftRight_eq_div_pow]
    omega

/-- The variables before the loop. -/
def isqrtStart (x : BitVec 64) : SqrtVars (BitVec 64) :=
  ⟨(BitVec.allOnes 64 >>> 1) &&& ~~~(BitVec.allOnes 64 >>> 2), x, 0⟩

/-- The body over unbounded numbers. -/
def exactBody (s : SqrtVars ℕ) : SqrtVars ℕ :=
  if s.squaredbit ||| s.root ≤ s.remainder then
    ⟨s.squaredbit >>> 2, s.remainder - (s.squaredbit ||| s.root), s.root >>> 1 ||| s.squaredbit⟩
  else ⟨s.squaredbit >>> 2, s.remainder, s.root >>> 1⟩

theorem exactBody_squaredbit (s : SqrtVars ℕ) : (exactBody s).squaredbit = s.squaredbit >>> 2 := by
  unfold exactBody
  split_ifs <;> rfl

def exactTrace (s : SqrtVars ℕ) : List (SqrtVars ℕ) :=
  if 0 < s.squaredbit then s :: exactTrace (exactBody s) else [s]
  termination_by s.squaredbit
  decreasing_by
    rw [exactBody_squaredbit, Nat.shiftRight_eq_div_pow]
    omega

/-- Every value that the condition and the body compute, the difference as an integer. -/
def exactValues (s : SqrtVars ℕ) : List ℤ :=
  let digit := s.squaredbit ||| s.root
  let shifted := s.root >>> 1
  let next := s.squaredbit >>> 2
  if digit ≤ s.remainder then
    [(s.squaredbit : ℤ), (s.remainder : ℤ), (s.root : ℤ), (digit : ℤ), (s.remainder : ℤ) - digit,
      (shifted : ℤ), ((shifted ||| s.squaredbit : ℕ) : ℤ), (next : ℤ)]
  else [(s.squaredbit : ℤ), (s.remainder : ℤ), (s.root : ℤ), (digit : ℤ), (shifted : ℤ), (next : ℤ)]

/-- One turn of the machine's loop is one turn of the exact one. -/
theorem toNat_isqrtBody (s : SqrtVars (BitVec 64)) : (isqrtBody s).toNat = exactBody s.toNat := by
  have hle : s.squaredbit ||| s.root ≤ s.remainder ↔
      s.toNat.squaredbit ||| s.toNat.root ≤ s.toNat.remainder := by
    rw [BitVec.le_def, BitVec.toNat_or]
    rfl
  unfold isqrtBody exactBody
  by_cases hdigit : s.squaredbit ||| s.root ≤ s.remainder
  · rw [if_pos hdigit, if_pos (hle.mp hdigit)]
    simp only [SqrtVars.toNat, BitVec.toNat_ushiftRight, BitVec.toNat_or,
      BitVec.toNat_sub_of_le hdigit]
  · rw [if_neg hdigit, if_neg fun h => hdigit (hle.mpr h)]
    simp only [SqrtVars.toNat, BitVec.toNat_ushiftRight]

theorem map_toNat_isqrtTrace (s : SqrtVars (BitVec 64)) :
    (isqrtTrace s).map SqrtVars.toNat = exactTrace s.toNat := by
  induction s using isqrtTrace.induct with
  | case1 s hbit ih =>
    have hbit' : 0 < s.toNat.squaredbit := hbit
    rw [isqrtTrace, if_pos hbit, List.map_cons, ih, toNat_isqrtBody, exactTrace.eq_1 s.toNat,
      if_pos hbit']
  | case2 s hbit =>
    have hbit' : ¬ 0 < s.toNat.squaredbit := hbit
    rw [isqrtTrace, if_neg hbit, exactTrace, if_neg hbit']
    rfl

theorem exactValues_lt (s : SqrtVars (BitVec 64)) :
    ∀ v ∈ exactValues s.toNat, 0 ≤ v ∧ v < 2 ^ 64 := by
  have hbit : s.toNat.squaredbit < 2 ^ 64 := s.squaredbit.isLt
  have hremainder : s.toNat.remainder < 2 ^ 64 := s.remainder.isLt
  have hroot : s.toNat.root < 2 ^ 64 := s.root.isLt
  have hdigit : s.toNat.squaredbit ||| s.toNat.root < 2 ^ 64 := Nat.or_lt_two_pow hbit hroot
  have hshifted : s.toNat.root >>> 1 < 2 ^ 64 := Nat.lt_of_le_of_lt (Nat.shiftRight_le _ _) hroot
  have hnew : s.toNat.root >>> 1 ||| s.toNat.squaredbit < 2 ^ 64 :=
    Nat.or_lt_two_pow hshifted hbit
  have hnext : s.toNat.squaredbit >>> 2 < 2 ^ 64 := Nat.lt_of_le_of_lt (Nat.shiftRight_le _ _) hbit
  intro v hv
  unfold exactValues at hv
  dsimp only at hv
  split_ifs at hv with hle
  · simp only [List.mem_cons, List.not_mem_nil, or_false] at hv
    rcases hv with rfl | rfl | rfl | rfl | rfl | rfl | rfl | rfl <;> omega
  · simp only [List.mem_cons, List.not_mem_nil, or_false] at hv
    rcases hv with rfl | rfl | rfl | rfl | rfl | rfl <;> omega

/-- The loop ends with the root of the last variables. -/
theorem isqrtLoop_eq_last (s : SqrtVars (BitVec 64)) :
    (isqrtTrace s).getLast?.map SqrtVars.root =
      some (isqrtLoop s.squaredbit s.remainder s.root) := by
  induction s using isqrtTrace.induct with
  | case1 s hbit ih =>
    have hbody : isqrtLoop s.squaredbit s.remainder s.root =
        isqrtLoop (isqrtBody s).squaredbit (isqrtBody s).remainder (isqrtBody s).root := by
      rw [isqrtLoop, if_pos hbit]
      unfold isqrtBody
      split_ifs <;> rfl
    have hne : isqrtTrace (isqrtBody s) ≠ [] := by
      rw [isqrtTrace]
      split_ifs <;> exact List.cons_ne_nil _ _
    rw [isqrtTrace, if_pos hbit, List.getLast?_cons_of_ne_nil hne, ih, hbody]
  | case2 s hbit =>
    rw [isqrtTrace, if_neg hbit, isqrtLoop, if_neg hbit]
    rfl

/-- For every radicand the result is the root, rounded down; the loop that computes it goes
through the values of the exact loop, and all of them fit in 64 bits. -/
theorem isqrt_root (x : BitVec 64) :
    ((isqrt x).toNat * (isqrt x).toNat ≤ x.toNat ∧
      x.toNat < ((isqrt x).toNat + 1) * ((isqrt x).toNat + 1)) ∧
    (x < 1 ∨ (isqrtTrace (isqrtStart x)).getLast?.map SqrtVars.root = some (isqrt x)) ∧
    (isqrtTrace (isqrtStart x)).map SqrtVars.toNat = exactTrace (isqrtStart x).toNat ∧
    ∀ s ∈ exactTrace (isqrtStart x).toNat, ∀ v ∈ exactValues s, 0 ≤ v ∧ v < 2 ^ 64 := by
  refine ⟨?_, ?_, map_toNat_isqrtTrace _, ?_⟩
  · rw [isqrt_toNat]
    exact ⟨Nat.sqrt_le _, Nat.lt_succ_sqrt _⟩
  · by_cases hx : x < 1
    · exact .inl hx
    · refine .inr ?_
      rw [isqrtLoop_eq_last, isqrt, if_neg hx]
      rfl
  · intro s hs
    rw [← map_toNat_isqrtTrace] at hs
    obtain ⟨t, -, rfl⟩ := List.mem_map.mp hs
    exact exactValues_lt t

end Desmume.MathUnit
