import Desmume.Library.SignedWord
import Desmume.Machine.Types
import Desmume.MathUnit.DivSqrtDefs
import Mathlib.Logic.Function.Basic
import Mathlib.Tactic.FinCases

/-! The results that the units publish belong to the operands in the registers, as long as a write
that changes operands starts their unit or is followed by one that does. The divisions that the emulator
leaves to its host guard against a zero divisor; the quotient that a word cannot hold is left. -/

namespace Desmume.MathUnit
open Library

inductive Device where
  | divider | sqrtunit
  deriving DecidableEq

/-- The unit that a write starts. -/
def MathOp.starts : MathOp → Option Device
  | .write16 adr _ =>
    if adr.1 = 0x280 then some .divider else if adr.1 = 0x2B0 then some .sqrtunit else none
  | .write32 adr _ =>
    if adr.1 ∈ [0x290, 0x294, 0x298, 0x29C] then some .divider
    else if adr.1 ∈ [0x2B8, 0x2BC] then some .sqrtunit else none
  | .advance _ | .sequence => none

/-- A step up to the start of a unit. -/
def plainStep (s : MathState) : MathOp → MathState
  | .write16 adr val =>
    if adr.1 = 0x280 then { s with divMode := (val &&& 3#16).setWidth 8 }
    else if adr.1 = 0x2B0 then { s with sqrtMode := (val &&& 1#16).setWidth 8 }
    else { s with arm9Reg := writeWord 2 s.arm9Reg adr val }
  | .write32 adr val =>
    if adr.1 = 0x280 then { s with divMode := (val.setWidth 16 &&& 3#16).setWidth 8 }
    else if adr.1 = 0x2B0 then { s with sqrtMode := (val.setWidth 16 &&& 1#16).setWidth 8 }
    else { s with arm9Reg := writeWord 4 s.arm9Reg adr val }
  | .advance cycles => { s with ndsTimer := s.ndsTimer + cycles }
  | .sequence => sqrtunitExec (dividerExec s)

def startUnit : Option Device → MathState → Option MathState
  | none, s => some s
  | some .divider, s => execdiv s
  | some .sqrtunit, s => some (execsqrt s)

theorem mathStep_eq_startUnit (s : MathState) (op : MathOp) :
    mathStep s op = startUnit op.starts (plainStep s op) := by
  cases op with
  | write16 adr val =>
    obtain ⟨adr, hadr⟩ := adr
    fin_cases hadr <;> rfl
  | write32 adr val =>
    obtain ⟨adr, hadr⟩ := adr
    fin_cases hadr <;> rfl
  | advance => rfl
  | sequence => rfl

/-- The results under way, those in the registers when the divider is idle. -/
def latestDiv (s : MathState) : BitVec 64 × BitVec 64 :=
  if s.divRunning then (s.divResult, s.divMod) else divResults s

def latestSqrt (s : MathState) : BitVec 32 :=
  if s.sqrtRunning then s.sqrtResult else sqrtResultReg s

def IsQuotient (operands results : BitVec 64 × BitVec 64) : Prop :=
  if operands.2 = 0 then
    results = (if operands.1.slt 0 then 1 else -1, operands.1)
  else
    results.1.toInt = operands.1.toInt.tdiv operands.2.toInt ∧
      results.2.toInt = operands.1.toInt.tmod operands.2.toInt

def IsSqrt (operand : BitVec 64) (result : BitVec 32) : Prop :=
  result.toNat = Nat.sqrt operand.toNat

theorem isQuotient_of_divide {num den : BitVec 64} {results : BitVec 64 × BitVec 64}
    (h : divide num den = some results) : IsQuotient (num, den) results := by
  rw [divide] at h
  rw [IsQuotient]
  by_cases hden : den = 0
  · rw [if_pos hden] at h ⊢
    exact (Option.some.inj h).symm
  · rw [if_neg hden] at h ⊢
    split_ifs at h with hover
    obtain rfl := Option.some.inj h
    exact ⟨BitVec.toInt_sdiv_of_ne_or_ne _ _ (not_and_or.mp hover), BitVec.toInt_srem _ _⟩

/-! What each part of a step does to the results and the operands. -/

section Parts

variable {s s' : MathState}

/-- The divider is unaffected by a change of the page away from its results. -/
theorem latestDiv_congr (hrunning : s.divRunning = s'.divRunning)
    (hresult : s.divResult = s'.divResult) (hmod : s.divMod = s'.divMod)
    (hpage : ∀ a, 0x2A0 ≤ a → a < 0x2B0 → s.arm9Reg a = s'.arm9Reg a) :
    latestDiv s = latestDiv s' := by
  have hres : divResults s = divResults s' := by
    rw [divResults, divResults]
    refine congrArg₂ Prod.mk ?_ ?_
    · exact readWord_congr fun a ha ha' => hpage a ha (by omega)
    · exact readWord_congr fun a ha ha' => hpage a (by omega) (by omega)
  rw [latestDiv, latestDiv, hrunning, hresult, hmod, hres]

theorem latestSqrt_congr (hrunning : s.sqrtRunning = s'.sqrtRunning)
    (hresult : s.sqrtResult = s'.sqrtResult)
    (hpage : ∀ a, 0x2B4 ≤ a → a < 0x2B8 → s.arm9Reg a = s'.arm9Reg a) :
    latestSqrt s = latestSqrt s' := by
  have hres : sqrtResultReg s = sqrtResultReg s' := readWord_congr fun a ha ha' => hpage a ha ha'
  rw [latestSqrt, latestSqrt, hrunning, hresult, hres]

theorem divOperands_congr (hmode : s.divMode = s'.divMode)
    (hpage : ∀ a, 0x290 ≤ a → a < 0x2A0 → s.arm9Reg a = s'.arm9Reg a) :
    divOperands s = divOperands s' := by
  have hword (n v : ℕ) (hv : 0x290 ≤ v ∧ v + n ≤ 0x2A0) :
      readWord n s.arm9Reg v = readWord n s'.arm9Reg v :=
    readWord_congr fun a ha ha' => hpage a (by omega) (by omega)
  rw [divOperands, divOperands, hmode, hword 4 0x290 (by omega), hword 4 0x298 (by omega),
    hword 8 0x290 (by omega), hword 8 0x298 (by omega)]

theorem sqrtOperand_congr (hmode : s.sqrtMode = s'.sqrtMode)
    (hpage : ∀ a, 0x2B8 ≤ a → a < 0x2C0 → s.arm9Reg a = s'.arm9Reg a) :
    sqrtOperand s = sqrtOperand s' := by
  have hword (n : ℕ) (hn : n ≤ 8) : readWord n s.arm9Reg 0x2B8 = readWord n s'.arm9Reg 0x2B8 :=
    readWord_congr fun a ha ha' => hpage a ha (by omega)
  rw [sqrtOperand, sqrtOperand, hmode, hword 4 (by omega), hword 8 (by omega)]

theorem clearDivResults_apply (m : ℕ → BitVec 8) {a : ℕ} (h : a < 0x2A0 ∨ 0x2B0 ≤ a) :
    clearDivResults m a = m a := by
  have hword (m : ℕ → BitVec 8) (v : ℕ) (hv : 0x2A0 ≤ v ∧ v + 4 ≤ 0x2B0) :
      writeWord 4 m v 0#32 a = m a := by
    rcases h with h | h
    · exact writeWord_apply_of_lt _ (by omega)
    · exact writeWord_apply_of_le _ (by omega)
  rw [clearDivResults, hword _ 0x2AC (by omega), hword _ 0x2A8 (by omega), hword _ 0x2A4 (by omega),
    hword _ 0x2A0 (by omega)]

structure SameSqrt (s s' : MathState) : Prop where
  latest : latestSqrt s' = latestSqrt s
  operand : sqrtOperand s' = sqrtOperand s

structure SameDiv (s s' : MathState) : Prop where
  latest : latestDiv s' = latestDiv s
  operands : divOperands s' = divOperands s

theorem execdiv_spec (h : execdiv s = some s') :
    SameSqrt s s' ∧ divOperands s' = divOperands s ∧ IsQuotient (divOperands s') (latestDiv s') := by
  rw [execdiv] at h
  obtain ⟨results, hdivide, hs'⟩ := Option.map_eq_some_iff.mp h
  subst hs'
  generalize hcleared : clearDivResults s.arm9Reg = page
  have hpage {a : ℕ} (ha : a < 0x2A0 ∨ 0x2B0 ≤ a) : page a = s.arm9Reg a := by
    rw [← hcleared, clearDivResults_apply _ ha]
  refine ⟨⟨?_, ?_⟩, ?_, ?_⟩
  · exact latestSqrt_congr rfl rfl fun a ha _ => hpage (Or.inr (by omega))
  · exact sqrtOperand_congr rfl fun a ha _ => hpage (Or.inr (by omega))
  · exact divOperands_congr rfl fun a _ ha => hpage (Or.inl ha)
  · refine (congrArg₂ IsQuotient ?_ rfl).mpr (isQuotient_of_divide hdivide)
    exact divOperands_congr rfl fun a _ ha => hpage (Or.inl ha)

theorem execsqrt_spec (s : MathState) : SameDiv s (execsqrt s) ∧
    sqrtOperand (execsqrt s) = sqrtOperand s ∧
      IsSqrt (sqrtOperand (execsqrt s)) (latestSqrt (execsqrt s)) := by
  have hoperand : sqrtOperand (execsqrt s) = sqrtOperand s :=
    sqrtOperand_congr rfl fun a ha _ => writeWord_apply_of_le _ (by omega)
  refine ⟨⟨?_, ?_⟩, hoperand, ?_⟩
  · exact latestDiv_congr rfl rfl rfl fun a _ ha => writeWord_apply_of_lt _ (by omega)
  · exact divOperands_congr rfl fun a _ ha => writeWord_apply_of_lt _ (by omega)
  · rw [hoperand]
    exact isqrt_setWidth_toNat (sqrtOperand s)

theorem dividerExec_spec (s : MathState) : SameSqrt s (dividerExec s) ∧ SameDiv s (dividerExec s) := by
  rw [dividerExec]
  split_ifs with htriggered
  · have hpage {a : ℕ} (h : a < 0x2A0 ∨ 0x2B0 ≤ a) :
        writeWord 8 (writeWord 8 s.arm9Reg 0x2A0 s.divResult) 0x2A8 s.divMod a = s.arm9Reg a := by
      rcases h with h | h
      · rw [writeWord_apply_of_lt _ (by omega), writeWord_apply_of_lt _ h]
      · rw [writeWord_apply_of_le _ (by omega), writeWord_apply_of_le _ (by omega)]
    refine ⟨⟨?_, ?_⟩, ?_, ?_⟩
    · exact latestSqrt_congr rfl rfl fun a ha _ => hpage (Or.inr (by omega))
    · exact sqrtOperand_congr rfl fun a ha _ => hpage (Or.inr (by omega))
    · rw [latestDiv, latestDiv, if_pos htriggered.1, if_neg Bool.false_ne_true, divResults,
        readWord_writeWord_of_disjoint _ (Or.inl (by omega)), readWord_writeWord, readWord_writeWord]
    · exact divOperands_congr rfl fun a _ ha => hpage (Or.inl ha)
  · exact ⟨⟨rfl, rfl⟩, rfl, rfl⟩

theorem sqrtunitExec_spec (s : MathState) :
    SameSqrt s (sqrtunitExec s) ∧ SameDiv s (sqrtunitExec s) := by
  rw [sqrtunitExec]
  split_ifs with htriggered
  · refine ⟨⟨?_, ?_⟩, ?_, ?_⟩
    · rw [latestSqrt, latestSqrt, if_pos htriggered.1, if_neg Bool.false_ne_true, sqrtResultReg,
        readWord_writeWord]
    · exact sqrtOperand_congr rfl fun a ha _ => writeWord_apply_of_le _ (by omega)
    · exact latestDiv_congr rfl rfl rfl fun a _ ha => writeWord_apply_of_lt _ (by omega)
    · exact divOperands_congr rfl fun a _ ha => writeWord_apply_of_lt _ (by omega)
  · exact ⟨⟨rfl, rfl⟩, rfl, rfl⟩

theorem sequence_spec (s : MathState) :
    SameSqrt s (sqrtunitExec (dividerExec s)) ∧ SameDiv s (sqrtunitExec (dividerExec s)) := by
  obtain ⟨hsqrt₁, hdiv₁⟩ := dividerExec_spec s
  obtain ⟨hsqrt₂, hdiv₂⟩ := sqrtunitExec_spec (dividerExec s)
  exact ⟨⟨hsqrt₂.latest.trans hsqrt₁.latest, hsqrt₂.operand.trans hsqrt₁.operand⟩,
    ⟨hdiv₂.latest.trans hdiv₁.latest, hdiv₂.operands.trans hdiv₁.operands⟩⟩

theorem mathHalves_apart :
    ∀ a ∈ mathHalves, (a + 2 ≤ 0x2A0 ∨ 0x2B0 ≤ a) ∧ (a + 2 ≤ 0x2B4 ∨ 0x2B8 ≤ a) := by decide

theorem mathWords_apart :
    ∀ a ∈ mathWords, (a + 4 ≤ 0x2A0 ∨ 0x2B0 ≤ a) ∧ (a + 4 ≤ 0x2B4 ∨ 0x2B8 ≤ a) := by decide

theorem latest_writeWord {n v : ℕ} (x : BitVec (8 * n))
    (h : (v + n ≤ 0x2A0 ∨ 0x2B0 ≤ v) ∧ (v + n ≤ 0x2B4 ∨ 0x2B8 ≤ v)) :
    latestDiv { s with arm9Reg := writeWord n s.arm9Reg v x } = latestDiv s ∧
      latestSqrt { s with arm9Reg := writeWord n s.arm9Reg v x } = latestSqrt s := by
  obtain ⟨hdiv, hsqrt⟩ := h
  refine ⟨latestDiv_congr rfl rfl rfl fun a ha ha' => ?_, latestSqrt_congr rfl rfl fun a ha ha' => ?_⟩
  · rcases hdiv with hdiv | hdiv
    · exact writeWord_apply_of_le _ (by omega)
    · exact writeWord_apply_of_lt _ (by omega)
  · rcases hsqrt with hsqrt | hsqrt
    · exact writeWord_apply_of_le _ (by omega)
    · exact writeWord_apply_of_lt _ (by omega)

theorem latest_plainStep (s : MathState) (op : MathOp) :
    latestDiv (plainStep s op) = latestDiv s ∧ latestSqrt (plainStep s op) = latestSqrt s := by
  cases op with
  | write16 adr val =>
    rw [plainStep]
    split_ifs
    · exact ⟨rfl, rfl⟩
    · exact ⟨rfl, rfl⟩
    · exact latest_writeWord (n := 2) val (mathHalves_apart adr.1 adr.2)
  | write32 adr val =>
    rw [plainStep]
    split_ifs
    · exact ⟨rfl, rfl⟩
    · exact ⟨rfl, rfl⟩
    · exact latest_writeWord (n := 4) val (mathWords_apart adr.1 adr.2)
  | advance cycles => exact ⟨rfl, rfl⟩
  | sequence => exact ⟨(sequence_spec s).2.latest, (sequence_spec s).1.latest⟩

theorem complete_idle (s : MathState) :
    (complete s).divRunning = false ∧ (complete s).sqrtRunning = false := by
  have hdiv (t : MathState) (h : t.divCycles ≤ t.ndsTimer) :
      (dividerExec t).divRunning = false := by
    rw [dividerExec]
    split_ifs with htriggered
    · rfl
    · exact Bool.eq_false_iff.mpr fun hrunning => htriggered ⟨hrunning, h⟩
  have hsqrt (t : MathState) (h : t.sqrtCycles ≤ t.ndsTimer) :
      (sqrtunitExec t).sqrtRunning = false := by
    rw [sqrtunitExec]
    split_ifs with htriggered
    · rfl
    · exact Bool.eq_false_iff.mpr fun hrunning => htriggered ⟨hrunning, h⟩
  have hkeep (t : MathState) : (sqrtunitExec t).divRunning = t.divRunning ∧
      (dividerExec t).sqrtCycles = t.sqrtCycles ∧ (dividerExec t).ndsTimer = t.ndsTimer := by
    rw [sqrtunitExec, dividerExec]
    split_ifs <;> exact ⟨rfl, rfl, rfl⟩
  rw [complete]
  refine ⟨?_, hsqrt _ ?_⟩
  · rw [(hkeep _).1]
    exact hdiv _ (by simp only [le_max_iff, Nat.le_refl, true_or, or_true])
  · rw [(hkeep _).2.1, (hkeep _).2.2]
    simp only [le_max_iff, Nat.le_refl, or_true]

/-- Completing publishes what was under way. -/
theorem complete_spec (s : MathState) :
    SameSqrt s (complete s) ∧ SameDiv s (complete s) ∧
      divResults (complete s) = latestDiv s ∧ sqrtResultReg (complete s) = latestSqrt s := by
  obtain ⟨hsqrt, hdiv⟩ :=
    sequence_spec { s with ndsTimer := max s.ndsTimer (max s.divCycles s.sqrtCycles) }
  obtain ⟨hdivIdle, hsqrtIdle⟩ := complete_idle s
  refine ⟨⟨hsqrt.latest, hsqrt.operand⟩, ⟨hdiv.latest, hdiv.operands⟩, ?_, ?_⟩
  · refine Eq.trans ?_ hdiv.latest
    change divResults (complete s) = latestDiv (complete s)
    rw [latestDiv, if_neg (by rw [hdivIdle]; exact Bool.false_ne_true)]
  · refine Eq.trans ?_ hsqrt.latest
    change sqrtResultReg (complete s) = latestSqrt (complete s)
    rw [latestSqrt, if_neg (by rw [hsqrtIdle]; exact Bool.false_ne_true)]

end Parts

abbrev startsDiv (op : MathOp) : Prop := op.starts = some .divider

abbrev startsSqrt (op : MathOp) : Prop := op.starts = some .sqrtunit

section Step

variable {s s' : MathState} {op : MathOp}

theorem mathStep_startsDiv (h : mathStep s op = some s') (hop : startsDiv op) :
    IsQuotient (divOperands s') (latestDiv s') := by
  rw [mathStep_eq_startUnit, hop] at h
  exact (execdiv_spec h).2.2

theorem mathStep_startsSqrt (h : mathStep s op = some s') (hop : startsSqrt op) :
    IsSqrt (sqrtOperand s') (latestSqrt s') := by
  rw [mathStep_eq_startUnit, hop] at h
  obtain rfl := Option.some.inj h
  exact (execsqrt_spec _).2.2

theorem mathStep_latestDiv (h : mathStep s op = some s') (hop : ¬ startsDiv op) :
    latestDiv s' = latestDiv s := by
  rw [mathStep_eq_startUnit] at h
  rw [← (latest_plainStep s op).1]
  rcases hstarts : op.starts with _ | u
  · rw [hstarts] at h
    exact congrArg latestDiv (Option.some.inj h).symm
  · cases u with
    | divider => exact absurd hstarts hop
    | sqrtunit =>
      rw [hstarts] at h
      obtain rfl := Option.some.inj h
      exact (execsqrt_spec _).1.latest

theorem mathStep_latestSqrt (h : mathStep s op = some s') (hop : ¬ startsSqrt op) :
    latestSqrt s' = latestSqrt s := by
  rw [mathStep_eq_startUnit] at h
  rw [← (latest_plainStep s op).2]
  rcases hstarts : op.starts with _ | u
  · rw [hstarts] at h
    exact congrArg latestSqrt (Option.some.inj h).symm
  · cases u with
    | divider =>
      rw [hstarts] at h
      exact (execdiv_spec h).1.latest
    | sqrtunit => exact absurd hstarts hop

end Step

/-- A division is started on operands that have a quotient in range. -/
def InRange (s : MathState) (op : MathOp) : Prop :=
  startsDiv op → divOperands (plainStep s op) ≠ (BitVec.intMin 64, -1)

theorem execdiv_isSome {s : MathState} (h : divOperands s ≠ (BitVec.intMin 64, -1)) :
    (execdiv s).isSome := by
  have hdivide : (divide (divOperands s).1 (divOperands s).2).isSome := by
    rw [divide]
    by_cases hden : (divOperands s).2 = 0
    · rw [if_pos hden]
      rfl
    · rw [if_neg hden, if_neg fun hover => h (Prod.ext hover.1 hover.2)]
      rfl
  obtain ⟨r, hr⟩ := Option.isSome_iff_exists.mp hdivide
  exact Option.isSome_iff_exists.mpr ⟨_, Option.map_eq_some_iff.mpr ⟨r, hr, rfl⟩⟩

theorem mathStep_isSome (s : MathState) (op : MathOp) (h : InRange s op) :
    (mathStep s op).isSome := by
  rw [mathStep_eq_startUnit]
  rcases hstarts : op.starts with _ | u
  · rfl
  · cases u with
    | divider => exact execdiv_isSome (h hstarts)
    | sqrtunit => rfl

/-- Every write that changes the operands of a unit starts it or is followed by one that does, and
no division overflows. -/
structure Restarted (ops : List MathOp) : Prop where
  div : RestartsAfterChange mathStep startsDiv divOperands mathReset ops
  sqrt : RestartsAfterChange mathStep startsSqrt sqrtOperand mathReset ops
  inRange : AtEachM mathStep InRange mathReset ops

/-- The result registers hold the quotient, the remainder and the root of what the operand
registers hold. -/
def Coherent (s : MathState) : Prop :=
  ((divOperands s).2 ≠ 0 → IsQuotient (divOperands s) (divResults s)) ∧
    IsSqrt (sqrtOperand s) (sqrtResultReg s)

theorem mathReset_operands : divOperands mathReset = (0, 0) ∧ sqrtOperand mathReset = 0 := by decide

/-- After a run that restarts the units and the completion of what is pending, the results belong
to the operands; a division by zero has its own results once the divider was started. -/
theorem mathRun_coherent (ops : List MathOp) (h : Restarted ops) :
    ∃ s, runM mathStep mathReset ops = some s ∧
      ((complete s).divRunning = false ∧ (complete s).sqrtRunning = false) ∧
      (divOperands (complete s) = divOperands s ∧ sqrtOperand (complete s) = sqrtOperand s) ∧
      Coherent (complete s) ∧
      ((∃ op ∈ ops, startsDiv op) →
        IsQuotient (divOperands (complete s)) (divResults (complete s))) := by
  obtain ⟨s, hrun⟩ := runM_isSome mathStep_isSome h.inRange
  obtain ⟨hsqrt, hdiv, hquotient, hroot⟩ := complete_spec s
  have hdivRun := latest_of_restartsAfterChange latestDiv IsQuotient hrun h.div
    (fun _ _ _ => mathStep_startsDiv) (fun _ _ _ => mathStep_latestDiv)
  have hsqrtRun := latest_of_restartsAfterChange latestSqrt IsSqrt hrun h.sqrt
    (fun _ _ _ => mathStep_startsSqrt) (fun _ _ _ => mathStep_latestSqrt)
  refine ⟨s, hrun, complete_idle s, ⟨hdiv.operands, hsqrt.operand⟩, ⟨?_, ?_⟩, ?_⟩
  · intro hden
    rw [hquotient, hdiv.operands]
    rcases hdivRun with ⟨_, hcorrect⟩ | ⟨_, _, hsame⟩
    · exact hcorrect
    · -- nothing was started, so the denominator is the one of the reset
      rw [hdiv.operands, hsame, mathReset_operands.1] at hden
      exact absurd rfl hden
  · rw [hroot, hsqrt.operand]
    rcases hsqrtRun with ⟨_, hcorrect⟩ | ⟨_, hlatest, hsame⟩
    · exact hcorrect
    · rw [hlatest, hsame, mathReset_operands.2]
      rfl
  · rintro ⟨op, hop, hstarts⟩
    rw [hquotient, hdiv.operands]
    rcases hdivRun with ⟨_, hcorrect⟩ | ⟨hnone, _⟩
    · exact hcorrect
    · exact absurd hstarts (hnone op hop)

/-- A square root and then a division, each started by its last operand. -/
def mathSample : List MathOp :=
  [.write32 ⟨0x2B8, by decide⟩ 10, .write32 ⟨0x290, by decide⟩ 100, .write32 ⟨0x298, by decide⟩ 7]

theorem mathRun_coherent_sample :
    ∃ s, runM mathStep mathReset mathSample = some s ∧
      ((complete s).divRunning = false ∧ (complete s).sqrtRunning = false) ∧
      (divOperands (complete s) = divOperands s ∧ sqrtOperand (complete s) = sqrtOperand s) ∧
      Coherent (complete s) ∧
      ((∃ op ∈ mathSample, startsDiv op) →
        IsQuotient (divOperands (complete s)) (divResults (complete s))) := by
  refine mathRun_coherent mathSample ⟨?_, ?_, ?_⟩
  · exact fun _ _ => ⟨Or.inr (Or.inl ⟨_, List.mem_cons_self, rfl⟩),
      fun _ _ => ⟨Or.inl rfl, fun _ _ => ⟨Or.inl rfl, trivial⟩⟩⟩
  · refine fun s₁ _ => ⟨Or.inl rfl, fun s₂ h₂ => ⟨Or.inr (Or.inr ?_), fun s₃ h₃ =>
      ⟨Or.inr (Or.inr ?_), trivial⟩⟩⟩
    · exact (execdiv_spec h₂).1.operand.trans (sqrtOperand_congr rfl fun a ha _ =>
        writeWord_apply_of_le (n := 4) (v := 0x290) _ (by omega))
    · exact (execdiv_spec h₃).1.operand.trans (sqrtOperand_congr rfl fun a ha _ =>
        writeWord_apply_of_le (n := 4) (v := 0x298) _ (by omega))
  · refine ⟨fun h => absurd h (by decide), fun s₁ h₁ => ⟨fun _ => ?_, fun s₂ h₂ => ⟨fun _ => ?_, ?_⟩⟩⟩
    · obtain rfl := Option.some.inj h₁
      decide
    · obtain rfl := Option.some.inj h₁
      obtain rfl := Option.some.inj h₂
      decide
    · exact fun _ _ => trivial

/-- A half word written to the numerator leaves the quotient of the old one. -/
theorem mathRun_stale : ¬ ∀ ops s, runM mathStep mathReset ops = some s → Coherent (complete s) := by
  intro h
  have hstale := h [.write32 ⟨0x290, by decide⟩ 100, .write32 ⟨0x298, by decide⟩ 7,
    .write16 ⟨0x290, by decide⟩ 50] _ rfl
  have hden := hstale.1 (by decide)
  rw [IsQuotient, if_neg (by decide)] at hden
  exact absurd hden.1 (by decide)

/-! ### The divisions of the host -/

/-- The registers R0 to R15 of the two processors. -/
abbrev CpuRegs := Proc → Fin 16 → BitVec 32

/-- The registers of a processor after a division, with the cycles of the call. -/
def divideBy (proc : Proc) (R : CpuRegs) : Option (CpuRegs × ℕ) :=
  let num := R proc 0
  let dnum := R proc 1
  if dnum = 0 then some (R, 0)
  else (hostDiv num dnum).map fun res =>
    (Function.update R proc (Function.update (Function.update (Function.update (R proc) 0 res.1) 1
      res.2) 3 res.1.abs), 6)

/-- `divide_ARM9`. -/
def divideArm9 (R : CpuRegs) : Option (CpuRegs × ℕ) := divideBy .arm9 R

/-- `divide_ARM7`. -/
def divideArm7 (R : CpuRegs) : Option (CpuRegs × ℕ) := divideBy .arm7 R

/-- The handler of SWI 9 on a processor. -/
def swiDiv : Proc → CpuRegs → Option (CpuRegs × ℕ)
  | .arm9 => divideArm9
  | .arm7 => divideArm7

/-- A division is done with results: for a divisor other than zero the host can hold the quotient,
and the results are a division with remainder. -/
def DivisionDefined {w : ℕ} (num den : BitVec w) (results : Option (BitVec w × BitVec w)) : Prop :=
  ∃ r, results = some r ∧
    (den ≠ 0 → Representable w (num.toInt.tdiv den.toInt) ∧ IsDivision num den r.1 r.2)

/-- The divider leaves a quotient and a remainder. -/
def ExecdivDefined (s : MathState) : Prop :=
  DivisionDefined (divOperands s).1 (divOperands s).2
    ((execdiv s).map fun s' => (s'.divResult, s'.divMod))

/-- The BIOS call leaves a quotient in R0 and a remainder in R1. -/
def SwiDivDefined (proc : Proc) (R : CpuRegs) : Prop :=
  DivisionDefined (R proc 0) (R proc 1) ((swiDiv proc R).map fun r => (r.1 proc 0, r.1 proc 1))

/-- What a caller sees of a division whose zero divisor is guarded. -/
theorem divisionDefined_iff {w : ℕ} (hw : 0 < w) (zero : BitVec w × BitVec w) {num den : BitVec w}
    {results : Option (BitVec w × BitVec w)}
    (h : results = if den = 0 then some zero else hostDiv num den) :
    DivisionDefined num den results ↔ (num, den) ≠ (BitVec.intMin w, -1) := by
  have hover : (num, den) ≠ (BitVec.intMin w, -1) ↔ ¬ (num = BitVec.intMin w ∧ den = -1) := by
    rw [ne_eq, Prod.mk.injEq]
  rw [hover, h]
  by_cases hden : den = 0
  · -- minus one is not zero in a word with bits
    have hne : den ≠ -1 := by
      rw [hden]
      intro hzero
      have htop := congrArg BitVec.toInt hzero
      rw [show (-1 : BitVec w) = BitVec.allOnes w from BitVec.neg_one_eq_allOnes,
        BitVec.toInt_allOnes, if_pos hw] at htop
      simp at htop
    rw [if_pos hden]
    exact iff_of_true ⟨zero, rfl, fun hno => absurd hden hno⟩ fun hb => hne hb.2
  · rw [if_neg hden, hostDiv, if_neg hden]
    by_cases hbad : num = BitVec.intMin w ∧ den = -1
    · rw [if_pos hbad]
      refine iff_of_false ?_ (fun hno => hno hbad)
      rintro ⟨r, hr, -⟩
      cases hr
    · rw [if_neg hbad]
      refine iff_of_true ⟨_, rfl, fun _ => ?_⟩ hbad
      exact ⟨(representable_tdiv_iff hw num den).mpr hbad, isDivision_sdiv hden hbad⟩

theorem divide_eq_hostDiv (num den : BitVec 64) :
    divide num den = if den = 0 then some (if num.slt 0 then 1 else -1, num)
      else hostDiv num den := by
  unfold divide hostDiv
  split_ifs <;> rfl

theorem execdivDefined_iff (s : MathState) :
    ExecdivDefined s ↔ divOperands s ≠ (BitVec.intMin 64, -1) := by
  refine divisionDefined_iff (by decide)
    (if (divOperands s).1.slt 0 then 1 else -1, (divOperands s).1) ?_
  rw [← divide_eq_hostDiv, execdiv]
  cases divide (divOperands s).1 (divOperands s).2 with
  | none => rfl
  | some results => rfl

/-- In the 32-bit mode the operands are widened, so that the quotient always fits. -/
theorem execdivDefined_mode0 {s : MathState} (h : s.divMode = 0) : ExecdivDefined s := by
  rw [execdivDefined_iff, divOperands, if_pos h]
  intro heq
  have hnum : (readWord 4 s.arm9Reg 0x290).signExtend 64 = BitVec.intMin 64 := congrArg Prod.fst heq
  have hint := congrArg BitVec.toInt hnum
  rw [BitVec.toInt_signExtend_of_le (by decide)] at hint
  have hlow := BitVec.le_toInt (readWord 4 s.arm9Reg 0x290)
  rw [hint] at hlow
  exact absurd hlow (by decide)

theorem swiDivDefined_iff (proc : Proc) (R : CpuRegs) :
    SwiDivDefined proc R ↔ (R proc 0, R proc 1) ≠ (BitVec.intMin 32, -1) := by
  have hswi : swiDiv proc R = divideBy proc R := by cases proc <;> rfl
  refine divisionDefined_iff (by decide) (R proc 0, R proc 1) ?_
  rw [hswi, divideBy]
  split_ifs with hzero
  · rfl
  · cases hostDiv (R proc 0) (R proc 1) with
    | none => rfl
    | some res => simp

/-- Each division is defined, with a quotient and a remainder that belong together, exactly for
operands other than the most negative number and minus one. -/
theorem divisions_defined_iff (s : MathState) (proc : Proc) (R : CpuRegs) :
    (ExecdivDefined s ↔ divOperands s ≠ (BitVec.intMin 64, -1)) ∧
      (SwiDivDefined proc R ↔ (R proc 0, R proc 1) ≠ (BitVec.intMin 32, -1)) :=
  ⟨execdivDefined_iff s, swiDivDefined_iff proc R⟩

/-- The most negative number by minus one, in the 64-bit mode and in the BIOS call. -/
theorem divisions_undefined :
    (∃ s, s.divMode = 2 ∧ ¬ ExecdivDefined s) ∧ ¬ SwiDivDefined .arm9 fun _ i =>
      if i = 0 then 0x80000000 else 0xFFFFFFFF := by
  refine ⟨⟨{ mathReset with
    divMode := 2
    arm9Reg := fun a => if a = 0x297 then 0x80 else if 0x298 ≤ a then 0xFF else 0 }, rfl, ?_⟩, ?_⟩
  · rw [execdivDefined_iff, not_not]
    decide
  · rw [swiDivDefined_iff, not_not]
    decide

end Desmume.MathUnit
