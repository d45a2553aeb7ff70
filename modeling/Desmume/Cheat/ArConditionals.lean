import Desmume.Cheat.ArTermination
import Mathlib.Tactic.IntervalCases

/-! The conditionals of the codes against their documented meaning, a stack of open conditions. The
flag of the interpreter agrees with it as long as no conditional is met in a skipped block. -/

namespace Desmume.Cheat
open Library

variable {μ : Type*} {bus : ArBus μ} {list : CheatsList}

namespace ArLine

variable (line : ArLine)

/-- The conditions of the types 3 to A, and C5. -/
def IsIf : Prop := 3 ≤ line.type ∧ line.type ≤ 0xA ∨ line.type = 0xC ∧ line.subtype = 5

/-- The codes that write to the memory. -/
def IsWrite : Prop :=
  line.type ≤ 2 ∨ line.type = 0xC ∧ line.subtype = 6 ∨
    line.type = 0xD ∧ 6 ≤ line.subtype ∧ line.subtype ≤ 8 ∨ line.type = 0xE ∨ line.type = 0xF

/-- A line that neither opens nor closes anything. -/
def IsPlain : Prop := ¬ line.IsIf ∧ ¬ line.IsEndif ∧ ¬ line.IsFor ∧ ¬ line.IsNextFlush

instance : Decidable line.IsIf := inferInstanceAs (Decidable (_ ∨ _))
instance : Decidable line.IsWrite := inferInstanceAs (Decidable (_ ∨ _))
instance : Decidable line.IsPlain := inferInstanceAs (Decidable (_ ∧ _))

/-- The lines behind this one that are its parameters. -/
def width : ℕ := if line.type = 0xE then line.parameterLines else 0

def yyyy : BitVec 16 := line.lo.setWidth 16

/-- The upper half of the parameter, `XXXX` or `ZZZZ`. -/
def zzzz : BitVec 16 := (line.lo >>> 16).setWidth 16

/-- The condition as it is documented. -/
def holds (bus : ArBus μ) (d : ArData μ) : Bool :=
  let word := (bus.read32 (d.conditionAddress line.hi) d.mem).1
  let half := ~~~line.zzzz &&& (bus.read16 (d.conditionAddress line.hi) d.mem).1
  match line.type with
  | 0x3 => word < line.lo
  | 0x4 => line.lo < word
  | 0x5 => line.lo == word
  | 0x6 => line.lo != word
  | 0x7 => half < line.yyyy
  | 0x8 => line.yyyy < half
  | 0x9 => line.yyyy == half
  | 0xA => line.yyyy != half
  | _ => (d.counter + 1) &&& line.yyyy.setWidth 32 == line.zzzz.setWidth 32

end ArLine

/-- From the line `i` on the list closes `depth` open conditionals and those it opens itself, has
no loop, and ends with D2. -/
inductive CheatsList.Nested (list : CheatsList) : ℤ → ℕ → Prop
  | last {i : ℤ} (hline : (list.line i).IsNextFlush) (hi : i + 1 = list.num) : Nested list i 0
  | plain {i : ℤ} {depth : ℕ} (hline : (list.line i).IsPlain)
      (h : Nested list (i + (list.line i).width + 1) depth) : Nested list i depth
  | openIf {i : ℤ} {depth : ℕ} (hline : (list.line i).IsIf)
      (h : Nested list (i + 1) (depth + 1)) : Nested list i depth
  | closeIf {i : ℤ} {depth : ℕ} (hline : (list.line i).IsEndif)
      (h : Nested list (i + 1) depth) : Nested list i (depth + 1)

section Monitor

variable (bus : ArBus μ) (list : CheatsList)

/-- The results of the open conditions behind a line, the innermost first. -/
def nextConditions (s : ArState μ) (cs : List Bool) : List Bool :=
  if (list.line s.i).IsIf then (list.line s.i).holds bus s.data :: cs
  else if (list.line s.i).IsEndif then cs.tail
  else cs

variable (m : μ)

def stateAt (n : ℕ) : ArState μ := (ArState.step bus list)^[n] (ArState.start m)

/-- The conditions that enclose the line of the state `n`. -/
def conditionsAt : ℕ → List Bool
  | 0 => []
  | n + 1 => nextConditions bus list (stateAt bus list m n) (conditionsAt n)

/-- The interpreter gets to its line `n`. -/
def Reached (n : ℕ) : Prop :=
  Runs (ArState.InList list) (ArState.step bus list) (ArState.start m) n

/-- A write takes effect exactly if all conditions that enclose it are true. -/
def WritesFollowConditions : Prop :=
  ∀ n, Reached bus list m n → (list.line (stateAt bus list m n).i).IsWrite →
    ((stateAt bus list m n).step bus list).data =
      if (conditionsAt bus list m n).all id then
        ((stateAt bus list m n).data.command bus list (stateAt bus list m n).i).1
      else (stateAt bus list m n).data

/-- Any line is executed exactly if all conditions that enclose it are true. -/
def LinesFollowConditions : Prop :=
  ∀ n, Reached bus list m n →
    ((stateAt bus list m n).ifFlag = 0 ↔ (conditionsAt bus list m n).all id = true)

/-- The state evaluates the condition of its line, and it is the documented one: C5 takes another
half word, and one pair of words is not a condition. -/
structure ConditionEvaluated (s : ArState μ) : Prop where
  executed : s.ifFlag = 0
  counter : (list.line s.i).type = 0xC →
    (((s.data.counter + 1#32) &&& ((list.line s.i).lo &&& 0xFFFF#32) =
        ((list.line s.i).lo >>> 8) &&& 0xFFFF#32) ↔
      (s.data.counter + 1#32) &&& (list.line s.i).yyyy.setWidth 32 =
        (list.line s.i).zzzz.setWidth 32)
  parameter : (list.line s.i).type = 0x4 → (list.line s.i).hi = 0x04332211#32 →
    (list.line s.i).lo = 88776655#32 → (list.line s.i).holds bus s.data = true

def ConditionsEvaluated : Prop :=
  ∀ n, Reached bus list m n → (list.line (stateAt bus list m n).i).IsIf →
    ConditionEvaluated bus list (stateAt bus list m n)

end Monitor

theorem setWidth_and_eq (lo : BitVec 32) :
    lo &&& 0xFFFF#32 = (lo.setWidth 16).setWidth 32 := by
  ext i hi
  simp only [BitVec.getElem_and, BitVec.getElem_setWidth, BitVec.getLsbD_setWidth]
  interval_cases i <;> simp

theorem maskedHalf_eq (lo : BitVec 32) (half : BitVec 16) :
    ~~~(lo >>> 16) &&& half.setWidth 32 =
      (~~~((lo >>> 16).setWidth 16) &&& half).setWidth 32 := by
  ext i hi
  simp only [BitVec.getElem_and, BitVec.getElem_not, BitVec.getElem_setWidth, BitVec.getLsbD_and,
    BitVec.getLsbD_not, BitVec.getLsbD_setWidth]
  interval_cases i <;> simp

theorem setWidth_lt_iff (x y : BitVec 16) : x.setWidth 32 < y.setWidth 32 ↔ x < y := by
  rw [BitVec.lt_def, BitVec.lt_def, BitVec.toNat_setWidth_of_le (by decide),
    BitVec.toNat_setWidth_of_le (by decide)]

theorem setWidth_eq_iff (x y : BitVec 16) : x.setWidth 32 = y.setWidth 32 ↔ x = y := by
  rw [BitVec.toNat_inj.symm, BitVec.toNat_setWidth_of_le (by decide),
    BitVec.toNat_setWidth_of_le (by decide), BitVec.toNat_inj]

section Condition

variable {s : ArState μ}

theorem ifHalf_snd (d : ArData μ) (line : ArLine) (cond : BitVec 32 → BitVec 32 → Bool) :
    (d.ifHalf bus line.hi line.lo cond).2 =
      some (cond (line.yyyy.setWidth 32)
        ((~~~line.zzzz &&& (bus.read16 (d.conditionAddress line.hi) d.mem).1).setWidth 32)) := by
  rw [ArData.ifHalf, setWidth_and_eq, maskedHalf_eq]
  rfl

theorem command_of_not_if (h : ¬ (list.line s.i).IsIf) :
    (s.data.command bus list s.i).2 = none := by
  rw [ArLine.IsIf, not_or, not_and, not_and] at h
  obtain ⟨hword, hcounter⟩ := h
  simp only [ArData.command]
  split
  case h_1 =>
    split_ifs
    all_goals rfl
  case h_13 hC =>
    have h5 := hcounter hC
    unfold ArData.commandC
    split
    · exact absurd ‹_› h5
    all_goals rfl
  -- the types 3 to A are conditions
  all_goals first
    | rfl
    | exact absurd (hword (by omega)) (by omega)

theorem command_of_memory (h3 : 3 ≤ (list.line s.i).type) (hA : (list.line s.i).type ≤ 0xA)
    (hparam : (list.line s.i).type = 0x4 →
      ¬ ((list.line s.i).hi = 0x04332211#32 ∧ (list.line s.i).lo = 88776655#32)) :
    (s.data.command bus list s.i).2 = some ((list.line s.i).holds bus s.data) := by
  interval_cases ht : (list.line s.i).type
  case «4» =>
    simp only [ArData.command, ArLine.holds, ht, if_neg (hparam rfl)]
    rfl
  all_goals simp only [ArData.command, ArLine.holds, ht]
  all_goals first
    | rfl
    | rw [ifHalf_snd]
  · rw [decide_eq_decide.mpr (setWidth_lt_iff _ _)]
  · rw [decide_eq_decide.mpr (setWidth_lt_iff _ _)]
  · rw [beq_eq_decide, beq_eq_decide, decide_eq_decide.mpr (setWidth_eq_iff _ _)]
  · rw [bne, bne, beq_eq_decide, beq_eq_decide, decide_eq_decide.mpr (setWidth_eq_iff _ _)]

/-- An executed condition is the documented one, or one of the two exceptions. -/
theorem conditionEvaluated_iff (hif : (list.line s.i).IsIf) (h0 : s.ifFlag = 0) :
    ConditionEvaluated bus list s ↔
      ((s.data.command bus list s.i).2 ≠ some false ↔
        (list.line s.i).holds bus s.data = true) := by
  rcases hif with ⟨h3, hA⟩ | ⟨hC, h5⟩
  · have hne : (list.line s.i).type ≠ 0xC := fun hC => absurd (hC ▸ hA) (by decide)
    by_cases hparam : (list.line s.i).type = 0x4 ∧ (list.line s.i).hi = 0x04332211#32 ∧
      (list.line s.i).lo = 88776655#32
    · obtain ⟨h4, hpair⟩ := hparam
      have hnone : (s.data.command bus list s.i).2 = none := by
        simp only [ArData.command, h4, if_pos hpair]
      rw [hnone]
      constructor
      · intro h
        exact ⟨fun _ => h.parameter h4 hpair.1 hpair.2, fun _ hc => nomatch hc⟩
      · intro h
        exact ⟨h0, fun hC => absurd hC hne, fun _ _ _ => h.mp fun hc => nomatch hc⟩
    · rw [command_of_memory h3 hA fun h4 hpair => hparam ⟨h4, hpair⟩]
      refine ⟨fun _ => ?_, fun _ => ⟨h0, fun hC => absurd hC hne, fun h4 hhi hlo =>
        absurd ⟨h4, hhi, hlo⟩ hparam⟩⟩
      rw [Ne, Option.some_inj, Bool.not_eq_false]
  · have hcommand : (s.data.command bus list s.i).2 =
        some ((s.data.counter + 1#32) &&& ((list.line s.i).lo &&& 0xFFFF#32) ==
          ((list.line s.i).lo >>> 8) &&& 0xFFFF#32) := by
      simp only [ArData.command, hC, ArData.commandC, h5]
      rfl
    have hholds : (list.line s.i).holds bus s.data =
        ((s.data.counter + 1#32) &&& (list.line s.i).yyyy.setWidth 32 ==
          (list.line s.i).zzzz.setWidth 32) := by
      simp only [ArLine.holds, hC]
      rfl
    rw [hcommand, hholds, Ne, Option.some_inj, Bool.not_eq_false, beq_iff_eq, beq_iff_eq]
    constructor
    · exact fun h => h.counter hC
    · exact fun h => ⟨h0, fun _ => h, fun h4 => absurd (hC.symm.trans h4) (by decide)⟩

end Condition

section Step

variable {s : ArState μ}

/-- What a line does that does not belong to a loop. -/
theorem step_line (bus : ArBus μ) (hfor : ¬ (list.line s.i).IsFor) (hflush : ¬ (list.line s.i).IsNextFlush)
    (hloop : s.loopFlag = false) :
    s.step bus list =
      { s with
        i := s.i + (list.line s.i).width + 1
        data := if s.ifFlag = 0 then (s.data.command bus list s.i).1 else s.data
        ifFlag :=
          if s.ifFlag = 0 then s.condition (s.data.command bus list s.i).2
          else if (list.line s.i).IsEndif then s.ifFlag - 1 else s.ifFlag } := by
  have hwidth : (if (list.line s.i).type = 0xE then s.i + (list.line s.i).parameterLines else s.i) =
      s.i + (list.line s.i).width := by
    rw [ArLine.width]
    split_ifs
    · rfl
    · exact (add_zero _).symm
  by_cases h0 : s.ifFlag = 0
  · have hnot : ¬ 0 < s.ifFlag := by rw [h0]; decide
    rw [ArState.step, if_neg hnot, if_pos h0, if_pos h0, ArState.execute]
    simp only [if_neg hfor, if_neg hflush, hwidth]
    split_ifs with hnext
    · -- D1 outside a loop does nothing
      have hcommand : s.data.command bus list s.i = (s.data, none) := by
        simp only [ArData.command, hnext.1, ArData.commandD, hnext.2]
      have hzero : (list.line s.i).width = 0 := by
        rw [ArLine.width, hnext.1]
        rfl
      rw [hcommand, ArState.next, hloop, hzero]
      simp [ArState.condition, hloop]
    · rfl
  · have hpos : 0 < s.ifFlag := BitVec.not_le.mp fun h => h0 (BitVec.le_zero_iff.mp h)
    rw [ArState.step, if_pos hpos, if_neg h0, if_neg h0, ArState.skip]
    simp only [if_neg hflush]
    rw [← hwidth]
    split_ifs
    all_goals rfl

theorem isIf_exclusive (h : (list.line s.i).IsIf) :
    ¬ (list.line s.i).IsEndif ∧ ¬ (list.line s.i).IsFor ∧ ¬ (list.line s.i).IsNextFlush ∧
      (list.line s.i).width = 0 := by
  simp only [ArLine.IsEndif, ArLine.IsFor, ArLine.IsNextFlush, ArLine.width]
  rcases h with h | h
  · exact ⟨by omega, by omega, by omega, if_neg (by omega)⟩
  · exact ⟨by omega, by omega, by omega, if_neg (by omega)⟩

theorem isEndif_exclusive (h : (list.line s.i).IsEndif) :
    ¬ (list.line s.i).IsIf ∧ ¬ (list.line s.i).IsFor ∧ ¬ (list.line s.i).IsNextFlush ∧
      (list.line s.i).width = 0 := by
  simp only [ArLine.IsIf, ArLine.IsFor, ArLine.IsNextFlush, ArLine.width]
  obtain ⟨hD, h0⟩ := h
  exact ⟨by omega, by omega, by omega, if_neg (by omega)⟩

end Step

theorem CheatsList.Nested.lt {i : ℤ} {depth : ℕ} (h : list.Nested i depth) : i < list.num := by
  induction h with
  | last _ hi => omega
  | plain _ _ ih => omega
  | openIf _ _ ih => omega
  | closeIf _ _ ih => omega

/-- The control state of a list without loops, with its open conditions. -/
structure MonitorInv (list : CheatsList) (s : ArState μ) (cs : List Bool) : Prop where
  loop : s.loopFlag = false
  flag : s.ifFlag = 0 ∨ s.ifFlag = 1
  nested : list.Nested s.i cs.length

/-- What a line does to the flag and to the open conditions. -/
inductive LineEffect (bus : ArBus μ) (list : CheatsList) (s : ArState μ) :
    List Bool → BitVec 32 → List Bool → Prop
  | plain {cs : List Bool} (hline : (list.line s.i).IsPlain) : LineEffect bus list s cs s.ifFlag cs
  | executed {cs : List Bool} {flag : BitVec 32} (hline : (list.line s.i).IsIf) (h0 : s.ifFlag = 0)
      (hflag : flag = 0 ↔ (s.data.command bus list s.i).2 ≠ some false) :
      LineEffect bus list s cs flag ((list.line s.i).holds bus s.data :: cs)
  | skipped {cs : List Bool} (hline : (list.line s.i).IsIf) (h0 : s.ifFlag ≠ 0) :
      LineEffect bus list s cs s.ifFlag ((list.line s.i).holds bus s.data :: cs)
  | endif {c : Bool} {cs : List Bool} (hline : (list.line s.i).IsEndif) :
      LineEffect bus list s (c :: cs) 0 cs

section Monitor

variable {s : ArState μ} {cs : List Bool}

variable {cs' : List Bool} {flag : BitVec 32}

theorem LineEffect.of_plain (h : LineEffect bus list s cs flag cs')
    (hline : (list.line s.i).IsPlain) : flag = s.ifFlag ∧ cs' = cs := by
  cases h with
  | plain _ => exact ⟨rfl, rfl⟩
  | executed hif _ _ => exact absurd hif hline.1
  | skipped hif _ => exact absurd hif hline.1
  | endif hendif => exact absurd hendif hline.2.1

theorem LineEffect.of_skipped (h : LineEffect bus list s cs flag cs')
    (hline : (list.line s.i).IsIf) (h0 : s.ifFlag ≠ 0) :
    flag = s.ifFlag ∧ cs' = (list.line s.i).holds bus s.data :: cs := by
  cases h with
  | plain hplain => exact absurd hline hplain.1
  | executed _ hzero _ => exact absurd hzero h0
  | skipped _ _ => exact ⟨rfl, rfl⟩
  | endif hendif => exact absurd hendif (isIf_exclusive hline).1

theorem LineEffect.of_endif {c : Bool} (h : LineEffect bus list s (c :: cs) flag cs')
    (hline : (list.line s.i).IsEndif) : flag = 0 ∧ cs' = cs := by
  cases h with
  | plain hplain => exact absurd hline hplain.2.1
  | executed hif _ _ => exact absurd hline (isIf_exclusive hif).1
  | skipped hif _ => exact absurd hline (isIf_exclusive hif).1
  | endif _ => exact ⟨rfl, rfl⟩

theorem condition_cases (h0 : s.ifFlag = 0) (r : Option Bool) :
    (s.condition r = 0 ∨ s.condition r = 1) ∧ (s.condition r = 0 ↔ r ≠ some false) := by
  match r with
  | none => exact ⟨Or.inl h0, by simp [ArState.condition, h0]⟩
  | some true =>
    have hzero : s.condition (some true) = 0 := by
      rw [ArState.condition, h0]
      rfl
    exact ⟨Or.inl hzero, by simp [hzero]⟩
  | some false =>
    have hone : s.condition (some false) = 1 := by
      rw [ArState.condition, h0]
      rfl
    exact ⟨Or.inr hone, by simp [hone]⟩

theorem monitor_step (bus : ArBus μ) (h : MonitorInv list s cs)
    (hend : ¬ (list.line s.i).IsNextFlush) :
    MonitorInv list (s.step bus list) (nextConditions bus list s cs) ∧
      LineEffect bus list s cs (s.step bus list).ifFlag (nextConditions bus list s cs) := by
  obtain ⟨hloop, hflag, hnested⟩ := h
  generalize hd : cs.length = depth at hnested
  cases hnested with
  | last hline => exact absurd hline hend
  | plain hline hnext =>
    have hcs : nextConditions bus list s cs = cs := by
      rw [nextConditions, if_neg hline.1, if_neg hline.2.1]
    have hsame : (s.step bus list).ifFlag = s.ifFlag := by
      rw [step_line bus hline.2.2.1 hend hloop, command_of_not_if hline.1]
      simp only [if_neg hline.2.1, ArState.condition, ite_self]
    rw [hcs, hsame]
    refine ⟨⟨?_, ?_, ?_⟩, .plain hline⟩
    · rwa [step_line bus hline.2.2.1 hend hloop]
    · rwa [hsame]
    · rw [step_line bus hline.2.2.1 hend hloop, hd]
      exact hnext
  | openIf hline hnext =>
    obtain ⟨hendif, hfor, -, hwidth⟩ := isIf_exclusive hline
    have hstep := step_line bus hfor hend hloop
    rw [hwidth, Nat.cast_zero, add_zero] at hstep
    have hcs : nextConditions bus list s cs = (list.line s.i).holds bus s.data :: cs := if_pos hline
    have hnested' : list.Nested (s.step bus list).i (nextConditions bus list s cs).length := by
      rw [hstep, hcs, List.length_cons, hd]
      exact hnext
    have hloop' : (s.step bus list).loopFlag = false := by rwa [hstep]
    by_cases h0 : s.ifFlag = 0
    · have hflag' : (s.step bus list).ifFlag = s.condition (s.data.command bus list s.i).2 := by
        rw [hstep]
        exact if_pos h0
      obtain ⟨hcases, hiff⟩ := condition_cases h0 (s.data.command bus list s.i).2
      refine ⟨⟨hloop', hflag' ▸ hcases, hnested'⟩, ?_⟩
      rw [hcs]
      exact .executed hline h0 (hflag' ▸ hiff)
    · have hflag' : (s.step bus list).ifFlag = s.ifFlag := by
        rw [hstep]
        simp only [if_neg h0, if_neg hendif]
      refine ⟨⟨hloop', hflag' ▸ hflag, hnested'⟩, ?_⟩
      rw [hcs, hflag']
      exact .skipped hline h0
  | closeIf hline hnext =>
    obtain ⟨hif, hfor, -, hwidth⟩ := isEndif_exclusive hline
    obtain ⟨c, cs, rfl⟩ := List.exists_cons_of_length_eq_add_one hd
    have hstep := step_line bus hfor hend hloop
    rw [hwidth, Nat.cast_zero, add_zero] at hstep
    have hcs : nextConditions bus list s (c :: cs) = cs := by
      rw [nextConditions, if_neg hif, if_pos hline, List.tail_cons]
    have hflag' : (s.step bus list).ifFlag = 0 := by
      rw [hstep, command_of_not_if hif]
      rcases hflag with h0 | h1
      · simp only [h0, if_true, ArState.condition]
      · simp only [h1, if_pos hline]
        rfl
    rw [hcs, hflag']
    refine ⟨⟨?_, Or.inl hflag', ?_⟩, .endif hline⟩
    · rwa [hstep]
    · rw [hstep, Nat.succ_inj.mp hd]
      exact hnext

end Monitor

section Run

variable {m : μ} {n : ℕ}

theorem Reached.pred (h : Reached bus list m (n + 1)) : Reached bus list m n :=
  fun k hk => h k (hk.trans (Nat.le_succ n))

theorem stateAt_succ (bus : ArBus μ) (list : CheatsList) (m : μ) (n : ℕ) :
    stateAt bus list m (n + 1) = (stateAt bus list m n).step bus list :=
  Function.iterate_succ_apply' ..

theorem not_flush_of_reached (hs : MonitorInv list (stateAt bus list m n) (conditionsAt bus list m n))
    (h : Reached bus list m (n + 1)) : ¬ (list.line (stateAt bus list m n).i).IsNextFlush := by
  intro hflush
  have hnext : (stateAt bus list m (n + 1)).InList list := h (n + 1) le_rfl
  rw [stateAt_succ] at hnext
  obtain ⟨hloop, -, hnested⟩ := hs
  generalize (conditionsAt bus list m n).length = depth at hnested
  cases hnested with
  | last _ hi =>
    have hi' : ((stateAt bus list m n).step bus list).i = (stateAt bus list m n).i + 1 := by
      rw [ArState.step]
      split_ifs
      · rw [skip_nextFlush hflush, ArState.nextFlush, hloop]
        rfl
      · have hfor : ¬ (list.line (stateAt bus list m n).i).IsFor := fun hc =>
          absurd (hflush.1.symm.trans hc.1) (by decide)
        have hnext : ¬ (list.line (stateAt bus list m n).i).IsNext := fun hc =>
          absurd (hflush.2.symm.trans hc.2) (by decide)
        rw [ArState.execute, if_neg hfor, if_neg hnext, if_pos hflush, ArState.nextFlush, hloop]
        rfl
    rw [ArState.InList, hi', hi] at hnext
    exact lt_irrefl _ hnext
  | plain hline => exact hline.2.2.2 hflush
  | openIf hline => exact (isIf_exclusive hline).2.2.1 hflush
  | closeIf hline => exact (isEndif_exclusive hline).2.2.1 hflush

theorem monitorInv_at (h : list.Nested 0 0) (hn : Reached bus list m n) :
    MonitorInv list (stateAt bus list m n) (conditionsAt bus list m n) := by
  induction n with
  | zero => exact ⟨rfl, Or.inl rfl, h⟩
  | succ n ih =>
    rw [stateAt_succ]
    exact (monitor_step bus (ih hn.pred) (not_flush_of_reached (ih hn.pred) hn)).1

theorem lineEffect_at (h : list.Nested 0 0) (hn : Reached bus list m (n + 1)) :
    LineEffect bus list (stateAt bus list m n) (conditionsAt bus list m n)
      (stateAt bus list m (n + 1)).ifFlag (conditionsAt bus list m (n + 1)) := by
  rw [stateAt_succ]
  have hs := monitorInv_at h hn.pred
  exact (monitor_step bus hs (not_flush_of_reached hs hn)).2

/-- The flag is set by the innermost condition only. -/
theorem follows_of_evaluated (h : list.Nested 0 0) (hok : ConditionsEvaluated bus list m)
    (hn : Reached bus list m n) :
    ((stateAt bus list m n).ifFlag = 0 ↔ (conditionsAt bus list m n).all id = true) ∧
      (conditionsAt bus list m n).tail.all id = true := by
  induction n with
  | zero => exact ⟨⟨fun _ => rfl, fun _ => rfl⟩, rfl⟩
  | succ n ih =>
    obtain ⟨hflag, htail⟩ := ih hn.pred
    have hok := hok n hn.pred
    have heffect := lineEffect_at h hn
    generalize (stateAt bus list m (n + 1)).ifFlag = flag at heffect ⊢
    generalize conditionsAt bus list m n = cs, conditionsAt bus list m (n + 1) = cs'
      at hflag htail heffect ⊢
    cases heffect with
    | plain _ => exact ⟨hflag, htail⟩
    | executed hline h0 hcommand =>
      have hall := hflag.mp h0
      rw [hcommand, (conditionEvaluated_iff hline h0).mp (hok hline), List.all_cons, hall,
        List.tail_cons, id, Bool.and_true]
      exact ⟨Iff.rfl, hall⟩
    | skipped hline h0 => exact absurd (hok hline).executed h0
    | endif _ =>
      rw [List.tail_cons] at htail
      refine ⟨⟨fun _ => htail, fun _ => rfl⟩, ?_⟩
      rw [List.all_eq_true] at htail ⊢
      exact fun c hc => htail c (List.mem_of_mem_tail hc)

theorem reached_succ (h : list.Nested 0 0) (hn : Reached bus list m n)
    (hfor : ¬ (list.line (stateAt bus list m n).i).IsFor)
    (hflush : ¬ (list.line (stateAt bus list m n).i).IsNextFlush)
    {i : ℤ} {depth : ℕ} (hnext : list.Nested i depth)
    (hi : (stateAt bus list m n).i + (list.line (stateAt bus list m n).i).width + 1 = i) :
    (stateAt bus list m (n + 1)).i = i ∧ Reached bus list m (n + 1) := by
  have hi' : (stateAt bus list m (n + 1)).i = i := by
    rw [stateAt_succ, step_line bus hfor hflush (monitorInv_at h hn).loop, ← hi]
  refine ⟨hi', fun k hk => ?_⟩
  rcases Nat.le_succ_iff.mp hk with hk | rfl
  · exact hn k hk
  · change (stateAt bus list m (n + 1)).i < list.num
    rw [hi']
    exact hnext.lt

/-- A conditional inside of a skipped block ends its skipping. -/
theorem skipping_ends (h : list.Nested 0 0) {i : ℤ} {depth : ℕ} (hrest : list.Nested i depth)
    (hn : Reached bus list m n) (hi : (stateAt bus list m n).i = i)
    (hflag : (stateAt bus list m n).ifFlag ≠ 0) {c : Bool} {inner outer : List Bool}
    (hcs : conditionsAt bus list m n = c :: (inner ++ outer))
    (hdepth : (conditionsAt bus list m n).length = depth) (houter : outer.all id = false) :
    ∃ k, Reached bus list m k ∧ (stateAt bus list m k).ifFlag = 0 ∧
      (conditionsAt bus list m k).all id = false := by
  induction hrest generalizing n c inner with
  | last hline _ =>
    rw [hcs] at hdepth
    exact absurd hdepth (Nat.succ_ne_zero _)
  | plain hline hnext ih =>
    subst hi
    obtain ⟨hi', hn'⟩ := reached_succ h hn hline.2.2.1 hline.2.2.2 hnext rfl
    obtain ⟨hflag', hcs'⟩ := (lineEffect_at h hn').of_plain hline
    refine ih hn' hi' (hflag'.trans_ne hflag) (hcs'.trans hcs) ?_
    rw [hcs', hdepth]
  | openIf hline hnext ih =>
    subst hi
    obtain ⟨-, hfor, hflush, hwidth⟩ := isIf_exclusive hline
    obtain ⟨hi', hn'⟩ := reached_succ h hn hfor hflush hnext (by rw [hwidth, Nat.cast_zero, add_zero])
    obtain ⟨hflag', hcs'⟩ := (lineEffect_at h hn').of_skipped hline hflag
    rw [hcs, ← List.cons_append] at hcs'
    refine ih hn' hi' (hflag'.trans_ne hflag) hcs' ?_
    rw [hcs', List.cons_append, ← hcs, List.length_cons, hdepth]
  | closeIf hline hnext ih =>
    subst hi
    obtain ⟨-, hfor, hflush, hwidth⟩ := isEndif_exclusive hline
    obtain ⟨-, hn'⟩ := reached_succ h hn hfor hflush hnext (by rw [hwidth, Nat.cast_zero, add_zero])
    have heffect := lineEffect_at h hn'
    rw [hcs] at heffect
    obtain ⟨hflag', hcs'⟩ := heffect.of_endif hline
    refine ⟨n + 1, hn', hflag', ?_⟩
    rw [hcs', List.all_append, houter, Bool.and_false]

/-- The flag tells at every line whether the enclosing conditions hold exactly if every conditional
is executed and its condition is the documented one. -/
theorem linesFollow_iff (h : list.Nested 0 0) :
    LinesFollowConditions bus list m ↔ ConditionsEvaluated bus list m := by
  refine ⟨fun hfollow n hn hline => ?_, fun hok n hn => (follows_of_evaluated h hok hn).1⟩
  obtain ⟨hendif, hfor, hflush, hwidth⟩ := isIf_exclusive hline
  have hnested := (monitorInv_at h hn).nested
  generalize hdepth : (conditionsAt bus list m n).length = depth at hnested
  have hnext : list.Nested ((stateAt bus list m n).i + 1) (depth + 1) := by
    cases hnested with
    | last hc => exact absurd hc hflush
    | plain hc => exact absurd hline hc.1
    | openIf _ hnext => exact hnext
    | closeIf hc => exact absurd hc hendif
  obtain ⟨hi', hn'⟩ := reached_succ h hn hfor hflush hnext (by rw [hwidth, Nat.cast_zero, add_zero])
  have heffect := lineEffect_at h hn'
  by_cases h0 : (stateAt bus list m n).ifFlag = 0
  · rw [conditionEvaluated_iff hline h0]
    have hall := (hfollow n hn).mp h0
    have hall' := hfollow (n + 1) hn'
    generalize (stateAt bus list m (n + 1)).ifFlag = flag at heffect hall'
    generalize conditionsAt bus list m n = cs, conditionsAt bus list m (n + 1) = cs'
      at hall hall' heffect
    cases heffect with
    | plain hc => exact absurd hline hc.1
    | executed _ _ hcommand =>
      rw [hcommand, List.all_cons, hall, id, Bool.and_true] at hall'
      exact hall'
    | skipped _ hc => exact absurd h0 hc
    | endif hc => exact absurd hc hendif
  · -- met in a skipped block, the conditional ends the skipping
    obtain ⟨hflag', hcs'⟩ := heffect.of_skipped hline h0
    have hfalse : (conditionsAt bus list m n).all id = false :=
      Bool.eq_false_iff.mpr fun hc => h0 ((hfollow n hn).mpr hc)
    obtain ⟨k, hk, hflagk, hcsk⟩ := skipping_ends h hnext hn' hi' (hflag'.trans_ne h0)
      (show _ = _ :: ([] ++ _) from hcs') (by rw [hcs', List.length_cons, hdepth]) hfalse
    exact absurd ((hfollow k hk).mp hflagk) (Bool.eq_false_iff.mp hcsk)

theorem writesFollow_of_linesFollow (h : list.Nested 0 0) (hlines : LinesFollowConditions bus list m) :
    WritesFollowConditions bus list m := by
  intro n hn hwrite
  have hfor : ¬ (list.line (stateAt bus list m n).i).IsFor := fun hc => by
    rw [ArLine.IsWrite, hc.1, hc.2] at hwrite
    omega
  have hflush : ¬ (list.line (stateAt bus list m n).i).IsNextFlush := fun hc => by
    rw [ArLine.IsWrite, hc.1, hc.2] at hwrite
    omega
  rw [step_line bus hfor hflush (monitorInv_at h hn).loop]
  exact if_congr (hlines n hn) rfl rfl

end Run

/-- A write takes effect exactly if its conditions hold, as long as every conditional is executed
with its documented condition; and only so does the flag follow the conditions at every line. -/
theorem arParser_writes_follow_conditions (bus : ArBus μ) (m : μ) (h : list.Nested 0 0) :
    (ConditionsEvaluated bus list m → WritesFollowConditions bus list m) ∧
      (ConditionsEvaluated bus list m ↔ LinesFollowConditions bus list m) :=
  ⟨fun hok => writesFollow_of_linesFollow h ((linesFollow_iff h).mpr hok), (linesFollow_iff h).symm⟩

/-- A conditional in a skipped block, and a write behind it. -/
def nestedIf : CheatsList where
  code
    | 0 => (0x52000000#32, 1)
    | 1 => (0x52000004#32, 1)
    | 2 => (0xD0000000#32, 0)
    | 3 => (0x02000008#32, 5)
    | 4 => (0xD0000000#32, 0)
    | 5 => (0xD2000000#32, 0)
    | _ => (0, 0)
  num := 6
  num_le := by decide

theorem nestedIf_nested : nestedIf.Nested 0 0 :=
  .openIf (by decide) (.openIf (by decide) (.closeIf (by decide) (.plain (by decide)
    (.closeIf (by decide) (.last (by decide) rfl)))))

/-- With a memory of zeros the inner conditional ends the skipping of the outer one. -/
theorem nestedIf_writes :
    ¬ ∀ (bus : ArBus (BitVec 32 → BitVec 8)) (list : CheatsList) (m : BitVec 32 → BitVec 8),
      list.Nested 0 0 → WritesFollowConditions bus list m := by
  intro hall
  have hreached : Reached byteBus nestedIf (fun _ => 0) 3 := by
    intro k hk
    interval_cases k
    all_goals decide
  have h := hall byteBus nestedIf (fun _ => 0) nestedIf_nested 3 hreached (by decide)
  have hmem := congrFun (congrArg ArData.mem h) 0x02000008#32
  exact absurd hmem (by decide)

/-- A memory where both conditions of the list are true. -/
def onesAt : BitVec 32 → BitVec 8 := fun a => if a = 0x02000000#32 ∨ a = 0x02000004#32 then 1 else 0

theorem nestedIf_evaluated : ConditionsEvaluated byteBus nestedIf onesAt := by
  intro n hn hline
  have hlt : n < 6 := by
    by_contra hle
    exact absurd (hn 6 (not_lt.mp hle)) (by decide)
  interval_cases n
  · exact ⟨by decide, by decide, by decide⟩
  · exact ⟨by decide, by decide, by decide⟩
  all_goals exact absurd hline (by decide)

theorem nestedIf_follows : WritesFollowConditions byteBus nestedIf onesAt :=
  (arParser_writes_follow_conditions byteBus onesAt nestedIf_nested).1 nestedIf_evaluated

end Desmume.Cheat
