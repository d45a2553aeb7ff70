import Desmume.Cheat.ArDefs

/-! The interpreter of the codes terminates unless the end of a loop in a skipped block sends it
back again and again: the FOR line it gets back to is skipped as well, so it does not count. -/

namespace Desmume.Cheat
open Library Filter

variable {μ : Type*} {bus : ArBus μ} {list : CheatsList}

/-- The line jumps back to the loop although its block is skipped. -/
def SkippedJump (list : CheatsList) (s : ArState μ) : Prop :=
  0 < s.ifFlag ∧ (list.line s.i).IsNextFlush ∧ s.loopFlag = true

/-- The FOR loop of two states is the same. -/
structure SameLoop (s s' : ArState μ) : Prop where
  back : s'.loopbackline = s.loopbackline
  count : s'.loopcount = s.loopcount
  flag : s'.loopFlag = s.loopFlag

/-- What a line does to the control state. -/
inductive Control (list : CheatsList) (s s' : ArState μ) : Prop
  | forward (hi : s.i < s'.i) (hloop : SameLoop s s')
      (hline : ¬ (s.ifFlag = 0 ∧ (list.line s.i).IsFor))
  | flush (hi : s.i < s'.i) (hflag : s.loopFlag = false) (hflag' : s'.loopFlag = false)
      (hback : s'.loopbackline = s.loopbackline)
  | forLoop (hline : (list.line s.i).IsFor) (hi : s'.i = s.i + 1) (hback : s'.loopbackline = s.i)
      (hflag : s'.loopFlag = decide (s.loopcount < (list.line s.i).lo + 1))
      (hcount : s'.loopcount = s.loopcount + 1)
  | jump (hif : s.ifFlag = 0) (hif' : s'.ifFlag = 0) (hline : ¬ (list.line s.i).IsFor)
      (hflag : s.loopFlag = true) (hi : s'.i = s.loopbackline) (hloop : SameLoop s s')
  | skippedJump (hskip : SkippedJump list s) (hi : s'.i = s.loopbackline) (hloop : SameLoop s s')

section Step

variable {s : ArState μ}

theorem skip_nextFlush (h : (list.line s.i).IsNextFlush) : s.skip list = s.nextFlush := by
  have hcopy : (list.line s.i).type ≠ 0xE := by
    rw [h.1]
    decide
  have hendif : ¬ (list.line s.i).IsEndif := by
    rw [ArLine.IsEndif, h.2]
    exact fun hc => absurd hc.2 (by decide)
  simp only [ArState.skip, if_neg hcopy, if_neg hendif, if_pos h]

theorem skip_plain (h : ¬ (list.line s.i).IsNextFlush) :
    s.i ≤ (s.skip list).i ∧ SameLoop s (s.skip list) := by
  simp only [ArState.skip, if_neg h]
  split_ifs
  all_goals
    refine ⟨?_, rfl, rfl, rfl⟩
    first
      | exact le_rfl
      | exact le_add_of_nonneg_right (Int.natCast_nonneg _)

theorem skip_control (hif : 0 < s.ifFlag) :
    Control list s { s.skip list with i := (s.skip list).i + 1 } := by
  have hne : s.ifFlag ≠ 0 := fun h => absurd hif (by rw [h]; decide)
  by_cases hflush : (list.line s.i).IsNextFlush
  · rw [skip_nextFlush hflush, ArState.nextFlush]
    split_ifs with hflag
    · exact .skippedJump ⟨hif, hflush, hflag⟩ (Int.sub_add_cancel ..) ⟨rfl, rfl, rfl⟩
    · exact .flush (Int.lt_succ _) (Bool.eq_false_iff.mpr hflag) rfl rfl
  · obtain ⟨hi, hloop⟩ := skip_plain hflush
    refine .forward (Int.lt_add_one_of_le hi) ?_ fun h => hne h.1
    exact ⟨hloop.back, hloop.count, hloop.flag⟩

theorem execute_plain (bus : ArBus μ) (hfor : ¬ (list.line s.i).IsFor)
    (hnext : ¬ (list.line s.i).IsNext) (hflush : ¬ (list.line s.i).IsNextFlush) :
    s.i ≤ (s.execute bus list).i ∧ SameLoop s (s.execute bus list) := by
  simp only [ArState.execute, if_neg hfor, if_neg hnext, if_neg hflush]
  refine ⟨?_, rfl, rfl, rfl⟩
  split_ifs
  · exact le_add_of_nonneg_right (Int.natCast_nonneg _)
  · exact le_rfl

theorem execute_control (hif : s.ifFlag = 0) :
    Control list s { s.execute bus list with i := (s.execute bus list).i + 1 } := by
  by_cases hfor : (list.line s.i).IsFor
  · simp only [ArState.execute, if_pos hfor]
    exact .forLoop hfor rfl rfl rfl rfl
  by_cases hnext : (list.line s.i).IsNext
  · simp only [ArState.execute, if_neg hfor, if_pos hnext]
    rw [ArState.next]
    split_ifs with hflag
    · exact .jump hif hif hfor hflag (Int.sub_add_cancel ..) ⟨rfl, rfl, rfl⟩
    · exact .forward (Int.lt_succ _) ⟨rfl, rfl, rfl⟩ fun h => hfor h.2
  by_cases hflush : (list.line s.i).IsNextFlush
  · simp only [ArState.execute, if_neg hfor, if_neg hnext, if_pos hflush]
    rw [ArState.nextFlush]
    split_ifs with hflag
    · exact .jump hif hif hfor hflag (Int.sub_add_cancel ..) ⟨rfl, rfl, rfl⟩
    · exact .flush (Int.lt_succ _) (Bool.eq_false_iff.mpr hflag) rfl rfl
  · obtain ⟨hi, hloop⟩ := execute_plain bus hfor hnext hflush
    refine .forward (Int.lt_add_one_of_le hi) ?_ fun h => hfor h.2
    exact ⟨hloop.back, hloop.count, hloop.flag⟩

theorem step_control (s : ArState μ) : Control list s (s.step bus list) := by
  rw [ArState.step]
  by_cases hif : 0 < s.ifFlag
  · rw [if_pos hif]
    exact skip_control hif
  · rw [if_neg hif]
    exact execute_control (BitVec.le_zero_iff.mp (BitVec.not_lt.mp hif))

end Step

/-- A running loop goes back to a FOR line, which has counted its rounds. -/
structure ArInv (list : CheatsList) (s : ArState μ) : Prop where
  nonneg : 0 ≤ s.loopbackline
  back : s.loopbackline ≤ s.i
  isFor : s.loopFlag = true → (list.line s.loopbackline).IsFor
  count : s.loopFlag = true → s.loopcount.toNat ≤ (list.line s.loopbackline).lo.toNat + 1

/-! A running loop has the lines behind it left for a new one, then its own rounds, then the way to
its end. -/

section Measure

variable (list : CheatsList) (s : ArState μ)

def linesLeft : ℕ :=
  if s.loopFlag then list.num - (s.loopbackline.toNat + 1) else list.num - s.i.toNat

def roundsLeft : ℕ :=
  if s.loopFlag then (list.line s.loopbackline).lo.toNat + 2 - s.loopcount.toNat else 0

def stepsLeft : ℕ :=
  if s.ifFlag = 0 ∧ s.i = s.loopbackline then 0 else list.num - s.i.toNat + 1

def workLeft : ℕ ×ₗ ℕ ×ₗ ℕ := toLex (linesLeft list s, toLex (roundsLeft list s, stepsLeft list s))

end Measure

theorem workLeft_lt {s s' : ArState μ} (hlines : linesLeft list s' ≤ linesLeft list s)
    (h : linesLeft list s' < linesLeft list s ∨ roundsLeft list s' < roundsLeft list s ∨
      roundsLeft list s' = roundsLeft list s ∧ stepsLeft list s' < stepsLeft list s) :
    workLeft list s' < workLeft list s := by
  rw [workLeft, workLeft, Prod.Lex.toLex_lt_toLex, Prod.Lex.toLex_lt_toLex]
  rcases hlines.lt_or_eq with hlt | heq
  · exact Or.inl hlt
  · exact Or.inr ⟨heq, h.resolve_left fun hlt => hlt.ne heq⟩

section Run

variable {s s' : ArState μ}

theorem toNat_count {lo count : BitVec 32} (h : count < lo + 1) :
    (count + 1).toNat = count.toNat + 1 ∧ count.toNat ≤ lo.toNat := by
  have hlt : count.toNat < (lo.toNat + 1) % 2 ^ 32 := by
    rw [BitVec.lt_def, BitVec.toNat_add] at h
    exact h
  have hmod := Nat.mod_le (lo.toNat + 1) (2 ^ 32)
  have hcount := lo.isLt
  refine ⟨?_, by omega⟩
  rw [BitVec.toNat_add]
  exact Nat.mod_eq_of_lt (by change _ + 1 < _; omega)

theorem ArInv.of_sameLoop (h : ArInv list s) (hi : s.loopbackline ≤ s'.i)
    (hloop : SameLoop s s') : ArInv list s' := by
  refine ⟨?_, ?_, fun hflag => ?_, fun hflag => ?_⟩
  · rw [hloop.back]
    exact h.nonneg
  · rwa [hloop.back]
  · rw [hloop.back]
    exact h.isFor (hloop.flag ▸ hflag)
  · rw [hloop.back, hloop.count]
    exact h.count (hloop.flag ▸ hflag)

theorem ArInv.control (h : ArInv list s) (hc : Control list s s') : ArInv list s' := by
  cases hc with
  | forward hi hloop _ => exact h.of_sameLoop (h.back.trans hi.le) hloop
  | flush hi hflag hflag' hback =>
    refine ⟨?_, ?_, fun hf => ?_, fun hf => ?_⟩
    · rw [hback]
      exact h.nonneg
    · rw [hback]
      exact h.back.trans hi.le
    all_goals exact Bool.noConfusion (hflag'.symm.trans hf)
  | forLoop hline hi hback hflag hcount =>
    refine ⟨?_, ?_, fun _ => ?_, fun hf => ?_⟩
    · rw [hback]
      exact h.nonneg.trans h.back
    · rw [hback, hi]
      exact (Int.lt_succ _).le
    · rwa [hback]
    · obtain ⟨hnat, hle⟩ := toNat_count (of_decide_eq_true (hflag.symm.trans hf))
      rw [hback, hcount, hnat]
      exact Nat.succ_le_succ hle
  | jump _ _ _ _ hi hloop => exact h.of_sameLoop hi.ge hloop
  | skippedJump _ hi hloop => exact h.of_sameLoop hi.ge hloop

theorem linesLeft_sameLoop (list : CheatsList) (hflag : s.loopFlag = true) (hloop : SameLoop s s') :
    linesLeft list s' = linesLeft list s := by
  rw [linesLeft, linesLeft, hloop.flag, hloop.back, hflag]
  rfl

theorem roundsLeft_sameLoop (hloop : SameLoop s s') : roundsLeft list s' = roundsLeft list s := by
  rw [roundsLeft, roundsLeft, hloop.flag, hloop.back, hloop.count]

/-- A line that is no FOR, or skipped, is not the one the loop has jumped to. -/
theorem stepsLeft_of_not_for (h : ArInv list s) (hflag : s.loopFlag = true)
    (hline : ¬ (s.ifFlag = 0 ∧ (list.line s.i).IsFor)) :
    stepsLeft list s = list.num - s.i.toNat + 1 := by
  refine if_neg fun hjumped => hline ⟨hjumped.1, ?_⟩
  rw [hjumped.2]
  exact h.isFor hflag

theorem workLeft_control (h : ArInv list s) (hi : s.InList list) (hskip : ¬ SkippedJump list s)
    (hc : Control list s s') : workLeft list s' < workLeft list s := by
  have hpos : 0 ≤ s.i := h.nonneg.trans h.back
  have hback := h.back
  have hnonneg := h.nonneg
  rw [ArState.InList] at hi
  cases hc with
  | forward hnext hloop hline =>
    cases hflag : s.loopFlag with
    | true =>
      -- a running loop: one line less to its end
      have hlines := linesLeft_sameLoop list hflag hloop
      refine workLeft_lt hlines.le (Or.inr (Or.inr ⟨roundsLeft_sameLoop hloop, ?_⟩))
      rw [stepsLeft_of_not_for h hflag hline, stepsLeft]
      split_ifs
      · exact Nat.succ_pos _
      · omega
    | false =>
      have hlt : linesLeft list s' < linesLeft list s := by
        rw [linesLeft, linesLeft, hloop.flag, hflag]
        simp only [Bool.false_eq_true, if_false]
        omega
      exact workLeft_lt hlt.le (Or.inl hlt)
  | flush hnext hflag hflag' hback =>
    have hlt : linesLeft list s' < linesLeft list s := by
      rw [linesLeft, linesLeft, hflag, hflag']
      simp only [Bool.false_eq_true, if_false]
      omega
    exact workLeft_lt hlt.le (Or.inl hlt)
  | forLoop hline hnext hback' hflag' hcount =>
    have hlines' : linesLeft list s' = list.num - (s.i.toNat + 1) := by
      rw [linesLeft, hback', hnext]
      split_ifs <;> omega
    cases hflag : s.loopFlag with
    | true =>
      have hlines : linesLeft list s = list.num - (s.loopbackline.toNat + 1) := by
        rw [linesLeft, hflag, if_pos rfl]
      rcases hback.lt_or_eq with hlt | heq
      · refine workLeft_lt ?_ (Or.inl ?_) <;> omega
      · -- the loop has come back to its FOR line: one round less
        refine workLeft_lt (by omega) (Or.inr (Or.inl ?_))
        have hle := h.count hflag
        rw [heq] at hle
        rw [roundsLeft, roundsLeft, hflag, if_pos rfl, heq, hback']
        split_ifs with hagain
        · obtain ⟨hnat, hcountle⟩ := toNat_count (of_decide_eq_true (hflag'.symm.trans hagain))
          rw [hcount, hnat]
          omega
        · omega
    | false =>
      have hlt : linesLeft list s' < linesLeft list s := by
        rw [hlines', linesLeft, hflag]
        simp only [Bool.false_eq_true, if_false]
        omega
      exact workLeft_lt hlt.le (Or.inl hlt)
  | jump hif hif' hline hflag hnext hloop =>
    have hlines := linesLeft_sameLoop list hflag hloop
    refine workLeft_lt hlines.le (Or.inr (Or.inr ⟨roundsLeft_sameLoop hloop, ?_⟩))
    rw [stepsLeft_of_not_for h hflag fun hc => hline hc.2, stepsLeft,
      if_pos ⟨hif', hnext.trans hloop.back.symm⟩]
    exact Nat.succ_pos _
  | skippedJump hbad _ _ => exact absurd hbad hskip

end Run

theorem start_inv (m : μ) : ArInv list (ArState.start m) :=
  ⟨le_rfl, le_rfl, fun h => Bool.noConfusion h, fun h => Bool.noConfusion h⟩

/-- The interpreter terminates exactly if it jumps back from a skipped block finitely often. -/
theorem arParser_terminates_iff (bus : ArBus μ) (list : CheatsList) (m : μ) :
    Terminates (ArState.InList list) (ArState.step bus list) (ArState.start m) ↔
      ∀ᶠ n in atTop,
        Runs (ArState.InList list) (ArState.step bus list) (ArState.start m) n →
          ¬ SkippedJump list ((ArState.step bus list)^[n] (ArState.start m)) :=
  terminates_iff_eventually (workLeft list) (fun s h _ => h.control (step_control s))
    (fun s h hi hskip => workLeft_control h hi hskip (step_control s)) (start_inv m)

theorem arParser_terminates_of_no_nextFlush (bus : ArBus μ) (m : μ)
    (h : ∀ i < list.num, ¬ ArLine.IsNextFlush (list.code i)) :
    Terminates (ArState.InList list) (ArState.step bus list) (ArState.start m) := by
  have hdown (s : ArState μ) (hs : ArInv list s) (hi : s.InList list) (_ : ¬ False) :
      workLeft list (s.step bus list) < workLeft list s := by
    refine workLeft_control hs hi (fun hskip => h s.i.toNat ?_ hskip.2.1) (step_control s)
    have hpos := hs.nonneg.trans hs.back
    rw [ArState.InList] at hi
    omega
  refine (terminates_iff_eventually (workLeft list) (fun s h _ => h.control (step_control s)) hdown
    (start_inv m)).mpr ?_
  exact Eventually.of_forall fun _ _ h => h

/-- A memory of bytes, the low byte of a word first. -/
def byteBus : ArBus (BitVec 32 → BitVec 8) where
  read32 a m := (m (a + 3) ++ m (a + 2) ++ m (a + 1) ++ m a, m)
  read16 a m := (m (a + 1) ++ m a, m)
  read08 a m := (m a, m)
  write32 a v m := fun b => if b - a < 4 then (v >>> (8 * (b - a))).setWidth 8 else m b
  write16 a v m := fun b => if b - a < 2 then (v >>> (8 * (b - a))).setWidth 8 else m b
  write08 a v m := Function.update m a v

/-- A loop around a condition that fails, closed by D2. -/
def skippedLoop : CheatsList where
  code
    | 0 => (0xC0000000#32, 5)
    | 1 => (0x52000000#32, 1)
    | 2 => (0xD2000000#32, 0)
    | _ => (0, 0)
  num := 3
  num_le := three_le_maxXxCode

/-- In its loop at the line `i`, with a memory of zeros. -/
def looping (i : ℤ) (ifFlag : BitVec 32) : ArState (BitVec 32 → BitVec 8) :=
  ⟨i, ifFlag, 1, 0, true, ⟨0, 0, 0, fun _ => 0⟩⟩

/-- Once the condition has failed the loop is skipped for ever. -/
theorem skippedLoop_diverges :
    ¬ ∀ (bus : ArBus (BitVec 32 → BitVec 8)) (list : CheatsList) (m : BitVec 32 → BitVec 8),
      Terminates (ArState.InList list) (ArState.step bus list) (ArState.start m) := by
  intro hall
  refine not_terminates_of_trap
    (P := fun s => s = ArState.start (fun _ => 0) ∨ s = looping 1 0 ∨ s = looping 2 1 ∨
      s = looping 0 1 ∨ s = looping 1 1) ?_ (Or.inl rfl) (hall byteBus skippedLoop fun _ => 0)
  rintro s (rfl | rfl | rfl | rfl | rfl)
  · exact ⟨by decide, Or.inr (Or.inl rfl)⟩
  · exact ⟨by decide, Or.inr (Or.inr (Or.inl rfl))⟩
  · exact ⟨by decide, Or.inr (Or.inr (Or.inr (Or.inl rfl)))⟩
  · exact ⟨by decide, Or.inr (Or.inr (Or.inr (Or.inr rfl)))⟩
  · exact ⟨by decide, Or.inr (Or.inr (Or.inl rfl))⟩

end Desmume.Cheat
