import Desmume.Cheat.ArConditionals

/-! The FOR loop of the codes: how often its lines are executed depends on the counter, which is
compared before it counts and only cleared by D2. -/

namespace Desmume.Cheat
open Library

variable {μ : Type*} {bus : ArBus μ} {list : CheatsList}

namespace ArLine

variable (line : ArLine)

/-- A line that only works on the data. -/
def IsStraight : Prop := ¬ line.IsIf ∧ ¬ line.IsFor ∧ ¬ line.IsNext ∧ ¬ line.IsNextFlush

/-- The end of a loop, D1 or D2. -/
def IsLoopEnd : Prop := line.IsNext ∨ line.IsNextFlush

instance : Decidable line.IsStraight := inferInstanceAs (Decidable (_ ∧ _))
instance : Decidable line.IsLoopEnd := inferInstanceAs (Decidable (_ ∨ _))

end ArLine

/-- The lines that are executed one after another from the line `i` to the line `e`. -/
inductive CheatsList.Body (list : CheatsList) : ℤ → List ℤ → ℤ → Prop
  | nil {e : ℤ} : Body list e [] e
  | cons {i e : ℤ} {js : List ℤ} (hline : (list.line i).IsStraight)
      (h : Body list (i + (list.line i).width + 1) js e) : Body list i (i :: js) e

section Spec

variable (bus : ArBus μ) (list : CheatsList)

/-- What the lines do to the data. -/
def bodyData (js : List ℤ) (d : ArData μ) : ArData μ :=
  js.foldl (fun d j => (d.command bus list j).1) d

/-- A loop that has come back to its FOR line. -/
def ArState.again (s : ArState μ) (js : List ℤ) : ArState μ :=
  { s with
    loopcount := s.loopcount + 1
    loopbackline := s.i
    loopFlag := true
    data := bodyData bus list js s.data }

/-- What the end of a loop does to the data when it is left. -/
def ArData.leave (line : ArLine) (d : ArData μ) : ArData μ :=
  if line.IsNextFlush then { d with offset := 0, datareg := 0, counter := 0 } else d

/-- From the FOR line of the state the lines of the loop are executed `n` times, then the interpreter
goes on behind its end `e`. -/
def ExecutedTimes (s : ArState μ) (js : List ℤ) (e : ℤ) (n : ℕ) : Prop :=
  ∃ N, (∀ k < N, ((ArState.step bus list)^[k] s).InList list) ∧
    trace (ArState.step bus list) ArState.i s N = (List.replicate n (s.i :: js ++ [e])).flatten ∧
    ((ArState.step bus list)^[N] s).i = e + 1 ∧ ((ArState.step bus list)^[N] s).ifFlag = 0 ∧
    ((ArState.step bus list)^[N] s).data =
      ArData.leave (list.line e) ((bodyData bus list js)^[n] s.data)

end Spec

/-- How often the lines are really executed. -/
def rounds (loopcount lo : BitVec 32) : ℕ := (lo + 1).toNat - loopcount.toNat + 1

section Step

variable {s : ArState μ}

theorem step_execute (h0 : s.ifFlag = 0) :
    s.step bus list = { s.execute bus list with i := (s.execute bus list).i + 1 } := by
  have hnot : ¬ 0 < s.ifFlag := by
    rw [h0]
    decide
  rw [ArState.step, if_neg hnot]

theorem step_for (bus : ArBus μ) (h0 : s.ifFlag = 0) (hline : (list.line s.i).IsFor) :
    s.step bus list =
      { s with
        i := s.i + 1
        loopcount := s.loopcount + 1
        loopbackline := s.i
        loopFlag := s.loopcount < (list.line s.i).lo + 1 } := by
  rw [step_execute h0, ArState.execute]
  simp only [if_pos hline]
  rfl

theorem step_straight (bus : ArBus μ) (h0 : s.ifFlag = 0) (hline : (list.line s.i).IsStraight) :
    s.step bus list =
      { s with
        i := s.i + (list.line s.i).width + 1
        data := (s.data.command bus list s.i).1 } := by
  obtain ⟨hif, hfor, hnext, hflush⟩ := hline
  have hwidth : (if (list.line s.i).type = 0xE then s.i + (list.line s.i).parameterLines else s.i) =
      s.i + (list.line s.i).width := by
    rw [ArLine.width]
    split_ifs
    · rfl
    · exact (add_zero _).symm
  rw [step_execute h0, ArState.execute]
  simp only [if_neg hfor, if_neg hnext, if_neg hflush, hwidth, command_of_not_if hif]
  rfl

theorem step_loopEnd_again (bus : ArBus μ) (h0 : s.ifFlag = 0) (hline : (list.line s.i).IsLoopEnd)
    (hflag : s.loopFlag = true) : s.step bus list = { s with i := s.loopbackline } := by
  have hfor : ¬ (list.line s.i).IsFor := by
    simp only [ArLine.IsLoopEnd, ArLine.IsFor, ArLine.IsNext, ArLine.IsNextFlush] at hline ⊢
    omega
  have hjump : s.loopbackline - 1 + 1 = s.loopbackline := Int.sub_add_cancel ..
  rw [step_execute h0, ArState.execute]
  rcases hline with hnext | hflush
  · simp only [if_neg hfor, if_pos hnext, ArState.next, hflag, if_true, hjump]
  · have hnext : ¬ (list.line s.i).IsNext := fun h => absurd (h.2.symm.trans hflush.2) (by decide)
    simp only [if_neg hfor, if_neg hnext, if_pos hflush, ArState.nextFlush, hflag, if_true, hjump]

theorem step_loopEnd_leave (bus : ArBus μ) (h0 : s.ifFlag = 0) (hline : (list.line s.i).IsLoopEnd)
    (hflag : s.loopFlag = false) :
    (s.step bus list).i = s.i + 1 ∧ (s.step bus list).ifFlag = 0 ∧
      (s.step bus list).data = s.data.leave (list.line s.i) := by
  have hfor : ¬ (list.line s.i).IsFor := by
    simp only [ArLine.IsLoopEnd, ArLine.IsFor, ArLine.IsNext, ArLine.IsNextFlush] at hline ⊢
    omega
  rw [step_execute h0, ArState.execute, ArData.leave]
  rcases hline with hnext | hflush
  · have hflush : ¬ (list.line s.i).IsNextFlush := fun h => absurd (h.2.symm.trans hnext.2) (by decide)
    simp only [if_neg hfor, if_pos hnext, if_neg hflush, ArState.next, hflag]
    exact ⟨rfl, h0, rfl⟩
  · have hnext : ¬ (list.line s.i).IsNext := fun h => absurd (h.2.symm.trans hflush.2) (by decide)
    simp only [if_neg hfor, if_neg hnext, if_pos hflush, ArState.nextFlush, hflag]
    exact ⟨rfl, rfl, rfl⟩

end Step

theorem CheatsList.Body.bounds {i e : ℤ} {js : List ℤ} (h : list.Body i js e) :
    i ≤ e ∧ ∀ j ∈ js, j < e := by
  induction h with
  | nil => exact ⟨le_rfl, fun j hj => absurd hj List.not_mem_nil⟩
  | cons hline h ih =>
    refine ⟨by omega, fun j hj => ?_⟩
    rcases List.mem_cons.mp hj with rfl | hj
    · omega
    · exact ih.2 j hj

/-- The lines between the ends of a loop. -/
theorem body_run (bus : ArBus μ) {s : ArState μ} {js : List ℤ} {e : ℤ} (h : list.Body s.i js e) (h0 : s.ifFlag = 0) :
    (ArState.step bus list)^[js.length] s = { s with i := e, data := bodyData bus list js s.data } ∧
      trace (ArState.step bus list) ArState.i s js.length = js := by
  generalize hi : s.i = i at h
  induction h generalizing s with
  | nil =>
    subst hi
    exact ⟨rfl, rfl⟩
  | cons hline h ih =>
    subst hi
    have hstep := step_straight bus h0 hline
    obtain ⟨hrun, htrace⟩ := ih (s := s.step bus list) (by rw [hstep]; exact h0) (by rw [hstep])
    rw [List.length_cons, Function.iterate_succ_apply, trace_succ, hrun, htrace, hstep]
    exact ⟨rfl, rfl⟩

section Loop

variable {s : ArState μ} {js : List ℤ} {e : ℤ}

/-- From the FOR line to the end of the loop. -/
theorem loop_run (bus : ArBus μ) (h0 : s.ifFlag = 0) (hfor : (list.line s.i).IsFor) (hbody : list.Body (s.i + 1) js e) :
    (ArState.step bus list)^[js.length + 1] s =
        { s with
          i := e
          loopcount := s.loopcount + 1
          loopbackline := s.i
          loopFlag := s.loopcount < (list.line s.i).lo + 1
          data := bodyData bus list js s.data } ∧
      trace (ArState.step bus list) ArState.i s (js.length + 1) = s.i :: js := by
  have hstep := step_for bus h0 hfor
  have hbody' : list.Body (s.step bus list).i js e := by rwa [hstep]
  obtain ⟨hrun, htrace⟩ := body_run bus hbody' (by rw [hstep]; exact h0)
  rw [Function.iterate_succ_apply, trace_succ, hrun, htrace, hstep]
  exact ⟨rfl, rfl⟩

theorem mem_rounds {n : ℕ} (hbody : list.Body (s.i + 1) js e) {j : ℤ}
    (hj : j ∈ (List.replicate n (s.i :: js ++ [e])).flatten) : j ≤ e := by
  obtain ⟨hle, hlt⟩ := hbody.bounds
  obtain ⟨l, hl, hj⟩ := List.mem_flatten.mp hj
  rw [List.eq_of_mem_replicate hl, List.mem_append, List.mem_cons, List.mem_singleton] at hj
  rcases hj with (rfl | hj) | rfl
  · omega
  · exact (hlt j hj).le
  · exact le_rfl

theorem length_rounds (n : ℕ) (i : ℤ) :
    (List.replicate n (i :: js ++ [e])).flatten.length = n * (js.length + 2) := by
  rw [List.length_flatten, List.map_replicate, List.sum_replicate_nat, List.length_append,
    List.length_cons, List.length_singleton]

/-- The loop is left once, so the number of its rounds is unique. -/
theorem ExecutedTimes.unique {m n : ℕ} (hbody : list.Body (s.i + 1) js e)
    (hm : ExecutedTimes bus list s js e m) (hn : ExecutedTimes bus list s js e n) : m = n := by
  have hfirst {m n M N : ℕ} (hleave : ((ArState.step bus list)^[M] s).i = e + 1)
      (htrace : trace (ArState.step bus list) ArState.i s N =
        (List.replicate n (s.i :: js ++ [e])).flatten) : N ≤ M := by
    by_contra hlt
    have hmem := mem_trace (ArState.step bus list) ArState.i s (not_le.mp hlt)
    rw [htrace, hleave] at hmem
    have := mem_rounds hbody hmem
    omega
  obtain ⟨M, -, hM, hleaveM, -⟩ := hm
  obtain ⟨N, -, hN, hleaveN, -⟩ := hn
  have heq : M = N := le_antisymm (hfirst (m := m) hleaveN hM) (hfirst (m := m) hleaveM hN)
  subst heq
  have hlength := congrArg List.length (hM.symm.trans hN)
  rw [length_rounds, length_rounds] at hlength
  exact Nat.eq_of_mul_eq_mul_right (Nat.succ_pos _) hlength

variable (he : e < list.num) (hend : (list.line e).IsLoopEnd)
include he hend

/-- The last round. -/
theorem executedTimes_one (h0 : s.ifFlag = 0) (hfor : (list.line s.i).IsFor)
    (hbody : list.Body (s.i + 1) js e) (hflag : ¬ s.loopcount < (list.line s.i).lo + 1) :
    ExecutedTimes bus list s js e 1 := by
  obtain ⟨hrun, htrace⟩ := loop_run bus h0 hfor hbody
  have hround : trace (ArState.step bus list) ArState.i s (js.length + 2) =
      (List.replicate 1 (s.i :: js ++ [e])).flatten := by
    rw [trace_add _ _ _ (js.length + 1) 1, htrace, hrun]
    exact (List.append_nil _).symm
  refine ⟨js.length + 2, fun k hk => ?_, hround, ?_⟩
  · have hmem := mem_trace (ArState.step bus list) ArState.i s hk
    rw [hround] at hmem
    exact (mem_rounds hbody hmem).trans_lt he
  · rw [Function.iterate_succ_apply', hrun]
    exact step_loopEnd_leave bus (s := { s with
      i := e
      loopcount := s.loopcount + 1
      loopbackline := s.i
      loopFlag := s.loopcount < (list.line s.i).lo + 1
      data := bodyData bus list js s.data }) h0 hend (decide_eq_false hflag)

/-- A round behind which the loop goes on. -/
theorem executedTimes_succ {n : ℕ} (h0 : s.ifFlag = 0) (hfor : (list.line s.i).IsFor)
    (hbody : list.Body (s.i + 1) js e) (hflag : s.loopcount < (list.line s.i).lo + 1)
    (hrest : ExecutedTimes bus list (s.again bus list js) js e n) :
    ExecutedTimes bus list s js e (n + 1) := by
  obtain ⟨hrun, htrace⟩ := loop_run bus h0 hfor hbody
  have hagain : (ArState.step bus list)^[js.length + 2] s = s.again bus list js := by
    rw [Function.iterate_succ_apply', hrun, step_loopEnd_again bus (by exact h0) (by exact hend)
      (decide_eq_true hflag), decide_eq_true hflag]
    rfl
  obtain ⟨N, hin, hrounds, hleave, hif, hdata⟩ := hrest
  have hiter (k : ℕ) : (ArState.step bus list)^[js.length + 2 + k] s =
      (ArState.step bus list)^[k] (s.again bus list js) := by
    rw [Nat.add_comm, Function.iterate_add_apply, hagain]
  have htotal : trace (ArState.step bus list) ArState.i s (js.length + 2 + N) =
      (List.replicate (n + 1) (s.i :: js ++ [e])).flatten := by
    rw [trace_add, hagain, hrounds, trace_add _ _ _ (js.length + 1) 1, htrace, hrun]
    rfl
  refine ⟨js.length + 2 + N, fun k hk => ?_, htotal, ?_⟩
  · have hmem := mem_trace (ArState.step bus list) ArState.i s hk
    rw [htotal] at hmem
    exact (mem_rounds hbody hmem).trans_lt he
  · rw [hiter]
    exact ⟨hleave, hif, hdata⟩

theorem executedTimes_rounds (bus : ArBus μ) (h0 : s.ifFlag = 0) (hfor : (list.line s.i).IsFor)
    (hbody : list.Body (s.i + 1) js e) :
    ExecutedTimes bus list s js e (rounds s.loopcount (list.line s.i).lo) := by
  rw [rounds]
  generalize hm : ((list.line s.i).lo + 1).toNat - s.loopcount.toNat = m
  -- the rounds that are left, counted by the loop itself
  induction m generalizing s with
  | zero =>
    refine executedTimes_one he hend h0 hfor hbody fun hflag => ?_
    rw [BitVec.lt_def] at hflag
    omega
  | succ m ih =>
    have hflag : s.loopcount < (list.line s.i).lo + 1 := by
      rw [BitVec.lt_def]
      omega
    obtain ⟨hcount, -⟩ := toNat_count hflag
    refine executedTimes_succ he hend h0 hfor hbody hflag (ih h0 hfor hbody ?_)
    change ((list.line s.i).lo + 1).toNat - (s.loopcount + 1).toNat = m
    omega

theorem executedTimes_iff (h0 : s.ifFlag = 0) (hfor : (list.line s.i).IsFor)
    (hbody : list.Body (s.i + 1) js e) (n : ℕ) :
    ExecutedTimes bus list s js e n ↔ n = rounds s.loopcount (list.line s.i).lo := by
  have hrounds := executedTimes_rounds he hend bus h0 hfor hbody
  constructor
  · exact fun h => h.unique hbody hrounds
  · rintro rfl
    exact hrounds

end Loop

theorem rounds_eq_iff (loopcount lo : BitVec 32) :
    lo.toNat + 1 = rounds loopcount lo ↔
      lo ≠ BitVec.allOnes 32 ∧ (loopcount = 1 ∨ lo = 0 ∧ loopcount ≠ 0) := by
  have hlo := lo.isLt
  have h0 : (0 : BitVec 32).toNat = 0 := rfl
  have h1 : (1 : BitVec 32).toNat = 1 := rfl
  have hall : lo = BitVec.allOnes 32 ↔ lo.toNat = 2 ^ 32 - 1 := by
    rw [← BitVec.toNat_inj, BitVec.toNat_allOnes]
  rw [rounds, Ne, hall, ← BitVec.toNat_inj, ← BitVec.toNat_inj, Ne, ← BitVec.toNat_inj,
    BitVec.toNat_add, h0, h1]
  omega

/-- The lines of a loop are executed once more than its parameter only if the counter starts with
one, for the parameter zero with more, and never for the largest parameter. -/
theorem loop_executed_iff (bus : ArBus μ) (list : CheatsList) (s : ArState μ) (js : List ℤ) (e : ℤ)
    (h0 : s.ifFlag = 0) (hfor : (list.line s.i).IsFor) (hbody : list.Body (s.i + 1) js e)
    (hend : (list.line e).IsLoopEnd) (he : e < list.num) :
    ExecutedTimes bus list s js e ((list.line s.i).lo.toNat + 1) ↔
      (list.line s.i).lo ≠ BitVec.allOnes 32 ∧
        (s.loopcount = 1 ∨ (list.line s.i).lo = 0 ∧ s.loopcount ≠ 0) := by
  rw [executedTimes_iff he hend h0 hfor hbody, rounds_eq_iff]

/-- One round of a byte that is stored at the offset. -/
def storeLoop : CheatsList where
  code
    | 0 => (0xC0000000#32, 0)
    | 1 => (0xD8000000#32, 0x02000000#32)
    | 2 => (0xD1000000#32, 0)
    | _ => (0, 0)
  num := 3
  num_le := three_le_maxXxCode

theorem storeLoop_body : storeLoop.Body 1 [1] 2 := .cons (by decide) .nil

theorem loop_executed_iff_storeLoop :
    ExecutedTimes byteBus storeLoop { ArState.start (fun _ => 0) with loopcount := 1 } [1] 2 1 :=
  (loop_executed_iff byteBus storeLoop { ArState.start (fun _ => 0) with loopcount := 1 } [1] 2 rfl
    (by decide) storeLoop_body (by decide) (by decide)).mpr (by decide)

/-- The first loop of a list stores twice where it should store once. -/
theorem storeLoop_twice :
    ¬ ExecutedTimes byteBus storeLoop (ArState.start fun _ => 0) [1] 2
      ((storeLoop.line 0).lo.toNat + 1) := by
  rw [executedTimes_iff (by decide) (by decide) rfl (by decide) storeLoop_body]
  decide

end Desmume.Cheat
