import Desmume.Timers.TimerRead

/-! The event of a timer and the timers chained to it. The event passes on one overflow of its
timer, however many have gone by. -/

namespace Desmume.Timers
open Library

namespace Timer

variable (t : Timer)

/-- One count of a counter, with the reload if it overflows. -/
def count : Timer := if t.timer + 1 = 0 then t.countUp.1.reload else t.countUp.1

/-- The counter after a number of counts, and how often it overflowed. -/
def countMany (t : Timer) : ℕ → Timer × ℕ
  | 0 => (t, 0)
  | n + 1 =>
    let r := countMany t.count n
    (r.1, (if t.timer + 1 = 0 then 1 else 0) + r.2)

theorem countMany_counted (t : Timer) (n : ℕ) :
    (t.countMany n).1.counted = t.counted + n := by
  induction n generalizing t with
  | zero => rfl
  | succ n ih =>
    have hcount : t.count.counted = t.counted + 1 := by
      unfold count
      split_ifs <;> rfl
    show (t.count.countMany n).1.counted = _
    rw [ih, hcount]
    omega

end Timer

/-! ### What the chain owes -/

section Chain

variable (s : TimerState) (proc : Proc) (num due : ℕ)

/-- Whether timer `i` counts the overflows of the one before it. -/
def Chained (i : ℕ) : Prop := i < 4 ∧ (s.timers proc i).CountsUp

instance (i : ℕ) : Decidable (Chained s proc i) := inferInstanceAs (Decidable (_ ∧ _))

/-- How often each timer overflows when timer `num` overflows `due` times. -/
def overflows : ℕ → ℕ
  | 0 => if 0 = num then due else 0
  | i + 1 =>
    if i + 1 = num then due
    else if Chained s proc (i + 1) then ((s.timers proc (i + 1)).countMany (overflows i)).2
    else 0

/-- How often each timer is counted up then. -/
def advances : ℕ → ℕ
  | 0 => 0
  | i + 1 =>
    if i + 1 = num then 0 else if Chained s proc (i + 1) then overflows s proc num due i else 0

/-- The overflows of a running timer up to the current time, from the one that is due. -/
def dueOverflows : ℕ :=
  (s.ndsTimer - (s.timers proc num).timerCycle) / (s.timers proc num).period + 1

/-- The chain after the event of timer `num`: every other timer is counted up as often as the
timer before it overflows, the interrupts are those of the timers that overflowed, and the next
overflow is ahead by at most a period. -/
structure ChainServed (s : TimerState) (proc : Proc) (num due : ℕ) (s' : TimerState) : Prop where
  counted : ∀ i < 4, (s'.timers proc i).counted =
    (s.timers proc i).counted + advances s proc num due i
  counter : ∀ i < 4, i ≠ num →
    s'.timers proc i = ((s.timers proc i).countMany (advances s proc num due i)).1
  irqs : ∃ new, s'.irqs = s.irqs ++ new ∧ ∀ i < 4,
    (proc, TimerState.irqBitTimer0 + i) ∈ new ↔
      0 < overflows s proc num due i ∧ s.irqEnabled proc i = true
  ahead : s.ndsTimer < (s'.timers proc num).timerCycle
  within : (s'.timers proc num).timerCycle ≤ s.ndsTimer + (s.timers proc num).period

end Chain

/-! ### What the event does -/

theorem catchUp_bounds {period : ℕ} (hperiod : 0 < period) {now cycle : ℕ} (h : cycle ≤ now) :
    now < catchUp period hperiod now cycle ∧ catchUp period hperiod now cycle ≤ now + period := by
  induction hn : now + 1 - cycle using Nat.strong_induction_on generalizing cycle with
  | _ n ih =>
    rw [catchUp, if_pos h]
    by_cases hnext : cycle + period ≤ now
    · exact ih _ (by omega) hnext rfl
    · rw [catchUp, if_neg hnext]
      omega

variable {s : TimerState} {proc : Proc} {num due : ℕ}

theorem overflows_base (hnum : num < 4) : overflows s proc num due num = due := by
  cases num with
  | zero => exact if_pos rfl
  | succ num => exact if_pos rfl

theorem overflows_before {i : ℕ} (h : i < num) : overflows s proc num due i = 0 := by
  induction i with
  | zero => exact if_neg (Nat.ne_of_lt h)
  | succ i ih =>
    rw [overflows, if_neg (Nat.ne_of_lt h), ih (by omega)]
    split_ifs <;> rfl

theorem advances_before {i : ℕ} (h : i ≤ num) : advances s proc num due i = 0 := by
  cases i with
  | zero => rfl
  | succ i =>
    rw [advances, overflows_before (by omega)]
    split_ifs <;> rfl

/-- Behind a timer that does not overflow nothing is counted. -/
theorem chain_ends {i j : ℕ} (hi : num ≤ i) (h : overflows s proc num due i = 0) (hj : i < j) :
    overflows s proc num due j = 0 ∧ advances s proc num due j = 0 := by
  induction j with
  | zero => exact absurd hj (Nat.not_lt_zero _)
  | succ j ih =>
    have hbefore : overflows s proc num due j = 0 := by
      rcases Nat.eq_or_lt_of_le (Nat.le_of_lt_succ hj) with rfl | hlt
      · exact h
      · exact (ih hlt).1
    have hne : j + 1 ≠ num := by omega
    rw [overflows, advances, if_neg hne, if_neg hne, hbefore]
    refine ⟨?_, ?_⟩
    · split_ifs <;> rfl
    · split_ifs <;> rfl

theorem overflows_chained {i : ℕ} (hi : num < i + 1) (hc : Chained s proc (i + 1)) :
    overflows s proc num due (i + 1) =
      ((s.timers proc (i + 1)).countMany (overflows s proc num due i)).2 := by
  rw [overflows, if_neg (Nat.ne_of_gt hi), if_pos hc]

theorem advances_chained {i : ℕ} (hi : num < i + 1) (hc : Chained s proc (i + 1)) :
    advances s proc num due (i + 1) = overflows s proc num due i := by
  rw [advances, if_neg (Nat.ne_of_gt hi), if_pos hc]

theorem unchained {i : ℕ} (hi : num < i) (hc : ¬ Chained s proc i) :
    overflows s proc num due i = 0 ∧ advances s proc num due i = 0 := by
  obtain ⟨k, rfl⟩ := Nat.exists_eq_succ_of_ne_zero (Nat.ne_zero_of_lt hi)
  rw [overflows, advances, if_neg (Nat.ne_of_gt hi), if_neg (Nat.ne_of_gt hi), if_neg hc,
    if_neg hc]
  exact ⟨rfl, rfl⟩

/-- The interrupts of the timers below `i`. -/
def IrqsBelow (s : TimerState) (proc : Proc) (num i : ℕ) (irqs : List (Proc × ℕ)) : Prop :=
  ∃ new, irqs = s.irqs ++ new ∧ ∀ q k, (q, k) ∈ new ↔
    ∃ j < i, q = proc ∧ k = TimerState.irqBitTimer0 + j ∧ 0 < overflows s proc num 1 j ∧
      s.irqEnabled proc j = true

/-- The state before the loop looks at timer `i`: the timers up to it are served for one overflow
of the base. -/
structure Serving (s : TimerState) (proc : Proc) (num i : ℕ) (s' : TimerState) : Prop where
  index : num < i
  passed : overflows s proc num 1 (i - 1) = 1
  ndsTimer : s'.ndsTimer = s.ndsTimer
  regs : s'.regs = s.regs
  base : s'.timers proc num = ((s.caughtUp proc num).timers proc num).reload
  below : ∀ j < i, j ≠ num →
    s'.timers proc j = ((s.timers proc j).countMany (advances s proc num 1 j)).1
  above : ∀ j, i ≤ j → s'.timers proc j = s.timers proc j
  irqs : IrqsBelow s proc num i s'.irqs

/-- The state after the loop. -/
structure Served (s : TimerState) (proc : Proc) (num : ℕ) (s' : TimerState) : Prop where
  ndsTimer : s'.ndsTimer = s.ndsTimer
  regs : s'.regs = s.regs
  base : s'.timers proc num = ((s.caughtUp proc num).timers proc num).reload
  counter : ∀ j, j ≠ num →
    s'.timers proc j = ((s.timers proc j).countMany (advances s proc num 1 j)).1
  irqs : IrqsBelow s proc num 4 s'.irqs

theorem irqEnabled_congr {s' : TimerState} (h : s'.regs = s.regs) (i : ℕ) :
    s'.irqEnabled proc i = s.irqEnabled proc i := by
  rw [TimerState.irqEnabled, h, ← TimerState.irqEnabled]

theorem overflow_irqs (s : TimerState) (proc : Proc) (i : ℕ) :
    (s.overflow proc i).irqs =
      s.irqs ++ if s.irqEnabled proc i then [(proc, TimerState.irqBitTimer0 + i)] else [] := by
  unfold TimerState.overflow
  dsimp only
  split_ifs
  · rfl
  · exact (List.append_nil _).symm

/-- One timer more is served. -/
theorem IrqsBelow.succ {i : ℕ} {irqs : List (Proc × ℕ)} (h : IrqsBelow s proc num i irqs)
    (hover : overflows s proc num 1 i = 1) :
    IrqsBelow s proc num (i + 1)
      (irqs ++ if s.irqEnabled proc i then [(proc, TimerState.irqBitTimer0 + i)] else []) := by
  obtain ⟨new, rfl, hnew⟩ := h
  refine ⟨_, List.append_assoc _ _ _, ?_⟩
  intro q k
  have hlast : (q, k) ∈ (if s.irqEnabled proc i then [(proc, TimerState.irqBitTimer0 + i)] else
      ([] : List (Proc × ℕ))) ↔
      q = proc ∧ k = TimerState.irqBitTimer0 + i ∧ s.irqEnabled proc i = true := by
    split_ifs with hen
    · simp [hen]
    · simp [hen]
  rw [List.mem_append, hnew, hlast]
  constructor
  · rintro (⟨j, hj, hrest⟩ | ⟨hq, hk, hen⟩)
    · exact ⟨j, Nat.lt_succ_of_lt hj, hrest⟩
    · exact ⟨i, Nat.lt_succ_self i, hq, hk, by rw [hover]; exact Nat.one_pos, hen⟩
  · rintro ⟨j, hj, hq, hk, hpos, hen⟩
    rcases Nat.lt_succ_iff_lt_or_eq.mp hj with hlt | rfl
    · exact .inl ⟨j, hlt, hq, hk, hpos, hen⟩
    · exact .inr ⟨hq, hk, hen⟩

theorem IrqsBelow.rest {i : ℕ} {irqs : List (Proc × ℕ)} (h : IrqsBelow s proc num i irqs)
    (hi : i ≤ 4) (hnone : ∀ j, i ≤ j → j < 4 → overflows s proc num 1 j = 0) :
    IrqsBelow s proc num 4 irqs := by
  obtain ⟨new, hirqs, hnew⟩ := h
  refine ⟨new, hirqs, fun q k => ?_⟩
  rw [hnew]
  constructor
  · rintro ⟨j, hj, hrest⟩
    exact ⟨j, Nat.lt_of_lt_of_le hj hi, hrest⟩
  · rintro ⟨j, hj, hq, hk, hpos, hen⟩
    by_cases hlt : j < i
    · exact ⟨j, hlt, hq, hk, hpos, hen⟩
    · rw [hnone j (Nat.le_of_not_lt hlt) hj] at hpos
      exact absurd hpos (Nat.lt_irrefl 0)

theorem count_eq {t : Timer} (h : t.timer + 1 ≠ 0) : t.countMany 1 = (t.countUp.1, 0) := by
  have hcount : t.count = t.countUp.1 := if_neg h
  show (t.count, (if t.timer + 1 = 0 then 1 else 0) + 0) = _
  rw [hcount, if_neg h]

theorem count_over {t : Timer} (h : t.timer + 1 = 0) : t.countMany 1 = (t.countUp.1.reload, 1) := by
  have hcount : t.count = t.countUp.1.reload := if_pos h
  show (t.count, (if t.timer + 1 = 0 then 1 else 0) + 0) = _
  rw [hcount, if_pos h]

/-- The overflow of the base starts the chain. -/
theorem serving_base (hnum : num < 4) :
    Serving s proc num (num + 1) ((s.caughtUp proc num).overflow proc num) where
  index := Nat.lt_succ_self num
  passed := overflows_base hnum
  ndsTimer := overflow_ndsTimer
  regs := overflow_regs
  base := by
    rw [overflow_timers]
    exact setTimer_self _
  below := by
    intro j hj hne
    have hlt : j < num := by omega
    rw [overflow_of_ne (.inr hne), caughtUp_of_ne (.inr hne), advances_before (Nat.le_of_lt hlt)]
    rfl
  above := by
    intro j hj
    have hne : j ≠ num := by omega
    rw [overflow_of_ne (.inr hne), caughtUp_of_ne (.inr hne)]
  irqs := by
    have hempty : IrqsBelow s proc num num s.irqs := by
      refine ⟨[], (List.append_nil _).symm, fun q k => ?_⟩
      constructor
      · intro hmem
        cases hmem
      · rintro ⟨j, hj, -, -, hpos, -⟩
        rw [overflows_before hj] at hpos
        exact absurd hpos (Nat.lt_irrefl 0)
    have hen : (s.caughtUp proc num).irqEnabled proc num = s.irqEnabled proc num :=
      irqEnabled_congr rfl num
    rw [overflow_irqs, hen]
    exact hempty.succ (overflows_base hnum)

section Turn

variable {i : ℕ} {s' : TimerState}

theorem Serving.ne (h : Serving s proc num i s') : i ≠ num := Nat.ne_of_gt h.index

theorem Serving.chained (h : Serving s proc num i s') (hi : i < 4)
    (hc : (s'.timers proc i).CountsUp) : Chained s proc i :=
  ⟨hi, by rwa [h.above i le_rfl] at hc⟩

/-- The timer under the loop is counted up once. -/
theorem Serving.advances (h : Serving s proc num i s') (hc : Chained s proc i) :
    advances s proc num 1 i = 1 := by
  have hindex := h.index
  obtain ⟨k, rfl⟩ := Nat.exists_eq_succ_of_ne_zero (Nat.ne_zero_of_lt hindex)
  exact (advances_chained hindex hc).trans h.passed

theorem Serving.overflows (h : Serving s proc num i s') (hc : Chained s proc i) :
    overflows s proc num 1 i = ((s.timers proc i).countMany 1).2 := by
  have hindex := h.index
  obtain ⟨k, rfl⟩ := Nat.exists_eq_succ_of_ne_zero (Nat.ne_zero_of_lt hindex)
  have hpassed : Timers.overflows s proc num 1 k = 1 := h.passed
  rw [overflows_chained hindex hc, hpassed]

theorem Serving.stop (h : Serving s proc num i s') (hle : i ≤ 4)
    (hstop : 4 ≤ i ∨ ¬ (s'.timers proc i).CountsUp) : Served s proc num s' := by
  have hno : ¬ Chained s proc i := by
    rintro ⟨hlt, hup⟩
    rcases hstop with hge | hno
    · exact absurd hlt (Nat.not_lt_of_le hge)
    · rw [h.above i le_rfl] at hno
      exact hno hup
  have hlast : Timers.overflows s proc num 1 i = 0 ∧ Timers.advances s proc num 1 i = 0 :=
    unchained h.index hno
  have hrest : ∀ j, i ≤ j →
      Timers.overflows s proc num 1 j = 0 ∧ Timers.advances s proc num 1 j = 0 := by
    intro j hj
    rcases Nat.eq_or_lt_of_le hj with rfl | hlt
    · exact hlast
    · exact chain_ends (Nat.le_of_lt h.index) hlast.1 hlt
  refine ⟨h.ndsTimer, h.regs, h.base, ?_, h.irqs.rest hle fun j hj _ => (hrest j hj).1⟩
  intro j hne
  by_cases hj : j < i
  · exact h.below j hj hne
  · rw [h.above j (Nat.le_of_not_lt hj), (hrest j (Nat.le_of_not_lt hj)).2]
    rfl

theorem Serving.count (h : Serving s proc num i s') (hi : i < 4)
    (hup : (s'.timers proc i).CountsUp) (hover : (s'.timers proc i).timer + 1 ≠ 0) :
    Served s proc num (s'.countedUp proc i) := by
  have hc := h.chained hi hup
  have hsame := h.above i le_rfl
  rw [hsame] at hover
  have hzero : Timers.overflows s proc num 1 i = 0 := by
    rw [h.overflows hc, count_eq hover]
  refine ⟨h.ndsTimer, h.regs, (countedUp_of_ne (.inr h.ne.symm)).trans h.base, ?_,
    h.irqs.rest (Nat.le_of_lt hi) ?_⟩
  · intro j hne
    rcases Nat.lt_trichotomy j i with hlt | rfl | hgt
    · rw [countedUp_of_ne (.inr (Nat.ne_of_lt hlt)), h.below j hlt hne]
    · rw [h.advances hc, count_eq hover, TimerState.countedUp, setTimer_self, hsame]
    · rw [countedUp_of_ne (.inr (Nat.ne_of_gt hgt)), h.above j (Nat.le_of_lt hgt),
        (chain_ends (Nat.le_of_lt h.index) hzero hgt).2]
      rfl
  · intro j hj _
    rcases Nat.eq_or_lt_of_le hj with rfl | hlt
    · exact hzero
    · exact (chain_ends (Nat.le_of_lt h.index) hzero hlt).1

theorem Serving.carry (h : Serving s proc num i s') (hi : i < 4)
    (hup : (s'.timers proc i).CountsUp) (hover : (s'.timers proc i).timer + 1 = 0) :
    Serving s proc num (i + 1) ((s'.countedUp proc i).overflow proc i) := by
  have hc := h.chained hi hup
  have hsame := h.above i le_rfl
  rw [hsame] at hover
  have hone : Timers.overflows s proc num 1 i = 1 := by
    rw [h.overflows hc, count_over hover]
  have hother : ∀ j, j ≠ i →
      ((s'.countedUp proc i).overflow proc i).timers proc j = s'.timers proc j := fun j hne => by
    rw [overflow_of_ne (.inr hne), countedUp_of_ne (.inr hne)]
  refine ⟨Nat.lt_succ_of_lt h.index, hone, overflow_ndsTimer.trans h.ndsTimer,
    overflow_regs.trans h.regs, (hother num h.ne.symm).trans h.base, ?_, ?_, ?_⟩
  · intro j hj hne
    rcases Nat.lt_succ_iff_lt_or_eq.mp hj with hlt | rfl
    · rw [hother j (Nat.ne_of_lt hlt), h.below j hlt hne]
    · rw [h.advances hc, count_over hover, overflow_timers, setTimer_self, TimerState.countedUp,
        setTimer_self, hsame]
  · intro j hj
    rw [hother j (by omega), h.above j (by omega)]
  · have hen : (s'.countedUp proc i).irqEnabled proc i = s.irqEnabled proc i :=
      irqEnabled_congr h.regs i
    rw [overflow_irqs, hen]
    exact h.irqs.succ hone

end Turn

/-- The event of a running timer serves the chain for one overflow. -/
theorem exec_served (hnum : num < 4) (hbase : (s.timers proc num).Runs) :
    Served s proc num (s.exec proc num) := by
  rw [exec_eq hnum hbase]
  refine execLoop_invariant (fun i s' => i ≤ 4 ∧ Serving s proc num i s') ?_ ?_ ?_
    ⟨hnum, serving_base hnum⟩
  · exact fun i s' hs' hstop => hs'.2.stop hs'.1 hstop
  · exact fun i s' hs' hi hup hover => hs'.2.count hi hup hover
  · exact fun i s' hs' hi hup hover => ⟨hi, hs'.2.carry hi hup hover⟩

/-! ### Late events -/

theorem dueOverflows_eq_one_iff (htrig : s.Triggered proc num) :
    dueOverflows s proc num = 1 ↔
      s.ndsTimer < (s.timers proc num).timerCycle + (s.timers proc num).period := by
  have hdue := htrig.2
  have hpos := (s.timers proc num).period_pos
  rw [dueOverflows, Nat.add_eq_right, Nat.div_eq_zero_iff_lt hpos]
  omega

/-- One overflow and several make the same of a chain without a second timer. -/
theorem single_chain (h : due = 1 ∨ ¬ Chained s proc (num + 1)) (hdue : 0 < due) (i : ℕ) :
    advances s proc num due i = advances s proc num 1 i ∧
      (0 < overflows s proc num due i ↔ 0 < overflows s proc num 1 i) := by
  rcases h with rfl | hno
  · exact ⟨rfl, Iff.rfl⟩
  · rcases Nat.lt_trichotomy i num with hlt | rfl | hgt
    · rw [advances_before (Nat.le_of_lt hlt), advances_before (Nat.le_of_lt hlt),
        overflows_before hlt, overflows_before hlt]
      exact ⟨rfl, Iff.rfl⟩
    · refine ⟨(advances_before le_rfl).trans (advances_before le_rfl).symm, ?_⟩
      cases i with
      | zero => exact iff_of_true hdue Nat.one_pos
      | succ i =>
        rw [overflows, overflows, if_pos rfl, if_pos rfl]
        exact iff_of_true hdue Nat.one_pos
    · have hnext : ∀ d, overflows s proc num d i = 0 ∧ advances s proc num d i = 0 := by
        intro d
        have hfirst : overflows s proc num d (num + 1) = 0 ∧ advances s proc num d (num + 1) = 0 :=
          unchained (Nat.lt_succ_self num) hno
        rcases Nat.eq_or_lt_of_le (Nat.succ_le_of_lt hgt) with rfl | hlt
        · exact hfirst
        · exact chain_ends (Nat.le_succ num) hfirst.1 hlt
      rw [(hnext due).1, (hnext due).2, (hnext 1).1, (hnext 1).2]
      exact ⟨rfl, Iff.rfl⟩

theorem Served.chainServed {s' : TimerState} (h : Served s proc num s')
    (htrig : s.Triggered proc num) (hdue : 0 < due)
    (hchain : due = 1 ∨ ¬ Chained s proc (num + 1)) : ChainServed s proc num due s' where
  counted := by
    intro i _
    rw [(single_chain hchain hdue i).1]
    by_cases hi : i = num
    · subst hi
      rw [h.base, TimerState.caughtUp, setTimer_self, advances_before le_rfl]
      rfl
    · rw [h.counter i hi, Timer.countMany_counted]
  counter := by
    intro i _ hi
    rw [(single_chain hchain hdue i).1, h.counter i hi]
  irqs := by
    obtain ⟨new, hirqs, hnew⟩ := h.irqs
    refine ⟨new, hirqs, fun i hi => ?_⟩
    rw [hnew, (single_chain hchain hdue i).2]
    constructor
    · rintro ⟨j, -, -, hk, hrest⟩
      obtain rfl := Nat.add_left_cancel hk
      exact hrest
    · exact fun hrest => ⟨i, hi, rfl, rfl, hrest⟩
  ahead := by
    rw [h.base, TimerState.caughtUp, setTimer_self]
    exact (catchUp_bounds _ htrig.2).1
  within := by
    rw [h.base, TimerState.caughtUp, setTimer_self]
    exact (catchUp_bounds _ htrig.2).2

/-- A chained timer is counted up once, however often its predecessor overflowed. -/
theorem Served.not_chainServed {s' : TimerState} (h : Served s proc num s')
    (hlate : due ≠ 1) (hchain : Chained s proc (num + 1)) : ¬ ChainServed s proc num due s' := by
  intro hserved
  have hnum : num < 4 := Nat.lt_of_succ_lt hchain.1
  have hcounted := hserved.counted (num + 1) hchain.1
  rw [h.counter (num + 1) (Nat.succ_ne_self num), Timer.countMany_counted,
    advances_chained (Nat.lt_succ_self num) hchain, advances_chained (Nat.lt_succ_self num) hchain,
    overflows_base hnum, overflows_base hnum] at hcounted
  exact hlate (Nat.add_left_cancel hcounted).symm

/-- The event of a timer serves the chain for all the overflows that are due exactly if it is less
than a period late or no timer counts the overflows. -/
theorem exec_chainServed_iff (hnum : num < 4) (htrig : s.Triggered proc num) :
    ChainServed s proc num (dueOverflows s proc num) (s.exec proc num) ↔
      s.ndsTimer < (s.timers proc num).timerCycle + (s.timers proc num).period ∨
        ¬ Chained s proc (num + 1) := by
  have hserved := exec_served hnum htrig.1
  rw [← dueOverflows_eq_one_iff htrig]
  constructor
  · intro h
    by_contra hno
    obtain ⟨hlate, hchain⟩ := not_or.mp hno
    exact hserved.not_chainServed hlate (not_not.mp hchain) h
  · exact fun h => hserved.chainServed htrig (Nat.succ_pos _) h

/-- A timer with a period of two cycles and a second one that counts its overflows. -/
def chainSample (now : ℕ) : Option TimerState :=
  runM timerStep timerReset [.writeReload .arm9 0 0xFFFF, .writeControl .arm9 0 0xC0 0,
    .writeReload .arm9 1 0xFFFE, .writeControl .arm9 1 0xC4 0, .advance now]

theorem exec_chainServed_onTime :
    ∃ s, chainSample 3 = some s ∧
      (ChainServed s .arm9 0 (dueOverflows s .arm9 0) (s.exec .arm9 0) ↔
        s.ndsTimer < (s.timers .arm9 0).timerCycle + (s.timers .arm9 0).period ∨
          ¬ Chained s .arm9 (0 + 1)) :=
  ⟨_, rfl, exec_chainServed_iff (by decide) (by decide)⟩

/-- Four cycles later two overflows are due, and the second timer counts one. -/
theorem exec_chain_late :
    ∃ s, chainSample 4 = some s ∧ s.Triggered .arm9 0 ∧
      ¬ ChainServed s .arm9 0 (dueOverflows s .arm9 0) (s.exec .arm9 0) :=
  ⟨_, rfl, by decide, (exec_served (by decide) (by decide)).not_chainServed (by decide) (by decide)⟩

end Desmume.Timers
