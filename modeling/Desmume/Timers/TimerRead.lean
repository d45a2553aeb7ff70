import Desmume.Timers.TimerDefs
import Mathlib.Data.Nat.Basic

/-! The value read from a running counter, computed back from the time of its next overflow. At
the ticks of its clock the result is one short of the ticks that have passed. -/

namespace Desmume.Timers
open Library

variable {t : Timer} {now : ℕ}

/-- A running counter that had the value `c` at a moment `e` cycles ago, its next overflow not yet
due. -/
structure Elapsed (t : Timer) (now c e : ℕ) : Prop where
  runs : t.Runs
  shift : t.timerMode ≤ 11
  value : c < 65536
  due : t.timerCycle + e = now + (65536 - c) * 2 ^ t.timerMode
  early : now ≤ t.timerCycle

theorem readTimer_runs (h : t.Runs) (hearly : now ≤ t.timerCycle)
    (hfits : t.timerCycle - now < 2 ^ 31) :
    t.readTimer now = some (if 65536 ≤ (t.timerCycle - now) / 2 ^ t.timerMode then 0
      else BitVec.ofNat 16 (65535 - (t.timerCycle - now) / 2 ^ t.timerMode)) := by
  have hdiff : s32 ((t.timerCycle : ℤ) - now) = ((t.timerCycle - now : ℕ) : ℤ) := by
    rw [← Nat.cast_sub hearly]
    exact s32_natCast hfits
  unfold Timer.readTimer
  rw [if_neg h.2, if_neg (not_not.mpr h.1)]
  simp only [hdiff]
  rw [if_neg (Int.not_lt.mpr (Int.natCast_nonneg _)), Nat.shiftLeft_eq, Nat.one_mul,
    ← Int.ofNat_tdiv]
  generalize (t.timerCycle - now) / 2 ^ t.timerMode = units
  rcases Nat.lt_trichotomy units 65536 with hlt | rfl | hgt
  · have hunits : (65535 : ℤ) - units = ((65535 - units : ℕ) : ℤ) := by omega
    rw [if_neg (by omega), if_neg (by omega), if_neg (by omega), hunits, BitVec.ofInt_natCast]
  · rfl
  · rw [if_neg (by omega), if_pos (by omega), if_pos (by omega)]

/-- What is read some time after the counter had a known value. -/
def readBack (c m e : ℕ) : ℕ :=
  if 2 ^ m ∣ e then if c = 0 ∧ e = 0 then 0 else c + e / 2 ^ m - 1 else c + e / 2 ^ m

theorem Elapsed.readTimer {c e : ℕ} (h : Elapsed t now c e) :
    ∃ v, t.readTimer now = some v ∧ v.toNat = readBack c t.timerMode e := by
  obtain ⟨hruns, hshift, hvalue, hdue, hearly⟩ := h
  have hpos : 0 < 2 ^ t.timerMode := Nat.two_pow_pos _
  have hsmall : 2 ^ t.timerMode ≤ 2 ^ 11 := Nat.pow_le_pow_right (by decide) hshift
  have hleft : t.timerCycle - now = 2 ^ t.timerMode * (65536 - c) - e := by
    rw [Nat.mul_comm]
    omega
  have hfits : t.timerCycle - now < 2 ^ 31 := by
    have hmul : (65536 - c) * 2 ^ t.timerMode ≤ 65536 * 2 ^ 11 :=
      Nat.mul_le_mul (by omega) hsmall
    omega
  refine ⟨_, readTimer_runs hruns hearly hfits, ?_⟩
  have hle : e ≤ 2 ^ t.timerMode * (65536 - c) := by
    rw [Nat.mul_comm]
    omega
  rw [hleft]
  unfold readBack
  by_cases hdvd : 2 ^ t.timerMode ∣ e
  · -- a whole number of ticks is left
    have hdiv : e / 2 ^ t.timerMode ≤ 65536 - c := Nat.div_le_of_le_mul hle
    have hzero : e / 2 ^ t.timerMode = 0 ↔ e = 0 := by
      rw [Nat.div_eq_zero_iff_lt hpos]
      refine ⟨fun hlt => Nat.eq_zero_of_dvd_of_lt hdvd hlt, fun he => ?_⟩
      rw [he]
      exact hpos
    rw [Nat.mul_sub_div_of_dvd (Nat.ne_of_gt hpos) hdvd, if_pos hdvd]
    generalize e / 2 ^ t.timerMode = ticks at hdiv hzero ⊢
    by_cases hstart : c = 0 ∧ e = 0
    · rw [if_pos hstart, hstart.1, hzero.mpr hstart.2]
      rfl
    · have hlt : ¬ 65536 ≤ 65536 - c - ticks := fun hge =>
        hstart ⟨by omega, hzero.mp (by omega)⟩
      rw [if_neg hlt, if_neg hstart, BitVec.toNat_ofNat]
      omega
  · have hne : e ≠ 0 := fun he => hdvd (he ▸ Nat.dvd_zero _)
    obtain ⟨k, rfl⟩ := Nat.exists_eq_succ_of_ne_zero hne
    have hk : k < 2 ^ t.timerMode * (65536 - c) := hle
    have hfloor : (k + 1) / 2 ^ t.timerMode = k / 2 ^ t.timerMode := Nat.succ_div_of_not_dvd hdvd
    have hdiv : k / 2 ^ t.timerMode < 65536 - c := Nat.div_lt_of_lt_mul hk
    rw [Nat.mul_sub_div _ _ _ hk, if_neg hdvd, hfloor]
    generalize k / 2 ^ t.timerMode = ticks at hdiv ⊢
    rw [if_neg (by omega), BitVec.toNat_ofNat]
    omega

theorem readBack_eq_iff (c m e : ℕ) :
    readBack c m e = c + e / 2 ^ m ↔ ¬ 2 ^ m ∣ e ∨ c = 0 ∧ e = 0 := by
  have hpos : 0 < 2 ^ m := Nat.two_pow_pos _
  unfold readBack
  split_ifs with hdvd hstart
  · rw [hstart.1, hstart.2, Nat.zero_div]
    exact iff_of_true rfl (.inr ⟨rfl, rfl⟩)
  · refine iff_of_false (fun heq => hstart ?_) ?_
    · have hzero : e / 2 ^ m = 0 := by
        generalize e / 2 ^ m = ticks at heq ⊢
        omega
      rw [Nat.div_eq_zero_iff_lt hpos] at hzero
      have he : e = 0 := Nat.eq_zero_of_dvd_of_lt hdvd hzero
      rw [he, Nat.zero_div] at heq
      exact ⟨by omega, he⟩
    · rintro (hno | hstart')
      · exact hno hdvd
      · exact hstart hstart'
  · exact iff_of_true rfl (.inl hdvd)

/-! ### What leaves a running counter alone -/

section Frame

variable {s : TimerState} {proc q : Proc} {i j : ℕ}

@[simp] theorem setTimer_self (t : Timer) : (s.setTimer proc i t).timers proc i = t := by
  simp [TimerState.setTimer]

theorem setTimer_of_ne (t : Timer) (h : q ≠ proc ∨ j ≠ i) :
    (s.setTimer proc i t).timers q j = s.timers q j := by
  unfold TimerState.setTimer
  dsimp only
  by_cases hq : q = proc
  · subst hq
    rw [Function.update_self, Function.update_of_ne (h.resolve_left (not_not.mpr rfl))]
  · rw [Function.update_of_ne hq]

theorem overflow_timers :
    (s.overflow proc i).timers = (s.setTimer proc i (s.timers proc i).reload).timers := by
  unfold TimerState.overflow
  dsimp only
  split_ifs <;> rfl

@[simp] theorem overflow_ndsTimer : (s.overflow proc i).ndsTimer = s.ndsTimer := by
  unfold TimerState.overflow
  dsimp only
  split_ifs <;> rfl

@[simp] theorem overflow_regs : (s.overflow proc i).regs = s.regs := by
  unfold TimerState.overflow
  dsimp only
  split_ifs <;> rfl

theorem overflow_of_ne (h : q ≠ proc ∨ j ≠ i) :
    (s.overflow proc i).timers q j = s.timers q j := by
  rw [overflow_timers, setTimer_of_ne _ h]

theorem caughtUp_of_ne (h : q ≠ proc ∨ j ≠ i) :
    (s.caughtUp proc i).timers q j = s.timers q j := setTimer_of_ne _ h

theorem countedUp_of_ne (h : q ≠ proc ∨ j ≠ i) :
    (s.countedUp proc i).timers q j = s.timers q j := setTimer_of_ne _ h

/-- What one turn of the loop of the event can do. -/
inductive ExecTurn (proc : Proc) (first : Bool) (i : ℕ) (s : TimerState) : TimerState → Prop
  | stop (h : 4 ≤ i ∨ ¬ (s.timers proc i).CountsUp ∧ ((s.timers proc i).Runs → first = false)) :
    ExecTurn proc first i s s
  | count (hi : i < 4) (hcount : (s.timers proc i).CountsUp)
      (hover : (s.timers proc i).timer + 1 ≠ 0) : ExecTurn proc first i s (s.countedUp proc i)
  | carry (hi : i < 4) (hcount : (s.timers proc i).CountsUp)
      (hover : (s.timers proc i).timer + 1 = 0) :
    ExecTurn proc first i s
      (((s.countedUp proc i).overflow proc i).execLoop proc first (i + 1))
  | base (hi : i < 4) (hruns : (s.timers proc i).Runs) (hfirst : first = true) :
    ExecTurn proc first i s (((s.caughtUp proc i).overflow proc i).execLoop proc false (i + 1))

theorem execLoop_turn (first : Bool) (i : ℕ) (s : TimerState) :
    ExecTurn proc first i s (s.execLoop proc first i) := by
  rw [TimerState.execLoop]
  by_cases hi : i < 4
  · rw [if_pos hi]
    by_cases hon : (s.timers proc i).timerOn = true
    · rw [if_neg (not_not.mpr hon)]
      by_cases hmode : (s.timers proc i).timerMode = countUpMode
      · rw [if_pos hmode]
        have hflag : (s.timers proc i).countUp.2 = true ↔ (s.timers proc i).timer + 1 = 0 :=
          decide_eq_true_iff
        by_cases hover : (s.timers proc i).timer + 1 = 0
        · rw [if_pos (hflag.mpr hover)]
          exact .carry hi ⟨hon, hmode⟩ hover
        · rw [if_neg (mt hflag.mp hover)]
          exact .count hi ⟨hon, hmode⟩ hover
      · rw [if_neg hmode]
        by_cases hfirst : first = true
        · rw [if_neg (not_not.mpr hfirst)]
          exact .base hi ⟨hon, hmode⟩ hfirst
        · rw [if_pos hfirst]
          exact .stop (.inr ⟨fun h => hmode h.2, fun _ => Bool.eq_false_of_not_eq_true hfirst⟩)
    · rw [if_pos hon]
      exact .stop (.inr ⟨fun h => hon h.1, fun h => absurd h.1 hon⟩)
  · rw [if_neg hi]
    exact .stop (.inl (Nat.le_of_not_lt hi))

/-- A property that the parts of a turn keep is kept by the loop behind its base. -/
theorem execLoop_invariant (Inv : ℕ → TimerState → Prop) {P : TimerState → Prop}
    (hstop : ∀ i s, Inv i s → (4 ≤ i ∨ ¬ (s.timers proc i).CountsUp) → P s)
    (hcount : ∀ i s, Inv i s → i < 4 → (s.timers proc i).CountsUp →
      (s.timers proc i).timer + 1 ≠ 0 → P (s.countedUp proc i))
    (hcarry : ∀ i s, Inv i s → i < 4 → (s.timers proc i).CountsUp →
      (s.timers proc i).timer + 1 = 0 → Inv (i + 1) ((s.countedUp proc i).overflow proc i))
    {i : ℕ} {s : TimerState} (hs : Inv i s) : P (s.execLoop proc false i) := by
  induction hn : 4 - i using Nat.strong_induction_on generalizing i s with
  | _ n ih =>
    have hturn : ExecTurn proc false i s (s.execLoop proc false i) := execLoop_turn false i s
    revert hturn
    generalize s.execLoop proc false i = s'
    intro hturn
    cases hturn with
    | stop h => exact hstop i _ hs (h.imp_right And.left)
    | count hi hc hover => exact hcount i s hs hi hc hover
    | carry hi hc hover => exact ih (4 - (i + 1)) (by omega) (hcarry i s hs hi hc hover) rfl
    | base _ _ hfirst => cases hfirst

/-- The event of a timer that runs starts with its own overflow. -/
theorem exec_eq {num : ℕ} (hnum : num < 4) (hbase : (s.timers proc num).Runs) :
    s.exec proc num =
      ((s.caughtUp proc num).overflow proc num).execLoop proc false (num + 1) := by
  have hturn : ExecTurn proc true num s (s.execLoop proc true num) := execLoop_turn true num s
  rw [TimerState.exec]
  revert hturn
  generalize s.execLoop proc true num = s'
  intro hturn
  cases hturn with
  | stop h =>
    rcases h with h | ⟨-, h⟩
    · exact absurd hnum (Nat.not_lt_of_le h)
    · cases h hbase
  | count _ hc _ => exact absurd hc.2 hbase.2
  | carry _ hc _ => exact absurd hc.2 hbase.2
  | base => rfl

/-- The parts of a state that a loop behind timer `num` leaves as they were. -/
structure KeepsTimer (s : TimerState) (num : ℕ) (q : Proc) (j : ℕ) (i : ℕ) (s' : TimerState) :
    Prop where
  ndsTimer : s'.ndsTimer = s.ndsTimer
  regs : s'.regs = s.regs
  timer : s'.timers q j = s.timers q j
  index : num < i

/-- The event of a timer leaves the clock, the pages and every other processor alone, and of its
own processor the timers before it and the other timers that run. -/
theorem exec_keeps {num : ℕ} (hnum : num < 4) (hbase : (s.timers proc num).Runs)
    (h : q ≠ proc ∨ j < num ∨ (num < j ∧ (s.timers q j).Runs)) :
    KeepsTimer s num q j 4 (s.exec proc num) := by
  have hcounts : ∀ {i : ℕ} {s' : TimerState}, KeepsTimer s num q j i s' →
      (s'.timers proc i).CountsUp → q ≠ proc ∨ j ≠ i := by
    intro i s' hs' hup
    by_contra hsame
    obtain ⟨rfl, rfl⟩ : q = proc ∧ j = i := by simpa only [not_or, not_not] using hsame
    rcases h with h | h | ⟨-, hruns⟩
    · exact h rfl
    · exact absurd hs'.index (Nat.not_lt_of_lt h)
    · rw [hs'.timer] at hup
      exact hruns.2 hup.2
  have hne : q ≠ proc ∨ j ≠ num := by
    rcases h with h | h | h
    · exact .inl h
    · exact .inr (Nat.ne_of_lt h)
    · exact .inr (Nat.ne_of_gt h.1)
  have hstart : KeepsTimer s num q j (num + 1) ((s.caughtUp proc num).overflow proc num) :=
    ⟨overflow_ndsTimer, overflow_regs, (overflow_of_ne hne).trans (caughtUp_of_ne hne),
      Nat.lt_succ_self num⟩
  rw [exec_eq hnum hbase]
  refine execLoop_invariant (KeepsTimer s num q j) ?_ ?_ ?_ hstart
  · exact fun i s' hs' _ => ⟨hs'.ndsTimer, hs'.regs, hs'.timer, hnum⟩
  · intro i s' hs' _ hup _
    exact ⟨hs'.ndsTimer, hs'.regs, (countedUp_of_ne (hcounts hs' hup)).trans hs'.timer, hnum⟩
  · intro i s' hs' _ hup _
    have hi := hcounts hs' hup
    refine ⟨overflow_ndsTimer.trans hs'.ndsTimer, overflow_regs.trans hs'.regs, ?_,
      Nat.lt_succ_of_lt hs'.index⟩
    rw [overflow_of_ne hi, countedUp_of_ne hi, hs'.timer]

end Frame

/-! ### A timer from its start to its overflow -/

/-- The operations that write the control register of a timer. -/
def TimerOp.Controls (proc : Proc) (i : Fin 4) : TimerOp → Prop
  | .writeControl q j _ _ => q = proc ∧ j = i
  | .write32 q j _ _ => q = proc ∧ j = i
  | _ => False

/-- The reload value and the shift with which an operation starts a timer on the clock. -/
def TimerOp.starts (s : TimerState) (proc : Proc) (i : Fin 4) : TimerOp → Option (ℕ × ℕ)
  | .writeControl q j val _ =>
    if q = proc ∧ j = i ∧ val.getLsbD 7 = true ∧ Timer.prescale val ≠ countUpMode then
      some ((s.timers proc i).timerReload.toNat, Timer.prescale val)
    else none
  | .write32 q j val _ =>
    if q = proc ∧ j = i ∧ (val.extractLsb' 16 16).getLsbD 7 = true ∧
        Timer.prescale (val.extractLsb' 16 16) ≠ countUpMode then
      some ((val.setWidth 16).toNat, Timer.prescale (val.extractLsb' 16 16))
    else none
  | _ => none

/-- The counter, its mode and its next overflow are the same. -/
structure SameCounter (t t' : Timer) : Prop where
  timer : t'.timer = t.timer
  timerMode : t'.timerMode = t.timerMode
  timerOn : t'.timerOn = t.timerOn
  timerCycle : t'.timerCycle = t.timerCycle

theorem SameCounter.rfl {t : Timer} : SameCounter t t := ⟨Eq.refl _, Eq.refl _, Eq.refl _, Eq.refl _⟩

theorem SameCounter.trans {t₁ t₂ t₃ : Timer} (h : SameCounter t₁ t₂) (h' : SameCounter t₂ t₃) :
    SameCounter t₁ t₃ :=
  ⟨h'.timer.trans h.timer, h'.timerMode.trans h.timerMode, h'.timerOn.trans h.timerOn,
    h'.timerCycle.trans h.timerCycle⟩

theorem SameCounter.runs {t t' : Timer} (h : SameCounter t t') (ht : t.Runs) : t'.Runs :=
  ⟨h.timerOn.trans ht.1, fun hmode => ht.2 (h.timerMode.symm.trans hmode)⟩

theorem prescale_le {val : BitVec 16} (h : Timer.prescale val ≠ countUpMode) :
    Timer.prescale val ≤ 11 := by
  unfold Timer.prescale at h ⊢
  split at h
  · decide
  · decide
  · decide
  · decide
  · exact absurd rfl h

theorem setReload_sameCounter (s : TimerState) (proc q : Proc) (i j : ℕ) (val : BitVec 16) :
    SameCounter (s.timers q j) ((s.setReload proc i val).timers q j) := by
  by_cases h : q ≠ proc ∨ j ≠ i
  · rw [TimerState.setReload, setTimer_of_ne _ h]
    exact .rfl
  · obtain ⟨rfl, rfl⟩ : q = proc ∧ j = i := by simpa only [not_or, not_not] using h
    rw [TimerState.setReload, setTimer_self]
    exact ⟨rfl, rfl, rfl, rfl⟩

theorem writeTimer_of_ne {s s' : TimerState} {proc q : Proc} {i j : ℕ} {val : BitVec 16}
    {undef : ℕ} (h : s.writeTimer proc i val undef = some s') (hne : q ≠ proc ∨ j ≠ i) :
    s'.ndsTimer = s.ndsTimer ∧ s'.timers q j = s.timers q j := by
  obtain ⟨t, -, rfl⟩ := Option.map_eq_some_iff.mp h
  exact ⟨rfl, setTimer_of_ne t hne⟩

/-- An operation that does not write the control register of a running timer leaves its counter
alone before the overflow is due. -/
theorem timerStep_sameCounter {s s' : TimerState} {proc : Proc} {i : Fin 4} {op : TimerOp}
    (h : timerStep s op = some s') (hop : ¬ op.Controls proc i) (hruns : (s.timers proc i).Runs)
    (hearly : s.ndsTimer < (s.timers proc i).timerCycle) :
    s.ndsTimer ≤ s'.ndsTimer ∧ SameCounter (s.timers proc i) (s'.timers proc i) := by
  have hne : ∀ {q : Proc} {j : Fin 4}, ¬ (q = proc ∧ j = i) → proc ≠ q ∨ i.val ≠ j.val := by
    intro q j hno
    by_contra hsame
    obtain ⟨hq, hj⟩ : proc = q ∧ i.val = j.val := by simpa only [not_or, not_not] using hsame
    exact hno ⟨hq.symm, Fin.ext hj.symm⟩
  cases op with
  | advance cycles =>
    rw [← Option.some.inj h]
    exact ⟨Nat.le_add_right _ _, .rfl⟩
  | writeReload q j val =>
    rw [← Option.some.inj h]
    exact ⟨le_rfl, setReload_sameCounter s q proc j i val⟩
  | writeControl q j val undef =>
    obtain ⟨htime, ht⟩ := writeTimer_of_ne h (hne hop)
    exact ⟨Nat.le_of_eq htime.symm, ht ▸ .rfl⟩
  | write32 q j val undef =>
    obtain ⟨htime, ht⟩ := writeTimer_of_ne h (hne hop)
    refine ⟨Nat.le_of_eq htime.symm, ?_⟩
    rw [ht]
    exact setReload_sameCounter s q proc j i _
  | writeByte q off val =>
    rw [← Option.some.inj h]
    exact ⟨le_rfl, .rfl⟩
  | sequence q num =>
    rw [← Option.some.inj h]
    split_ifs with htrig
    · have hother : proc ≠ q ∨ i.val < num.val ∨ (num.val < i.val ∧ (s.timers proc i).Runs) := by
        by_cases hq : proc = q
        · subst hq
          rcases Nat.lt_trichotomy i.val num.val with hlt | heq | hgt
          · exact .inr (.inl hlt)
          · have hdue := htrig.2
            rw [← heq] at hdue
            exact absurd hdue (Nat.not_le_of_lt hearly)
          · exact .inr (.inr ⟨hgt, hruns⟩)
        · exact .inl hq
      have hkeeps := exec_keeps num.isLt htrig.1 hother
      exact ⟨Nat.le_of_eq hkeeps.ndsTimer.symm, hkeeps.timer ▸ .rfl⟩
    · exact ⟨le_rfl, .rfl⟩

theorem timerStep_ndsTimer_le {s s' : TimerState} {op : TimerOp} (h : timerStep s op = some s') :
    s.ndsTimer ≤ s'.ndsTimer := by
  cases op with
  | advance cycles =>
    rw [← Option.some.inj h]
    exact Nat.le_add_right _ _
  | writeReload q j val =>
    rw [← Option.some.inj h]
    exact Nat.le_refl s.ndsTimer
  | writeControl q j val undef =>
    obtain ⟨t, -, rfl⟩ := Option.map_eq_some_iff.mp h
    exact le_rfl
  | write32 q j val undef =>
    obtain ⟨t, -, rfl⟩ := Option.map_eq_some_iff.mp h
    exact le_rfl
  | writeByte q off val => rw [← Option.some.inj h]
  | sequence q num =>
    rw [← Option.some.inj h]
    split_ifs with htrig
    · exact Nat.le_of_eq (exec_keeps (j := 0) num.isLt htrig.1
        (.inl (Proc.remote_ne q))).ndsTimer.symm
    · exact le_rfl

theorem runM_ndsTimer_le {s s' : TimerState} {ops : List TimerOp}
    (hrun : runM timerStep s ops = some s') : s.ndsTimer ≤ s'.ndsTimer := by
  have hkeep : ∀ t op t', s.ndsTimer ≤ t.ndsTimer → timerStep t op = some t' →
      s.ndsTimer ≤ t'.ndsTimer := fun _ _ _ ht hstep => ht.trans (timerStep_ndsTimer_le hstep)
  exact runM_invariant hkeep le_rfl hrun

theorem runM_sameCounter {s s' : TimerState} {proc : Proc} {i : Fin 4} {ops : List TimerOp}
    (hrun : runM timerStep s ops = some s') (hops : ∀ op ∈ ops, ¬ op.Controls proc i)
    (hruns : (s.timers proc i).Runs) (hearly : s'.ndsTimer < (s.timers proc i).timerCycle) :
    SameCounter (s.timers proc i) (s'.timers proc i) := by
  induction ops generalizing s with
  | nil =>
    rw [← Option.some.inj hrun]
    exact .rfl
  | cons op ops ih =>
    obtain ⟨s₁, hstep, hrest⟩ := runM_cons_eq_some.mp hrun
    have hfirst := timerStep_ndsTimer_le hstep
    have hlater := runM_ndsTimer_le hrest
    obtain ⟨-, hsame⟩ := timerStep_sameCounter hstep (hops op List.mem_cons_self) hruns (by omega)
    refine hsame.trans (ih hrest (fun o ho => hops o (List.mem_cons_of_mem _ ho))
      (hsame.runs hruns) ?_)
    rw [hsame.timerCycle]
    exact hearly

theorem writeTimer_starts {s s' : TimerState} {proc : Proc} {i : ℕ} {val : BitVec 16} {undef : ℕ}
    (h : s.writeTimer proc i val undef = some s') (hon : val.getLsbD 7 = true)
    (hmode : Timer.prescale val ≠ countUpMode) :
    s'.ndsTimer = s.ndsTimer ∧ (s'.timers proc i).timerMode = Timer.prescale val ∧
      Elapsed (s'.timers proc i) s.ndsTimer (s.timers proc i).timerReload.toNat 0 := by
  have hlt := (s.timers proc i).timerReload.isLt
  obtain ⟨t, ht, rfl⟩ := Option.map_eq_some_iff.mp h
  simp only [Timer.writeTimer, Timer.lastValue, if_pos hon, if_neg hmode, Option.map_some,
    Option.some.injEq] at ht
  have htimer : ((s.setTimer proc i t).writePage proc (0x102 + i * 4) val).timers proc i = t :=
    setTimer_self t
  rw [htimer, ← ht]
  refine ⟨rfl, rfl, ⟨hon, hmode⟩, prescale_le hmode, hlt, ?_, Nat.le_add_right _ _⟩
  show s.ndsTimer + (65536 - _) <<< _ + 0 = _
  rw [Nat.shiftLeft_eq, Nat.add_zero]

theorem starts_elapsed {s s' : TimerState} {proc : Proc} {i : Fin 4} {op : TimerOp} {r m : ℕ}
    (hop : op.starts s proc i = some (r, m)) (h : timerStep s op = some s') :
    s'.ndsTimer = s.ndsTimer ∧ (s'.timers proc i).timerMode = m ∧
      Elapsed (s'.timers proc i) s.ndsTimer r 0 := by
  cases op with
  | writeControl q j val undef =>
    simp only [TimerOp.starts] at hop
    split_ifs at hop with hcond
    obtain ⟨rfl, rfl, hon, hmode⟩ := hcond
    obtain ⟨rfl, rfl⟩ := Prod.mk.inj (Option.some.inj hop)
    exact writeTimer_starts h hon hmode
  | write32 q j val undef =>
    simp only [TimerOp.starts] at hop
    split_ifs at hop with hcond
    obtain ⟨rfl, rfl, hon, hmode⟩ := hcond
    obtain ⟨hr, rfl⟩ := Prod.mk.inj (Option.some.inj hop)
    have hreload : (((s.setReload q j (val.setWidth 16)).writePage q (0x100 + j * 4)
        (val.setWidth 16)).timers q j).timerReload = val.setWidth 16 := by
      show ((s.setReload q j (val.setWidth 16)).timers q j).timerReload = _
      rw [TimerState.setReload, setTimer_self]
    have hstart := writeTimer_starts h hon hmode
    rw [hreload, hr] at hstart
    exact hstart
  | _ => cases hop

/-- A timer started with a reload value and read before its overflow gives the reload value and
the ticks that have passed exactly between two ticks, or at its start from zero. -/
theorem readTimer_started {s₀ s₁ s : TimerState} {proc : Proc} {i : Fin 4} {op : TimerOp}
    {r m e : ℕ} {ops : List TimerOp} (hop : op.starts s₀ proc i = some (r, m))
    (hstart : timerStep s₀ op = some s₁) (hrun : runM timerStep s₁ ops = some s)
    (hops : ∀ o ∈ ops, ¬ o.Controls proc i) (he : s.ndsTimer = s₀.ndsTimer + e)
    (hdue : e < (65536 - r) * 2 ^ m) :
    ∃ v, s.readTimer proc i = some v ∧
      (v.toNat = r + e / 2 ^ m ∧ r ≤ v.toNat ∧ v.toNat ≤ 0xFFFF ↔
        ¬ 2 ^ m ∣ e ∨ r = 0 ∧ e = 0) := by
  obtain ⟨htime, rfl, hruns, hshift, hvalue, hcycle, -⟩ := starts_elapsed hop hstart
  have hsame := runM_sameCounter hrun hops hruns (by omega)
  have helapsed : Elapsed (s.timers proc i) s.ndsTimer r e := by
    refine ⟨hsame.runs hruns, ?_, hvalue, ?_, ?_⟩
    · rw [hsame.timerMode]
      exact hshift
    · rw [hsame.timerCycle, hsame.timerMode]
      omega
    · rw [hsame.timerCycle]
      omega
  obtain ⟨v, hv, hread⟩ := helapsed.readTimer
  refine ⟨v, hv, ?_⟩
  rw [hsame.timerMode] at hread
  rw [← readBack_eq_iff, ← hread]
  have hlt := v.isLt
  exact ⟨fun h => h.1, fun h => ⟨h, h ▸ Nat.le_add_right _ _, by omega⟩⟩

/-- A timer started at 0x8000 with the shortest prescaler, read between two ticks. -/
theorem readTimer_started_between :
    ∃ s v, runM timerStep timerReset [.writeReload .arm9 0 0x8000, .writeControl .arm9 0 0x80 0,
        .advance 5] = some s ∧ s.readTimer .arm9 (0 : Fin 4) = some v ∧
      (v.toNat = 0x8000 + 5 / 2 ^ 1 ∧ 0x8000 ≤ v.toNat ∧ v.toNat ≤ 0xFFFF ↔
        ¬ 2 ^ 1 ∣ 5 ∨ 0x8000 = 0 ∧ 5 = 0) := by
  have hstarts : (TimerOp.writeControl .arm9 0 0x80 0).starts
      (timerReset.setReload .arm9 0 0x8000) .arm9 0 = some (0x8000, 1) := by decide
  obtain ⟨s₁, hstart⟩ : ∃ s₁, timerStep (timerReset.setReload .arm9 0 0x8000)
      (.writeControl .arm9 0 0x80 0) = some s₁ := ⟨_, rfl⟩
  have hrun : runM timerStep s₁ [.advance 5] = some { s₁ with ndsTimer := s₁.ndsTimer + 5 } := rfl
  obtain ⟨v, hv, hiff⟩ := readTimer_started hstarts hstart hrun (by simp [TimerOp.Controls])
    (by obtain rfl := Option.some.inj hstart; rfl) (by decide)
  obtain rfl := Option.some.inj hstart
  exact ⟨_, v, rfl, hv, hiff⟩

/-- The same timer read at its start and one tick later is one short both times. -/
theorem readTimer_short :
    (∃ s, runM timerStep timerReset [.writeReload .arm9 0 0x8000, .writeControl .arm9 0 0x80 0] =
      some s ∧ s.readTimer .arm9 0 = some 0x7FFF) ∧
    ∃ s, runM timerStep timerReset [.writeReload .arm9 0 0x8000, .writeControl .arm9 0 0x80 0,
      .advance 2] = some s ∧ s.readTimer .arm9 0 = some 0x8000 :=
  ⟨⟨_, rfl, by decide⟩, ⟨_, rfl, by decide⟩⟩

end Desmume.Timers
