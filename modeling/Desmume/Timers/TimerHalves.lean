import Desmume.Timers.TimerChain

/-! The halves of a 32-bit read of a timer beside the two 16-bit reads. The control half agrees in
every state; the counter half is the value last loaded, which a running timer soon leaves. -/

namespace Desmume.Timers
open Library

namespace TimerState

def mmuRead16 (s : TimerState) : Proc → ℕ → Option (BitVec 16)
  | .arm9 => s.mmuArm9Read16
  | .arm7 => s.mmuArm7Read16

def mmuRead32 (s : TimerState) : Proc → ℕ → BitVec 32
  | .arm9 => s.mmuArm9Read32
  | .arm7 => s.mmuArm7Read32

end TimerState

/-- The next overflow of a running timer is no further ahead than its counter was loaded for. -/
def Loaded (now : ℕ) (t : Timer) : Prop :=
  t.Runs → t.timerMode ≤ 11 ∧ t.timerCycle ≤ now + (65536 - t.timer.toNat) * 2 ^ t.timerMode

/-- The cycles since the counter of a running timer was loaded. -/
def sinceLoad (now : ℕ) (t : Timer) : ℕ :=
  now + (65536 - t.timer.toNat) * 2 ^ t.timerMode - t.timerCycle

/-- The counter was loaded at most one tick ago, and not just now unless with zero. -/
def JustLoaded (now : ℕ) (t : Timer) : Prop :=
  0 < sinceLoad now t ∧ sinceLoad now t ≤ 2 ^ t.timerMode ∨ sinceLoad now t = 0 ∧ t.timer = 0

/-- The two halves of a 32-bit read are the two 16-bit reads. -/
def HalvesAgree (s : TimerState) (proc : Proc) (i : Fin 4) : Prop :=
  some ((s.mmuRead32 proc (0x100 + i * 4)).extractLsb' 0 16) = s.mmuRead16 proc (0x100 + i * 4) ∧
    some ((s.mmuRead32 proc (0x100 + i * 4)).extractLsb' 16 16) =
      s.mmuRead16 proc (0x102 + i * 4)

/-! ### What holds of every run -/

variable {s s' : TimerState} {proc : Proc} {now : ℕ} {t t' : Timer}

theorem Loaded.later (h : Loaded now t) {now' : ℕ} (hle : now ≤ now') : Loaded now' t := by
  intro hruns
  obtain ⟨hshift, hcycle⟩ := h hruns
  exact ⟨hshift, by omega⟩

theorem Loaded.same (h : Loaded now t) (hsame : SameCounter t t') : Loaded now t' := by
  obtain ⟨htimer, hmode, hon, hcycle⟩ := hsame
  intro hruns
  rw [htimer, hmode, hcycle]
  exact h ⟨hon ▸ hruns.1, fun hup => hruns.2 (hmode.trans hup)⟩

theorem Loaded.writeTimer {val : BitVec 16} {undef : ℕ}
    (h : t.writeTimer now val undef = some t') : Loaded now t' := by
  obtain ⟨value, hvalue, rfl⟩ := Option.map_eq_some_iff.mp h
  intro hruns
  have hon : val.getLsbD 7 = true := hruns.1
  have hmode : Timer.prescale val ≠ countUpMode := hruns.2
  rw [Timer.lastValue, if_pos hon] at hvalue
  refine ⟨prescale_le hmode, ?_⟩
  show now + (if Timer.prescale val = countUpMode then undef else _) ≤
    now + (65536 - value.toNat) * 2 ^ Timer.prescale val
  rw [if_neg hmode, ← Option.some.inj hvalue, Nat.shiftLeft_eq]

theorem countMany_runs (t : Timer) (n : ℕ) (h : (t.countMany n).1.Runs) : t.Runs := by
  induction n generalizing t with
  | zero => exact h
  | succ n ih =>
    have hcount := ih t.count h
    unfold Timer.count at hcount
    split_ifs at hcount
    · exact hcount
    · exact hcount

theorem chained_of_advances {num due i : ℕ} (h : advances s proc num due i ≠ 0) :
    Chained s proc i := by
  cases i with
  | zero => exact absurd rfl h
  | succ i =>
    by_contra hno
    rw [advances, if_neg hno] at h
    split_ifs at h
    · exact h rfl
    · exact h rfl

theorem Loaded.exec {num : ℕ} (hnum : num < 4) (htrig : s.Triggered proc num)
    (h : ∀ q j, Loaded s.ndsTimer (s.timers q j)) (q : Proc) (j : ℕ) :
    Loaded (s.exec proc num).ndsTimer ((s.exec proc num).timers q j) := by
  have hserved := exec_served hnum htrig.1
  rw [hserved.ndsTimer]
  by_cases hq : q = proc
  · subst hq
    by_cases hj : j = num
    · subst hj
      rw [hserved.base, TimerState.caughtUp, setTimer_self]
      refine fun _ => ⟨(h q j htrig.1).1, ?_⟩
      have hbound := (catchUp_bounds (s.timers q j).period_pos htrig.2).2
      have hperiod : (s.timers q j).period =
          (65536 - (s.timers q j).timerReload.toNat) * 2 ^ (s.timers q j).timerMode :=
        Nat.shiftLeft_eq _ _
      exact hbound.trans (Nat.le_of_eq (congrArg (s.ndsTimer + ·) hperiod))
    · rw [hserved.counter j hj]
      intro hruns
      have hsame : advances s q num 1 j = 0 := by
        by_contra hne
        exact (countMany_runs _ _ hruns).2 (chained_of_advances hne).2.2
      rw [hsame] at hruns ⊢
      exact h q j hruns
  · rw [(exec_keeps (j := j) hnum htrig.1 (.inl hq)).timer]
    exact h q j

theorem loaded_writeTimer {i : ℕ} {val : BitVec 16} {undef : ℕ}
    (h : ∀ q j, Loaded s.ndsTimer (s.timers q j))
    (hstep : s.writeTimer proc i val undef = some s') (q : Proc) (j : ℕ) :
    Loaded s'.ndsTimer (s'.timers q j) := by
  by_cases hne : q ≠ proc ∨ j ≠ i
  · obtain ⟨htime, ht⟩ := writeTimer_of_ne hstep hne
    rw [htime, ht]
    exact h q j
  · obtain ⟨rfl, rfl⟩ : q = proc ∧ j = i := by simpa only [not_or, not_not] using hne
    obtain ⟨t, ht, rfl⟩ := Option.map_eq_some_iff.mp hstep
    show Loaded s.ndsTimer ((s.setTimer q j t).timers q j)
    rw [setTimer_self]
    exact .writeTimer ht

theorem loaded_step {op : TimerOp} (h : ∀ q j, Loaded s.ndsTimer (s.timers q j))
    (hstep : timerStep s op = some s') (q : Proc) (j : ℕ) : Loaded s'.ndsTimer (s'.timers q j) := by
  cases op with
  | advance cycles =>
    rw [← Option.some.inj hstep]
    exact (h q j).later (Nat.le_add_right _ _)
  | writeReload p i val =>
    rw [← Option.some.inj hstep]
    exact (h q j).same (setReload_sameCounter s p q i j val)
  | writeControl p i val undef => exact loaded_writeTimer h hstep q j
  | write32 p i val undef =>
    refine loaded_writeTimer (fun r k => ?_) hstep q j
    exact (h r k).same (setReload_sameCounter s p r i k _)
  | writeByte p off val =>
    rw [← Option.some.inj hstep]
    exact h q j
  | sequence p num =>
    rw [← Option.some.inj hstep]
    split_ifs with htrig
    · exact .exec num.isLt htrig h q j
    · exact h q j

theorem loaded_run {ops : List TimerOp} (hrun : runM timerStep timerReset ops = some s) :
    ∀ q j, Loaded s.ndsTimer (s.timers q j) := by
  have hkeep : ∀ s op s', (∀ q j, Loaded s.ndsTimer (s.timers q j)) → timerStep s op = some s' →
      ∀ q j, Loaded s'.ndsTimer (s'.timers q j) := fun s op s' h hstep => loaded_step h hstep
  apply runM_invariant hkeep _ hrun
  intro q j hruns
  cases hruns.1

/-! ### The halves -/

theorem read32_counter (s : TimerState) (proc : Proc) (i : Fin 4) :
    s.mmuRead32 proc (0x100 + i * 4) = (s.timers proc i).timer.setWidth 32 |||
      BitVec.setWidth 32 (readWord 2 (s.regs proc) (0x102 + i * 4) : BitVec 16) <<< 16 := by
  have hi : i = 0 ∨ i = 1 ∨ i = 2 ∨ i = 3 := by omega
  rcases hi with rfl | rfl | rfl | rfl <;> cases proc <;> rfl

theorem read16_counter (s : TimerState) (proc : Proc) (i : Fin 4) :
    s.mmuRead16 proc (0x100 + i * 4) = s.readTimer proc i := by
  have hi : i = 0 ∨ i = 1 ∨ i = 2 ∨ i = 3 := by omega
  rcases hi with rfl | rfl | rfl | rfl <;> cases proc <;> rfl

theorem read16_control (s : TimerState) (proc : Proc) (i : Fin 4) :
    s.mmuRead16 proc (0x102 + i * 4) = some (readWord 2 (s.regs proc) (0x102 + i * 4)) := by
  have hi : i = 0 ∨ i = 1 ∨ i = 2 ∨ i = 3 := by omega
  rcases hi with rfl | rfl | rfl | rfl <;> cases proc <;> rfl

theorem low_half (x y : BitVec 16) :
    (x.setWidth 32 ||| y.setWidth 32 <<< 16).extractLsb' 0 16 = x := by
  apply BitVec.eq_of_getLsbD_eq
  intro i hi
  have hlt : i < 32 := by omega
  rw [BitVec.getLsbD_extractLsb', Nat.zero_add, BitVec.getLsbD_or, BitVec.getLsbD_setWidth,
    BitVec.getLsbD_shiftLeft]
  simp [hi, hlt]

theorem high_half (x y : BitVec 16) :
    (x.setWidth 32 ||| y.setWidth 32 <<< 16).extractLsb' 16 16 = y := by
  apply BitVec.eq_of_getLsbD_eq
  intro i hi
  have hlt : 16 + i < 32 := by omega
  have hx : x.getLsbD (16 + i) = false := BitVec.getLsbD_of_ge x _ (Nat.le_add_right _ _)
  rw [BitVec.getLsbD_extractLsb', BitVec.getLsbD_or, BitVec.getLsbD_setWidth,
    BitVec.getLsbD_shiftLeft, Nat.add_sub_cancel_left, BitVec.getLsbD_setWidth, hx]
  simp [hi, hlt]
  omega

theorem halvesAgree_iff (s : TimerState) (proc : Proc) (i : Fin 4) :
    HalvesAgree s proc i ↔ s.readTimer proc i = some (s.timers proc i).timer := by
  rw [HalvesAgree, read32_counter, read16_counter, read16_control, low_half, high_half]
  exact ⟨fun h => h.1.symm, fun h => ⟨h.symm, rfl⟩⟩

/-- A counter reads as the value it was loaded with during the first tick. -/
theorem readBack_eq_loaded_iff (c m e : ℕ) :
    readBack c m e = c ↔ 0 < e ∧ e ≤ 2 ^ m ∨ e = 0 ∧ c = 0 := by
  have hpos : 0 < 2 ^ m := Nat.two_pow_pos _
  generalize hd : 2 ^ m = d at hpos
  unfold readBack
  rw [hd]
  split_ifs with hdvd hstart
  · exact iff_of_true hstart.1.symm (.inr ⟨hstart.2, hstart.1⟩)
  · obtain ⟨k, rfl⟩ := hdvd
    rw [Nat.mul_div_cancel_left k hpos]
    rcases Nat.eq_zero_or_pos k with rfl | hk
    · rw [Nat.mul_zero] at hstart ⊢
      omega
    · have hle : d * k ≤ d ↔ k ≤ 1 := by
        constructor
        · intro h
          apply Nat.le_of_mul_le_mul_left _ hpos
          rwa [Nat.mul_one]
        · intro h
          have hmul := Nat.mul_le_mul_left d h
          rwa [Nat.mul_one] at hmul
      have hmul : 0 < d * k := Nat.mul_pos hpos hk
      rw [hle]
      omega
  · have hne : e ≠ d := fun he => hdvd (he ▸ Nat.dvd_refl _)
    have hzero : e ≠ 0 := fun he => hdvd (he ▸ Nat.dvd_zero _)
    have hdiv : e / d = 0 ↔ e < d := Nat.div_eq_zero_iff_lt hpos
    generalize e / d = ticks at hdiv ⊢
    omega

/-- In every state of a run in which the overflow of the timer is not overdue, as the read asserts,
the two 16-bit reads give the halves of the 32-bit read exactly if the timer does not run on the
clock or was loaded within the last tick. -/
theorem run_halvesAgree_iff {ops : List TimerOp} (hrun : runM timerStep timerReset ops = some s)
    (proc : Proc) (i : Fin 4)
    (hdue : (s.timers proc i).Runs → s.ndsTimer ≤ (s.timers proc i).timerCycle) :
    HalvesAgree s proc i ↔
      ¬ (s.timers proc i).Runs ∨ JustLoaded s.ndsTimer (s.timers proc i) := by
  have hloaded := loaded_run hrun proc i
  rw [halvesAgree_iff]
  unfold TimerState.readTimer
  generalize s.timers proc i = t at hdue hloaded ⊢
  by_cases hruns : t.Runs
  · obtain ⟨hshift, hcycle⟩ := hloaded hruns
    have helapsed : Elapsed t s.ndsTimer t.timer.toNat (sinceLoad s.ndsTimer t) := by
      refine ⟨hruns, hshift, t.timer.isLt, ?_, hdue hruns⟩
      rw [sinceLoad]
      omega
    obtain ⟨v, hv, hvalue⟩ := helapsed.readTimer
    have hzero : t.timer.toNat = 0 ↔ t.timer = 0 :=
      ⟨fun h => BitVec.eq_of_toNat_eq h, fun h => by rw [h]; rfl⟩
    rw [hv, Option.some.injEq, ← BitVec.toNat_inj, hvalue, readBack_eq_loaded_iff, hzero]
    exact ⟨.inr, fun h => h.resolve_left (not_not.mpr hruns)⟩
  · refine iff_of_true ?_ (.inl hruns)
    unfold Timer.readTimer
    by_cases hmode : t.timerMode = countUpMode
    · rw [if_pos hmode]
    · have hoff : ¬ t.timerOn = true := fun hon => hruns ⟨hon, hmode⟩
      rw [if_neg hmode, if_pos hoff]

/-- A timer read one cycle after its start. -/
theorem run_halvesAgree_firstTick :
    ∃ s, runM timerStep timerReset [.writeReload .arm7 2 0x1234, .writeControl .arm7 2 0x80 0,
        .advance 1] = some s ∧
      (HalvesAgree s .arm7 2 ↔
        ¬ (s.timers .arm7 (2 : Fin 4)).Runs ∨
          JustLoaded s.ndsTimer (s.timers .arm7 (2 : Fin 4))) := by
  have hrun : runM timerStep timerReset [.writeReload .arm7 2 0x1234,
      .writeControl .arm7 2 0x80 0, .advance 1] = some _ := rfl
  exact ⟨_, hrun, run_halvesAgree_iff hrun .arm7 2 fun _ => by decide⟩

/-- The same timer three cycles later counts 0x1235, and a 32-bit read still gives 0x1234. -/
theorem halves_differ :
    ∃ s, runM timerStep timerReset [.writeReload .arm7 2 0x1234, .writeControl .arm7 2 0x80 0,
        .advance 3] = some s ∧ s.mmuRead16 .arm7 0x108 = some 0x1235 ∧
      s.mmuRead32 .arm7 0x108 = 0x801234 :=
  ⟨_, rfl, by decide, by decide⟩

end Desmume.Timers
