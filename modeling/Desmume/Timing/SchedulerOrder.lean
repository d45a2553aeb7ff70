import Desmume.Library.PartialRun
import Desmume.Timing.SchedulerDefs
import Mathlib.Tactic

/-! The order of the clocks: no processor is behind the global clock, as long as the ARM7 is not
held by the bus while the ARM9 passes the next event. -/

namespace Desmume.Timing
open Library

variable {exec : ℕ → Slice} {base s32next : ℤ} {w : Work}

/-! Turns. -/

theorem arm9Turn_frame (timer : ℤ) :
    (arm9Turn exec s32next timer w).doarm7 = w.doarm7 ∧
      (arm9Turn exec s32next timer w).arm7 = w.arm7 := by
  unfold arm9Turn
  split
  · split <;> exact ⟨rfl, rfl⟩
  · exact ⟨rfl, rfl⟩

/-- After its turn the ARM9 is past the time the round started at. -/
theorem lt_arm9Turn (hb : w.minarmtime < s32next) :
    w.minarmtime < (arm9Turn exec s32next w.minarmtime w).arm9 := by
  have hle : w.minarmtime ≤ w.arm9 := by
    unfold Work.minarmtime
    split
    · exact min_le_left ..
    · exact le_refl _
  unfold arm9Turn
  split
  · split
    · have := (exec w.slices).cycles_pos
      change _ < w.arm9 + ((exec w.slices).cycles : ℤ)
      omega
    · change _ < min s32next (w.arm9 + kIrqWait)
      unfold kIrqWait
      omega
  · rename_i hturn
    simp at hturn
    exact hturn.2

/-- The ARM7 stays at the next event in this turn: it is halted and does not get past it. -/
def Dropped (s32next timer : ℤ) (w : Work) : Prop :=
  w.arm7 ≤ timer ∧ ¬ w.Runs .arm7 ∧ s32next ≤ w.arm7 + kIrqWait

theorem arm7Turn_arm9 (timer : ℤ) : (arm7Turn exec s32next timer w).arm9 = w.arm9 := by
  unfold arm7Turn
  split
  · split <;> rfl
  · rfl

theorem arm7Turn_left_out (timer : ℤ) (hw : w.doarm7 = false) :
    arm7Turn exec s32next timer w = w := by
  unfold arm7Turn
  rw [hw]
  rfl

theorem arm7Turn_dropped {timer : ℤ} (hw : w.doarm7 = true) (h : Dropped s32next timer w) :
    arm7Turn exec s32next timer w = { w with arm7 := s32next, doarm7 := false } := by
  obtain ⟨hturn, hruns, hle⟩ := h
  unfold arm7Turn
  rw [if_pos (by simp [hw, hturn]), if_neg hruns, min_eq_left hle]
  simp

variable (exec) in
/-- Otherwise the ARM7 gets past the time the round started at. -/
theorem lt_arm7Turn {timer : ℤ} (ht : timer ≤ w.arm7) (hw : w.doarm7 = true)
    (h : ¬ Dropped s32next timer w) :
    (arm7Turn exec s32next timer w).doarm7 = true ∧
      timer < (arm7Turn exec s32next timer w).arm7 := by
  unfold arm7Turn
  by_cases hturn : w.arm7 ≤ timer
  · rw [if_pos (by simp [hw, hturn])]
    split
    · have := (exec w.slices).cycles_pos
      refine ⟨hw, ?_⟩
      change _ < w.arm7 + 2 * ((exec w.slices).cycles : ℤ)
      omega
    · rename_i hruns
      have hlt : w.arm7 + kIrqWait < s32next := not_le.mp fun hle => h ⟨hturn, hruns, hle⟩
      rw [min_eq_right hlt.le]
      refine ⟨by simp [hlt.ne], ?_⟩
      change _ < w.arm7 + kIrqWait
      unfold kIrqWait
      omega
  · rw [if_neg (by simp [hturn])]
    exact ⟨hw, not_le.mp hturn⟩

/-! Rounds. -/

/-- The ARM7 neither waits for an interrupt nor gets past the event, which the ARM9 has passed. -/
def Stranded (s32next timer : ℤ) (w : Work) : Prop :=
  s32next < w.arm9 ∧ w.flags.waitIRQ .arm7 = false ∧
    (w.doarm7 = false ∨ Dropped s32next timer w)

/-- What a round keeps: the clock is behind no processor in the loop, and a dropped ARM7 is at the
event. -/
structure InOrder (base s32next : ℤ) (w : Work) : Prop where
  clock_le : w.ndsTimer ≤ base + w.minarmtime
  dropped : w.doarm7 = false → w.arm7 = s32next ∧ w.ndsTimer = base + w.arm9

theorem minarmtime_le_arm7 (hw : w.doarm7 = true) : w.minarmtime ≤ w.arm7 := by
  unfold Work.minarmtime
  rw [if_pos hw]
  exact min_le_right ..

theorem lt_minarmtime {t : ℤ} (h9 : t < w.arm9) (h7 : w.doarm7 = true → t < w.arm7) :
    t < w.minarmtime := by
  unfold Work.minarmtime
  split
  · exact lt_min h9 (h7 ‹_›)
  · exact h9

/-- What a round can do to the ARM7: it stays in the loop, it is dropped, or it was out before. -/
inductive RoundEnd (s32next timer : ℤ) (w w' : Work) : Prop where
  | stays (hdo : w'.doarm7 = true) (hlt : timer < w'.arm7) (hin : w.doarm7 = true)
      (hnot : ¬ Dropped s32next timer w)
  | drops (hdo : w'.doarm7 = false) (harm7 : w'.arm7 = s32next) (hflags : w'.flags = w.flags)
      (h : Dropped s32next timer w)
  | out (hdo : w'.doarm7 = false) (harm7 : w'.arm7 = w.arm7) (hflags : w'.flags = w.flags)
      (hout : w.doarm7 = false)

theorem arm7Turn_end {timer : ℤ} (ht : w.doarm7 = true → timer ≤ w.arm7) :
    RoundEnd s32next timer w (arm7Turn exec s32next timer w) := by
  cases hw : w.doarm7 with
  | false =>
    rw [arm7Turn_left_out timer hw]
    exact .out hw rfl rfl hw
  | true =>
    by_cases h : Dropped s32next timer w
    · rw [arm7Turn_dropped hw h]
      exact .drops rfl rfl rfl h
    · obtain ⟨hdo, hlt⟩ := lt_arm7Turn exec (ht hw) hw h
      exact .stays hdo hlt hw h

section Round

variable (exec) (base)

/-- The state between the two turns of a round. -/
def midRound (s32next : ℤ) (w : Work) : Work := arm9Turn exec s32next w.minarmtime w

theorem midRound_doarm7 : (midRound exec s32next w).doarm7 = w.doarm7 := (arm9Turn_frame _).1

theorem midRound_arm7 : (midRound exec s32next w).arm7 = w.arm7 := (arm9Turn_frame _).2

theorem round_arm9 : (round exec base s32next w).arm9 = (midRound exec s32next w).arm9 :=
  arm7Turn_arm9 ..

theorem round_ndsTimer :
    (round exec base s32next w).ndsTimer = base + (round exec base s32next w).minarmtime := rfl

variable (s32next w) in
theorem round_end : RoundEnd s32next w.minarmtime (midRound exec s32next w)
    (round exec base s32next w) := by
  have hend : RoundEnd s32next w.minarmtime (midRound exec s32next w)
      (arm7Turn exec s32next w.minarmtime (midRound exec s32next w)) := arm7Turn_end fun h => by
    rw [midRound_doarm7] at h
    rw [midRound_arm7]
    exact minarmtime_le_arm7 h
  cases hend with
  | stays hdo hlt hin hnot => exact .stays hdo hlt hin hnot
  | drops hdo harm7 hflags h => exact .drops hdo harm7 hflags h
  | out hdo harm7 hflags hout => exact .out hdo harm7 hflags hout

theorem minarmtime_round (hb : w.minarmtime < s32next) :
    w.minarmtime < (round exec base s32next w).minarmtime := by
  refine lt_minarmtime ?_ fun hdo => ?_
  · rw [round_arm9]
    exact lt_arm9Turn hb
  · cases round_end exec base s32next w with
    | stays _ hlt => exact hlt
    | drops hdo' | out hdo' => simp [hdo] at hdo'

variable {base} in
theorem round_inOrder (hw : InOrder base s32next w) :
    InOrder base s32next (round exec base s32next w) := by
  refine ⟨le_of_eq (round_ndsTimer ..), fun hdo => ?_⟩
  have hclock : (round exec base s32next w).ndsTimer =
      base + (round exec base s32next w).arm9 := by
    rw [round_ndsTimer, Work.minarmtime, if_neg (by simp [hdo])]
  refine ⟨?_, hclock⟩
  cases round_end exec base s32next w with
  | stays hdo' => simp [hdo] at hdo'
  | drops _ harm7 => exact harm7
  | out _ harm7 _ hout =>
    rw [harm7, midRound_arm7]
    exact (hw.dropped ((midRound_doarm7 exec).symm.trans hout)).1

theorem stranded_iff : Stranded s32next w.minarmtime (midRound exec s32next w) ↔
    s32next < (round exec base s32next w).arm9 ∧
      (round exec base s32next w).flags.waitIRQ .arm7 = false ∧
      (round exec base s32next w).doarm7 = false := by
  unfold Stranded
  rw [round_arm9]
  cases round_end exec base s32next w with
  | stays hdo _ hin hnot => simp [hdo, hin, hnot]
  | drops hdo _ hflags h => simp [hdo, hflags, h]
  | out hdo _ hflags hout => simp [hdo, hflags, hout]

end Round

/-! Work units. -/

variable (exec) in
/-- A work unit ends, whatever the slices are. -/
theorem round_lowers (base s32next : ℤ) (w : Work) (hb : w.Busy s32next) :
    (s32next - (round exec base s32next w).minarmtime).toNat < (s32next - w.minarmtime).toNat := by
  have hlt := hb.1
  have := minarmtime_round exec base hlt
  omega

variable (exec) in
theorem armInnerLoop_terminates (base s32next : ℤ) (w : Work) :
    Terminates (Work.Busy · s32next) (round exec base s32next) w := by
  obtain ⟨w', hw'⟩ := runWhile_of_measure (fun w : Work => (s32next - w.minarmtime).toNat)
    (round_lowers exec base s32next) (le_refl _)
  exact ⟨_, w', hw'⟩

/-- No processor is behind the clock. -/
def Clocks.Ordered (c : Clocks) : Prop := c.ndsTimer ≤ c.arm9Timer ∧ c.ndsTimer ≤ c.arm7Timer

section Iterate

variable (exec) (c : Clocks) (hw : Hardware)

/-- The state at the head of a round of the inner loop, and whether the loop gets there. -/
def Clocks.atRound (k : ℕ) : Work := (round exec c.ndsTimer (c.s32next hw))^[k] (c.start hw)

def Clocks.GetsTo (k : ℕ) : Prop :=
  Library.Runs (Work.Busy · (c.s32next hw)) (round exec c.ndsTimer (c.s32next hw)) (c.start hw) k

/-- In no round of the work unit the ARM7 stays behind. -/
def Clocks.NeverStrands : Prop :=
  ∀ k, c.GetsTo exec hw k → ¬ Stranded (c.s32next hw) (c.atRound exec hw k).minarmtime
    (midRound exec (c.s32next hw) (c.atRound exec hw k))

/-- No round sets the clock back. -/
def Clocks.ClockRises : Prop :=
  ∀ k, c.GetsTo exec hw k →
    (c.atRound exec hw k).ndsTimer ≤ (c.atRound exec hw (k + 1)).ndsTimer

variable {exec c hw}

theorem start_inOrder (hc : c.Ordered) : InOrder c.ndsTimer (c.s32next hw) (c.start hw) := by
  obtain ⟨h9, h7⟩ := hc
  refine ⟨?_, fun h => nomatch h⟩
  change c.ndsTimer ≤ c.ndsTimer + min (c.arm9Timer - c.ndsTimer) (c.arm7Timer - c.ndsTimer)
  omega

theorem atRound_succ (k : ℕ) : c.atRound exec hw (k + 1) =
    round exec c.ndsTimer (c.s32next hw) (c.atRound exec hw k) := by
  unfold Clocks.atRound
  rw [Function.iterate_succ_apply']

variable (exec hw) in
theorem atRound_inOrder (hc : c.Ordered) (k : ℕ) :
    InOrder c.ndsTimer (c.s32next hw) (c.atRound exec hw k) := by
  induction k with
  | zero => exact start_inOrder hc
  | succ k ih =>
    rw [atRound_succ]
    exact round_inOrder exec ih

theorem clockRises_of_ordered (hc : c.Ordered) : c.ClockRises exec hw := by
  intro k hk
  have hle := (atRound_inOrder exec hw hc k).clock_le
  have hlt := minarmtime_round exec c.ndsTimer (hk k le_rfl).1
  rw [atRound_succ, round_ndsTimer]
  change _ < _ at hlt
  unfold Clocks.atRound at *
  omega

variable (exec c hw) in
/-- The iteration ends with the first round the loop does not get to. -/
theorem iterate_eq : ∃ k, c.iterate exec hw =
      some (Clocks.finish c.ndsTimer (c.atRound exec hw k)) ∧
    ¬ (c.atRound exec hw k).Busy (c.s32next hw) ∧ ∀ j < k, c.GetsTo exec hw j := by
  obtain ⟨w', hw'⟩ := runWhile_of_measure (fun w : Work => (c.s32next hw - w.minarmtime).toNat)
    (round_lowers exec c.ndsTimer (c.s32next hw)) (le_refl ((c.s32next hw - (c.start hw).minarmtime).toNat))
  obtain ⟨k, rfl, hend, hruns⟩ := runWhile_eq_some hw'
  refine ⟨k, ?_, hend, fun j hj i hi => hruns i (by omega)⟩
  unfold Clocks.iterate armInnerLoop
  rw [hw']
  rfl

theorem finish_ordered_iff {w : Work} (hw : InOrder base s32next w) :
    (Clocks.finish base w).Ordered ↔
      ¬ (s32next < w.arm9 ∧ w.flags.waitIRQ .arm7 = false ∧ w.doarm7 = false) := by
  have hclock := hw.clock_le
  have h9 : w.ndsTimer ≤ (Clocks.finish base w).arm9Timer := by
    unfold Clocks.finish Work.minarmtime at *
    dsimp only
    split
    · exact le_refl _
    · split at hclock <;> omega
  have h7 : w.ndsTimer ≤ (Clocks.finish base w).arm7Timer ↔
      ¬ (s32next < w.arm9 ∧ w.flags.waitIRQ .arm7 = false ∧ w.doarm7 = false) := by
    unfold Clocks.finish
    cases hwait : w.flags.waitIRQ .arm7 with
    | true => simp
    | false =>
      cases hdo : w.doarm7 with
      | true =>
        have := hclock.trans (add_le_add_right (minarmtime_le_arm7 hdo) base)
        simp [this]
      | false =>
        obtain ⟨harm7, hnow⟩ := hw.dropped hdo
        simp [harm7, hnow]
  exact (and_iff_right h9).trans h7

variable (exec hw) in
theorem iterate_ordered_iff (hc : c.Ordered) :
    ∃ c', c.iterate exec hw = some c' ∧ (c'.Ordered ↔ c.NeverStrands exec hw) := by
  obtain ⟨k, hiter, hend, hruns⟩ := iterate_eq exec c hw
  refine ⟨_, hiter, ?_⟩
  rw [finish_ordered_iff (atRound_inOrder exec hw hc k)]
  constructor
  · intro h j hj hstranded
    rw [stranded_iff exec c.ndsTimer, ← atRound_succ] at hstranded
    -- the ARM9 is past the event, so the round was the last
    have hlast : ¬ (c.atRound exec hw (j + 1)).Busy (c.s32next hw) := by
      rintro ⟨hlt, -⟩
      rw [Work.minarmtime, if_neg (by simp [hstranded.2.2])] at hlt
      exact absurd hstranded.1 (not_lt.mpr hlt.le)
    have hk : k = j + 1 := by
      rcases Nat.lt_trichotomy k (j + 1) with hlt | heq | hgt
      · exact absurd (hj k (by omega)) hend
      · exact heq
      · exact absurd (hruns (j + 1) hgt (j + 1) le_rfl) hlast
    rw [hk] at h
    exact h hstranded
  · intro h hbad
    cases k with
    | zero => exact nomatch hbad.2.2
    | succ j =>
      rw [atRound_succ] at hbad
      exact h j (hruns j (Nat.lt_succ_self j)) ((stranded_iff exec c.ndsTimer).mpr hbad)

end Iterate

/-- Every work unit ends. The clock never goes back and is ahead of no processor at the head of any
iteration exactly if in no round the ARM7 is held short of an ARM9 past the event without waiting
for an interrupt. -/
theorem run_ordered_iff (exec : ℕ → Slice) (c : Clocks) (hc : c.Ordered) (hws : List Hardware) :
    (∀ base s32next w, Terminates (Work.Busy · s32next) (round exec base s32next) w) ∧
      ((∀ pre, pre <+: hws → ∃ c', runM (Clocks.iterate exec) c pre = some c' ∧ c'.Ordered) ∧
          AtEachM (Clocks.iterate exec) (Clocks.ClockRises exec) c hws ↔
        AtEachM (Clocks.iterate exec) (Clocks.NeverStrands exec) c hws) := by
  refine ⟨fun base s32next w => armInnerLoop_terminates exec base s32next w, ?_⟩
  rw [always_iff_atEachM (P := Clocks.NeverStrands exec) (Q := Clocks.Ordered)
    (fun c hw hc => iterate_ordered_iff exec hw hc) hc]
  refine and_iff_left_of_imp fun h =>
    h.imp_of_kept (Q := Clocks.Ordered) (fun c hw hc => clockRises_of_ordered hc) ?_ hc
  intro c hw c' hc hnever hc'
  obtain ⟨c₁, hc₁, hiff⟩ := iterate_ordered_iff exec hw hc
  obtain rfl : c₁ = c' := Option.some.inj (hc₁.symm.trans hc')
  exact hiff.mpr hnever

def noEvent : Event := ⟨false, 0⟩

/-- The display is due in ten cycles. -/
def displaySoon : Hardware where
  flags := ⟨fun _ => false, 0, 0, false, true⟩
  sequencer := ⟨10, noEvent, noEvent, noEvent, fun _ _ => noEvent, fun _ _ => noEvent⟩

/-- A slice of eleven cycles that starts a transfer of the ARM9's. -/
def dmaSlice : Slice := ⟨11, by decide, ⟨fun _ => false, 2, 0, false, true⟩⟩

theorem run_ordered_iff_displaySoon :
    (∀ base s32next w,
        Terminates (Work.Busy · s32next) (round (fun _ => dmaSlice) base s32next) w) ∧
      ((∀ pre, pre <+: [displaySoon] → ∃ c',
            runM (Clocks.iterate fun _ => dmaSlice) resetClocks pre = some c' ∧ c'.Ordered) ∧
          AtEachM (Clocks.iterate fun _ => dmaSlice) (Clocks.ClockRises fun _ => dmaSlice)
            resetClocks [displaySoon] ↔
        AtEachM (Clocks.iterate fun _ => dmaSlice) (Clocks.NeverStrands fun _ => dmaSlice)
          resetClocks [displaySoon]) :=
  run_ordered_iff (fun _ => dmaSlice) resetClocks ⟨by decide, by decide⟩ [displaySoon]

/-- The bus holds the ARM7 at ten cycles, the clock goes on with the ARM9 to eleven. -/
theorem dmaSlice_strands :
    ¬ ∀ (exec : ℕ → Slice) (c : Clocks), c.Ordered → ∀ hws : List Hardware,
      (∀ base s32next w, Terminates (Work.Busy · s32next) (round exec base s32next) w) ∧
        (∀ pre, pre <+: hws → ∃ c', runM (Clocks.iterate exec) c pre = some c' ∧ c'.Ordered) ∧
        AtEachM (Clocks.iterate exec) (Clocks.ClockRises exec) c hws := by
  intro h
  obtain ⟨-, hordered, -⟩ := h (fun _ => dmaSlice) resetClocks ⟨by decide, by decide⟩ [displaySoon]
  obtain ⟨c', hrun, -, h7⟩ := hordered [displaySoon] (List.prefix_refl _)
  have hend : (runM (Clocks.iterate fun _ => dmaSlice) resetClocks [displaySoon]).map
      (fun c => (c.ndsTimer, c.arm7Timer)) = some (11, 10) := by
    rfl
  rw [hrun, Option.map_some, Option.some.injEq, Prod.mk.injEq] at hend
  omega

end Desmume.Timing
