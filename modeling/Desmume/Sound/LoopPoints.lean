import Desmume.Sound.AdpcmRuns
import Desmume.Sound.MixerRuns
import Mathlib.Algebra.Order.Archimedean.Basic

/-! The loop of `TestForLoop`: when it ends, and where the position is then. -/

namespace Desmume.Sound
open Library AdpcmChannel

namespace MixChannel

variable {c : MixChannel} {shift : ℕ}

/-- Behind the end of its data a channel goes back, again and again. -/
def GoesBack (c : MixChannel) : Prop := c.doubleTotlengthShifted < c.sampcnt ∧ c.repeatMode = 1

/-- The loop of `TestForLoop`, on the position. -/
def LoopTerminates (shift : ℕ) (c : MixChannel) : Prop :=
  Terminates (fun x => c.doubleTotlengthShifted < x) (fun x => x - c.loopLength shift) c.sampcnt

/-- `TestForLoop` returns, and where it goes back it gets between the points of the loop. -/
structure LoopsInside (shift : ℕ) (c : MixChannel) : Prop where
  returns : c.GoesBack → c.LoopTerminates shift
  inside : ∀ c', c.testForLoop shift = some (0, c') →
    (c.loopPosition shift : ℚ) ≤ c'.sampcnt ∧ c'.sampcnt ≤ (c.totlength.toNat <<< shift : ℕ)

/-- Where the channel goes back, its loop begins before the end that the key on has set, and no
number of loops takes the position in between its length and that end. -/
def HasRoom (shift : ℕ) (c : MixChannel) : Prop :=
  c.GoesBack → (c.loopPosition shift : ℚ) < c.doubleTotlengthShifted ∧
    ∀ k : ℕ, c.sampcnt - k * c.loopLength shift ≤ c.doubleTotlengthShifted →
      c.sampcnt - k * c.loopLength shift ≤ (c.totlength.toNat <<< shift : ℕ)

theorem loopLength_pos_iff :
    0 < c.loopLength shift ↔ (c.loopPosition shift : ℚ) < c.doubleTotlengthShifted := sub_pos

theorem loopTerminates_iff (h : c.GoesBack) :
    c.LoopTerminates shift ↔ (c.loopPosition shift : ℚ) < c.doubleTotlengthShifted := by
  rw [LoopTerminates, terminates_iff_exists, ← loopLength_pos_iff]
  simp only [iterate_sub, not_lt]
  constructor
  · rintro ⟨n, hn⟩
    by_contra hneg
    have hrise : (n : ℚ) * c.loopLength shift ≤ 0 :=
      mul_nonpos_of_nonneg_of_nonpos (Nat.cast_nonneg n) (not_lt.mp hneg)
    have hend := h.1
    linarith
  · intro hpos
    obtain ⟨n, hn⟩ := Archimedean.arch (c.sampcnt - c.doubleTotlengthShifted) hpos
    rw [nsmul_eq_mul] at hn
    exact ⟨n, by linarith⟩

theorem testForLoop_zero {c' : MixChannel} (h : c.testForLoop shift = some (0, c')) :
    c.GoesBack ∧ c.wrapPosition shift = some c'.sampcnt := by
  rw [testForLoop] at h
  split_ifs at h with hend hrepeat
  · obtain ⟨x, hx, hc⟩ := Option.map_eq_some_iff.mp h
    obtain rfl := (Prod.mk.inj hc).2
    exact ⟨⟨hend, hrepeat⟩, hx⟩
  · exact absurd (Prod.mk.inj (Option.some.inj h)).1 (by decide)
  · exact absurd (Prod.mk.inj (Option.some.inj h)).1 (by decide)

theorem testForLoop_goesBack {x : ℚ} (h : c.GoesBack) (hx : c.wrapPosition shift = some x) :
    c.testForLoop shift = some (0, c.mapStruct fun s => { s with sampcnt := x }) := by
  rw [testForLoop, if_pos h.1, if_pos h.2, hx, Option.map_some]

/-- The loop ends at the first place that is not behind the end. -/
theorem wrapPosition_spec {x : ℚ} (h : c.GoesBack) (hx : c.wrapPosition shift = some x) :
    ∃ k : ℕ, x = c.sampcnt - k * c.loopLength shift ∧ x ≤ c.doubleTotlengthShifted ∧
      (c.loopPosition shift : ℚ) < x ∧
      ∀ j < k, c.doubleTotlengthShifted < c.sampcnt - j * c.loopLength shift := by
  obtain ⟨k, hk, hstop, hruns⟩ := runWhile_eq_some hx
  simp only [iterate_sub] at hk hruns
  refine ⟨k, hk, not_lt.mp hstop, ?_, hruns⟩
  cases k with
  | zero =>
    rw [Nat.cast_zero, zero_mul, sub_zero] at hk
    exact absurd h.1 (hk ▸ hstop)
  | succ k =>
    have hlast := hruns k (Nat.lt_succ_self k)
    have hlength : c.loopLength shift = c.doubleTotlengthShifted - c.loopPosition shift := rfl
    push_cast at hk
    linarith

theorem loopsInside_iff : c.LoopsInside shift ↔ c.HasRoom shift := by
  constructor
  · intro h hback
    have hpos := (loopTerminates_iff hback).mp (h.returns hback)
    refine ⟨hpos, fun k hk => ?_⟩
    obtain ⟨x, hx⟩ := exists_wrapPosition_iff.mpr (h.returns hback)
    obtain ⟨-, hin⟩ := h.inside _ (testForLoop_goesBack hback hx)
    obtain ⟨n, hn, -, -, hruns⟩ := wrapPosition_spec hback hx
    -- the place is the one where the loop ends, or one further back
    have hle : n ≤ k := by
      by_contra hlt
      exact absurd hk (not_le.mpr (hruns k (not_le.mp hlt)))
    have hback : (n : ℚ) * c.loopLength shift ≤ k * c.loopLength shift :=
      mul_le_mul_of_nonneg_right (Nat.cast_le.mpr hle) (loopLength_pos_iff.mpr hpos).le
    refine le_trans ?_ hin
    change _ ≤ x
    linarith
  · intro h
    refine ⟨fun hback => (loopTerminates_iff hback).mpr (h hback).1, fun c' hc' => ?_⟩
    obtain ⟨hback, hx⟩ := testForLoop_zero hc'
    obtain ⟨k, hk, hend, hstart, -⟩ := wrapPosition_spec hback hx
    refine ⟨hstart.le, ?_⟩
    rw [hk] at hend ⊢
    exact (h hback).2 k hend

/-- The shift with which the mixing loop calls `TestForLoop`. -/
def loopShift (c : MixChannel) : Option ℕ :=
  if c.TooShort then none
  else
    match c.format.toNat with
    | 0 => some 2
    | 1 => some 1
    | 2 => some 3
    | _ => none

end MixChannel

namespace Mixer

/-- `P` of the channel that a round hands to `TestForLoop`. -/
def AtLoopTest (P : ℕ → MixChannel → Prop) (m : Mixer) : MixerOp → Prop
  | .round num _ =>
    (m.view num).Sounding → ∀ shift, (m.channel num).loopShift = some shift → P shift (m.channel num).moved
  | _ => True

/-- In a run of register writes and mixing rounds each `TestForLoop` returns with a position inside
the loop, exactly if each channel that goes back has room for its loop. -/
theorem loopsInside_run (bus : SoundBus) (ops : List MixerOp) :
    AtEachM (nextM step) (AtLoopTest MixChannel.LoopsInside) (reset bus) ops ↔
      AtEachM (nextM step) (AtLoopTest MixChannel.HasRoom) (reset bus) ops := by
  refine atEachM_congr (fun m op => ?_) (reset bus) ops
  cases op with
  | round num actuallyMix =>
    exact imp_congr_right fun _ => forall₂_congr fun _ _ => MixChannel.loopsInside_iff
  | _ => exact Iff.rfl

/-- A channel with a length of zero and a loop start behind its data. -/
def emptyLoop : List MixerOp :=
  [.writeWord 0x500 0x8000, .writeLong 0x408 0x1FFFF, .writeLong 0x400 0x88000000]

/-- The position never gets out of a loop of no length. -/
theorem emptyLoop_hangs :
    ¬ ∀ bus ops, AtEachM (nextM step) (AtLoopTest MixChannel.LoopsInside) (reset bus) ops := by
  intro h
  have hseen : (runM (nextM step) (reset silentBus) emptyLoop).map (fun m =>
      (decide (m.view 0).Sounding, (m.channel 0).loopShift, (m.channel 0).moved.repeatMode,
        (m.channel 0).moved.sampcnt, (m.channel 0).moved.doubleTotlengthShifted,
        (m.channel 0).moved.loopPosition 2)) =
      some (true, some 2, 1, hardwareSampinc 0xFFFF - 3, 4, 4) := by
    decide +kernel
  obtain ⟨m, hm, hv⟩ := Option.map_eq_some_iff.mp hseen
  simp only [Prod.mk.injEq, decide_eq_true_eq] at hv
  obtain ⟨hsounding, hshift, hrepeat, hpos, hend, hloop⟩ := hv
  have hround : (m.channel 0).moved.LoopsInside 2 :=
    (h silentBus (emptyLoop ++ [.round 0 true])).at_step hm hsounding 2 hshift
  have hrate : (7 : ℚ) < hardwareSampinc 0xFFFF := by decide +kernel
  have hback : (m.channel 0).moved.GoesBack := by
    refine ⟨?_, hrepeat⟩
    rw [hend, hpos]
    linarith
  have hroom := (MixChannel.loopTerminates_iff hback).mp (hround.returns hback)
  rw [hend, hloop] at hroom
  exact lt_irrefl _ hroom

end Mixer

end Desmume.Sound
