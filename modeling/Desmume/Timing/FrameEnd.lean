import Desmume.Library.Loop
import Desmume.Timing.HstartDefs

/-! The frame ends again and again exactly when the values written to VCOUNT are lines and the
program lets the counter leave the window in which it can be written. -/

namespace Desmume.Timing
open Library Filter

/-- An unending run in which time goes on. -/
structure LineRun (env : LineEnv) extends InfiniteRun (lineStep env) initSchedule where
  hstarts : ∃ᶠ n in atTop, op n = .hstart

namespace LineRun

variable {env : LineEnv} (r : LineRun env)

def line (n : ℕ) : ℕ := (r.state n).vcount.toNat

def admittedAt (n : ℕ) : Option ℕ := admitted (r.state n) (r.op n)

/-- The transition to line 262 at step `n`, on which `NDS_exec` returns. -/
def EndsFrame (n : ℕ) : Prop :=
  r.op n = .hstart ∧ r.line (n + 1) = 262 ∧ (r.state (n + 1)).vblankEnded = true

def FramesEnd : Prop := (∀ n, r.line n ≤ 262) ∧ ∃ᶠ n in atTop, r.EndsFrame n

def AdmitsLines : Prop := ∀ n v, r.admittedAt n = some v → v ≤ 262

/-- The counter leaves the window of lines 202 to 212 towards the end of the frame. -/
def LeavesWindow (n : ℕ) : Prop :=
  (r.op n = .hstart ∧ r.line n = 212) ∨ ∃ v, r.admittedAt n = some v ∧ 213 ≤ v ∧ v ≤ 261

theorem line_zero : r.line 0 = 262 := by
  rw [line, r.start]
  rfl

theorem line_hstart {n : ℕ} (h : r.op n = .hstart) (hline : r.line n ≤ 262) :
    r.line (n + 1) = if r.line n = 262 then 0 else r.line n + 1 := by
  rw [line, r.next, h]
  exact execHardwareHstart_line env.rigorousTiming hline

theorem line_admitted {n v : ℕ} (h : r.admittedAt n = some v) : r.line (n + 1) = v := by
  rw [line, r.next]
  exact lineStep_admitted h

theorem line_kept {n : ℕ} (h : r.admittedAt n = none) (hop : r.op n ≠ .hstart) :
    r.line (n + 1) = r.line n := by
  rw [line, r.next, lineStep_kept h hop]
  rfl

theorem line_le (h : r.AdmitsLines) (n : ℕ) : r.line n ≤ 262 := by
  induction n with
  | zero => exact r.line_zero.le
  | succ n ih =>
    by_cases hop : r.op n = .hstart
    · rw [r.line_hstart hop ih]
      split_ifs <;> omega
    · rcases hadmitted : r.admittedAt n with _ | v
      · rwa [r.line_kept hadmitted hop]
      · rw [r.line_admitted hadmitted]
        exact h n v hadmitted

theorem endsFrame_of_line {n : ℕ} (hop : r.op n = .hstart) (hline : r.line n = 261) :
    r.EndsFrame n := by
  refine ⟨hop, ?_, ?_⟩
  · rw [r.line_hstart hop (by omega), if_neg (by omega), hline]
  · rw [r.next, hop]
    exact execHardwareHstart_vblankEnded env.rigorousTiming hline

theorem EndsFrame.line {r : LineRun env} {n : ℕ} (h : r.EndsFrame n) (hline : r.line n ≤ 262) :
    r.line n = 261 := by
  have hnext := h.2.1
  rw [r.line_hstart h.1 hline] at hnext
  split_ifs at hnext
  omega

theorem line_beyond {n : ℕ} (hlow : 213 ≤ r.line n) (hhigh : r.line n ≤ 261) :
    (r.op n = .hstart → r.line (n + 1) = r.line n + 1) ∧
      (r.op n ≠ .hstart → r.line (n + 1) = r.line n) := by
  have hnone : r.admittedAt n = none := by
    rcases hadmitted : r.admittedAt n with _ | v
    · rfl
    · have hwindow := admitted_window hadmitted
      change 202 ≤ r.line n ∧ r.line n ≤ 212 at hwindow
      omega
  refine ⟨fun hop => ?_, fun hop => r.line_kept hnone hop⟩
  rw [r.line_hstart hop (by omega), if_neg (by omega)]

theorem exists_endsFrame {n : ℕ} (hlow : 213 ≤ r.line n) (hhigh : r.line n ≤ 261) :
    ∃ m ≥ n, r.EndsFrame m := by
  have hgoal : ∃ m ≥ n, r.op m = .hstart ∧ r.line m = 261 := by
    refine exists_goal_of_ticks (I := fun k => 213 ≤ r.line k ∧ r.line k ≤ 261)
      (μ := fun k => 261 - r.line k) r.hstarts ?_ ?_ ⟨hlow, hhigh⟩
    · rintro k ⟨hk, hk'⟩ hnot
      obtain ⟨hmove, hkeep⟩ := r.line_beyond hk hk'
      by_cases hop : r.op k = .hstart
      · have hline := hmove hop
        have hne : r.line k ≠ 261 := fun h => hnot ⟨hop, h⟩
        omega
      · have hline := hkeep hop
        omega
    · rintro k ⟨hk, hk'⟩ hnot hop
      have hline := (r.line_beyond hk hk').1 hop
      have hne : r.line k ≠ 261 := fun h => hnot ⟨hop, h⟩
      omega
  obtain ⟨m, hm, hop, hline⟩ := hgoal
  exact ⟨m, hm, r.endsFrame_of_line hop hline⟩

/-- After leaving the window the counter is on its way to line 262. -/
theorem LeavesWindow.line {r : LineRun env} {n : ℕ} (h : r.LeavesWindow n) :
    213 ≤ r.line (n + 1) ∧ r.line (n + 1) ≤ 261 := by
  rcases h with ⟨hop, hline⟩ | ⟨v, hadmitted, hlow, hhigh⟩
  · rw [r.line_hstart hop (by omega), if_neg (by omega), hline]
    omega
  · rw [r.line_admitted hadmitted]
    exact ⟨hlow, hhigh⟩

/-- As long as it does not leave the window the counter stays on the lines up to 212 and 262. -/
theorem line_confined (hle : ∀ k, r.line k ≤ 262) {n : ℕ} (hn : r.line n = 262) {m : ℕ}
    (hm : n ≤ m) (hstay : ∀ k, n ≤ k → k < m → ¬ r.LeavesWindow k) :
    r.line m = 262 ∨ r.line m ≤ 212 := by
  induction m, hm using Nat.le_induction with
  | base => exact Or.inl hn
  | succ m hm ih =>
    have hline := ih fun k hk hlt => hstay k hk (by omega)
    have hnot := hstay m hm (Nat.lt_succ_self m)
    by_cases hop : r.op m = .hstart
    · have hne : r.line m ≠ 212 := fun h => hnot (Or.inl ⟨hop, h⟩)
      rw [r.line_hstart hop (hle m)]
      split_ifs <;> omega
    · rcases hadmitted : r.admittedAt m with _ | v
      · rwa [r.line_kept hadmitted hop]
      · have hout : ¬ (213 ≤ v ∧ v ≤ 261) := fun h => hnot (Or.inr ⟨v, hadmitted, h⟩)
        have hv := hle (m + 1)
        rw [r.line_admitted hadmitted] at hv ⊢
        omega

/-- The line stays in its range and the frame ends again and again exactly if every admitted value
is a line and the counter leaves the window again and again. -/
theorem framesEnd_iff :
    r.FramesEnd ↔ r.AdmitsLines ∧ ∃ᶠ n in atTop, r.LeavesWindow n := by
  constructor
  · rintro ⟨hle, hends⟩
    refine ⟨fun n v hadmitted => ?_, frequently_atTop.mpr fun n => ?_⟩
    · rw [← r.line_admitted hadmitted]
      exact hle (n + 1)
    · -- between two ends of a frame the counter passes the window
      obtain ⟨a, ha, haends⟩ := frequently_atTop.mp hends n
      obtain ⟨b, hb, hbends⟩ := frequently_atTop.mp hends (a + 1)
      by_contra hnone
      have hstay (k : ℕ) (hk : a + 1 ≤ k) (_ : k < b) : ¬ r.LeavesWindow k :=
        fun h => hnone ⟨k, by omega, h⟩
      have hconfined := r.line_confined hle haends.2.1 hb hstay
      rw [hbends.line (hle b)] at hconfined
      omega
  · rintro ⟨hadmits, hleaves⟩
    refine ⟨r.line_le hadmits, frequently_atTop.mpr fun n => ?_⟩
    obtain ⟨m, hm, hleave⟩ := frequently_atTop.mp hleaves n
    obtain ⟨k, hk, hends⟩ := r.exists_endsFrame hleave.line.1 hleave.line.2
    exact ⟨k, by omega, hends⟩

end LineRun

/-- A game that writes 300 to VCOUNT at line 202. -/
def runawayOp (n : ℕ) : LineOp :=
  if n = 203 then .write .arm7 .w16 regDispaVcount 300 else .hstart

theorem runawayOp_of_ne {n : ℕ} (h : n ≠ 203) : runawayOp n = .hstart := if_neg h

theorem runawayOp_write : runawayOp 203 = .write .arm7 .w16 regDispaVcount 300 := if_pos rfl

def runawayRun (env : LineEnv) : LineRun env where
  toInfiniteRun := InfiniteRun.ofOps (lineStep env) initSchedule runawayOp
  hstarts := frequently_atTop.mpr fun n => by
    refine ⟨n + 204, Nat.le_add_right n 204, ?_⟩
    exact runawayOp_of_ne (n := n + 204) (by omega)

theorem runawayRun_line (env : LineEnv) {n : ℕ} (h : n < 203) :
    (runawayRun env).line (n + 1) = n := by
  have hop (k : ℕ) (hk : k < 203) : (runawayRun env).op k = .hstart :=
    runawayOp_of_ne (n := k) (by omega)
  induction n with
  | zero => rw [(runawayRun env).line_hstart (hop 0 h) (by rw [LineRun.line_zero]),
      if_pos (LineRun.line_zero _)]
  | succ n ih =>
    have hline := ih (by omega)
    rw [(runawayRun env).line_hstart (hop (n + 1) h) (by omega), if_neg (by omega), hline]

/-- The frame of that game does not end on its line. -/
theorem not_framesEnd_runaway :
    ¬ ∀ (env : LineEnv) (r : LineRun env), r.FramesEnd := by
  intro h
  let env : LineEnv := ⟨false, fun _ _ _ _ regs => regs⟩
  have hline : (runawayRun env).line 203 = 202 := runawayRun_line env (by omega)
  have hadmitted : (runawayRun env).admittedAt 203 = some 300 := by
    rw [LineRun.line] at hline
    have hop : (runawayRun env).op 203 = .write .arm7 .w16 regDispaVcount 300 := runawayOp_write
    rw [LineRun.admittedAt, hop, admitted, if_pos ⟨rfl, rfl, rfl⟩, if_pos (by omega)]
    rfl
  have hle := (h env (runawayRun env)).1 204
  rw [(runawayRun env).line_admitted hadmitted] at hle
  omega

end Desmume.Timing
