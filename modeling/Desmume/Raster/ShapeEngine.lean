import Desmume.Raster.DrawScanline
import Desmume.Raster.SortVerts

/-! `shape_engine` of the software rasterizer: two edges are stepped down the sides of a polygon until
they meet. Whatever its vertices, the lines are drawn one below the other, and all of them if the sides
do not turn upwards. -/

namespace Desmume.Raster
open Library

/-- A unit knows the place of a vertex; its floats are started on an edge and stepped with it. -/
structure Interpolation (V ι : Type*) where
  pos : V → EdgeVert
  start : V → V → EdgeFxFl → ι
  doStep : ι → ι
  doStepExtra : ι → ι

/-- `edge_fx_fl` with its interpolants. -/
structure EdgeFx (ι : Type*) extends EdgeFxFl where
  interpolants : ι

/-- A unit draws the lines that have `SLI_VALUE` under `SLI_MASK`. -/
structure RasterizerUnit where
  SLI : Bool
  SLI_MASK : BitVec 32
  SLI_VALUE : BitVec 32

def RasterizerUnit.draws (u : RasterizerUnit) (Y : ℤ) : Bool :=
  !u.SLI || BitVec.ofInt 32 Y &&& u.SLI_MASK = u.SLI_VALUE

section

variable {V ι : Type*} (I : Interpolation V ι) (u : RasterizerUnit) (fb : Framebuffer)
  (lineHack : Bool) (type : ℕ) (verts : ℕ → V)

/-- The constructor of `edge_fx_fl`; behind `type` the pointers to vertices are not set. -/
def newEdge (Top Bottom : ℕ) : Option (EdgeFx ι × Bool) :=
  if Top < type ∧ Bottom < type then
    let e := edgeFxFl Top Bottom (I.pos ∘ verts)
    some (⟨e.1, I.start (verts Top) (verts Bottom) e.1⟩, e.2)
  else none

/-- `Step` with the interpolants. -/
def stepEdge (e : EdgeFx ι) : EdgeFx ι where
  toEdgeFxFl := e.toEdgeFxFl.step
  interpolants :=
    if e.Denominator ≤ e.ErrorTerm + e.Numerator then I.doStepExtra (I.doStep e.interpolants)
    else I.doStep e.interpolants

/-- The call of `drawscanline`, if the line is one of the unit. -/
def scanline (left right : EdgeFx ι) : List (EdgeFx ι × EdgeFx ι) :=
  if u.draws left.Y then [(left, right)] else []

def scanlines : ℕ → EdgeFx ι → EdgeFx ι → List (EdgeFx ι × EdgeFx ι)
  | 0, _, _ => []
  | n + 1, left, right => scanline u left right ++ scanlines n (stepEdge I left) (stepEdge I right)

/-- `runscanlines`: its calls of `drawscanline`, and where it leaves the edges. -/
def runscanlines (left right : EdgeFx ι) :
    Option (List (EdgeFx ι × EdgeFx ι) × EdgeFx ι × EdgeFx ι) :=
  let Height := min left.Height right.Height
  let horizontal :=
    if lineHack ∧ left.Height = 0 ∧ right.Height = 0 ∧ u64 left.Y < fb.height ∧ 0 ≤ left.Y then
      scanline u left right
    else []
  -- from a height below zero the count would not come to its end
  if Height < 0 then none
  else
    some (horizontal ++ scanlines I u Height.toNat left right,
      (stepEdge I)^[Height.toNat] left, (stepEdge I)^[Height.toNat] right)

/-- The variables of `shape_engine`; an edge that is to be generated is none. -/
structure ShapeState (ι : Type*) where
  lv : ℕ
  rv : ℕ
  left : Option (EdgeFx ι)
  right : Option (EdgeFx ι)
  drawn : List (EdgeFx ι × EdgeFx ι)

/-- The edges of a round, continued or new. -/
def leftEdge (s : ShapeState ι) : Option (EdgeFx ι × Bool) :=
  s.left.elim (newEdge I type verts (if s.lv = type then 0 else s.lv) (s.lv - 1))
    fun e => some (e, false)

def rightEdge (s : ShapeState ι) : Option (EdgeFx ι × Bool) :=
  s.right.elim (newEdge I type verts s.rv (s.rv + 1)) fun e => some (e, false)

/-- What is left of an edge that a round has stepped. -/
def unfinished (e : EdgeFx ι) : Option (EdgeFx ι) := if e.Height = 0 then none else some e

def ShapeState.next (s : ShapeState ι) (drawn : List (EdgeFx ι × EdgeFx ι)) (left right : EdgeFx ι) :
    ShapeState ι where
  lv := if left.Height = 0 then s.lv - 1 else s.lv
  rv := if right.Height = 0 then s.rv + 1 else s.rv
  left := unfinished left
  right := unfinished right
  drawn := s.drawn ++ drawn

/-- The loop, with a bound on its rounds. It ends with the calls that were made and with the
`failure`. -/
def shapeLoop : ℕ → ShapeState ι → Option (List (EdgeFx ι × EdgeFx ι) × Bool)
  | 0, _ => none
  | n + 1, s =>
    if s.rv = type then none
    else do
      let left ← leftEdge I type verts s
      let right ← rightEdge I type verts s
      if left.2 || right.2 then return (s.drawn, true)
      else
        let run ← runscanlines I u fb lineHack left.1 right.1
        let s' := s.next run.1 run.2.1 run.2.2
        if s'.lv ≤ s'.rv + 1 then return (s'.drawn, false) else shapeLoop n s'

/-- `shape_engine` behind the call of `sort_verts`. -/
def shapeEngine : Option (List (EdgeFx ι × EdgeFx ι) × Bool) :=
  shapeLoop I u fb lineHack type verts type ⟨type, 0, none, none, []⟩

end

variable {V ι : Type*} {I : Interpolation V ι} {fb : Framebuffer} {lineHack : Bool} {type : ℕ}
  {verts : ℕ → V}

/-! ### The lines of a unit -/

/-- The one unit of a machine without threads. -/
def everyLine : RasterizerUnit := ⟨false, 0, 0⟩

def ownCalls (u : RasterizerUnit) (calls : List (EdgeFx ι × EdgeFx ι)) : List (EdgeFx ι × EdgeFx ι) :=
  calls.filter fun call => u.draws call.1.Y

theorem scanline_eq_ownCalls (u : RasterizerUnit) (left right : EdgeFx ι) :
    scanline u left right = ownCalls u (scanline everyLine left right) := by
  have hall : scanline everyLine left right = [(left, right)] := rfl
  rw [hall, ownCalls, List.filter_cons, List.filter_nil]
  rfl

theorem scanlines_eq_ownCalls (u : RasterizerUnit) (n : ℕ) (left right : EdgeFx ι) :
    scanlines I u n left right = ownCalls u (scanlines I everyLine n left right) := by
  induction n generalizing left right with
  | zero => rfl
  | succ n ih =>
    rw [scanlines, scanlines, ownCalls, List.filter_append, ih, scanline_eq_ownCalls]
    rfl

theorem runscanlines_eq_map (u : RasterizerUnit) (left right : EdgeFx ι) :
    runscanlines I u fb lineHack left right =
      (runscanlines I everyLine fb lineHack left right).map fun run => (ownCalls u run.1, run.2) := by
  rw [runscanlines, runscanlines]
  split_ifs with hneg hhack
  · rfl
  · rw [scanlines_eq_ownCalls, scanline_eq_ownCalls, ownCalls, ownCalls, ← List.filter_append]
    rfl
  · rw [scanlines_eq_ownCalls]
    rfl

/-- A unit goes the same way as the one that draws every line, and makes the calls for its own. -/
theorem shapeLoop_eq_map (I : Interpolation V ι) (u : RasterizerUnit) (fb : Framebuffer)
    (lineHack : Bool) (type : ℕ) (verts : ℕ → V) (n : ℕ) (s : ShapeState ι) :
    shapeLoop I u fb lineHack type verts n { s with drawn := ownCalls u s.drawn } =
      (shapeLoop I everyLine fb lineHack type verts n s).map fun run => (ownCalls u run.1, run.2) := by
  induction n generalizing s with
  | zero => rfl
  | succ n ih =>
    have hleft : leftEdge I type verts { s with drawn := ownCalls u s.drawn } =
        leftEdge I type verts s := rfl
    have hright : rightEdge I type verts { s with drawn := ownCalls u s.drawn } =
        rightEdge I type verts s := rfl
    rw [shapeLoop, shapeLoop, hleft, hright]
    split_ifs with hrv
    · rfl
    rcases leftEdge I type verts s with _ | left
    · rfl
    rcases rightEdge I type verts s with _ | right
    · rfl
    simp only [Option.bind_eq_bind, Option.bind_some]
    split_ifs with hfail
    · rfl
    rw [runscanlines_eq_map]
    rcases runscanlines I everyLine fb lineHack left.1 right.1 with _ | run
    · rfl
    have hnext : ({ s with drawn := ownCalls u s.drawn } : ShapeState ι).next (ownCalls u run.1)
        run.2.1 run.2.2 =
        { s.next run.1 run.2.1 run.2.2 with
          drawn := ownCalls u (s.next run.1 run.2.1 run.2.2).drawn } := by
      simp only [ShapeState.next, ownCalls, List.filter_append]
    simp only [Option.map_some, Option.bind_some, hnext]
    split_ifs with hend
    · rfl
    · exact ih _

/-! ### An edge -/

/-- The scanline that a vertex is on. -/
def lineOf (I : Interpolation V ι) (verts : ℕ → V) (k : ℕ) : ℤ := ceil28_4 (I.pos (verts k)).y.val

/-- The edge is at a line and ends on another one, not above it. -/
structure EdgeFx.Spans (e : EdgeFx ι) (line stop : ℤ) : Prop where
  line : e.Y = line
  stop : e.Y + e.Height = stop
  height : 0 ≤ e.Height

theorem lineOf_mono {j k : ℕ} (h : (I.pos (verts j)).y.val ≤ (I.pos (verts k)).y.val) :
    lineOf I verts j ≤ lineOf I verts k := by
  rw [lineOf, lineOf, ceil28_4_eq, ceil28_4_eq]
  omega

theorem floorDivMod_failure (num den : ℤ) : (floorDivMod num den).2.2 = decide (den ≤ 0) := by
  rw [floorDivMod]
  dsimp only
  split_ifs <;> rfl

/-- What the constructor makes of two vertices: it fails only on an edge that rises, and on every
edge with a negative height. -/
theorem exists_newEdge (I : Interpolation V ι) (verts : ℕ → V) {Top Bottom : ℕ} (hTop : Top < type)
    (hBottom : Bottom < type) :
    ∃ e failed, newEdge I type verts Top Bottom = some (e, failed) ∧
      (failed = false → e.Spans (lineOf I verts Top) (lineOf I verts Bottom)) ∧
      (failed = true → (I.pos (verts Bottom)).y.val < (I.pos (verts Top)).y.val) := by
  have hY : (edgeFxFl Top Bottom (I.pos ∘ verts)).1.Y = lineOf I verts Top := by
    rw [edgeFxFl]
    dsimp only
    split_ifs <;> rfl
  have hHeight : (edgeFxFl Top Bottom (I.pos ∘ verts)).1.Height =
      lineOf I verts Bottom - lineOf I verts Top := height_eq
  have hfailure : (edgeFxFl Top Bottom (I.pos ∘ verts)).2 = true →
      (I.pos (verts Bottom)).y.val < (I.pos (verts Top)).y.val := by
    intro h
    rw [edgeFxFl] at h
    dsimp only [Function.comp_apply] at h
    split_ifs at h with hflat hN
    rw [floorDivMod_failure, floorDivMod_failure, Bool.or_self, decide_eq_true_eq] at h
    by_contra hle
    have hpos := Binary32.roundInt_pos
      (lt_of_le_of_ne (Int.sub_nonneg_of_le (not_lt.mp hle)) fun h0 => hN (by rw [← h0]; rfl))
    omega
  have hrises : lineOf I verts Bottom < lineOf I verts Top →
      (edgeFxFl Top Bottom (I.pos ∘ verts)).2 = true := by
    intro h
    have hy : (I.pos (verts Bottom)).y.val - (I.pos (verts Top)).y.val < 0 := by
      by_contra hge
      exact absurd (lineOf_mono (by omega)) (not_le.mpr h)
    have hneg := Binary32.roundInt_neg hy
    rw [edgeFxFl]
    dsimp only [Function.comp_apply]
    have hne : ceil28_4 (I.pos (verts Bottom)).y.val - ceil28_4 (I.pos (verts Top)).y.val ≠ 0 :=
      (sub_neg.mpr h).ne
    rw [if_pos (Or.inl hne), if_pos hneg.ne]
    dsimp only
    rw [floorDivMod_failure, floorDivMod_failure, Bool.or_self, decide_eq_true_eq]
    omega
  refine ⟨_, _, if_pos ⟨hTop, hBottom⟩, fun hok => ⟨hY, ?_, ?_⟩, hfailure⟩
  · dsimp only
    rw [hY, hHeight]
    ring
  · dsimp only
    rw [hHeight]
    by_contra hneg
    have := hrises (by omega)
    rw [hok] at this
    exact Bool.false_ne_true this

/-! ### The lines of a round -/

/-- So many lines, from one on downwards. -/
def linesFrom (line : ℤ) (n : ℕ) : List ℤ := (List.range n).map fun k : ℕ => line + k

theorem linesFrom_succ (line : ℤ) (n : ℕ) : linesFrom line (n + 1) = line :: linesFrom (line + 1) n := by
  rw [linesFrom, List.range_succ_eq_map, List.map_cons, List.map_map, linesFrom]
  simp only [Nat.cast_zero, add_zero, List.cons.injEq, true_and]
  refine List.map_congr_left fun k _ => ?_
  rw [Function.comp_apply, Nat.cast_succ]
  ring

theorem linesFrom_append (line : ℤ) (m n : ℕ) :
    linesFrom line m ++ linesFrom (line + m) n = linesFrom line (m + n) := by
  induction m generalizing line with
  | zero => simp [linesFrom]
  | succ m ih =>
    have hnext : line + ((m + 1 : ℕ) : ℤ) = line + 1 + m := by
      rw [Nat.cast_succ]
      ring
    rw [linesFrom_succ, List.cons_append, hnext, ih, Nat.add_right_comm, linesFrom_succ]

theorem stepEdge_Y (e : EdgeFx ι) : (stepEdge I e).Y = e.Y + 1 := by
  rw [stepEdge, EdgeFxFl.step]
  dsimp only
  split_ifs <;> rfl

theorem stepEdge_Height (e : EdgeFx ι) : (stepEdge I e).Height = e.Height - 1 := by
  rw [stepEdge, EdgeFxFl.step]
  dsimp only
  split_ifs <;> rfl

theorem EdgeFx.Spans.iterate {e : EdgeFx ι} {line stop : ℤ} (h : e.Spans line stop) {n : ℕ}
    (hn : n ≤ e.Height) : ((stepEdge I)^[n] e).Spans (line + n) stop ∧
      ((stepEdge I)^[n] e).Height = e.Height - n := by
  induction n with
  | zero => simpa using h
  | succ n ih =>
    obtain ⟨hspans, hheight⟩ := ih (by omega)
    rw [Function.iterate_succ_apply']
    have hY := stepEdge_Y (I := I) ((stepEdge I)^[n] e)
    have hH := stepEdge_Height (I := I) ((stepEdge I)^[n] e)
    have := hspans.line
    have := hspans.stop
    exact ⟨⟨by omega, by omega, by omega⟩, by omega⟩

/-- The two edges of a call are on one line, above their ends; or both are flat, on a line that is
drawn for the sake of its width. -/
def Abreast (lineHack : Bool) (call : EdgeFx ι × EdgeFx ι) : Prop :=
  call.1.Y = call.2.Y ∧ (0 < call.1.Height ∧ 0 < call.2.Height ∨
    lineHack = true ∧ call.1.Height = 0 ∧ call.2.Height = 0)

/-- A call between two lines. -/
def AbreastWithin (lineHack : Bool) (first last : ℤ) (call : EdgeFx ι × EdgeFx ι) : Prop :=
  Abreast lineHack call ∧ first ≤ call.1.Y ∧ call.1.Y ≤ last

theorem AbreastWithin.mono {first last first' last' : ℤ} {call : EdgeFx ι × EdgeFx ι}
    (h : AbreastWithin lineHack first last call) (hfirst : first' ≤ first) (hlast : last ≤ last') :
    AbreastWithin lineHack first' last' call :=
  ⟨h.1, hfirst.trans h.2.1, h.2.2.trans hlast⟩

/-- The calls that the edges are stepped after. -/
def steppedCalls (calls : List (EdgeFx ι × EdgeFx ι)) : List (EdgeFx ι × EdgeFx ι) :=
  calls.filter fun call => 0 < call.1.Height

theorem scanlines_abreast (lineHack : Bool) {left right : EdgeFx ι} {n : ℕ} (hY : left.Y = right.Y)
    (hleft : n ≤ left.Height) (hright : n ≤ right.Height) :
    (∀ call ∈ scanlines I everyLine n left right,
        AbreastWithin lineHack left.Y (left.Y + n) call) ∧
      steppedCalls (scanlines I everyLine n left right) = scanlines I everyLine n left right ∧
      (scanlines I everyLine n left right).map (fun call => call.1.Y) = linesFrom left.Y n := by
  induction n generalizing left right with
  | zero => exact ⟨fun call hcall => absurd hcall List.not_mem_nil, rfl, rfl⟩
  | succ n ih =>
    have hcons : scanlines I everyLine (n + 1) left right =
        (left, right) :: scanlines I everyLine n (stepEdge I left) (stepEdge I right) := rfl
    have hpos : 0 < left.Height ∧ 0 < right.Height := by omega
    obtain ⟨hall, hstepped, hlines⟩ := @ih (stepEdge I left) (stepEdge I right)
      (by rw [stepEdge_Y, stepEdge_Y, hY]) (by rw [stepEdge_Height]; omega)
      (by rw [stepEdge_Height]; omega)
    rw [hcons]
    refine ⟨?_, ?_, ?_⟩
    · intro call hcall
      rcases List.mem_cons.mp hcall with rfl | hcall
      · exact ⟨⟨hY, Or.inl hpos⟩, le_rfl, by dsimp only; omega⟩
      · refine (hall call hcall).mono ?_ ?_
        · rw [stepEdge_Y]
          omega
        · rw [stepEdge_Y]
          omega
    · rw [steppedCalls, List.filter_cons_of_pos (by simpa using hpos.1)]
      exact congrArg _ hstepped
    · rw [List.map_cons, hlines, stepEdge_Y, linesFrom_succ]

/-- A round of two edges on one line steps them to where the first one ends. -/
theorem exists_runscanlines {left right : EdgeFx ι} {line stop stop' : ℤ} (fb : Framebuffer)
    (lineHack : Bool) (hleft : left.Spans line stop) (hright : right.Spans line stop') :
    ∃ (n : ℕ) (calls : List (EdgeFx ι × EdgeFx ι)) (left' right' : EdgeFx ι),
      runscanlines I everyLine fb lineHack left right = some (calls, left', right') ∧
      left'.Spans (line + n) stop ∧ right'.Spans (line + n) stop' ∧
      (left'.Height = 0 ∨ right'.Height = 0) ∧
      (∀ call ∈ calls, AbreastWithin lineHack line (line + n) call) ∧
      (steppedCalls calls).map (fun call => call.1.Y) = linesFrom line n := by
  have hY : left.Y = right.Y := hleft.line.trans hright.line.symm
  have hpos := hleft.height
  have hpos' := hright.height
  obtain ⟨n, hn⟩ := Int.eq_ofNat_of_zero_le (le_min hpos hpos')
  obtain ⟨hl, hlH⟩ := hleft.iterate (I := I) (n := n) (by omega)
  obtain ⟨hr, hrH⟩ := hright.iterate (I := I) (n := n) (by omega)
  obtain ⟨hall, hstepped, hlines⟩ := scanlines_abreast (I := I) (n := n) lineHack hY
    (by omega) (by omega)
  rw [hleft.line] at hall hlines
  rw [runscanlines, hn, if_neg (not_lt.mpr (Int.natCast_nonneg n)), Int.toNat_natCast]
  split_ifs with hhack
  · refine ⟨n, _, _, _, rfl, hl, hr, by omega, ?_, ?_⟩
    · intro call hcall
      rcases List.mem_append.mp hcall with hcall | hcall
      · obtain rfl := List.mem_singleton.mp hcall
        have hline := hleft.line
        exact ⟨⟨hY, Or.inr ⟨hhack.1, hhack.2.1, hhack.2.2.1⟩⟩, hline.ge, by dsimp only; omega⟩
      · exact hall call hcall
    · have hflat : steppedCalls (scanline everyLine left right) = [] := by
        have hone : scanline everyLine left right = [(left, right)] := rfl
        rw [hone, steppedCalls, List.filter_cons_of_neg (by simp [hhack.2.1]), List.filter_nil]
      rw [steppedCalls, List.filter_append]
      change (steppedCalls _ ++ steppedCalls _).map _ = _
      rw [hflat, List.nil_append, hstepped, hlines]
  · refine ⟨n, _, _, _, rfl, hl, hr, by omega, hall, ?_⟩
    rw [List.nil_append, hstepped, hlines]

/-! ### The way around the polygon -/

/-- A round of the loop starts `n` lines below the first vertex. All vertices that are passed are above
it, and the edges that go on cross it. -/
structure Descended (I : Interpolation V ι) (lineHack : Bool) (type : ℕ) (verts : ℕ → V)
    (s : ShapeState ι) (n : ℕ) : Prop where
  order : s.rv ≤ s.lv
  le : s.lv ≤ type
  left : ∀ e, s.left = some e → e.Spans (lineOf I verts 0 + n) (lineOf I verts (s.lv - 1))
  leftNew : s.left = none → lineOf I verts (if s.lv = type then 0 else s.lv) = lineOf I verts 0 + n
  right : ∀ e, s.right = some e → e.Spans (lineOf I verts 0 + n) (lineOf I verts (s.rv + 1))
  rightNew : s.right = none → lineOf I verts s.rv = lineOf I verts 0 + n
  reached : ∃ k < type, lineOf I verts k = lineOf I verts 0 + n
  passed : ∀ k < type, k ≤ s.rv ∨ s.lv ≤ k → lineOf I verts k ≤ lineOf I verts 0 + n
  abreast : ∀ call ∈ s.drawn,
    AbreastWithin lineHack (lineOf I verts 0) (lineOf I verts 0 + n) call
  lines : (steppedCalls s.drawn).map (fun call => call.1.Y) = linesFrom (lineOf I verts 0) n

theorem descended_initial (I : Interpolation V ι) (lineHack : Bool) (verts : ℕ → V) (h : 0 < type) :
    Descended I lineHack type verts ⟨type, 0, none, none, []⟩ 0 where
  order := Nat.zero_le type
  le := le_rfl
  left _ he := absurd he.symm (Option.some_ne_none _)
  leftNew _ := by simp
  right _ he := absurd he.symm (Option.some_ne_none _)
  rightNew _ := by simp
  reached := ⟨0, h, by simp⟩
  passed k hk := by
    rintro (hk0 | hk')
    · rw [Nat.le_zero.mp hk0]
      simp
    · exact absurd hk (not_lt.mpr hk')
  abreast call hcall := absurd hcall List.not_mem_nil
  lines := rfl

theorem Descended.exists_leftEdge {s : ShapeState ι} {n : ℕ}
    (h : Descended I lineHack type verts s n) (hgap : s.rv + 1 < s.lv) :
    ∃ e failed, leftEdge I type verts s = some (e, failed) ∧
      (failed = false → e.Spans (lineOf I verts 0 + n) (lineOf I verts (s.lv - 1))) ∧
      (failed = true → (I.pos (verts (s.lv - 1))).y.val <
        (I.pos (verts (if s.lv = type then 0 else s.lv))).y.val) := by
  have hle := h.le
  rcases hs : s.left with _ | e
  · have hTop : (if s.lv = type then 0 else s.lv) < type := by
      split_ifs <;> omega
    obtain ⟨e, failed, he, hok, hfail⟩ :=
      exists_newEdge I verts hTop (by omega : s.lv - 1 < type)
    rw [h.leftNew hs] at hok
    rw [leftEdge, hs]
    exact ⟨e, failed, he, hok, hfail⟩
  · rw [leftEdge, hs]
    exact ⟨e, false, rfl, fun _ => h.left e hs, fun hfail => absurd hfail Bool.false_ne_true⟩

theorem Descended.exists_rightEdge {s : ShapeState ι} {n : ℕ}
    (h : Descended I lineHack type verts s n) (hgap : s.rv + 1 < s.lv) :
    ∃ e failed, rightEdge I type verts s = some (e, failed) ∧
      (failed = false → e.Spans (lineOf I verts 0 + n) (lineOf I verts (s.rv + 1))) ∧
      (failed = true → (I.pos (verts (s.rv + 1))).y.val < (I.pos (verts s.rv)).y.val) := by
  have hle := h.le
  rcases hs : s.right with _ | e
  · obtain ⟨e, failed, he, hok, hfail⟩ := exists_newEdge I verts
      (by omega : s.rv < type) (by omega : s.rv + 1 < type)
    rw [h.rightNew hs] at hok
    rw [rightEdge, hs]
    exact ⟨e, failed, he, hok, hfail⟩
  · rw [rightEdge, hs]
    exact ⟨e, false, rfl, fun _ => h.right e hs, fun hfail => absurd hfail Bool.false_ne_true⟩

theorem unfinished_eq_some {e e' : EdgeFx ι} (h : unfinished e = some e') :
    e.Height ≠ 0 ∧ e' = e := by
  rw [unfinished] at h
  split_ifs at h with h0
  exact ⟨h0, (Option.some.inj h).symm⟩

theorem unfinished_eq_none {e : EdgeFx ι} (h : unfinished e = none) : e.Height = 0 := by
  rw [unfinished] at h
  split_ifs at h with h0
  exact h0

/-- A round goes down to the next end of an edge. -/
theorem Descended.next {s : ShapeState ι} {n m : ℕ} (h : Descended I lineHack type verts s n)
    (hgap : s.rv + 1 < s.lv) {calls : List (EdgeFx ι × EdgeFx ι)} {left right : EdgeFx ι}
    (hleft : left.Spans (lineOf I verts 0 + n + m) (lineOf I verts (s.lv - 1)))
    (hright : right.Spans (lineOf I verts 0 + n + m) (lineOf I verts (s.rv + 1)))
    (hend : left.Height = 0 ∨ right.Height = 0) (hcalls : ∀ call ∈ calls,
      AbreastWithin lineHack (lineOf I verts 0 + n) (lineOf I verts 0 + n + m) call)
    (hlines : (steppedCalls calls).map (fun call => call.1.Y) =
      linesFrom (lineOf I verts 0 + n) m) :
    Descended I lineHack type verts (s.next calls left right) (n + m) ∧
      (s.next calls left right).lv - (s.next calls left right).rv < s.lv - s.rv := by
  have hle := h.le
  have hsum : lineOf I verts 0 + n + m = lineOf I verts 0 + (n + m : ℕ) := by
    rw [Nat.cast_add]
    ring
  have hl := hleft.line
  have hlstop := hleft.stop
  have hr := hright.line
  have hrstop := hright.stop
  rw [hsum] at hleft hright hl hr
  have hlv : (s.next calls left right).lv = if left.Height = 0 then s.lv - 1 else s.lv := rfl
  have hrv : (s.next calls left right).rv = if right.Height = 0 then s.rv + 1 else s.rv := rfl
  constructor
  · refine ⟨?_, ?_, ?_, ?_, ?_, ?_, ?_, ?_, ?_, ?_⟩
    · rw [hlv, hrv]
      split_ifs <;> omega
    · rw [hlv]
      split_ifs <;> omega
    · intro e he
      obtain ⟨h0, rfl⟩ := unfinished_eq_some he
      rw [hlv, if_neg h0]
      exact hleft
    · intro hnone
      have h0 := unfinished_eq_none hnone
      rw [if_pos h0] at hlv
      rw [if_neg (by omega), hlv]
      omega
    · intro e he
      obtain ⟨h0, rfl⟩ := unfinished_eq_some he
      rw [hrv, if_neg h0]
      exact hright
    · intro hnone
      have h0 := unfinished_eq_none hnone
      rw [hrv, if_pos h0]
      omega
    · rcases hend with h0 | h0
      · exact ⟨s.lv - 1, by omega, by omega⟩
      · exact ⟨s.rv + 1, by omega, by omega⟩
    · intro k hk hpast
      have hold := h.passed k hk
      by_cases hk' : k ≤ s.rv ∨ s.lv ≤ k
      · have := hold hk'
        omega
      -- one of the two edges has just come to this vertex
      rw [hlv, hrv] at hpast
      rcases hpast with hpast | hpast
      · by_cases h0 : right.Height = 0
        · rw [if_pos h0] at hpast
          obtain rfl : k = s.rv + 1 := by omega
          omega
        · rw [if_neg h0] at hpast
          omega
      · by_cases h0 : left.Height = 0
        · rw [if_pos h0] at hpast
          obtain rfl : k = s.lv - 1 := by omega
          omega
        · rw [if_neg h0] at hpast
          omega
    · intro call hcall
      rcases List.mem_append.mp hcall with hcall | hcall
      · exact (h.abreast call hcall).mono le_rfl (by omega)
      · exact (hcalls call hcall).mono (by omega) (by omega)
    · rw [← linesFrom_append, ← hlines, ← h.lines, ← List.map_append, steppedCalls, steppedCalls,
        steppedCalls, ← List.filter_append]
      rfl
  · rw [hlv, hrv]
    rcases hend with h0 | h0
    · rw [if_pos h0]
      split_ifs <;> omega
    · rw [if_pos h0]
      split_ifs <;> omega

/-- From the first vertex the sides go down to one vertex. -/
structure TwoSided (I : Interpolation V ι) (type : ℕ) (verts : ℕ → V) (m : ℕ) : Prop where
  lt : m < type
  down : ∀ k < m, (I.pos (verts k)).y.val ≤ (I.pos (verts (k + 1))).y.val
  up : ∀ k, m ≤ k → k + 1 < type → (I.pos (verts (k + 1))).y.val ≤ (I.pos (verts k)).y.val

theorem TwoSided.le {m : ℕ} (h : TwoSided I type verts m) {k : ℕ} (hk : k < type) :
    (I.pos (verts k)).y.val ≤ (I.pos (verts m)).y.val := by
  rcases le_total k m with hkm | hkm
  · induction hkm using Nat.decreasingInduction with
    | self => exact le_rfl
    | of_succ k hkm ih => exact (h.down k hkm).trans (ih (by have := h.lt; omega))
  · induction k, hkm using Nat.le_induction with
    | base => exact le_rfl
    | succ k hkm ih => exact (h.up k hkm hk).trans (ih (by omega))

/-- The way down the polygon, with what a round that is left to go does. -/
theorem exists_shapeLoop (fb : Framebuffer) (hfirst : ∀ k < type,
    (I.pos (verts 0)).y.val ≤ (I.pos (verts k)).y.val) {rounds : ℕ} {s : ShapeState ι} {n : ℕ}
    (h : Descended I lineHack type verts s n) (hgap : s.rv + 1 < s.lv)
    (hrounds : s.lv - s.rv ≤ rounds) :
    ∃ calls failure, ∃ n' : ℕ, shapeLoop I everyLine fb lineHack type verts rounds s =
        some (calls, failure) ∧
      (∀ call ∈ calls, AbreastWithin lineHack (lineOf I verts 0) (lineOf I verts 0 + n') call) ∧
      (steppedCalls calls).map (fun call => call.1.Y) = linesFrom (lineOf I verts 0) n' ∧
      (∃ k < type, lineOf I verts k = lineOf I verts 0 + n') ∧
      ((failure = false ∨ ∃ m, TwoSided I type verts m) →
        ∀ k < type, lineOf I verts k ≤ lineOf I verts 0 + n') := by
  induction rounds generalizing s n with
  | zero => omega
  | succ rounds ih =>
    have hle := h.le
    obtain ⟨left, leftFails, hleft, hleftOk, hleftFails⟩ := h.exists_leftEdge hgap
    obtain ⟨right, rightFails, hright, hrightOk, hrightFails⟩ := h.exists_rightEdge hgap
    rw [shapeLoop, if_neg (by omega), hleft, hright]
    simp only [Option.bind_eq_bind, Option.bind_some, Option.pure_def]
    by_cases hfail : (leftFails || rightFails) = true
    · rw [if_pos hfail]
      refine ⟨_, _, n, rfl, h.abreast, h.lines, h.reached, ?_⟩
      rintro (hno | ⟨m, hsided⟩)
      · exact absurd hno.symm Bool.false_ne_true
      -- an edge that rises lies behind the lowest vertex
      have hpast : m ≤ s.rv ∨ s.lv ≤ m := by
        rcases Bool.or_eq_true_iff.mp hfail with hl | hr
        · have hrise := hleftFails hl
          by_contra hbetween
          split_ifs at hrise with htype
          · exact absurd (hfirst (s.lv - 1) (by omega)) (not_le.mpr hrise)
          · have hup := hsided.up (s.lv - 1) (by omega) (by omega)
            rw [Nat.sub_add_cancel (by omega)] at hup
            exact absurd hup (not_le.mpr hrise)
        · have hrise := hrightFails hr
          by_contra hbetween
          exact absurd (hsided.down s.rv (by omega)) (not_le.mpr hrise)
      intro k hk
      exact (lineOf_mono (hsided.le hk)).trans (h.passed m hsided.lt hpast)
    · rw [if_neg hfail]
      obtain ⟨hl, hr⟩ := Bool.or_eq_false_iff.mp (Bool.eq_false_iff.mpr hfail)
      obtain ⟨m, calls, left', right', hrun, hleft', hright', hend, habreast, hlines⟩ :=
        exists_runscanlines fb lineHack (hleftOk hl) (hrightOk hr)
      obtain ⟨hnext, hdown⟩ := h.next hgap hleft' hright' hend habreast hlines
      rw [hrun]
      simp only [Option.bind_some]
      split_ifs with hmeet
      · refine ⟨_, _, n + m, rfl, hnext.abreast, hnext.lines, hnext.reached, fun _ k hk => ?_⟩
        exact hnext.passed k hk (by omega)
      · exact ih hnext (by omega) (by omega)

/-- `sort_verts` leaves no vertex above the first one. -/
theorem sortVerts_first {backwards : Bool} {start out : ℕ → ScreenVert} {rounds : ℕ}
    (h : 1 < type ∧ type ≤ 10) (hsort : sortVerts type backwards start rounds = some out) {k : ℕ}
    (hk : k < type) : (out 0).y ≤ (out k).y := by
  obtain ⟨v, hv, hout⟩ := Option.bind_eq_some_iff.mp hsort
  obtain ⟨-, -, hend, -⟩ := runWhile_eq_some hv
  obtain ⟨n, rfl, -, hfalls⟩ := runWhile_eq_some hout
  have htop {i : ℕ} (hi : i < type) : (v 0).y ≤ (v i).y := by
    rcases Nat.eq_zero_or_pos i with rfl | hpos
    · exact le_rfl
    · exact not_lt.mp fun hlt => hend ⟨i, mem_checked.mpr ⟨hpos, by omega⟩, hi, hlt⟩
  have hline : (((rotVerts type)^[n] v) 0).y = (v 0).y := by
    clear hout hsort
    induction n with
    | zero => rfl
    | succ n ih =>
      have hlast := hfalls n (Nat.lt_succ_self n)
      rw [← ih fun j hj => hfalls j (Nat.lt_succ_of_lt hj), hlast.1, Function.iterate_succ_apply',
        rotVerts_apply h.2 (by omega), Nat.zero_add, Nat.mod_eq_of_lt h.1]
  rw [hline, iterate_rotVerts h.2 n hk]
  exact htop (Nat.mod_lt _ (by omega))

/-- The loop from the first vertex on, for all units at once. -/
theorem exists_shapeEngine (I : Interpolation V ι) (fb : Framebuffer) (lineHack : Bool) (verts : ℕ → V)
    (htype : 1 < type) (hfirst : ∀ k < type,
      (I.pos (verts 0)).y.val ≤ (I.pos (verts k)).y.val) :
    ∃ calls failure, ∃ n : ℕ,
      (∀ u, shapeEngine I u fb lineHack type verts = some (ownCalls u calls, failure)) ∧
      (∀ call ∈ calls, AbreastWithin lineHack (lineOf I verts 0) (lineOf I verts 0 + n) call) ∧
      (steppedCalls calls).map (fun call => call.1.Y) = linesFrom (lineOf I verts 0) n ∧
      (∃ k < type, lineOf I verts k = lineOf I verts 0 + n) ∧
      ((failure = false ∨ ∃ m, TwoSided I type verts m) →
        ∀ k < type, lineOf I verts k ≤ lineOf I verts 0 + n) := by
  obtain ⟨calls, failure, n, hloop, hrest⟩ := exists_shapeLoop fb hfirst
    (descended_initial I lineHack verts (by omega)) (show 0 + 1 < type by omega) (Nat.sub_le type 0)
  refine ⟨calls, failure, n, fun u => ?_, hrest⟩
  have hown := shapeLoop_eq_map I u fb lineHack type verts type ⟨type, 0, none, none, []⟩
  rw [hloop] at hown
  exact hown

def screenVert (v : EdgeVert) : ScreenVert := ⟨v.x.val, v.y.val⟩

/-- The vertices stand as `sort_verts` has left them. -/
def SortedVerts (I : Interpolation V ι) (type : ℕ) (verts : ℕ → V) : Prop :=
  ∃ backwards start rounds out, sortVerts type backwards start rounds = some out ∧
    ∀ k < type, screenVert (I.pos (verts k)) = out k

theorem SortedVerts.first (h : SortedVerts I type verts) (htype : 1 < type ∧ type ≤ 10) {k : ℕ}
    (hk : k < type) : (I.pos (verts 0)).y.val ≤ (I.pos (verts k)).y.val := by
  obtain ⟨backwards, start, rounds, out, hsort, hout⟩ := h
  have hle := sortVerts_first htype hsort hk
  rw [← hout k hk, ← hout 0 (by omega)] at hle
  exact hle

/-- No attributes but the place. -/
def placesOnly : Interpolation EdgeVert Unit := ⟨id, fun _ _ _ => (), id, id⟩

def slantedVerts (k : ℕ) : EdgeVert :=
  [(⟨sixteenths 64, sixteenths 0⟩ : EdgeVert), ⟨sixteenths 128, sixteenths 48⟩,
    ⟨sixteenths 0, sixteenths 96⟩].getD k ⟨sixteenths 0, sixteenths 0⟩

theorem slanted_sorted : SortedVerts placesOnly 3 slantedVerts :=
  ⟨false, fun k => screenVert (slantedVerts k), 0, _, rfl, fun _ _ => rfl⟩

/-- Two threads share the lines. -/
example : (shapeEngine placesOnly ⟨true, 1, 1⟩ wideFramebuffer false 3 slantedVerts).map
    (fun run => run.1.map fun call => (call.1.Y, call.1.X, call.2.X)) =
    some [(1, 4, 6), (3, 2, 8), (5, 1, 3)] := by
  decide +kernel

end Desmume.Raster
