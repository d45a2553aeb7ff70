import Desmume.Library.Binary32
import Mathlib.Algebra.Order.Floor.Ring
import Mathlib.Data.Rat.Floor
import Mathlib.Logic.Function.Iterate
import Mathlib.Tactic.IntervalCases
import Mathlib.Tactic.Linarith
import Mathlib.Tactic.Ring

/-! The edges of the software rasterizer. An edge is stepped down the scanlines with an error term;
the numerator that it starts from is computed on floats. -/

namespace Desmume.Raster
open Library Binary32

/-- A coordinate as `performCoordAdjustment` leaves it: a fixed-point number, kept in a float. -/
structure Fixed28_4 where
  val : ℤ
  fits : -2 ^ 31 ≤ val ∧ val < 2 ^ 31
  exact : roundInt val = val

/-- The members of `VERT` that the position of an edge depends on. -/
structure EdgeVert where
  x : Fixed28_4
  y : Fixed28_4

/-- `FloorDivMod`: the quotient, the remainder, and whether it sets `failure`. -/
def floorDivMod (num den : ℤ) : ℤ × ℤ × Bool :=
  if 0 ≤ num then (num.tdiv den, num.tmod den, decide (den ≤ 0))
  else
    let floor := -((-num).tdiv den)
    let mod := (-num).tmod den
    if mod ≠ 0 then (floor - 1, den - mod, decide (den ≤ 0)) else (floor, mod, decide (den ≤ 0))

/-- `Ceil28_4`. -/
def ceil28_4 (value : ℤ) : ℤ :=
  let num := value - 1 + 16
  if 0 ≤ num then num.tdiv 16
  else -((-num).tdiv 16) - (if (-num).tmod 16 ≠ 0 then 1 else 0)

/-- `edge_fx_fl` without the interpolants. -/
structure EdgeFxFl where
  X : ℤ
  XStep : ℤ
  Numerator : ℤ
  Denominator : ℤ
  ErrorTerm : ℤ
  Y : ℤ
  Height : ℤ
  deriving DecidableEq

/-- `InitialNumerator`: the first product is one of integers, all that follows is done on floats. -/
def initialNumerator (top : EdgeVert) (dN dM Y : ℤ) : ℤ :=
  roundInt (roundInt (roundInt (roundInt (roundInt (dM * 16 * Y) - roundInt (dM * top.y.val)) +
    roundInt (dN * top.x.val)) - 1) + roundInt (dN * 16))

/-- The constructor of `edge_fx_fl`, with the `failure` that it may set. -/
def edgeFxFl (Top Bottom : ℕ) (verts : ℕ → EdgeVert) : EdgeFxFl × Bool :=
  let Y := ceil28_4 (verts Top).y.val
  let Height := ceil28_4 (verts Bottom).y.val - Y
  let X := ceil28_4 (verts Top).x.val
  let Width := ceil28_4 (verts Bottom).x.val - X
  if Height ≠ 0 ∨ Width ≠ 0 then
    let dN := roundInt ((verts Bottom).y.val - (verts Top).y.val)
    let dM := roundInt ((verts Bottom).x.val - (verts Top).x.val)
    if dN ≠ 0 then
      let x := floorDivMod (initialNumerator (verts Top) dN dM Y) (dN * 16)
      let step := floorDivMod (dM * 16) (dN * 16)
      (⟨x.1, step.1, step.2.1, dN * 16, x.2.1, Y, Height⟩, x.2.2 || step.2.2)
    else (⟨X, Width, 0, 1, 0, Y, Height⟩, false)
  else (⟨X, 1, 0, 1, 0, Y, Height⟩, false)

namespace EdgeFxFl

/-- `edge_fx_fl::Step`. -/
def step (e : EdgeFxFl) : EdgeFxFl :=
  let ErrorTerm := e.ErrorTerm + e.Numerator
  if e.Denominator ≤ ErrorTerm then
    { e with
      X := e.X + e.XStep + 1
      Y := e.Y + 1
      Height := e.Height - 1
      ErrorTerm := ErrorTerm - e.Denominator }
  else { e with X := e.X + e.XStep, Y := e.Y + 1, Height := e.Height - 1, ErrorTerm }

end EdgeFxFl

section Spec

variable (verts : ℕ → EdgeVert) (Top Bottom : ℕ)

def height : ℤ := (edgeFxFl Top Bottom verts).1.Height

/-- The boundary on the line `k` below the first one. -/
def boundary (k : ℕ) : ℤ := (EdgeFxFl.step^[k] (edgeFxFl Top Bottom verts).1).X

/-- `dN` and `dM`, exact. -/
def extentY : ℤ := (verts Bottom).y.val - (verts Top).y.val

def extentX : ℤ := (verts Bottom).x.val - (verts Top).x.val

/-- Where the edge is on that line, in units of `1 / (16 * dN)`. -/
def exactX (k : ℕ) : ℤ :=
  (verts Top).x.val * extentY verts Top Bottom +
    extentX verts Top Bottom * (16 * (ceil28_4 (verts Top).y.val + k) - (verts Top).y.val)

/-- The boundaries are where the edge is, rounded up, and every polygon with the same edge has them
there. -/
structure StepsExactly : Prop where
  position : ∀ k : ℕ, k < height verts Top Bottom →
    boundary verts Top Bottom k =
      ⌈(exactX verts Top Bottom k : ℚ) / (16 * extentY verts Top Bottom : ℤ)⌉
  shared : ∀ verts' Top' Bottom', verts' Top' = verts Top → verts' Bottom' = verts Bottom →
    ∀ k, boundary verts' Top' Bottom' k = boundary verts Top Bottom k

/-- The exact numerator on a line. -/
def exactNumerator (k : ℕ) : ℤ :=
  exactX verts Top Bottom k - 1 + 16 * extentY verts Top Bottom

/-- What the roundings of the two extents and of the first numerator come to on a line. -/
def drift (k : ℕ) : ℤ :=
  let dN := roundInt (extentY verts Top Bottom)
  let dM := roundInt (extentX verts Top Bottom)
  (initialNumerator (verts Top) dN dM (ceil28_4 (verts Top).y.val) -
      exactNumerator verts Top Bottom 0) +
    16 * k * (dM - extentX verts Top Bottom) -
    16 * (exactNumerator verts Top Bottom k / (16 * extentY verts Top Bottom)) *
      (dN - extentY verts Top Bottom)

/-- The drift does not carry the remainder over a multiple of the denominator. -/
def StaysInPixel (k : ℕ) : Prop :=
  let rest := exactNumerator verts Top Bottom k % (16 * extentY verts Top Bottom) +
    drift verts Top Bottom k
  0 ≤ rest ∧ rest < 16 * roundInt (extentY verts Top Bottom)

instance (k : ℕ) : Decidable (StaysInPixel verts Top Bottom k) :=
  inferInstanceAs (Decidable (_ ∧ _))

end Spec

theorem floorDivMod_eq {den : ℤ} (h : 0 < den) (num : ℤ) :
    floorDivMod num den = (num / den, num % den, false) := by
  have hfail : decide (den ≤ 0) = false := decide_eq_false (not_le.mpr h)
  rw [floorDivMod, hfail]
  dsimp only
  split_ifs with hnum hmod
  · rw [Int.tdiv_eq_ediv_of_nonneg hnum, Int.tmod_eq_emod_of_nonneg hnum]
  all_goals
    rw [Int.tmod_eq_emod_of_nonneg (by omega)] at hmod
    rw [Int.tdiv_eq_ediv_of_nonneg (by omega), Int.tmod_eq_emod_of_nonneg (by omega)]
    have hpos := Int.emod_nonneg (-num) h.ne'
    have hlt := Int.emod_lt_of_pos (-num) h
    have hdiv := Int.emod_add_mul_ediv (-num) den
  · have hnum : den - -num % den + den * (-(-num / den) - 1) = num := by linarith
    obtain ⟨hquot, hrem⟩ := (Int.ediv_emod_unique h).mpr ⟨hnum, by omega, by omega⟩
    rw [hquot, hrem]
  · have hzero := not_not.mp hmod
    have hnum : -num % den + den * -(-num / den) = num := by linarith
    obtain ⟨hquot, hrem⟩ := (Int.ediv_emod_unique h).mpr ⟨hnum, hpos, hlt⟩
    rw [hquot, hrem]

theorem ceil28_4_eq (value : ℤ) : ceil28_4 value = (value + 15) / 16 := by
  rw [ceil28_4]
  split_ifs with hnum hmod
  · rw [Int.tdiv_eq_ediv_of_nonneg hnum]
    omega
  all_goals
    rw [Int.tmod_eq_emod_of_nonneg (by omega)] at hmod
    rw [Int.tdiv_eq_ediv_of_nonneg (by omega)]
    omega

/-- The position with the error term below it is the numerator of the line. -/
structure EdgeFxFl.AtNumerator (e : EdgeFxFl) (num inc den : ℤ) : Prop where
  position : e.X * den + e.ErrorTerm = num
  rest : 0 ≤ e.ErrorTerm ∧ e.ErrorTerm < den
  slope : e.XStep * den + e.Numerator = inc
  fraction : 0 ≤ e.Numerator ∧ e.Numerator < den
  denominator : e.Denominator = den

variable {e : EdgeFxFl} {num inc den : ℤ}

theorem EdgeFxFl.AtNumerator.step (h : e.AtNumerator num inc den) :
    e.step.AtNumerator (num + inc) inc den := by
  obtain ⟨hpos, hrest, hslope, hfrac, hden⟩ := h
  rw [EdgeFxFl.step, hden]
  split_ifs with hcarry
  · refine ⟨?_, ⟨by dsimp only; omega, by dsimp only; omega⟩, hslope, hfrac, rfl⟩
    dsimp only
    linarith
  · refine ⟨?_, ⟨by dsimp only; omega, by dsimp only; omega⟩, hslope, hfrac, rfl⟩
    dsimp only
    linarith

theorem EdgeFxFl.AtNumerator.iterate (h : e.AtNumerator num inc den) (k : ℕ) :
    (EdgeFxFl.step^[k] e).AtNumerator (num + k * inc) inc den := by
  induction k with
  | zero => simpa using h
  | succ k ih =>
    rw [Function.iterate_succ_apply']
    have hnext : num + ((k + 1 : ℕ) : ℤ) * inc = num + k * inc + inc := by
      push_cast
      ring
    rw [hnext]
    exact ih.step

theorem EdgeFxFl.AtNumerator.X_eq (h : e.AtNumerator num inc den) : e.X = num / den := by
  have hden : 0 < den := by
    have := h.rest
    omega
  refine ((Int.ediv_emod_unique hden).mpr ⟨?_, h.rest.1, h.rest.2⟩).1.symm
  have := h.position
  linarith

section

variable {verts : ℕ → EdgeVert} {Top Bottom : ℕ}

theorem height_eq :
    height verts Top Bottom = ceil28_4 (verts Bottom).y.val - ceil28_4 (verts Top).y.val := by
  rw [height, edgeFxFl]
  dsimp only
  split_ifs <;> rfl

/-- An edge over some scanlines. Its construction does not fail. -/
theorem edgeFxFl_eq (h : 0 < extentY verts Top Bottom) (hheight : height verts Top Bottom ≠ 0) :
    edgeFxFl Top Bottom verts =
      (let num := initialNumerator (verts Top) (roundInt (extentY verts Top Bottom))
        (roundInt (extentX verts Top Bottom)) (ceil28_4 (verts Top).y.val)
      let den := roundInt (extentY verts Top Bottom) * 16
      let inc := roundInt (extentX verts Top Bottom) * 16
      ⟨num / den, inc / den, inc % den, den, num % den, ceil28_4 (verts Top).y.val,
        height verts Top Bottom⟩, false) := by
  have hdN : 0 < roundInt (extentY verts Top Bottom) := roundInt_pos h
  have hden : 0 < roundInt (extentY verts Top Bottom) * 16 := by omega
  rw [height_eq] at hheight ⊢
  rw [extentY] at hdN hden
  rw [edgeFxFl]
  dsimp only
  rw [if_pos (Or.inl hheight), if_pos hdN.ne', floorDivMod_eq hden, floorDivMod_eq hden]
  rfl

theorem edgeFxFl_atNumerator (h : 0 < extentY verts Top Bottom)
    (hheight : height verts Top Bottom ≠ 0) : (edgeFxFl Top Bottom verts).1.AtNumerator
      (initialNumerator (verts Top) (roundInt (extentY verts Top Bottom))
        (roundInt (extentX verts Top Bottom)) (ceil28_4 (verts Top).y.val))
      (16 * roundInt (extentX verts Top Bottom)) (16 * roundInt (extentY verts Top Bottom)) := by
  have hdN : 0 < roundInt (extentY verts Top Bottom) := roundInt_pos h
  have hden : 0 < roundInt (extentY verts Top Bottom) * 16 := by omega
  rw [edgeFxFl_eq h hheight, Int.mul_comm 16, Int.mul_comm 16]
  exact ⟨Int.ediv_mul_add_emod .., ⟨Int.emod_nonneg _ hden.ne', Int.emod_lt_of_pos _ hden⟩,
    Int.ediv_mul_add_emod .., ⟨Int.emod_nonneg _ hden.ne', Int.emod_lt_of_pos _ hden⟩, rfl⟩

theorem boundary_eq (h : 0 < extentY verts Top Bottom) {k : ℕ}
    (hk : k < height verts Top Bottom) : boundary verts Top Bottom k =
      (initialNumerator (verts Top) (roundInt (extentY verts Top Bottom))
        (roundInt (extentX verts Top Bottom)) (ceil28_4 (verts Top).y.val) +
          k * (16 * roundInt (extentX verts Top Bottom))) /
        (16 * roundInt (extentY verts Top Bottom)) :=
  ((edgeFxFl_atNumerator h (by omega)).iterate k).X_eq

theorem ceil_exactX (h : 0 < extentY verts Top Bottom) (k : ℕ) :
    ⌈(exactX verts Top Bottom k : ℚ) / (16 * extentY verts Top Bottom : ℤ)⌉ =
      exactNumerator verts Top Bottom k / (16 * extentY verts Top Bottom) := by
  have hden : 0 < 16 * extentY verts Top Bottom := by omega
  have hquot := Int.emod_add_mul_ediv (exactNumerator verts Top Bottom k)
    (16 * extentY verts Top Bottom)
  have hpos := Int.emod_nonneg (exactNumerator verts Top Bottom k) hden.ne'
  have hlt := Int.emod_lt_of_pos (exactNumerator verts Top Bottom k) hden
  have hden' : (0 : ℚ) < (16 * extentY verts Top Bottom : ℤ) := Int.cast_pos.mpr hden
  rw [exactNumerator] at hquot hpos hlt ⊢
  generalize (exactX verts Top Bottom k - 1 + 16 * extentY verts Top Bottom) /
    (16 * extentY verts Top Bottom) = q at *
  rw [Int.ceil_eq_iff, lt_div_iff₀ hden', div_le_iff₀ hden']
  constructor
  · rw [← Int.cast_one, ← Int.cast_sub, ← Int.cast_mul, Int.cast_lt]
    linarith
  · rw [← Int.cast_mul, Int.cast_le]
    have : 16 * extentY verts Top Bottom * q = q * (16 * extentY verts Top Bottom) := by ring
    omega

theorem exactNumerator_add (k : ℕ) : exactNumerator verts Top Bottom k =
    exactNumerator verts Top Bottom 0 + k * (16 * extentX verts Top Bottom) := by
  rw [exactNumerator, exactNumerator, exactX, exactX]
  push_cast
  ring

theorem ediv_eq_iff_sub {a d q : ℤ} (h : 0 < d) : a / d = q ↔ 0 ≤ a - d * q ∧ a - d * q < d := by
  constructor
  · rintro rfl
    rw [← Int.emod_def]
    exact ⟨Int.emod_nonneg a h.ne', Int.emod_lt_of_pos a h⟩
  · rintro ⟨hpos, hlt⟩
    exact ((Int.ediv_emod_unique h).mpr ⟨by ring, hpos, hlt⟩).1

/-- The edge is stepped exactly as long as the roundings stay within a pixel. -/
theorem stepsExactly_iff (h : (verts Top).y.val < (verts Bottom).y.val) :
    StepsExactly verts Top Bottom ↔
      ∀ k : ℕ, k < height verts Top Bottom → StaysInPixel verts Top Bottom k := by
  have hdN : 0 < extentY verts Top Bottom := Int.sub_pos_of_lt h
  have hround : 0 < 16 * roundInt (extentY verts Top Bottom) := by
    have := roundInt_pos hdN
    omega
  have hiff (k : ℕ) (hk : k < height verts Top Bottom) : boundary verts Top Bottom k =
      ⌈(exactX verts Top Bottom k : ℚ) / (16 * extentY verts Top Bottom : ℤ)⌉ ↔
        StaysInPixel verts Top Bottom k := by
    have hrest := Int.emod_def (exactNumerator verts Top Bottom k) (16 * extentY verts Top Bottom)
    have hadd := @exactNumerator_add verts Top Bottom k
    rw [boundary_eq hdN hk, ceil_exactX hdN, ediv_eq_iff_sub hround]
    refine iff_of_eq (congrArg (fun rest : ℤ => 0 ≤ rest ∧ rest < _) ?_)
    rw [drift, hrest]
    linarith
  constructor
  · exact fun hs k hk => (hiff k hk).mp (hs.position k hk)
  · refine fun hstay => ⟨fun k hk => (hiff k hk).mpr (hstay k hk), ?_⟩
    intro verts' Top' Bottom' htop hbottom k
    rw [boundary, boundary, edgeFxFl, edgeFxFl, htop, hbottom]

/-! ### The native resolution -/

theorem roundInt_of_abs {z : ℤ} (h : |z| < 2 ^ 24) : roundInt z = z :=
  roundInt_of_lt (abs_lt.mp h).1 (abs_lt.mp h).2

theorem abs_product_le {a b m n : ℤ} (ha : |a| ≤ m) (hb : |b| ≤ n) : |a * b| ≤ m * n := by
  rw [abs_mul]
  exact mul_le_mul ha hb (abs_nonneg b) ((abs_nonneg a).trans ha)

/-- Where no rounding takes place, the drift is none. -/
theorem staysInPixel_of_exact (h : 0 < extentY verts Top Bottom)
    (hdN : roundInt (extentY verts Top Bottom) = extentY verts Top Bottom)
    (hdM : roundInt (extentX verts Top Bottom) = extentX verts Top Bottom)
    (hnum : initialNumerator (verts Top) (extentY verts Top Bottom) (extentX verts Top Bottom)
      (ceil28_4 (verts Top).y.val) = exactNumerator verts Top Bottom 0) (k : ℕ) :
    StaysInPixel verts Top Bottom k := by
  have hden : 0 < 16 * extentY verts Top Bottom := by omega
  have hdrift : drift verts Top Bottom k = 0 := by
    rw [drift, hdN, hdM, hnum]
    ring
  rw [StaysInPixel, hdrift, hdN, Int.add_zero]
  exact ⟨Int.emod_nonneg _ hden.ne', Int.emod_lt_of_pos _ hden⟩

/-- A place on the native screen of 256 by 192 pixels. -/
structure EdgeVert.Native (v : EdgeVert) : Prop where
  x : 0 ≤ v.x.val ∧ v.x.val ≤ 4096
  y : 0 ≤ v.y.val ∧ v.y.val ≤ 3072

theorem staysInPixel_native (htop : (verts Top).Native) (hbottom : (verts Bottom).Native)
    (h : 0 < extentY verts Top Bottom) (k : ℕ) : StaysInPixel verts Top Bottom k := by
  have hxt := htop.x
  have hyt := htop.y
  have hxb := hbottom.x
  have hyb := hbottom.y
  have hN : |extentY verts Top Bottom| ≤ 3072 := by
    rw [abs_le, extentY]
    omega
  have hM : |extentX verts Top Bottom| ≤ 4096 := by
    rw [abs_le, extentX]
    omega
  have hx : |(verts Top).x.val| ≤ 4096 := abs_le.mpr (by omega)
  have hy : |(verts Top).y.val| ≤ 3072 := abs_le.mpr (by omega)
  have hY : |16 * ceil28_4 (verts Top).y.val| ≤ 3072 := by
    rw [ceil28_4_eq, abs_le]
    omega
  have hsub : |16 * ceil28_4 (verts Top).y.val - (verts Top).y.val| ≤ 15 := by
    rw [ceil28_4_eq, abs_le]
    omega
  have hfirst := abs_product_le hM hY
  have hsecond := abs_product_le hM hy
  have hdiff := abs_product_le hM hsub
  have hthird := abs_product_le hN hx
  refine staysInPixel_of_exact h (roundInt_of_abs (by omega)) (roundInt_of_abs (by omega)) ?_ k
  rw [exactNumerator, exactX, Nat.cast_zero, add_zero, initialNumerator,
    Int.mul_comm (verts Top).x.val]
  have hprod : extentX verts Top Bottom * 16 * ceil28_4 (verts Top).y.val =
      extentX verts Top Bottom * (16 * ceil28_4 (verts Top).y.val) := Int.mul_assoc ..
  rw [hprod]
  rw [mul_sub] at hdiff ⊢
  generalize extentX verts Top Bottom * (16 * ceil28_4 (verts Top).y.val) = a at *
  generalize extentX verts Top Bottom * (verts Top).y.val = b at *
  generalize extentY verts Top Bottom * (verts Top).x.val = c at *
  rw [abs_le] at hN hfirst hsecond hdiff hthird
  have hexact (z : ℤ) (hlow : -16777216 < z) (hhigh : z < 16777216) : roundInt z = z :=
    roundInt_of_lt hlow hhigh
  rw [hexact a (by omega) (by omega), hexact b (by omega) (by omega), hexact c (by omega) (by omega),
    hexact (a - b) (by omega) (by omega), hexact (a - b + c) (by omega) (by omega),
    hexact (a - b + c - 1) (by omega) (by omega),
    hexact (extentY verts Top Bottom * 16) (by omega) (by omega), hexact _ (by omega) (by omega)]
  omega

end

/-- A number of sixteenths up to four native widths. -/
def sixteenths (z : ℕ) : Fixed28_4 where
  val := (z % 16384 : ℕ)
  fits := by omega
  exact := roundInt_of_lt (by omega) (by omega)

/-- Down the native screen. -/
def nativeEdge : ℕ → EdgeVert
  | 0 => ⟨sixteenths 4, sixteenths 8⟩
  | _ => ⟨sixteenths 4000, sixteenths 3000⟩

theorem nativeEdge_steps : StepsExactly nativeEdge 0 1 :=
  (stepsExactly_iff (by decide)).mpr fun k _ =>
    staysInPixel_native ⟨by decide, by decide⟩ ⟨by decide, by decide⟩ (by decide) k

/-- A diagonal on a framebuffer of more than twice the native width. -/
def wideEdge : ℕ → EdgeVert
  | 0 => ⟨sixteenths 8192, sixteenths 0⟩
  | _ => ⟨sixteenths 0, sixteenths 4096⟩

theorem wideEdge_off : ¬ StepsExactly wideEdge 0 1 := by
  intro h
  have hX : boundary wideEdge 0 1 0 = 513 := by
    decide +kernel
  have hheight : 0 < height wideEdge 0 1 := by
    decide +kernel
  have hexact : exactNumerator wideEdge 0 1 0 / (16 * extentY wideEdge 0 1) = 512 := by
    decide +kernel
  have hceil := h.position 0 hheight
  rw [ceil_exactX (by decide), hexact, hX] at hceil
  exact absurd hceil (by decide)

end Desmume.Raster
