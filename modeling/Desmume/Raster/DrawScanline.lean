import Desmume.Library.SignedWord
import Desmume.Raster.EdgeStep

/-! `drawscanline` of the software rasterizer: which pixels of the framebuffer it addresses. Its
positions are of type `int`, the edges hold a `long`, and the framebuffer has sizes of type
`size_t`. -/

namespace Desmume.Raster
open Library

/-- A value as `size_t`. -/
def u64 (x : ℤ) : ℕ := (x % 2 ^ 64).toNat

/-- The sizes of an allocated framebuffer. -/
structure Framebuffer where
  width : ℕ
  height : ℕ
  fits : width < 2 ^ 62 ∧ height < 2 ^ 62 ∧ width * height < 2 ^ 62

namespace EdgeFxFl

/-- How far the next step moves the edge. -/
def nextStep (e : EdgeFxFl) : ℤ :=
  if e.Denominator ≤ e.ErrorTerm + e.Numerator then e.XStep + 1 else e.XStep

/-- The same in an `int`. -/
def nextStepInt (e : EdgeFxFl) : ℤ :=
  let w := s32 e.XStep
  if e.Denominator ≤ e.ErrorTerm + e.Numerator then s32 (w + 1) else w

end EdgeFxFl

section

variable (renderer lineHack : Bool) (fb : Framebuffer) (left right : EdgeFxFl)

/-- The width that the line starts with. -/
def startWidth : ℤ :=
  let width := s32 (right.X - s32 left.X)
  if lineHack ∧ width = 0 then max 1 (max (s32 |left.nextStepInt|) (s32 |right.nextStepInt|))
  else width

/-- The test of `Y`, with unsigned comparisons. -/
abbrev OutOfRows : Prop :=
  left.Y < 0 ∨ (if renderer then u64 left.Y > u64 ((fb.height : ℤ) - 1) else u64 left.Y ≥ fb.height)

/-- The addresses that the loop passes to `pixel`. -/
def pixels (adr : ℕ) (width : ℤ) : List ℕ := (List.range width.toNat).map fun i : ℕ => u64 (adr + i)

/-- The part behind the clipping on the left. -/
def clipRight (x width : ℤ) (adr : ℕ) : Option (List ℕ) :=
  if u64 (s32 (x + width)) > fb.width then
    if renderer ∧ ¬ lineHack ∧ fb.width = 256 then none
    else some (pixels adr (s32 (fb.width - x)))
  else some (pixels adr width)

/-- `drawscanline`: nothing if it bails out, or else the addresses in order. -/
def drawscanline : Option (List ℕ) :=
  let XStart := s32 left.X
  let width := startWidth lineHack left right
  let adr := u64 (left.Y * fb.width + XStart)
  if OutOfRows renderer fb left then none
  else if XStart < 0 then
    if renderer ∧ ¬ lineHack then none
    else clipRight renderer lineHack fb 0 (s32 (width + XStart)) (u64 (adr + -XStart))
  else clipRight renderer lineHack fb XStart width adr

/-- The width of the span. -/
def spanWidth : ℤ :=
  if lineHack ∧ right.X - left.X = 0 then max 1 (max |left.nextStep| |right.nextStep|)
  else right.X - left.X

/-- The first column and the one behind the last. -/
def spanStart : ℤ := max 0 left.X

def spanStop : ℤ := left.X + spanWidth lineHack left right

def spanColumns : List ℤ :=
  (List.range (min (fb.width : ℤ) (spanStop lineHack left right) - spanStart left).toNat).map
    fun i : ℕ => spanStart left + i

/-- The line is not drawn, or exactly the columns of the span are, within the framebuffer. -/
def SpanLaw : Prop :=
  ∀ adrs, drawscanline renderer lineHack fb left right = some adrs →
    adrs.map (Nat.cast : ℕ → ℤ) =
      (spanColumns lineHack fb left right).map (fun x => left.Y * fb.width + x) ∧
    ∀ adr ∈ adrs, adr < fb.width * fb.height

/-- The values that the source keeps in variables of type `int`. -/
structure IntsHold : Prop where
  line : Fits 32 left.Y
  start : Fits 32 left.X
  width : Fits 32 (right.X - left.X)
  steps : lineHack = true → right.X - left.X = 0 →
    |left.nextStep| < 2 ^ 31 ∧ |right.nextStep| < 2 ^ 31
  stop : Fits 32 (spanStop lineHack left right)

/-- The cases in which `drawscanline` complains. -/
def BailsOut : Prop :=
  OutOfRows renderer fb left ∨
    (renderer ∧ ¬ lineHack ∧
      (left.X < 0 ∨ (fb.width = 256 ∧
        (spanStop lineHack left right < 0 ∨ (fb.width : ℤ) < spanStop lineHack left right))))

/-- The span does not end left of the framebuffer, and there is a row to draw to. -/
def ClipsRight : Prop :=
  (0 ≤ spanStop lineHack left right ∨ s32 ((fb.width : ℤ) - spanStart left) ≤ 0) ∧
    (0 < fb.height ∨ min (fb.width : ℤ) (spanStop lineHack left right) ≤ spanStart left)

end

variable {renderer lineHack : Bool} {fb : Framebuffer} {left right : EdgeFxFl}

theorem u64_cast {x : ℤ} (h : 0 ≤ x) (hlt : x < 2 ^ 64) : (u64 x : ℤ) = x := by
  unfold u64
  omega

theorem u64_add (x y : ℤ) : u64 (u64 x + y) = u64 (x + y) := by
  unfold u64
  omega

theorem s32_of_fits32 {x : ℤ} (h : Fits 32 x) : s32 x = x := s32_of_fits h.1 h.2

theorem s32_abs {x : ℤ} (h : |x| < 2 ^ 31) : s32 |x| = |x| :=
  s32_of_fits (by have := abs_nonneg x; omega) h

theorem s32_s32_add (x y : ℤ) : s32 (s32 x + y) = s32 (x + y) := Int.bmod_add_bmod ..

theorem EdgeFxFl.nextStepInt_eq {e : EdgeFxFl} (h : |e.nextStep| < 2 ^ 31) :
    e.nextStepInt = e.nextStep := by
  have hfits := abs_lt.mp h
  rw [nextStep] at h hfits ⊢
  rw [nextStepInt]
  split_ifs at h hfits ⊢
  · rw [s32_s32_add, s32_of_fits (by omega) (by omega)]
  · exact s32_of_fits (by omega) (by omega)

theorem startWidth_eq (h : IntsHold lineHack left right) :
    startWidth lineHack left right = spanWidth lineHack left right := by
  rw [startWidth, spanWidth, s32_of_fits32 h.start, s32_of_fits32 h.width]
  split_ifs with hhack
  · obtain ⟨hleft, hright⟩ := h.steps hhack.1 hhack.2
    rw [left.nextStepInt_eq hleft, right.nextStepInt_eq hright, s32_abs hleft, s32_abs hright]
  · rfl

/-- The comparison on the right takes a negative stop for a very large one. -/
theorem lt_u64_iff (fb : Framebuffer) {stop : ℤ} (h : Fits 32 stop) :
    u64 (s32 stop) > fb.width ↔ stop < 0 ∨ (fb.width : ℤ) < stop := by
  have hwidth := fb.fits.1
  have hlow := h.1
  have hhigh := h.2
  rw [s32_of_fits32 h]
  unfold u64
  omega

/-- The columns that are drawn. -/
def drawnWidth (lineHack : Bool) (fb : Framebuffer) (left right : EdgeFxFl) : ℤ :=
  if spanStop lineHack left right < 0 ∨ (fb.width : ℤ) < spanStop lineHack left right then
    s32 (fb.width - spanStart left)
  else spanStop lineHack left right - spanStart left

instance : Decidable (BailsOut renderer lineHack fb left right) :=
  inferInstanceAs (Decidable (_ ∨ _ ∧ _ ∧ (_ ∨ _ ∧ (_ ∨ _))))

theorem clipRight_eq {x width : ℤ} (adr : ℕ) (h : Fits 32 (spanStop lineHack left right))
    (hx : x = spanStart left) (hsum : x + width = spanStop lineHack left right) :
    clipRight renderer lineHack fb x width adr =
      if renderer ∧ ¬ lineHack ∧ fb.width = 256 ∧ (spanStop lineHack left right < 0 ∨
          (fb.width : ℤ) < spanStop lineHack left right) then none
      else some (pixels adr (drawnWidth lineHack fb left right)) := by
  have hwidth : width = spanStop lineHack left right - spanStart left := by omega
  have hiff := lt_u64_iff fb h
  rw [clipRight, hsum, drawnWidth, hwidth, hx]
  by_cases hover : spanStop lineHack left right < 0 ∨ (fb.width : ℤ) < spanStop lineHack left right
  · rw [if_pos (hiff.mpr hover), if_pos hover]
    simp only [hover, and_true]
  · rw [if_neg (mt hiff.mp hover), if_neg hover]
    simp only [hover, and_false, if_false]

theorem drawscanline_eq (h : IntsHold lineHack left right) :
    drawscanline renderer lineHack fb left right =
      if BailsOut renderer lineHack fb left right then none
      else some (pixels (u64 (left.Y * fb.width + spanStart left))
        (drawnWidth lineHack fb left right)) := by
  have hstart := s32_of_fits32 h.start
  have hstop : spanStop lineHack left right = left.X + spanWidth lineHack left right := rfl
  rw [drawscanline, startWidth_eq h, hstart]
  by_cases hrows : OutOfRows renderer fb left
  · have hb : BailsOut renderer lineHack fb left right := Or.inl hrows
    rw [if_pos hrows, if_pos hb]
  rw [if_neg hrows]
  by_cases hneg : left.X < 0
  · have hs : spanStart left = 0 := max_eq_left hneg.le
    rw [if_pos hneg]
    by_cases hbail : renderer ∧ ¬ lineHack
    · have hb : BailsOut renderer lineHack fb left right :=
        Or.inr ⟨hbail.1, hbail.2, Or.inl hneg⟩
      rw [if_pos hbail, if_pos hb]
    · have hnot : ¬ BailsOut renderer lineHack fb left right := by
        rintro (hr | ⟨hr, hl, -⟩)
        · exact hrows hr
        · exact hbail ⟨hr, hl⟩
      have hsum : spanWidth lineHack left right + left.X = spanStop lineHack left right := by omega
      rw [if_neg hbail, hsum, s32_of_fits32 h.stop,
        clipRight_eq _ h.stop hs.symm (Int.zero_add _), if_neg hnot, if_neg, u64_add, hs]
      · rw [Int.add_assoc, Int.add_right_neg]
      · exact fun hc => hbail ⟨hc.1, hc.2.1⟩
  · have hs : spanStart left = left.X := max_eq_right (not_lt.mp hneg)
    rw [if_neg hneg, clipRight_eq _ h.stop hs.symm hstop.symm, hs]
    refine if_congr ?_ rfl rfl
    simp only [BailsOut, hrows, hneg, false_or]

theorem pixels_eq_nil {adr : ℕ} {width : ℤ} : pixels adr width = [] ↔ width ≤ 0 := by
  rw [pixels, List.map_eq_nil_iff, List.range_eq_nil, Int.toNat_eq_zero]

/-- On a row of the framebuffer the addresses are those of the columns. -/
theorem pixels_eq {x width : ℤ} (hrow : 0 ≤ left.Y ∧ left.Y < fb.height) (hx : 0 ≤ x)
    (hwidth : x + width ≤ fb.width) :
    (pixels (u64 (left.Y * fb.width + x)) width).map (Nat.cast : ℕ → ℤ) =
      ((List.range width.toNat).map fun i : ℕ => x + i).map (fun c => left.Y * fb.width + c) ∧
    ∀ adr ∈ pixels (u64 (left.Y * fb.width + x)) width, adr < fb.width * fb.height := by
  have hsize : left.Y * fb.width + fb.width ≤ fb.width * fb.height := by
    calc left.Y * fb.width + fb.width = (left.Y + 1) * fb.width := by ring
      _ ≤ fb.height * fb.width := by
        exact mul_le_mul_of_nonneg_right (by omega) (Int.natCast_nonneg _)
      _ = _ := Int.mul_comm ..
  have hfits : (fb.width * fb.height : ℤ) < 2 ^ 62 := by
    exact_mod_cast fb.fits.2.2
  have hstart : 0 ≤ left.Y * fb.width := mul_nonneg hrow.1 (Int.natCast_nonneg _)
  have hadr (i : ℕ) (hi : i ∈ List.range width.toNat) :
      ((u64 (u64 (left.Y * fb.width + x) + i) : ℕ) : ℤ) = left.Y * fb.width + (x + i) ∧
        left.Y * fb.width + (x + i) < fb.width * fb.height := by
    have hi := List.mem_range.mp hi
    refine ⟨?_, by omega⟩
    rw [u64_add, u64_cast (by omega) (by omega), Int.add_assoc]
  constructor
  · rw [pixels, List.map_map, List.map_map]
    exact List.map_congr_left fun i hi => (hadr i hi).1
  · intro adr hmem
    obtain ⟨i, hi, rfl⟩ := List.mem_map.mp hmem
    have := hadr i hi
    zify
    omega

/-- The row, if the test of `Y` lets it pass and the framebuffer has rows. -/
theorem row_of_not_outOfRows (hline : Fits 32 left.Y) (h : ¬ OutOfRows renderer fb left)
    (hheight : 0 < fb.height) : 0 ≤ left.Y ∧ left.Y < fb.height := by
  have hfits := fb.fits.2.1
  have hlow := hline.1
  have hhigh := hline.2
  obtain ⟨hneg, hrow⟩ := not_or.mp h
  unfold u64 at hrow
  split_ifs at hrow <;> omega

/-- The columns to draw and those of the span. -/
theorem drawnWidth_eq (fb : Framebuffer) (h : IntsHold lineHack left right)
    (hstop : 0 ≤ spanStop lineHack left right) :
    drawnWidth lineHack fb left right =
      min (fb.width : ℤ) (spanStop lineHack left right) - spanStart left := by
  have hstart := h.start.2
  have hhigh := h.stop.2
  rw [drawnWidth, spanStart]
  split_ifs with hover
  · have hlt : (fb.width : ℤ) < spanStop lineHack left right := hover.resolve_left (by omega)
    rw [min_eq_left hlt.le, s32_of_fits (by omega) (by omega)]
  · rw [min_eq_right (by omega)]

theorem drawnWidth_neg (fb : Framebuffer) (hstop : spanStop lineHack left right < 0) :
    drawnWidth lineHack fb left right = s32 ((fb.width : ℤ) - spanStart left) ∧
      min (fb.width : ℤ) (spanStop lineHack left right) ≤ spanStart left := by
  refine ⟨if_pos (Or.inl hstop), ?_⟩
  rw [spanStart]
  omega

theorem spanColumns_eq_nil (fb : Framebuffer) : spanColumns lineHack fb left right = [] ↔
    min (fb.width : ℤ) (spanStop lineHack left right) ≤ spanStart left := by
  rw [spanColumns, List.map_eq_nil_iff, List.range_eq_nil, Int.toNat_eq_zero, sub_nonpos]

/-- The law by what is drawn. -/
theorem spanLaw_of_drawn (h : IntsHold lineHack left right)
    (hbail : ¬ BailsOut renderer lineHack fb left right) :
    SpanLaw renderer lineHack fb left right ↔
      (pixels (u64 (left.Y * fb.width + spanStart left)) (drawnWidth lineHack fb left right)).map
          (Nat.cast : ℕ → ℤ) =
        (spanColumns lineHack fb left right).map (fun x => left.Y * fb.width + x) ∧
      ∀ adr ∈ pixels (u64 (left.Y * fb.width + spanStart left)) (drawnWidth lineHack fb left right),
        adr < fb.width * fb.height := by
  rw [SpanLaw, drawscanline_eq h, if_neg hbail]
  simp only [Option.some.injEq, forall_eq']

theorem spanLaw_of_none (h : IntsHold lineHack left right)
    (hbail : ¬ BailsOut renderer lineHack fb left right)
    (hnone : drawnWidth lineHack fb left right ≤ 0) :
    SpanLaw renderer lineHack fb left right ↔
      min (fb.width : ℤ) (spanStop lineHack left right) ≤ spanStart left := by
  rw [spanLaw_of_drawn h hbail, pixels_eq_nil.mpr hnone, ← spanColumns_eq_nil fb]
  constructor
  · exact fun hl => List.map_eq_nil_iff.mp hl.1.symm
  · exact fun hl => ⟨(List.map_eq_nil_iff.mpr hl).symm, fun adr hmem => absurd hmem (by simp)⟩

theorem spanLaw_of_some (h : IntsHold lineHack left right)
    (hbail : ¬ BailsOut renderer lineHack fb left right)
    (hsome : 0 < drawnWidth lineHack fb left right) :
    SpanLaw renderer lineHack fb left right ↔
      0 ≤ spanStop lineHack left right ∧ 0 < fb.height := by
  rw [spanLaw_of_drawn h hbail]
  have hne : pixels (u64 (left.Y * fb.width + spanStart left)) (drawnWidth lineHack fb left right) ≠
      [] := fun hnil => absurd (pixels_eq_nil.mp hnil) (not_le.mpr hsome)
  constructor
  · rintro ⟨hlist, hin⟩
    obtain ⟨adr, hmem⟩ := List.exists_mem_of_ne_nil _ hne
    refine ⟨?_, ?_⟩
    · by_contra hneg
      have hnil := (spanColumns_eq_nil fb).mpr (drawnWidth_neg fb (not_le.mp hneg)).2
      rw [hnil, List.map_nil, List.map_eq_nil_iff] at hlist
      exact hne hlist
    · have := hin adr hmem
      exact Nat.pos_of_ne_zero fun hzero => by simp [hzero] at this
  · rintro ⟨hstop, hheight⟩
    have hrow := row_of_not_outOfRows h.line (fun hr => hbail (Or.inl hr)) hheight
    have hdrawn := drawnWidth_eq fb h hstop
    rw [spanColumns, ← hdrawn]
    exact pixels_eq hrow (le_max_left ..) (by omega)

/-- The law fails exactly for spans that end left of the framebuffer without a complaint, if the
sum that is negative then draws up to the right border, and for a framebuffer without rows. -/
theorem spanLaw_iff (h : IntsHold lineHack left right) :
    SpanLaw renderer lineHack fb left right ↔
      BailsOut renderer lineHack fb left right ∨ ClipsRight lineHack fb left right := by
  by_cases hbail : BailsOut renderer lineHack fb left right
  · refine iff_of_true (fun adrs hadrs => ?_) (Or.inl hbail)
    rw [drawscanline_eq h, if_pos hbail] at hadrs
    cases hadrs
  rw [or_iff_right hbail, ClipsRight]
  rcases lt_or_ge (spanStop lineHack left right) 0 with hneg | hstop
  · obtain ⟨hdrawn, hempty⟩ := drawnWidth_neg fb hneg
    rw [← hdrawn]
    rcases le_or_gt (drawnWidth lineHack fb left right) 0 with hnone | hsome
    · rw [spanLaw_of_none h hbail hnone]
      exact iff_of_true hempty ⟨Or.inr hnone, Or.inr hempty⟩
    · rw [spanLaw_of_some h hbail hsome]
      exact iff_of_false (fun hl => absurd hl.1 (not_le.mpr hneg))
        (fun hl => hl.1.elim (not_le.mpr hneg) (not_le.mpr hsome))
  · have hdrawn := drawnWidth_eq fb h hstop
    rcases le_or_gt (drawnWidth lineHack fb left right) 0 with hnone | hsome
    · have hempty := sub_nonpos.mp (hdrawn ▸ hnone)
      rw [spanLaw_of_none h hbail hnone]
      exact iff_of_true hempty ⟨Or.inl hstop, Or.inr hempty⟩
    · have hcols : ¬ min (fb.width : ℤ) (spanStop lineHack left right) ≤ spanStart left := by omega
      rw [spanLaw_of_some h hbail hsome, or_iff_left hcols]
      exact and_congr_left fun _ => (or_iff_left_of_imp fun _ => hstop).symm

/-- An edge that goes straight down. -/
def straightEdge (X Y : ℤ) : EdgeFxFl := ⟨X, 0, 0, 256, 0, Y, 16⟩

def wideFramebuffer : Framebuffer := ⟨512, 384, by decide⟩

theorem spanLaw_clipped :
    SpanLaw true true wideFramebuffer (straightEdge (-4) 10) (straightEdge 600 10) :=
  (spanLaw_iff ⟨by decide, by decide, by decide, fun _ => by decide, by decide⟩).mpr
    (Or.inr ⟨by decide, by decide⟩)

/-- The edges are crossed, the right one outside on the left. Everything from the left edge on is
drawn. -/
theorem crossed_edges_drawn :
    ¬ SpanLaw true false wideFramebuffer (straightEdge 500 10) (straightEdge (-3) 10) := by
  intro h
  have hdraw : drawscanline true false wideFramebuffer (straightEdge 500 10) (straightEdge (-3) 10) =
      some ((List.range 12).map fun i => 5620 + i) := by
    decide +kernel
  exact absurd (congrArg List.length (h _ hdraw).1) (by decide +kernel)

end Desmume.Raster
