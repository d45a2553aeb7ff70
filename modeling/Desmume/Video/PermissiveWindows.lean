import Desmume.Video.Compositing
import Mathlib.Tactic.IntervalCases

/-! Windows that allow every layer and the effects: when a line drawn through them has the colours
of one drawn without windows. -/

namespace Desmume.Video
open Library

/-- Every mask allows the layers and the effects. -/
structure Windows.Permissive (w : Windows) : Prop where
  win0 : w.WININ0 = 0x1F ∧ w.WININ0_SPECIAL = true
  win1 : w.WININ1 = 0x1F ∧ w.WININ1_SPECIAL = true
  out : w.WINOUT = 0x1F ∧ w.WINOUT_SPECIAL = true
  obj : w.WINOBJ = 0x1F ∧ w.WINOBJ_SPECIAL = true

/-- Pixels that look alike: the top bit is not part of the colour. -/
def Pixel.Same (p q : Pixel) : Prop := p.color.low15 = q.color.low15 ∧ p.under = q.under

theorem Pixel.Same.refl (p : Pixel) : p.Same p := ⟨rfl, rfl⟩

/-! The colour bits. -/

theorem low15_or_top (c : Color) : (c ||| 0x8000).low15 = c.low15 := by
  unfold Color.low15
  ext i hi
  simp only [BitVec.getElem_setWidth, BitVec.getLsbD_or]
  have htop : ∀ i < 15, (0x8000 : BitVec 16).getLsbD i = false := by decide
  rw [htop i hi, Bool.or_false]

theorem low15_and_mask (c : Color) : (c &&& 0x7FFF).low15 = c.low15 := by
  unfold Color.low15
  ext i hi
  simp only [BitVec.getElem_setWidth, BitVec.getLsbD_and]
  have hmask : ∀ i < 15, (0x7FFF : BitVec 16).getLsbD i = true := by decide
  rw [hmask i hi, Bool.and_true]

theorem extractLsb'_eq_of_low15 {c c' : Color} (h : c.low15 = c'.low15) {start : ℕ}
    (hstart : start + 5 ≤ 15) : c.extractLsb' start 5 = c'.extractLsb' start 5 := by
  ext i hi
  have hbit := congrArg (fun b : BitVec 15 => b.getLsbD (start + i)) h
  unfold Color.low15 at hbit
  simp only [BitVec.getLsbD_setWidth, show start + i < 15 by omega, decide_true,
    Bool.true_and] at hbit
  simp only [BitVec.getElem_extractLsb', hbit]

theorem red_eq_of_low15 {c c' : Color} (h : c.low15 = c'.low15) : c.red = c'.red :=
  congrArg BitVec.toNat (extractLsb'_eq_of_low15 h (by omega))

theorem green_eq_of_low15 {c c' : Color} (h : c.low15 = c'.low15) : c.green = c'.green :=
  congrArg BitVec.toNat (extractLsb'_eq_of_low15 h (by omega))

theorem blue_eq_of_low15 {c c' : Color} (h : c.low15 = c'.low15) : c.blue = c'.blue :=
  congrArg BitVec.toNat (extractLsb'_eq_of_low15 h (by omega))

theorem finalColorBlend_eq_of_low15 (eva evb : ℕ) (src : Color) {c c' : Color}
    (h : c.low15 = c'.low15) : finalColorBlend eva evb src c = finalColorBlend eva evb src c' := by
  unfold finalColorBlend
  rw [red_eq_of_low15 h, green_eq_of_low15 h, blue_eq_of_low15 h]

theorem low15_mapColor_id (f : ℕ → ℕ) (hf : ∀ v < 32, f v = v) (c : Color) :
    (mapColor f c).low15 = c.low15 := by
  unfold mapColor Color.red Color.green Color.blue
  rw [hf _ (BitVec.isLt _), hf _ (BitVec.isLt _), hf _ (BitVec.isLt _)]
  unfold rgb Color.low15
  ext i hi
  simp only [BitVec.ofNat_toNat, BitVec.setWidth_eq, BitVec.getElem_setWidth, BitVec.getLsbD_or,
    BitVec.getLsbD_shiftLeft, BitVec.getLsbD_setWidth, BitVec.getLsbD_extractLsb']
  interval_cases i <;> simp

/-- A colour faded by nothing keeps its bits. -/
theorem low15_fade_zero {e : Effects} (hevy : e.EVY = 0) (func : BlendFunc) (c : Color) :
    (e.fade func c).low15 = c.low15 := by
  unfold Effects.fade
  cases func with
  | noBlend => rfl
  | blend => rfl
  | increase =>
    refine low15_mapColor_id _ (fun v _ => ?_) c
    rw [hevy]
    simp
  | decrease =>
    refine low15_mapColor_id _ (fun v _ => ?_) c
    rw [hevy]
    simp

/-! The windows let everything through. -/

theorem checkWindows_permissive {w : Windows} (hw : w.Permissive) (hused : w.used = true)
    (sprWin : Fin 256 → Bool) {layer : LayerID} (hlayer : layer ≠ .none) (srcX : Fin 256)
    (draw effect : Bool) : checkWindows w sprWin layer srcX draw effect = (true, true) := by
  have hmask : (0x1F : BitVec 5).getLsbD layer.index = true := by
    cases layer with
    | bg n => revert n; decide
    | obj => rfl
    | none => exact absurd rfl hlayer
  unfold checkWindows
  rw [hw.win0.1, hw.win1.1, hw.out.1, hw.obj.1, hw.win0.2, hw.win1.2, hw.out.2, hw.obj.2, hused,
    hmask]
  simp only [ite_self, if_true]

theorem checkWindows_permissive_effect {w : Windows} (hw : w.Permissive) (hused : w.used = true)
    (sprWin : Fin 256 → Bool) (layer : LayerID) (srcX : Fin 256) (draw effect : Bool) :
    (checkWindows w sprWin layer srcX draw effect).2 = true := by
  unfold checkWindows
  rw [hw.win0.2, hw.win1.2, hw.out.2, hw.obj.2, hused]
  simp only [if_true]
  split
  · rfl
  · split
    · rfl
    · split <;> rfl

/-- The backdrop and every enabled layer behind the 3D layer are second targets. -/
def Engine.UnderTargets (g : Engine) (e : Effects) : Prop :=
  e.blend2 .none = true ∧
    ∀ i, g.enabled i = true → g.key (.bg 0) < g.key i → e.blend2 i.layer = true

/-! A pixel with the windows and without. -/

/-- The effects leave every colour that they fade as it is. -/
def Effects.Still (e : Effects) : Prop :=
  (e.func ≠ .increase ∧ e.func ≠ .decrease) ∨ e.EVY = 0

theorem low15_fade_still {e : Effects} (he : e.Still) (c : Color) :
    (e.fade e.func c).low15 = c.low15 := by
  rcases he with ⟨hinc, hdec⟩ | hevy
  · cases hfunc : e.func with
    | noBlend => rfl
    | blend => rfl
    | increase => exact absurd hfunc hinc
    | decrease => exact absurd hfunc hdec
  · exact low15_fade_zero hevy _ c

theorem same_drawn {c c' : Color} (h : c.low15 = c'.low15) (layer : LayerID) :
    (Pixel.mk (c ||| 0x8000) layer).Same ⟨c' ||| 0x8000, layer⟩ :=
  ⟨by rw [low15_or_top, low15_or_top, h], rfl⟩

section Items

variable {R : Raster} {g : Engine} {e : Effects} {w w0 : Windows} {pic : Picture R}

theorem fragmentPixel_same (hw : w.Permissive) (hused : w.used = true) (hw0 : w0.used = false)
    {blend1 : Bool} {p q : Pixel} (hpq : p.Same q)
    (h : e.Still ∨ blend1 = true ∨ e.blend2 p.under = true) (d : R.Cell) :
    (fragmentPixel g e w pic blend1 d p).Same (fragmentPixel g e w0 pic blend1 d q) := by
  unfold fragmentPixel
  split
  · exact hpq
  · unfold setFinal3dColor
    rw [hused, hw0, ← hpq.2]
    simp only [if_true, Bool.false_eq_true, if_false, Bool.not_true,
      checkWindows_permissive hw hused _ (by decide : LayerID.bg 0 ≠ .none)]
    apply same_drawn
    split
    · rw [red_eq_of_low15 hpq.1, green_eq_of_low15 hpq.1, blue_eq_of_low15 hpq.1]
    · rename_i hunder
      rcases h with hstill | hblend1 | hblend2
      · have hfade (c : Color) : (e.fade e.func (c &&& 0x7FFF)).low15 = c.low15 := by
          rw [low15_fade_still hstill, low15_and_mask]
        revert hfade
        cases e.func with
        | noBlend => intro; cases blend1 <;> rfl
        | blend => intro; cases blend1 <;> rfl
        | increase =>
          intro hfade
          refine (hfade _).trans ?_
          split
          · exact (hfade _).symm
          · rfl
        | decrease =>
          intro hfade
          refine (hfade _).trans ?_
          split
          · exact (hfade _).symm
          · rfl
      · rw [hblend1, if_pos rfl]
      · exact absurd hblend2 hunder

theorem bgPixel_same (hw : w.Permissive) (hused : w.used = true) (hw0 : w0.used = false)
    {p q : Pixel} (hpq : p.Same q) (blend1 : Bool) (n : Fin 4) (d : R.Cell) :
    (bgPixel g e w pic blend1 n d p).Same (bgPixel g e w0 pic blend1 n d q) := by
  unfold bgPixel
  cases pic.bg n d with
  | none => exact hpq
  | some c =>
    have heq : masterSetFinalBGColor e w (pic.objWindow g) e.func w.used blend1 (R.column d)
        (.bg n) false (c &&& 0x7FFF) p =
        masterSetFinalBGColor e w0 (pic.objWindow g) e.func w0.used blend1 (R.column d) (.bg n)
          false (c &&& 0x7FFF) q := by
      unfold masterSetFinalBGColor
      rw [hused, hw0, ← hpq.2, finalColorBlend_eq_of_low15 e.EVA e.EVB _ hpq.1]
      simp only [Bool.false_eq_true, and_false, if_false, if_true, Bool.or_false,
        checkWindows_permissive hw hused _ (nofun : LayerID.bg n ≠ .none)]
    unfold setFinalColorBG
    simp only [Bool.false_eq_true, if_false]
    rw [heq]
    split
    · exact same_drawn rfl _
    · exact hpq

theorem objPixel_same (hw : w.Permissive) (hused : w.used = true) (hw0 : w0.used = false)
    {p q : Pixel} (hpq : p.Same q) (blend1 : Bool) (d : R.Cell) :
    (objPixel g e w pic blend1 d p).Same (objPixel g e w0 pic blend1 d q) := by
  unfold objPixel setFinalOBJColor
  rw [hused, hw0, ← hpq.2]
  simp only [if_true, Bool.false_eq_true, if_false, Bool.not_true,
    checkWindows_permissive hw hused _ (nofun : LayerID.obj ≠ .none),
    finalColorBlend_eq_of_low15 _ _ _ hpq.1]
  exact same_drawn rfl _

/-- Through the windows the backdrop takes the leftover `_blend1` for its first target. -/
theorem backdrop_windowed (hw : w.Permissive) (hused : w.used = true) (sprWin : Fin 256 → Bool)
    (blend1 : Bool) (d : R.Cell) :
    (drawBackdrop e w pic sprWin blend1 d).color.low15 =
      (if blend1 then e.fade e.func pic.backdropColor else pic.backdropColor).low15 := by
  unfold drawBackdrop setFinalColorBG masterSetFinalBGColor
  rw [hused]
  simp only [if_true, and_true, Bool.or_true, Bool.not_true, Bool.false_eq_true, if_false,
    checkWindows_permissive_effect hw hused, Bool.and_true]
  cases hfunc : e.func with
  | noBlend => exact (low15_or_top _).trans (by cases blend1 <;> rfl)
  | blend => exact (low15_or_top _).trans (by cases blend1 <;> rfl)
  | increase => cases blend1 <;> exact low15_or_top _
  | decrease => cases blend1 <;> exact low15_or_top _

theorem backdrop_unwindowed (hw0 : w0.used = false) (sprWin : Fin 256 → Bool) (blend1 : Bool)
    (d : R.Cell) :
    (drawBackdrop e w0 pic sprWin blend1 d).color.low15 =
      (if e.blend1 .none then e.fade e.func pic.backdropColor else pic.backdropColor).low15 := by
  unfold drawBackdrop
  rw [hw0]
  simp only [Bool.false_eq_true, if_false]
  cases e.func with
  | noBlend => split <;> rfl
  | blend => split <;> rfl
  | increase => rfl
  | decrease => rfl

theorem backdrop_under (w : Windows) (sprWin : Fin 256 → Bool) (blend1 : Bool) (d : R.Cell) :
    (drawBackdrop e w pic sprWin blend1 d).under = .none := by
  unfold drawBackdrop
  cases w.used with
  | true => rfl
  | false => cases e.func <;> rfl

theorem backdrop_same (hw : w.Permissive) (hused : w.used = true) (hw0 : w0.used = false)
    {blend1 : Bool} (h : e.Still ∨ blend1 = e.blend1 .none) (sprWin : Fin 256 → Bool)
    (d : R.Cell) :
    (drawBackdrop e w pic sprWin blend1 d).Same (drawBackdrop e w0 pic sprWin blend1 d) := by
  refine ⟨?_, (backdrop_under w ..).trans (backdrop_under w0 ..).symm⟩
  rw [backdrop_windowed hw hused, backdrop_unwindowed hw0]
  rcases h with hstill | rfl
  · have hfade (b : Bool) : (if b then e.fade e.func pic.backdropColor
        else pic.backdropColor).low15 = pic.backdropColor.low15 := by
      cases b with
      | false => rfl
      | true => exact low15_fade_still hstill _
    rw [hfade, hfade]
  · rfl

/-! What is under a pixel. -/

theorem drawItem_hidden (hg : g.InSync) (w : Windows) {d : R.Cell} {i : Item}
    (h : shows g pic d i = none) (p : Pixel) : drawItem g e w pic d p i = p := by
  cases i with
  | bg n =>
    rw [shows, bgShows] at h
    rw [drawItem, bgItem, hg.1]
    split
    · rename_i henable
      rw [if_pos henable] at h
      split
      · rename_i h3d
        rw [if_pos h3d] at h
        unfold fragmentPixel
        split
        · rfl
        · rename_i hsolid
          rw [if_neg hsolid] at h
          exact absurd h (Option.some_ne_none _)
      · rename_i h3d
        rw [if_neg h3d, Option.map_eq_none_iff] at h
        unfold bgPixel
        rw [h]
    · rfl
  | obj prio =>
    rw [shows, objShows] at h
    rw [drawItem, objItem, hg.1]
    split
    · rename_i hshown
      rw [if_pos hshown] at h
      exact absurd h (Option.some_ne_none _)
    · rfl

theorem drawItem_under (hg : g.InSync) (hw0 : w0.used = false) {d : R.Cell} {i : Item}
    (h : shows g pic d i ≠ none) (p : Pixel) : (drawItem g e w0 pic d p i).under = i.layer := by
  cases i with
  | bg n =>
    rw [shows, bgShows] at h
    rw [drawItem, bgItem, hg.1]
    split
    · rename_i henable
      rw [if_pos henable] at h
      split
      · rename_i h3d
        rw [if_pos h3d] at h
        have hsolid : (pic.fragment d).a ≠ 0 := fun h0 => h (if_pos h0)
        unfold fragmentPixel setFinal3dColor
        rw [if_neg hsolid, hw0, h3d.1]
        rfl
      · rename_i h3d
        rw [if_neg h3d] at h
        obtain ⟨c, hc⟩ := Option.ne_none_iff_exists'.mp (mt (Option.map_eq_none_iff.mpr) h)
        unfold bgPixel setFinalColorBG masterSetFinalBGColor
        rw [hc, hw0]
        simp only [Bool.false_eq_true, and_false, if_false, Bool.or_false, Bool.not_true,
          Bool.and_true]
        cases e.blend1 (.bg n) with
        | false => rfl
        | true => cases e.func <;> rfl
    · rename_i henable
      exact absurd (if_neg henable) h
  | obj prio =>
    rw [shows, objShows] at h
    have hshown : g.resortEnable 4 = true ∧ (pic.sprPrio (R.column d)).toNat = prio := by
      by_contra hnot
      exact h (if_neg hnot)
    rw [drawItem, objItem, hg.1, if_pos hshown]
    unfold objPixel setFinalOBJColor
    rw [hw0]
    rfl

theorem drawItem_same (hw : w.Permissive) (hused : w.used = true) (hw0 : w0.used = false)
    {p q : Pixel} (hpq : p.Same q) (d : R.Cell) (i : Item)
    (h : i = .bg 0 → g.enableLayer 0 = true → g.is3DEnabled = true →
      e.Still ∨ e.blend1 (.bg 0) = true ∨ e.blend2 p.under = true) :
    (drawItem g e w pic d p i).Same (drawItem g e w0 pic d q i) := by
  cases i with
  | bg n =>
    rw [drawItem, drawItem, bgItem, bgItem]
    split
    · rename_i henable
      split
      · rename_i h3d
        obtain ⟨rfl, h3d⟩ := h3d
        exact fragmentPixel_same hw hused hw0 hpq (h rfl henable h3d) d
      · exact bgPixel_same hw hused hw0 hpq _ n d
    · exact hpq
  | obj prio =>
    rw [drawItem, drawItem, objItem, objItem]
    split
    · exact objPixel_same hw hused hw0 hpq _ d
    · exact hpq

/-! The layers that can lie under the 3D layer. -/

theorem enabled_of_shows (hg : g.InSync) {d : R.Cell} {i : Item} (h : shows g pic d i ≠ none) :
    g.enabled i = true := by
  by_contra hnot
  cases i with
  | bg n =>
    rw [Engine.enabled, hg.1] at hnot
    rw [shows, bgShows] at h
    exact h (if_neg hnot)
  | obj prio =>
    rw [Engine.enabled, hg.1] at hnot
    rw [shows, objShows] at h
    exact h (if_neg fun hand => hnot hand.1)

/-- Layers drawn from the back look alike with the windows and without, if the 3D layer does. -/
theorem foldl_drawItem_same (hg : g.InSync) (hw : w.Permissive) (hused : w.used = true)
    (hw0 : w0.used = false) (d : R.Cell)
    (items : List Item) (hsorted : items.Pairwise fun a b => g.key b < g.key a)
    (h : .bg 0 ∈ items → g.enableLayer 0 = true → g.is3DEnabled = true →
      e.Still ∨ e.blend1 (.bg 0) = true ∨ g.UnderTargets e) {p q : Pixel} (hpq : p.Same q)
    (hunder : .bg 0 ∈ items → g.UnderTargets e → e.blend2 p.under = true) :
    (items.foldl (drawItem g e w pic d) p).Same (items.foldl (drawItem g e w0 pic d) q) := by
  induction items generalizing p q with
  | nil => exact hpq
  | cons i items ih =>
    obtain ⟨hi, hsorted⟩ := List.pairwise_cons.mp hsorted
    have hsame : (drawItem g e w pic d p i).Same (drawItem g e w0 pic d q i) := by
      refine drawItem_same hw hused hw0 hpq d i fun h0 henable h3d => ?_
      have hmem : .bg 0 ∈ i :: items := h0 ▸ List.mem_cons_self ..
      exact (h hmem henable h3d).imp_right (Or.imp_right (hunder hmem))
    refine ih hsorted (fun hmem => h (List.mem_cons_of_mem _ hmem)) hsame fun hmem htargets => ?_
    by_cases hshows : shows g pic d i = none
    · rw [drawItem_hidden hg w hshows]
      exact hunder (List.mem_cons_of_mem _ hmem) htargets
    · rw [hsame.2, drawItem_under hg hw0 hshows]
      exact htargets.2 i (enabled_of_shows hg hshows) (hi _ hmem)

theorem foldl_drawItem_hidden (hg : g.InSync) (w : Windows) (d : R.Cell) {items : List Item}
    (h : ∀ i ∈ items, shows g pic d i = none) (p : Pixel) :
    items.foldl (drawItem g e w pic d) p = p := by
  induction items generalizing p with
  | nil => rfl
  | cons i items ih =>
    rw [List.foldl_cons, drawItem_hidden hg w (h i (List.mem_cons_self ..))]
    exact ih (fun j hj => h j (List.mem_cons_of_mem _ hj)) p

theorem foldl_drawItem_under (hg : g.InSync) (hw0 : w0.used = false) (d : R.Cell)
    (items : List Item) (p : Pixel) : (items.foldl (drawItem g e w0 pic d) p).under =
      layered (fun i => (shows g pic d i).map fun _ => i.layer) items p.under := by
  induction items generalizing p with
  | nil => rfl
  | cons i items ih =>
    rw [List.foldl_cons, ih, layered, layered, List.foldl_cons]
    congr 1
    by_cases h : shows g pic d i = none
    · rw [drawItem_hidden hg w0 h, h]
      rfl
    · rw [drawItem_under hg hw0 h]
      obtain ⟨q, hq⟩ := Option.ne_none_iff_exists'.mp h
      rw [hq]
      rfl

end Items

/-! Lines on which the windows are seen. -/

/-- With every window permissive, a line has the colours that it has without windows: for every
geometry, object window and content. -/
def WindowsInvisible (g : Engine) (e : Effects) (blend1 : Bool) : Prop :=
  ∀ (R : Raster) (pic : Picture R) (w w0 : Windows), w.Permissive → w.used = true →
    w0.used = false → ∀ (sprWin : Fin 256 → Bool) (d : R.Cell),
    ((renderLineLayer g e w pic sprWin blend1).line d).color.low15 =
      ((renderLineLayer g e w0 pic sprWin blend1).line d).color.low15

def grey (v : BitVec 8) : FragmentColor := ⟨v, v, v, 31⟩

/-- Black, or white where the effect darkens. -/
def contrast (func : BlendFunc) : BitVec 8 := if func = .increase then 0 else 63

theorem fade_contrast {e : Effects} (he : ¬e.Still) :
    (e.fade e.func (grey (contrast e.func)).toRgb15).low15 ≠
      (grey (contrast e.func)).toRgb15.low15 := by
  have hin : ∀ evy : Fin 17, evy ≠ 0 →
      (fadeIn evy (grey 0).toRgb15).low15 ≠ (grey 0).toRgb15.low15 := by decide
  have hout : ∀ evy : Fin 17, evy ≠ 0 →
      (fadeOut evy (grey 63).toRgb15).low15 ≠ (grey 63).toRgb15.low15 := by decide
  rw [Effects.Still, not_or] at he
  cases hfunc : e.func with
  | noBlend => exact absurd ⟨by simp [hfunc], by simp [hfunc]⟩ he.1
  | blend => exact absurd ⟨by simp [hfunc], by simp [hfunc]⟩ he.1
  | increase => exact hin e.EVY he.2
  | decrease => exact hout e.EVY he.2

/-- The priority of the sprites where they are the one layer. -/
def sprPrioOf : Option Item → BitVec 8
  | some (.obj prio) => BitVec.ofNat 8 prio
  | some (.bg _) => 0x7F
  | none => 0x7F

theorem sprPrioOf_toNat {behind : Option Item} {prio : Fin 4} :
    (sprPrioOf behind).toNat = prio ↔ behind = some (.obj prio) := by
  rcases behind with - | n | prio'
  · revert prio; decide
  · revert n prio; decide
  · revert prio prio'; decide

/-- A line with the 3D layer, opaque or not there, over one layer or none. -/
def layersPicture (v a : BitVec 8) (behind : Option Item) : Picture nativeRaster where
  backdrop := (grey v).toRgb15.low15
  bg := fun n _ => if behind = some (.bg n) then some 0 else none
  fragment := fun _ => ⟨v, v, v, a⟩
  sprColor := fun _ => 0
  sprAlpha := fun _ => 255
  sprType := fun _ => 0
  sprPrio := fun _ => sprPrioOf behind
  sprWin := fun _ => false

/-- Everything is inside window 0. -/
def openWindows : Windows where
  WIN0_ENABLED := true
  WIN1_ENABLED := false
  WINOBJ_ENABLED := false
  WININ0 := 0x1F
  WININ0_SPECIAL := true
  WININ1 := 0x1F
  WININ1_SPECIAL := true
  WINOUT := 0x1F
  WINOUT_SPECIAL := true
  WINOBJ := 0x1F
  WINOBJ_SPECIAL := true
  currWin := fun _ _ => true

theorem openWindows_permissive : openWindows.Permissive :=
  ⟨⟨rfl, rfl⟩, ⟨rfl, rfl⟩, ⟨rfl, rfl⟩, ⟨rfl, rfl⟩⟩

theorem layersPicture_shows {g : Engine} {v a : BitVec 8} {behind : Option Item}
    {d : nativeRaster.Cell} {i : Item} (h : shows g (layersPicture v a behind) d i ≠ none) :
    behind = some i ∨ i = .bg 0 ∧ a ≠ 0 ∧ g.is3DEnabled = true := by
  cases i with
  | bg n =>
    rw [shows, bgShows] at h
    split at h
    · split at h
      · rename_i h3d
        split at h
        · exact absurd rfl h
        · rename_i hsolid
          exact .inr ⟨by rw [h3d.1], hsolid, h3d.2⟩
      · by_contra hnot
        rw [not_or] at hnot
        exact h (Option.map_eq_none_iff.mpr (if_neg hnot.1))
    · exact absurd rfl h
  | obj prio =>
    rw [shows, objShows] at h
    split at h
    · rename_i hshown
      exact .inl (sprPrioOf_toNat.mp hshown.2)
    · exact absurd rfl h

theorem layersPicture_shows_behind {g : Engine} (hg : g.InSync) (v a : BitVec 8)
    (d : nativeRaster.Cell) {i : Item} (henabled : g.enabled i = true) (hkey : g.key (.bg 0) < g.key i) :
    shows g (layersPicture v a (some i)) d i ≠ none := by
  cases i with
  | bg n =>
    have hn : ¬(n = 0 ∧ g.is3DEnabled = true) := fun hand => (hand.1 ▸ hkey).false
    have hbg : (layersPicture v a (some (.bg n))).bg n d = some 0 := if_pos rfl
    rw [Engine.enabled, hg.1] at henabled
    rw [shows, bgShows, if_pos henabled, if_neg hn, hbg]
    exact Option.some_ne_none _
  | obj prio =>
    rw [Engine.enabled, hg.1] at henabled
    rw [shows, objShows, if_pos ⟨henabled, sprPrioOf_toNat.mpr rfl⟩]
    exact Option.some_ne_none _

/-- The line through the windows, and the line without them. -/
theorem windowsInvisible_layersPicture {g : Engine} {e : Effects} {blend1 : Bool}
    (h : WindowsInvisible g e blend1) (v a : BitVec 8) (behind : Option Item) :
    (g.drawOrder.foldl (drawItem g e openWindows (layersPicture v a behind) (nativeCell 0))
      (drawBackdrop e openWindows (layersPicture v a behind) (fun _ => false) blend1
        (nativeCell 0))).color.low15 =
    (g.drawOrder.foldl (drawItem g e noWindows (layersPicture v a behind) (nativeCell 0))
      (drawBackdrop e noWindows (layersPicture v a behind) (fun _ => false) blend1
        (nativeCell 0))).color.low15 := by
  rw [← renderLineLayer_line, ← renderLineLayer_line]
  exact h nativeRaster _ _ _ openWindows_permissive rfl rfl _ _

theorem backdropColor_contrast (func : BlendFunc) (a : BitVec 8) (behind : Option Item) :
    (layersPicture (contrast func) a behind).backdropColor = (grey (contrast func)).toRgb15 := by
  unfold Picture.backdropColor layersPicture contrast
  split <;> rfl

/-- The backdrop shows the leftover `_blend1`. -/
theorem blend1_of_windowsInvisible {g : Engine} (hg : g.InSync) {e : Effects} {blend1 : Bool}
    (h : WindowsInvisible g e blend1) (he : ¬e.Still) : blend1 = e.blend1 .none := by
  have hhidden : ∀ i ∈ g.drawOrder,
      shows g (layersPicture (contrast e.func) 0 none) (nativeCell 0) i = none := by
    intro i _
    by_contra hshows
    rcases layersPicture_shows hshows with hbehind | ⟨-, ha, -⟩
    · exact absurd hbehind (Option.some_ne_none i).symm
    · exact ha rfl
  have hline := windowsInvisible_layersPicture h (contrast e.func) 0 none
  rw [foldl_drawItem_hidden hg _ _ hhidden, foldl_drawItem_hidden hg _ _ hhidden,
    backdrop_windowed openWindows_permissive rfl, backdrop_unwindowed rfl,
    backdropColor_contrast] at hline
  cases blend1 with
  | false =>
    cases hfirst : e.blend1 .none with
    | false => rfl
    | true =>
      rw [hfirst] at hline
      exact absurd hline.symm (fade_contrast he)
  | true =>
    cases hfirst : e.blend1 .none with
    | false =>
      rw [hfirst] at hline
      exact absurd hline (fade_contrast he)
    | true => rfl

theorem drawItem_fragment {R : Raster} {g : Engine} (e : Effects) (w : Windows) (pic : Picture R)
    (henable : g.enableLayer 0 = true) (h3d : g.is3DEnabled = true) (d : R.Cell) (p : Pixel) :
    drawItem g e w pic d p (.bg 0) = fragmentPixel g e w pic (e.blend1 (.bg 0)) d p := by
  rw [drawItem, bgItem]
  exact (if_pos henable).trans (if_pos ⟨rfl, h3d⟩)

theorem fragment_windowed {g : Engine} {e : Effects} (he : ¬e.Still)
    (henable : g.enableLayer 0 = true) (h3d : g.is3DEnabled = true) (behind : Option Item)
    {p : Pixel} (hp : e.blend2 p.under = false) :
    (drawItem g e openWindows (layersPicture (contrast e.func) 31 behind) (nativeCell 0) p
      (.bg 0)).color.low15 = (e.fade e.func (grey (contrast e.func)).toRgb15).low15 := by
  have hmask (func : BlendFunc) : (grey (contrast func)).toRgb15 &&& 0x7FFF =
      (grey (contrast func)).toRgb15 := by
    cases func <;> rfl
  have hmask := hmask e.func
  have hsolid : (31 : BitVec 8) ≠ 0 := by decide
  rw [drawItem_fragment e _ _ henable h3d, fragmentPixel]
  refine (congrArg (fun p : Pixel => p.color.low15) (if_neg hsolid)).trans ?_
  unfold setFinal3dColor
  rw [show openWindows.used = true from rfl]
  simp only [if_true, Bool.false_eq_true, if_false, Bool.not_true, hp,
    checkWindows_permissive openWindows_permissive rfl _ (nofun : LayerID.bg 0 ≠ .none)]
  refine (low15_or_top _).trans ?_
  rw [Effects.Still, not_or, not_and_or, not_not, not_not] at he
  rcases he.1 with hfunc | hfunc
  · rw [hfunc] at hmask ⊢
    exact congrArg (fun c => (e.fade .increase c).low15) hmask
  · rw [hfunc] at hmask ⊢
    exact congrArg (fun c => (e.fade .decrease c).low15) hmask

theorem fragment_unwindowed {g : Engine} {e : Effects} (henable : g.enableLayer 0 = true)
    (h3d : g.is3DEnabled = true) (hfirst : e.blend1 (.bg 0) = false) (behind : Option Item)
    {p : Pixel} (hp : e.blend2 p.under = false) :
    (drawItem g e noWindows (layersPicture (contrast e.func) 31 behind) (nativeCell 0) p
      (.bg 0)).color.low15 = (grey (contrast e.func)).toRgb15.low15 := by
  have hsolid : (31 : BitVec 8) ≠ 0 := by decide
  rw [drawItem_fragment e _ _ henable h3d, fragmentPixel]
  refine (congrArg (fun p : Pixel => p.color.low15) (if_neg hsolid)).trans ?_
  unfold setFinal3dColor
  rw [hp, hfirst]
  exact low15_or_top _

/-- The layer under the 3D layer. -/
def layerOf : Option Item → LayerID
  | some i => i.layer
  | none => .none

theorem second_of_windowsInvisible {g : Engine} (hg : g.InSync) {e : Effects} {blend1 : Bool}
    (h : WindowsInvisible g e blend1) (he : ¬e.Still) (henable : g.enableLayer 0 = true)
    (h3d : g.is3DEnabled = true) (hfirst : e.blend1 (.bg 0) = false) (behind : Option Item)
    (hbehind : ∀ i, behind = some i → g.enabled i = true ∧ g.key (.bg 0) < g.key i) :
    e.blend2 (layerOf behind) = true := by
  obtain ⟨back, front, horder⟩ := List.append_of_mem ((mem_drawOrder_bg hg 0).mpr henable)
  have hsorted := drawOrder_sorted hg
  rw [horder] at hsorted
  obtain ⟨hback, hfront, hacross⟩ := List.pairwise_append.mp hsorted
  obtain ⟨hfront, -⟩ := List.pairwise_cons.mp hfront
  have hnotback : .bg 0 ∉ back := fun hmem => (hacross _ hmem _ (List.mem_cons_self ..)).false
  have hline := windowsInvisible_layersPicture h (contrast e.func) 31 behind
  rw [horder, List.foldl_append, List.foldl_append, List.foldl_cons, List.foldl_cons] at hline
  -- in front of the 3D layer nothing is shown
  have hhidden : ∀ j ∈ front,
      shows g (layersPicture (contrast e.func) 31 behind) (nativeCell 0) j = none := by
    intro j hj
    by_contra hshows
    rcases layersPicture_shows hshows with hsome | ⟨rfl, -⟩
    · exact ((hbehind j hsome).2.trans (hfront j hj)).false
    · exact (hfront _ hj).false
  rw [foldl_drawItem_hidden hg _ _ hhidden, foldl_drawItem_hidden hg _ _ hhidden] at hline
  -- what is behind it looks alike, and has the one layer on top
  have hw0 : noWindows.used = false := rfl
  have hsame : (back.foldl (drawItem g e openWindows (layersPicture (contrast e.func) 31 behind)
      (nativeCell 0)) (drawBackdrop e openWindows (layersPicture (contrast e.func) 31 behind)
        (fun _ => false) blend1 (nativeCell 0))).Same
      (back.foldl (drawItem g e noWindows (layersPicture (contrast e.func) 31 behind)
      (nativeCell 0)) (drawBackdrop e noWindows (layersPicture (contrast e.func) 31 behind)
        (fun _ => false) blend1 (nativeCell 0))) := by
    refine foldl_drawItem_same hg openWindows_permissive rfl hw0 _ back hback ?_
      (backdrop_same openWindows_permissive rfl hw0 (.inr (blend1_of_windowsInvisible hg h he)) _ _)
      ?_
    · intro hmem
      exact absurd hmem hnotback
    · intro hmem
      exact absurd hmem hnotback
  have hunder : (back.foldl (drawItem g e noWindows (layersPicture (contrast e.func) 31 behind)
      (nativeCell 0)) (drawBackdrop e noWindows (layersPicture (contrast e.func) 31 behind)
        (fun _ => false) blend1 (nativeCell 0))).under = layerOf behind := by
    rw [foldl_drawItem_under hg rfl, backdrop_under]
    cases behind with
    | none =>
      refine layered_of_none _ fun i hi => ?_
      rw [Option.map_eq_none_iff]
      by_contra hshows
      rcases layersPicture_shows hshows with hsome | ⟨rfl, -⟩
      · exact Option.some_ne_none i hsome.symm
      · exact hnotback hi
    | some i =>
      obtain ⟨henabled, hkey⟩ := hbehind i rfl
      have hshows := layersPicture_shows_behind hg (contrast e.func) 31 (nativeCell 0) henabled
        hkey
      have hmem := mem_drawOrder_of_shows hg hshows
      rw [horder] at hmem
      have hi : i ∈ back := by
        rcases List.mem_append.mp hmem with hback | hrest
        · exact hback
        · rcases List.mem_cons.mp hrest with rfl | hi
          · exact absurd rfl hkey.ne
          · exact absurd (hkey.trans (hfront i hi)) (lt_irrefl _)
      obtain ⟨p, hp⟩ := Option.ne_none_iff_exists'.mp hshows
      refine layered_of_frontmost hback _ hi (by rw [hp]; rfl) fun j hj hmap => ?_
      have hj' := mt Option.map_eq_none_iff.mpr hmap
      rcases layersPicture_shows hj' with hsome | ⟨rfl, -⟩
      · rw [Option.some.inj hsome]
      · exact absurd hj hnotback
  by_contra hnot
  rw [Bool.not_eq_true, ← hunder] at hnot
  rw [fragment_windowed he henable h3d behind (by rw [hsame.2]; exact hnot),
    fragment_unwindowed henable h3d hfirst behind hnot] at hline
  exact fade_contrast he hline

/-- Permissive windows are not seen exactly when nothing fades, or both: the leftover `_blend1` is
the first target bit of the backdrop, and the 3D layer, where it is shown, is a first target or has
only second targets under it. -/
theorem windowsInvisible_iff (ops : List EngineOp) (e : Effects) (blend1 : Bool) :
    let g := run Engine.apply .reset ops
    WindowsInvisible g e blend1 ↔ e.Still ∨ blend1 = e.blend1 .none ∧
      (g.enableLayer 0 = true → g.is3DEnabled = true →
        e.blend1 (.bg 0) = true ∨ g.UnderTargets e) := by
  intro g
  have hg : g.InSync := run_inSync ops
  constructor
  · intro h
    by_cases he : e.Still
    · exact .inl he
    · refine .inr ⟨blend1_of_windowsInvisible hg h he, fun henable h3d => ?_⟩
      cases hfirst : e.blend1 (.bg 0) with
      | true => exact .inl rfl
      | false =>
        have hsecond := second_of_windowsInvisible hg h he henable h3d hfirst
        refine .inr ⟨hsecond none nofun, fun i henabled hkey => hsecond (some i) ?_⟩
        rintro j ⟨rfl⟩
        exact ⟨henabled, hkey⟩
  · intro h R pic w w0 hw hused hw0 sprWin d
    rw [renderLineLayer_line, renderLineLayer_line]
    refine (foldl_drawItem_same hg hw hused hw0 d _ (drawOrder_sorted hg) ?_
      (backdrop_same hw hused hw0 (h.imp_right And.left) sprWin d) ?_).1
    · intro _ henable h3d
      exact h.imp_right fun hrest => hrest.2 henable h3d
    · intro _ htargets
      rw [backdrop_under]
      exact htargets.1

/-- The 3D layer brightens through an open window though no layer is a first target. -/
theorem windows_fade_fragment :
    ¬WindowsInvisible (run Engine.apply .reset threeLayers) ⟨0x0080, 0, 0, 16⟩ false := by
  intro h
  have hstill : ¬Effects.Still ⟨0x0080, 0, 0, 16⟩ := by
    rintro (⟨hfunc, -⟩ | hevy)
    · exact hfunc rfl
    · exact absurd hevy (by decide)
  have hsecond := second_of_windowsInvisible (run_inSync threeLayers) h hstill rfl rfl rfl none nofun
  exact absurd hsecond (by decide)

end Desmume.Video
