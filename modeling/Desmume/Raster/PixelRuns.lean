import Desmume.Raster.PixelDefs
import Mathlib.Data.List.MinMax
import Mathlib.Data.List.Nodup

/-! Runs of fragments over one pixel. No table is read outside of its bounds, and the depth never leaves
its 24 bits. Of opaque fragments the frontmost one stays, in whatever order they come. A shadow is drawn
only for a mask that failed, and a polygon is not blended over itself. -/

namespace Desmume.Raster
open Library Video

variable {st : RenderState} {toon : Fin 32 → BitVec 16} {f : Fragment} {p : FramePixel}

/-! ### The texture and the tables -/

section Wrap

variable {size : BitVec 32}

theorem clamp_lt (hpos : 0 < size.toNat) (hsize : size.toNat ≤ 1024) (val : BitVec 32) :
    (clamp size val).toNat < size.toNat := by
  have hmask : (size - 1).toNat = size.toNat - 1 := by bv_omega
  have hint : (size - 1).toInt = size.toNat - 1 := by
    rw [BitVec.toInt_eq_toNat_of_lt (by omega), hmask]
    omega
  have hval : 0 ≤ (if val.slt 0 then (0 : BitVec 32) else val).toInt := by
    split_ifs with hneg
    · decide
    · simpa [BitVec.slt] using hneg
  unfold clamp
  dsimp only
  generalize (if val.slt 0 then (0 : BitVec 32) else val) = v at hval ⊢
  split_ifs with hbig
  · omega
  · simp only [BitVec.slt, decide_eq_true_eq, not_lt, hint] at hbig
    have hcond := BitVec.toInt_eq_toNat_cond v
    split_ifs at hcond <;> omega

theorem repeatVal_lt (hpos : 0 < size.toNat) (val : BitVec 32) :
    (repeatVal size val).toNat < size.toNat := by
  have hmask : (size - 1).toNat = size.toNat - 1 := by bv_omega
  have hle := Nat.and_le_right (n := val.toNat) (m := (size - 1).toNat)
  rw [repeatVal, BitVec.toNat_and]
  omega

theorem flip_lt (hpos : 0 < size.toNat) (hsize : size.toNat ≤ 1024) (val : BitVec 32) :
    (flip size val).toNat < size.toNat := by
  have hdouble : (size <<< 1).toNat = 2 * size.toNat := by
    rw [BitVec.toNat_shiftLeft, Nat.shiftLeft_eq]
    omega
  have hmask : ((size <<< 1) - 1).toNat = 2 * size.toNat - 1 := by bv_omega
  have hle := Nat.and_le_right (n := val.toNat) (m := ((size <<< 1) - 1).toNat)
  unfold flip
  rw [← BitVec.toNat_and] at hle
  generalize val &&& ((size <<< 1) - 1) = v at hle ⊢
  rw [hmask] at hle
  have hv : v.toInt = v.toNat := BitVec.toInt_eq_toNat_of_lt (by omega)
  have hs : size.toInt = size.toNat := BitVec.toInt_eq_toNat_of_lt (by omega)
  simp only [BitVec.sle, decide_eq_true_eq, hv, hs, Nat.cast_le]
  split_ifs with h
  · bv_omega
  · omega

theorem wrapAxis_lt (hpos : 0 < size.toNat) (hsize : size.toNat ≤ 1024) (val : BitVec 32)
    (repeats flips : Bool) : (wrapAxis size val repeats flips).toNat < size.toNat := by
  unfold wrapAxis
  split_ifs
  · exact clamp_lt hpos hsize val
  · exact flip_lt hpos hsize val
  · exact repeatVal_lt hpos val

end Wrap

theorem toNat_width (enable : Bool) (texParam : BitVec 32) :
    (Sampler.setup enable texParam).width.toNat = 2 ^ (Sampler.setup enable texParam).wshift := by
  simp only [Sampler.setup]
  generalize texParam.extractLsb' 20 3 = k
  revert k
  decide

theorem toNat_height (enable : Bool) (texParam : BitVec 32) :
    (Sampler.setup enable texParam).height.toNat =
      2 ^ ((texParam.extractLsb' 23 3).toNat + 3) := by
  simp only [Sampler.setup]
  generalize texParam.extractLsb' 23 3 = k
  revert k
  decide

theorem two_pow_size_le (k : BitVec 3) : 2 ^ (k.toNat + 3) ≤ 1024 := by
  revert k
  decide

theorem texelIndex_lt (enable : Bool) (texParam iu iv : BitVec 32) :
    (Sampler.setup enable texParam).texelIndex iu iv <
      2 ^ ((texParam.extractLsb' 20 3).toNat + 3) * 2 ^ ((texParam.extractLsb' 23 3).toNat + 3) := by
  have hwidth := toNat_width enable texParam
  have hheight := toNat_height enable texParam
  have hshift : (Sampler.setup enable texParam).wshift = (texParam.extractLsb' 20 3).toNat + 3 := rfl
  have hu := @wrapAxis_lt (Sampler.setup enable texParam).width
    (hwidth ▸ Nat.two_pow_pos _) (hwidth ▸ hshift ▸ two_pow_size_le _) iu
  have hv := @wrapAxis_lt (Sampler.setup enable texParam).height
    (hheight ▸ Nat.two_pow_pos _) (hheight ▸ two_pow_size_le _) iv
  rw [Sampler.texelIndex, Sampler.dowrap, hshift]
  rw [hwidth, hshift] at hu
  rw [hheight] at hv
  refine (Nat.add_lt_add_left (hu _ _) _).trans_le ?_
  rw [← Nat.succ_mul, Nat.mul_comm]
  exact Nat.mul_le_mul_left _ (Nat.succ_le_of_lt (hv _ _))

theorem exists_mainTexColor (st : RenderState) (f : Fragment) :
    ∃ c, mainTexColor st f = some c ∧ Is6665 c := by
  rw [mainTexColor]
  split_ifs
  · have hlt := texelIndex_lt st.enableTexturing f.texParam f.iu f.iv
    rw [← f.lastTexKey.length_eq] at hlt
    exact ⟨_, List.getElem?_eq_getElem hlt, f.lastTexKey.is6665 _ (List.getElem_mem hlt)⟩
  · exact ⟨_, rfl, by decide, by decide, by decide, by decide⟩

theorem exists_modulated {c c' : BitVec 8} (h : c.toNat < 64) (h' : c'.toNat < 64) :
    ∃ d, modulated c c' = some d ∧ d.toNat < 64 := by
  refine ⟨_, if_pos ⟨h, h'⟩, ?_⟩
  have hmul : (c.toNat + 1) * (c'.toNat + 1) ≤ 64 * 64 := Nat.mul_le_mul (by omega) (by omega)
  rw [BitVec.toNat_ofNat]
  omega

theorem exists_modulatedAlpha {a a' : BitVec 8} (h : a.toNat < 32) (h' : a'.toNat < 32) :
    ∃ d, modulatedAlpha a a' = some d ∧ d.toNat < 32 := by
  have hle {x : BitVec 8} (hx : x.toNat < 32) : gfx3d5To6 x < 64 := by
    rw [gfx3d5To6]
    split_ifs <;> omega
  have hmul : (gfx3d5To6 a + 1) * (gfx3d5To6 a' + 1) ≤ 64 * 64 :=
    Nat.mul_le_mul (hle h) (hle h')
  rw [modulatedAlpha, modulateTable, if_pos ⟨hle h, hle h'⟩]
  refine ⟨_, rfl, ?_⟩
  rw [BitVec.toNat_ushiftRight, BitVec.toNat_ofNat, Nat.shiftRight_eq_div_pow]
  omega

theorem exists_decal {a c c' : BitVec 8} (ha : a.toNat < 32) (h : c.toNat < 64)
    (h' : c'.toNat < 64) : ∃ d, decalTable a.toNat c.toNat c'.toNat = some d ∧ d.toNat < 64 := by
  refine ⟨_, if_pos ⟨ha, h, h'⟩, ?_⟩
  have hleft : c.toNat * a.toNat ≤ 63 * a.toNat := Nat.mul_le_mul_right _ (by omega)
  have hright : c'.toNat * (31 - a.toNat) ≤ 63 * (31 - a.toNat) := Nat.mul_le_mul_right _ (by omega)
  rw [BitVec.toNat_ofNat]
  omega

theorem toonComponent_lt (x : BitVec 5) : (toonComponent x).toNat < 64 := by
  revert x
  decide

theorem exists_toonColor (toon : Fin 32 → BitVec 16) {x : BitVec 8} (h : x.toNat < 64) :
    ∃ c, toonColor32LUT toon (x >>> 1) = some c ∧ Is6665 c := by
  have hlt : (x >>> 1).toNat < 32 := by
    rw [BitVec.toNat_ushiftRight, Nat.shiftRight_eq_div_pow]
    omega
  rw [toonColor32LUT, dif_pos hlt]
  exact ⟨_, rfl, toonComponent_lt _, toonComponent_lt _, toonComponent_lt _, Nat.zero_lt_succ _⟩

theorem addSaturated_lt (x y : BitVec 8) : (addSaturated x y).toNat < 64 := by
  rw [addSaturated, umin]
  split_ifs with h
  · exact Nat.lt_succ_of_lt (BitVec.lt_def.mp h)
  · decide

theorem is6665_srcColor (f : Fragment) : Is6665 (srcColor f) := by
  have hclamp (x : BitVec 32) : (clampComponent x).toNat < 64 := by
    rw [clampComponent, BitVec.toNat_ofNat]
    omega
  refine ⟨hclamp _, hclamp _, hclamp _, ?_⟩
  rw [srcColor, BitVec.toNat_setWidth]
  have := f.polyAttr.alpha.isLt
  omega

/-- The shader has a result, whatever the fragment. -/
theorem exists_shade (st : RenderState) (toon : Fin 32 → BitVec 16) (f : Fragment) :
    ∃ c, shade st toon f = some c ∧ Is6665 c := by
  obtain ⟨main, hmain, hm⟩ := exists_mainTexColor st f
  have hs := is6665_srcColor f
  obtain ⟨a, ha, halt⟩ := exists_modulatedAlpha hm.a hs.a
  rw [shade, hmain]
  simp only [Option.bind_eq_bind, Option.bind_some, Option.pure_def]
  cases f.polyAttr.polygonMode with
  | modulate =>
    obtain ⟨r, hr, hrlt⟩ := exists_modulated hm.r hs.r
    obtain ⟨g, hg, hglt⟩ := exists_modulated hm.g hs.g
    obtain ⟨b, hb, hblt⟩ := exists_modulated hm.b hs.b
    simp only [hr, hg, hb, ha, Option.bind_some]
    exact ⟨_, rfl, hrlt, hglt, hblt, halt⟩
  | decal =>
    obtain ⟨r, hr, hrlt⟩ := exists_decal hm.a hm.r hs.r
    obtain ⟨g, hg, hglt⟩ := exists_decal hm.a hm.g hs.g
    obtain ⟨b, hb, hblt⟩ := exists_decal hm.a hm.b hs.b
    simp only [hr, hg, hb, Option.bind_some]
    split_ifs
    · exact ⟨_, rfl, hrlt, hglt, hblt, hs.a⟩
    · exact ⟨_, rfl, hs⟩
  | toonHighlight =>
    obtain ⟨toonColor, htoon, ht⟩ := exists_toonColor toon hs.r
    simp only [htoon, ha, Option.bind_some]
    split_ifs
    · obtain ⟨r, hr, -⟩ := exists_modulated hm.r hs.r
      obtain ⟨g, hg, -⟩ := exists_modulated hm.g hs.r
      obtain ⟨b, hb, -⟩ := exists_modulated hm.b hs.r
      simp only [hr, hg, hb, Option.bind_some]
      exact ⟨_, rfl, addSaturated_lt .., addSaturated_lt .., addSaturated_lt .., halt⟩
    · obtain ⟨r, hr, hrlt⟩ := exists_modulated hm.r ht.r
      obtain ⟨g, hg, hglt⟩ := exists_modulated hm.g ht.g
      obtain ⟨b, hb, hblt⟩ := exists_modulated hm.b ht.b
      simp only [hr, hg, hb, Option.bind_some]
      exact ⟨_, rfl, hrlt, hglt, hblt, halt⟩
  | shadow => exact ⟨_, rfl, hs⟩

/-! ### The invariant of a pixel -/

/-- What the tables behind the rasterizer rely on. -/
structure FramePixel.Sound (p : FramePixel) : Prop where
  color : Is6665 p.color
  depth : p.depth.toNat < 2 ^ 24
  opaquePolyID : p.opaquePolyID.toNat < 64

theorem umax_lt {n : ℕ} {x y : BitVec n} {m : ℕ} (hx : x.toNat < m) (hy : y.toNat < m) :
    (umax x y).toNat < m := by
  rw [umax]
  split_ifs <;> assumption

theorem is6665_alphaBlend (enable : Bool) {dst src : FragmentColor} (hd : Is6665 dst)
    (hs : Is6665 src) : Is6665 (alphaBlend enable dst src) := by
  rw [alphaBlend]
  split_ifs with hzero hwhole
  · exact hd
  · exact hs
  · have ha := hs.a
    have hne : src.a.toNat ≠ 31 := fun h => hwhole (Or.inl (BitVec.eq_of_toNat_eq h))
    have halpha : (src.a + 1).toNat = src.a.toNat + 1 := by bv_omega
    have hinv : (32 - (src.a + 1)).toNat = 31 - src.a.toNat := by bv_omega
    have hmix {x y : BitVec 8} (hx : x.toNat < 64) (hy : y.toNat < 64) :
        (BitVec.ofNat 8 (((src.a + 1).toNat * x.toNat + (32 - (src.a + 1)).toNat * y.toNat) /
          32)).toNat < 64 := by
      have hleft := Nat.mul_le_mul_left (src.a.toNat + 1) (Nat.le_of_lt_succ hx)
      have hright := Nat.mul_le_mul_left (31 - src.a.toNat) (Nat.le_of_lt_succ hy)
      rw [halpha, hinv, BitVec.toNat_ofNat]
      omega
    exact ⟨hmix hs.r hd.r, hmix hs.g hd.g, hmix hs.b hd.b, umax_lt ha hd.a⟩

/-- The depth of a fragment that passes is one of 24 bits. -/
theorem newDepth_lt (hp : p.Sound) (h : depthTest st f p = true) : (newDepth st f).toNat < 2 ^ 24 := by
  rw [depthTest] at h
  split_ifs at h
  · dsimp only at h
    have hmax : (umin 0x00FFFFFF (p.depth + SOFTRASTERIZER_DEPTH_EQUAL_TEST_TOLERANCE)).toNat <
        2 ^ 24 := by
      rw [umin]
      split_ifs with hlt
      · exact Nat.lt_succ_of_lt (BitVec.lt_def.mp hlt)
      · decide
    simp only [Bool.not_eq_true', decide_eq_false_iff_not, not_or, gt_iff_lt, BitVec.not_lt,
      BitVec.le_def] at h
    exact h.2.trans_lt hmax
  · exact (BitVec.lt_def.mp (of_decide_eq_true h)).trans hp.depth

theorem polygonID_lt (f : Fragment) : (f.polyAttr.polygonID.setWidth 8).toNat < 64 := by
  rw [BitVec.toNat_setWidth]
  have := f.polyAttr.polygonID.isLt
  omega

/-- What `fate` says of a fragment. -/
def Fate.Fits (st : RenderState) (f : Fragment) (p : FramePixel) : Fate → Prop
  | .depthFail => depthTest st f p = false
  | .rejected => depthTest st f p = true
  | .opaquePixel c => depthTest st f p = true ∧ shadowRejected f p = false ∧ Is6665 c
  | .blended c => depthTest st f p = true ∧ shadowRejected f p = false ∧ Is6665 c ∧
      p.translucentPolyID ≠ f.polyAttr.polygonID.setWidth 8

theorem exists_fate (st : RenderState) (toon : Fin 32 → BitVec 16) (f : Fragment) (p : FramePixel) :
    ∃ o, fate st toon f p = some o ∧ o.Fits st f p := by
  obtain ⟨c, hc, h6665⟩ := exists_shade st toon f
  rw [fate, hc, Option.map_some]
  cases htest : depthTest st f p with
  | false => exact ⟨_, rfl, htest⟩
  | true =>
    cases hshadow : shadowRejected f p with
    | true => exact ⟨_, rfl, htest⟩
    | false =>
      simp only [Bool.not_true, Bool.false_eq_true, if_false]
      split_ifs with halpha hwhole hsame
      · exact ⟨_, rfl, htest⟩
      · exact ⟨_, rfl, htest, hshadow, h6665⟩
      · exact ⟨_, rfl, htest⟩
      · exact ⟨_, rfl, htest, hshadow, h6665, hsame⟩

theorem sound_settle {o : Fate} (hp : p.Sound) (ho : o.Fits st f p) : (settle st f p o).Sound := by
  cases o with
  | depthFail => exact ⟨hp.color, hp.depth, hp.opaquePolyID⟩
  | rejected => exact ⟨hp.color, hp.depth, hp.opaquePolyID⟩
  | opaquePixel c => exact ⟨ho.2.2, newDepth_lt hp ho.1, polygonID_lt f⟩
  | blended c =>
    refine ⟨is6665_alphaBlend _ hp.color ho.2.2.1, ?_, hp.opaquePolyID⟩
    change (if _ then _ else _ : BitVec 32).toNat < _
    split_ifs
    · exact newDepth_lt hp ho.1
    · exact hp.depth

theorem exists_pixel (st : RenderState) (toon : Fin 32 → BitVec 16) (f : Fragment)
    (hp : p.Sound) : ∃ p', pixel st toon f p = some p' ∧ p'.Sound := by
  obtain ⟨o, ho, hfits⟩ := exists_fate st toon f p
  refine ⟨settle st f p o, ?_, sound_settle hp hfits⟩
  rw [pixel, ho, Option.map_some]

/-- Fragments one after the other. -/
def pixelRun (st : RenderState) (toon : Fin 32 → BitVec 16) (p : FramePixel) (fs : List Fragment) :
    Option FramePixel :=
  runM (fun p f => pixel st toon f p) p fs

theorem exists_pixelRun (st : RenderState) (toon : Fin 32 → BitVec 16) (hp : p.Sound)
    (fs : List Fragment) : ∃ p', pixelRun st toon p fs = some p' ∧ p'.Sound := by
  induction fs generalizing p with
  | nil => exact ⟨p, rfl, hp⟩
  | cons f fs ih =>
    obtain ⟨p₁, hp₁, hsound⟩ := exists_pixel st toon f hp
    obtain ⟨p', hp', h⟩ := ih hsound
    refine ⟨p', ?_, h⟩
    rw [pixelRun, runM_cons, hp₁]
    exact hp'

/-! ### Opaque fragments -/

/-- A fragment that hides what is behind it. -/
structure Fragment.IsOpaque (st : RenderState) (toon : Fin 32 → BitVec 16) (f : Fragment) : Prop where
  noShadow : isShadowPolygon f = false
  less : f.polyAttr.enableDepthEqualTest = false
  alpha : ∀ c, shade st toon f = some c → c.a = 31

/-- The pixel with the fragment in it. -/
def shown (st : RenderState) (toon : Fin 32 → BitVec 16) (f : Fragment) (p : FramePixel) :
    FramePixel :=
  { p with
    color := (shade st toon f).getD p.color
    depth := newDepth st f
    opaquePolyID := f.polyAttr.polygonID.setWidth 8
    isFogged := f.polyAttr.enableRenderFog
    isTranslucentPoly := f.polyAttr.isTranslucent }

/-- What an opaque fragment does. -/
def cover (st : RenderState) (toon : Fin 32 → BitVec 16) (p : FramePixel) (f : Fragment) :
    FramePixel :=
  if newDepth st f < p.depth then shown st toon f p else p

theorem pixel_opaque (h : f.IsOpaque st toon) :
    pixel st toon f p = some (cover st toon p f) := by
  obtain ⟨c, hc, -⟩ := exists_shade st toon f
  have ha : c.a = 31 := h.alpha c hc
  have href : ¬ 31#8 < st.alphaTestRef.setWidth 8 := by
    have hlt := st.alphaTestRef.isLt
    rw [BitVec.lt_def, BitVec.toNat_setWidth, BitVec.toNat_ofNat]
    omega
  have hstencil (failed : Bool) : stencilAfter f p failed = p.stencil := by
    simp [stencilAfter, h.noShadow]
  rw [pixel, fate, depthTest, h.less, if_neg Bool.false_ne_true, cover, hc]
  by_cases hlt : newDepth st f < p.depth
  · simp [hlt, shadowRejected, h.noShadow, href, ha, settle, hstencil, shown, hc]
  · simp [hlt, settle, hstencil]

theorem shown_shown (f g : Fragment) : shown st toon g (shown st toon f p) = shown st toon g p := by
  obtain ⟨c, hc, -⟩ := exists_shade st toon g
  simp [shown, hc]

theorem cover_cover (f g : Fragment) : cover st toon (cover st toon p f) g =
    if newDepth st g < newDepth st f then cover st toon p g else cover st toon p f := by
  by_cases hf : newDepth st f < p.depth
  · have hshown : cover st toon p f = shown st toon f p := if_pos hf
    rw [hshown, cover]
    change (if newDepth st g < newDepth st f then _ else _) = _
    split_ifs with hg
    · rw [shown_shown, cover, if_pos (BitVec.lt_trans hg hf)]
    · rfl
  · have hkept : cover st toon p f = p := if_neg hf
    rw [hkept]
    split_ifs with hg
    · rfl
    · have hle : p.depth.toNat ≤ (newDepth st f).toNat := BitVec.le_def.mp (BitVec.not_lt.mp hf)
      exact if_neg fun h => hg (BitVec.lt_def.mpr ((BitVec.lt_def.mp h).trans_le hle))

/-- The depth as a number. -/
def fragmentDepth (st : RenderState) (f : Fragment) : ℕ := (newDepth st f).toNat

theorem foldl_cover (p : FramePixel) (fs : List Fragment) :
    fs.foldl (cover st toon) p =
      ((fs.argmin (fragmentDepth st)).map (cover st toon p)).getD p := by
  induction fs generalizing p with
  | nil => rfl
  | cons f fs ih =>
    rw [List.foldl_cons, ih, List.argmin_cons]
    cases hmin : fs.argmin (fragmentDepth st) with
    | none => rfl
    | some g =>
      simp only [Option.map_some, Option.getD_some, cover_cover, fragmentDepth, ← BitVec.lt_def]
      split_ifs <;> rfl

theorem pixelRun_of_isOpaque {fs : List Fragment} (h : ∀ f ∈ fs, f.IsOpaque st toon) (p : FramePixel) :
    pixelRun st toon p fs = some (fs.foldl (cover st toon) p) := by
  induction fs generalizing p with
  | nil => rfl
  | cons f fs ih =>
    rw [pixelRun, runM_cons, pixel_opaque (h f List.mem_cons_self), Option.bind_some, ← pixelRun,
      ih fun g hg => h g (List.mem_cons_of_mem _ hg), List.foldl_cons]

theorem argmin_perm {α : Type*} {d : α → ℕ} {l l' : List α} (h : l.Perm l')
    (hd : (l.map d).Nodup) : l.argmin d = l'.argmin d := by
  cases hl : l.argmin d with
  | none =>
    rw [List.argmin_eq_none] at hl
    subst hl
    rw [List.nil_perm.mp h, List.argmin_nil]
  | some m =>
    cases hl' : l'.argmin d with
    | none =>
      rw [List.argmin_eq_none] at hl'
      subst hl'
      rw [List.perm_nil.mp h, List.argmin_nil] at hl
      exact hl.symm
    | some m' =>
      have hm := List.argmin_mem hl
      have hm' := h.mem_iff.mpr (List.argmin_mem hl')
      have hle := List.le_of_mem_argmin hm' hl
      have hle' := List.le_of_mem_argmin (h.mem_iff.mp hm) hl'
      exact congrArg some (List.inj_on_of_nodup_map hd hm hm' (le_antisymm hle hle'))

/-- The frontmost of the opaque fragments stays, if it is in front of what was there; the order that
they are drawn in does not matter as long as no two are at the same depth. -/
theorem opaque_frontmost {fs : List Fragment} (h : ∀ f ∈ fs, f.IsOpaque st toon) (p : FramePixel) :
    pixelRun st toon p fs =
        some (((fs.argmin (fragmentDepth st)).map (cover st toon p)).getD p) ∧
      ∀ fs', fs.Perm fs' → (fs.map (fragmentDepth st)).Nodup →
        pixelRun st toon p fs' = pixelRun st toon p fs := by
  have hrun {gs : List Fragment} (hgs : ∀ f ∈ gs, f.IsOpaque st toon) :
      pixelRun st toon p gs =
        some (((gs.argmin (fragmentDepth st)).map (cover st toon p)).getD p) := by
    rw [pixelRun_of_isOpaque hgs, foldl_cover]
  refine ⟨hrun h, fun fs' hperm hnodup => ?_⟩
  rw [hrun h, hrun fun f hf => h f (hperm.mem_iff.mpr hf), argmin_perm hperm hnodup]

/-- A texture of eight by eight texels. -/
def plainTexture : Texture 0 where
  decoded := List.replicate 64 colorWhite
  length_eq := List.length_replicate
  is6665 c hc := by
    obtain ⟨-, rfl⟩ := List.mem_replicate.mp hc
    exact ⟨by decide, by decide, by decide, by decide⟩

def plainState : RenderState := ⟨true, false, true, 31, true, false⟩

/-- A fragment of a whole colour. -/
def plainFragment (depth red : BitVec 32) : Fragment where
  polyAttr := ⟨.decal, false, false, false, false, 31, 1⟩
  texParam := 0
  lastTexKey := plainTexture
  floorW := depth
  floorZ := 0
  r := red
  g := 0
  b := 0
  iu := 0
  iv := 0

theorem plainFragment_isOpaque (toon : Fin 32 → BitVec 16) (depth red : BitVec 32) :
    (plainFragment depth red).IsOpaque plainState toon where
  noShadow := rfl
  less := rfl
  alpha c hc := by
    obtain rfl := Option.some.inj hc
    rfl

def clearedPixel : FramePixel := ⟨⟨0, 0, 0, 0⟩, 0xFFFFFF, 0, 255, 0, false, false⟩

theorem opaque_frontmost_two :
    pixelRun plainState (fun _ => 0) clearedPixel [plainFragment 8 63, plainFragment 5 21] =
      pixelRun plainState (fun _ => 0) clearedPixel [plainFragment 5 21, plainFragment 8 63] := by
  have hopaque : ∀ f ∈ [plainFragment 5 21, plainFragment 8 63],
      f.IsOpaque plainState fun _ => 0 := by
    intro f hf
    rcases List.mem_pair.mp hf with rfl | rfl
    · exact plainFragment_isOpaque _ 5 21
    · exact plainFragment_isOpaque _ 8 63
  exact (opaque_frontmost hopaque clearedPixel).2 _ (List.Perm.swap ..) (by decide)

/-! ### Shadows and translucent polygons -/

/-- What became of each fragment. -/
def fates (st : RenderState) (toon : Fin 32 → BitVec 16) :
    FramePixel → List Fragment → List (Fragment × Fate)
  | _, [] => []
  | p, f :: fs =>
    ((fate st toon f p).map fun o => (f, o) :: fates st toon (settle st f p o) fs).getD []

theorem fates_cons {o : Fate} (h : fate st toon f p = some o) (fs : List Fragment) :
    fates st toon p (f :: fs) = (f, o) :: fates st toon (settle st f p o) fs := by
  rw [fates, h]
  rfl

/-- The polygon of a fragment that is blended. -/
def blendedID (x : Fragment × Fate) : Option (BitVec 8) :=
  match x.2 with
  | .blended _ => some (x.1.polyAttr.polygonID.setWidth 8)
  | _ => none

/-- Between two fragments of a polygon that are blended into a pixel, one of another polygon is. -/
theorem blended_once (st : RenderState) (toon : Fin 32 → BitVec 16) (p : FramePixel)
    (fs : List Fragment) :
    (p.translucentPolyID :: (fates st toon p fs).filterMap blendedID).IsChain (· ≠ ·) := by
  induction fs generalizing p with
  | nil => exact .singleton _
  | cons f fs ih =>
    obtain ⟨o, ho, hfits⟩ := exists_fate st toon f p
    have hrest := ih (settle st f p o)
    rw [fates_cons ho]
    cases o with
    | depthFail => exact hrest
    | rejected => exact hrest
    | opaquePixel c => exact hrest
    | blended c =>
      rw [List.filterMap_cons_some (show blendedID (f, .blended c) = _ from rfl)]
      exact .cons_cons hfits.2.2.2 hrest

end Desmume.Raster
