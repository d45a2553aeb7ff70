import Desmume.Library.BitFields
import Desmume.Raster.DrawScanline
import Desmume.Raster.PixelRuns

/-! What the software rasterizer does to a framebuffer before and after the polygons: the clearing, the
edge marking and the fog, which read the table of a neighbour and of a depth. The table of the fog is
filled without a search; it is the one of the loop that it replaced. -/

namespace Desmume.Raster
open Library Video

/-! ### The table of the fog -/

section FogTable

variable (fogDensityTable : Fin 32 → BitVec 8) (fogOffset fogShift : ℕ)

def increment : ℕ := (1 <<< 10) >>> fogShift

end FogTable

section FogLaw

variable {fogDensityTable : Fin 32 → BitVec 8} {fogOffset fogShift i j : ℕ}

theorem range_split {a b n : ℕ} (hab : a ≤ b) (hb : b ≤ n) :
    List.range n = List.range' 0 a ++ List.range' a (b - a) ++ List.range' b (n - b) := by
  rw [List.range_eq_range', ← Nat.add_sub_cancel' hb, ← List.range'_append_1, Nat.zero_add,
    Nat.add_sub_cancel' hb]
  congr 1
  conv_lhs => rw [← Nat.add_sub_cancel' hab]
  rw [← List.range'_append_1, Nat.zero_add]

end FogLaw

/-! ### The clearing -/

/-- The framebuffer with its attributes; an address outside of it holds nothing. -/
abbrev Frame := ℕ → Option FramePixel

/-- What `ClearFramebuffer` reads. The depth is the value that was written to its register, and the
buffers are the texture slots 2 and 3. -/
structure ClearState where
  clearColor : BitVec 32
  clearDepth : BitVec 32
  enableClearImage : Bool
  scrollBits : BitVec 16
  clearColorBuffer : Fin 65536 → BitVec 16
  clearDepthBuffer : Fin 65536 → BitVec 16

section Clear

variable (fb : Framebuffer) (st : ClearState)

def component5To6 (x : BitVec 5) : BitVec 8 := BitVec.ofNat 8 (gfx3d5To6 (x.setWidth 8))

/-- `clearFragment` with the colour that `ClearUsingValues` converts. -/
def clearFragment : FramePixel where
  color :=
    ⟨component5To6 (st.clearColor.extractLsb' 0 5), component5To6 (st.clearColor.extractLsb' 5 5),
      component5To6 (st.clearColor.extractLsb' 10 5), (st.clearColor.extractLsb' 16 5).setWidth 8⟩
  depth := dsDepth15To24 st.clearDepth
  opaquePolyID := (st.clearColor.extractLsb' 24 6).setWidth 8
  translucentPolyID := 255
  stencil := 0
  isFogged := st.clearColor.getLsbD 15
  isTranslucentPoly := false

/-- The place in the slots that a place of the native screen is taken from. -/
def clearImageSource (iy ix : ℕ) : ℕ :=
  let xScroll := (st.scrollBits &&& 0xFF).toNat
  let yScroll := ((st.scrollBits >>> 8) &&& 0xFF).toNat
  if xScroll = 0 ∧ yScroll = 0 then iy * 256 + ix
  else (((iy + yScroll) &&& 0xFF) <<< 8) ||| ((ix + xScroll) &&& 0xFF)

/-- `RGB15TO6665` of a component. -/
def rgb15To6665 (x : BitVec 5) : BitVec 8 := (x.setWidth 8 <<< 1) + 1

/-- The entry `ir` of the buffers of the clear image. -/
def clearImage (ir : ℕ) : Option FramePixel :=
  if ir < 256 * 192 then
    let src := clearImageSource st (ir / 256) (ir % 256)
    if h : src < 65536 then
      let color := st.clearColorBuffer ⟨src, h⟩
      let depth := st.clearDepthBuffer ⟨src, h⟩
      some
        { clearFragment st with
          color :=
            ⟨rgb15To6665 (color.extractLsb' 0 5), rgb15To6665 (color.extractLsb' 5 5),
              rgb15To6665 (color.extractLsb' 10 5), (color >>> 15).setWidth 8 * 0x1F⟩
          depth := dsDepth15To24 ((depth &&& 0x7FFF).setWidth 32)
          isFogged := depth.getLsbD 15 }
    else none
  else none

/-- The scaling of `ClearUsingImage` from the native sizes. -/
def nativePlace (native size k : ℕ) : ℕ := (k * ((native <<< 16) / size + 1)) >>> 16

/-- `ClearFramebuffer`, with `ClearUsingImage` or `ClearUsingValues`. -/
def clearFramebuffer : Frame := fun iw =>
  if iw < fb.width * fb.height then
    if st.enableClearImage then
      clearImage st (nativePlace 192 fb.height (iw / fb.width) * 256 +
        nativePlace 256 fb.width (iw % fb.width))
    else some (clearFragment st)
  else none

end Clear

/-- The scaled place stays within the native size, as long as the size is not too large. -/
theorem nativePlace_lt {native size k : ℕ} (hsize : size ≤ (native <<< 16) / size) (hk : k < size) :
    nativePlace native size k < native := by
  rw [Nat.shiftLeft_eq] at hsize
  rw [nativePlace, Nat.shiftRight_eq_div_pow, Nat.div_lt_iff_lt_mul (Nat.two_pow_pos 16),
    Nat.shiftLeft_eq]
  generalize native * 2 ^ 16 = total at hsize ⊢
  have hdiv := Nat.div_mul_le_self total size
  calc k * (total / size + 1) = k * (total / size) + k := Nat.mul_succ ..
    _ < k * (total / size) + total / size := by omega
    _ = (k + 1) * (total / size) := (Nat.succ_mul ..).symm
    _ ≤ size * (total / size) := Nat.mul_le_mul_right _ hk
    _ = total / size * size := Nat.mul_comm ..
    _ ≤ total := hdiv

theorem clearImageSource_lt (st : ClearState) {iy ix : ℕ} (hy : iy < 192) (hx : ix < 256) :
    clearImageSource st iy ix < 65536 := by
  rw [clearImageSource]
  split_ifs
  · omega
  · refine Nat.or_lt_two_pow (n := 16) ?_ ?_
    · have := Nat.and_le_right (n := iy + ((st.scrollBits >>> 8) &&& 0xFF).toNat) (m := 0xFF)
      rw [Nat.shiftLeft_eq]
      omega
    · have := Nat.and_le_right (n := ix + (st.scrollBits &&& 0xFF).toNat) (m := 0xFF)
      omega

theorem component5To6_lt (x : BitVec 5) : (component5To6 x).toNat < 64 := by
  revert x
  decide

theorem rgb15To6665_lt (x : BitVec 5) : (rgb15To6665 x).toNat < 64 := by
  revert x
  decide

theorem dsDepth15To24_lt (x : BitVec 32) : (dsDepth15To24 x).toNat < 2 ^ 24 := by
  have hle : (x &&& 0x7FFF).toNat ≤ 0x7FFF := by
    rw [BitVec.toNat_and]
    exact Nat.and_le_right
  rw [dsDepth15To24]
  generalize x &&& 0x7FFF = i at hle
  have hnext : (i + 1).toNat = i.toNat + 1 := by bv_omega
  have hone : ((i + 1) >>> 15).toNat ≤ 1 := by
    rw [BitVec.toNat_ushiftRight, Nat.shiftRight_eq_div_pow, hnext]
    omega
  generalize (i + 1) >>> 15 = carry at hone
  rw [BitVec.toNat_add, BitVec.toNat_mul, BitVec.toNat_mul]
  change (i.toNat * 512 % 2 ^ 32 + carry.toNat * 511 % 2 ^ 32) % 2 ^ 32 < 2 ^ 24
  rw [Nat.mod_eq_of_lt (by omega : i.toNat * 512 < 2 ^ 32),
    Nat.mod_eq_of_lt (by omega : carry.toNat * 511 < 2 ^ 32), Nat.mod_eq_of_lt (by omega)]
  omega

theorem toNat_setWidth8_lt {n k : ℕ} (x : BitVec n) (hn : 2 ^ n ≤ k) : (x.setWidth 8).toNat < k := by
  rw [BitVec.toNat_setWidth]
  exact (Nat.mod_le ..).trans_lt (x.isLt.trans_le hn)

theorem sound_clearFragment (st : ClearState) : (clearFragment st).Sound where
  color := ⟨component5To6_lt _, component5To6_lt _, component5To6_lt _,
    toNat_setWidth8_lt _ (by decide)⟩
  depth := dsDepth15To24_lt _
  opaquePolyID := toNat_setWidth8_lt _ (by decide)

/-- The sizes that the clear image is scaled to without leaving its buffers. -/
def ScalesImage (fb : Framebuffer) : Prop := fb.width ≤ 4096 ∧ fb.height ≤ 3547

theorem sound_clearFramebuffer {fb : Framebuffer} {st : ClearState}
    (hsize : st.enableClearImage = true → ScalesImage fb) {i : ℕ} (hi : i < fb.width * fb.height) :
    ∃ p, clearFramebuffer fb st i = some p ∧ p.Sound := by
  rw [clearFramebuffer, if_pos hi]
  have hwidth : 0 < fb.width := Nat.pos_of_mul_pos_right (Nat.zero_lt_of_lt hi)
  have hheight : 0 < fb.height := Nat.pos_of_mul_pos_left (Nat.zero_lt_of_lt hi)
  split_ifs with himage
  · obtain ⟨hw, hh⟩ := hsize himage
    have hx : nativePlace 256 fb.width (i % fb.width) < 256 := by
      refine nativePlace_lt ?_ (Nat.mod_lt i hwidth)
      exact hw.trans ((Nat.le_div_iff_mul_le hwidth).mpr (Nat.mul_le_mul_left 4096 hw))
    have hy : nativePlace 192 fb.height (i / fb.width) < 192 := by
      refine nativePlace_lt ?_ (Nat.div_lt_of_lt_mul hi)
      exact hh.trans ((Nat.le_div_iff_mul_le hheight).mpr ((Nat.mul_le_mul_left 3547 hh).trans
        (by decide)))
    generalize nativePlace 256 fb.width (i % fb.width) = x at hx ⊢
    generalize nativePlace 192 fb.height (i / fb.width) = y at hy ⊢
    have hdiv : (y * 256 + x) / 256 = y := by omega
    have hmod : (y * 256 + x) % 256 = x := by omega
    rw [clearImage, if_pos (by omega), hdiv, hmod]
    dsimp only
    rw [dif_pos (clearImageSource_lt st hy hx)]
    refine ⟨_, rfl, ⟨rgb15To6665_lt _, rgb15To6665_lt _, rgb15To6665_lt _, ?_⟩, dsDepth15To24_lt _,
      (sound_clearFragment st).opaquePolyID⟩
    dsimp only
    generalize st.clearColorBuffer _ = color
    have hbit : (color >>> 15).toNat ≤ 1 := by
      rw [BitVec.toNat_ushiftRight, Nat.shiftRight_eq_div_pow]
      have := color.isLt
      omega
    generalize color >>> 15 = bit at hbit
    rw [BitVec.toNat_mul, BitVec.toNat_setWidth]
    change (bit.toNat % 2 ^ 8 * 31) % 2 ^ 8 < 32
    obtain h | h : bit.toNat = 0 ∨ bit.toNat = 1 := by omega
    · rw [h]
      decide
    · rw [h]
      decide
  · exact ⟨_, rfl, sound_clearFragment st⟩

/-! ### Edge marking and fog -/

/-- `SoftRasterizerPostProcessParams` but for the lines, with the tables of the renderer. -/
structure PostProcessParams where
  enableEdgeMarking : Bool
  enableFog : Bool
  fogColor : BitVec 32
  fogAlphaOnly : Bool
  enableAlphaBlending : Bool
  edgeMarkDisabled : Fin 8 → Bool
  edgeMarkTable : Fin 8 → FragmentColor
  fogTable : List (BitVec 8)
  fogTable_length : fogTable.length = 32768

/-- `UpdateEdgeMarkColorTable`. -/
def updateEdgeMarkColorTable (enableAntialiasing : Bool) (edgeMarkColorTable : Fin 8 → BitVec 16)
    (i : Fin 8) : FragmentColor :=
  let col := edgeMarkColorTable i
  ⟨component5To6 (col.extractLsb' 0 5), component5To6 (col.extractLsb' 5 5),
    component5To6 (col.extractLsb' 10 5), if enableAntialiasing then 0x10 else 0x1F⟩

def edgeTableAt {α : Type*} (table : Fin 8 → α) (k : ℕ) : Option α :=
  if h : k < 8 then some (table ⟨k, h⟩) else none

section PostProcess

variable (param : PostProcessParams) (fb : Framebuffer) (frame : Frame) (x y : ℕ)

/-- `PIXOFFSET`, from the place of the pixel. -/
def pixOffset (dx dy : ℤ) : ℕ := u64 ((y * fb.width + x : ℕ) + (dx + fb.width * dy))

/-- `ISEDGE`. A column or a row before the first one is a very large one. -/
def isEdge (p : FramePixel) (dx dy : ℤ) : Option Bool :=
  if u64 (x + dx) < fb.width ∧ u64 (y + dy) < fb.height then
    (frame (pixOffset fb x y dx dy)).map fun q =>
      p.opaquePolyID ≠ q.opaquePolyID && q.depth ≤ p.depth
  else some false

/-- `DRAWEDGE`. -/
def drawEdge (dstColor : FragmentColor) (dx dy : ℤ) : Option FragmentColor := do
  let q ← frame (pixOffset fb x y dx dy)
  let edgeColor ← edgeTableAt param.edgeMarkTable (q.opaquePolyID.toNat >>> 3)
  return alphaBlend param.enableAlphaBlending dstColor edgeColor

def edgeMark (p : FramePixel) (dstColor : FragmentColor) : Option FragmentColor := do
  let disabled ← edgeTableAt param.edgeMarkDisabled (p.opaquePolyID.toNat >>> 3)
  if disabled || p.isTranslucentPoly then return dstColor
  else
    let up ← isEdge fb frame x y p 0 (-1)
    let left ← isEdge fb frame x y p (-1) 0
    let right ← isEdge fb frame x y p 1 0
    let down ← isEdge fb frame x y p 0 1
    if right then drawEdge param fb frame x y dstColor 1 0
    else if down then drawEdge param fb frame x y dstColor 0 1
    else if left then drawEdge param fb frame x y dstColor (-1) 0
    else if up then drawEdge param fb frame x y dstColor 0 (-1)
    else return dstColor

/-- A component under the fog, as the `u32` that it is computed in. -/
def fogComponent (fog component : BitVec 8) (fogColor : BitVec 5) : BitVec 8 :=
  (((128 - fog.setWidth 32) * component.setWidth 32 +
    (component5To6 fogColor).setWidth 32 * fog.setWidth 32) >>> 7).setWidth 8

def fogAlpha (fog a : BitVec 8) : BitVec 8 :=
  (((128 - fog.setWidth 32) * a.setWidth 32 +
    (param.fogColor.extractLsb' 16 5).setWidth 32 * fog.setWidth 32) >>> 7).setWidth 8

def applyFog (p : FramePixel) (c : FragmentColor) : Option FragmentColor := do
  -- the assertion on `fogIndex`
  let density ← param.fogTable[(p.depth >>> 9).toNat]?
  let fog := if p.isFogged then density else 0
  if param.fogAlphaOnly then return { c with a := fogAlpha param fog c.a }
  else
    return ⟨fogComponent fog c.r (param.fogColor.extractLsb' 0 5),
      fogComponent fog c.g (param.fogColor.extractLsb' 5 5),
      fogComponent fog c.b (param.fogColor.extractLsb' 10 5), fogAlpha param fog c.a⟩

/-- The body of `RenderEdgeMarkingAndFog` for a pixel. It reads the attributes of the frame and writes
the colour of this pixel only. -/
def renderEdgeMarkingAndFog (dstColor : FragmentColor) : Option FragmentColor := do
  let p ← frame (y * fb.width + x)
  let c ← if param.enableEdgeMarking then edgeMark param fb frame x y p dstColor else some dstColor
  if param.enableFog then applyFog param p c else some c

end PostProcess

/-- Every place of the framebuffer holds a pixel. -/
def Frame.Sound (fb : Framebuffer) (frame : Frame) : Prop :=
  ∀ i < fb.width * fb.height, ∃ p, frame i = some p ∧ p.Sound

section PostProcess

variable {param : PostProcessParams} {fb : Framebuffer} {frame : Frame} {x y : ℕ} {dx dy : ℤ}

/-- What passes the tests of `ISEDGE` is a neighbour on the frame. -/
theorem pixOffset_lt (hx : u64 (x + dx) < fb.width) (hy : u64 (y + dy) < fb.height) :
    pixOffset fb x y dx dy < fb.width * fb.height := by
  have hlt : u64 (y + dy) * fb.width + u64 (x + dx) < fb.width * fb.height :=
    calc u64 (y + dy) * fb.width + u64 (x + dx) < u64 (y + dy) * fb.width + fb.width := by omega
      _ = (u64 (y + dy) + 1) * fb.width := (Nat.succ_mul ..).symm
      _ ≤ fb.height * fb.width := Nat.mul_le_mul_right _ hy
      _ = fb.width * fb.height := Nat.mul_comm ..
  have hcol : (x + dx : ℤ) ≡ u64 (x + dx) [ZMOD 2 ^ 64] := by
    rw [u64, Int.toNat_of_nonneg (Int.emod_nonneg _ (by decide))]
    exact (Int.mod_modEq _ _).symm
  have hrow : (y + dy : ℤ) ≡ u64 (y + dy) [ZMOD 2 ^ 64] := by
    rw [u64, Int.toNat_of_nonneg (Int.emod_nonneg _ (by decide))]
    exact (Int.mod_modEq _ _).symm
  have hsum : (((y * fb.width + x : ℕ) : ℤ) + (dx + fb.width * dy)) % 2 ^ 64 =
      (u64 (y + dy) * fb.width + u64 (x + dx) : ℕ) % 2 ^ 64 := by
    have hmod := (hrow.mul_right (fb.width : ℤ)).add hcol
    rw [Int.ModEq] at hmod
    rw [Nat.cast_add, Nat.cast_add, Nat.cast_mul, Nat.cast_mul, ← hmod]
    congr 1
    ring
  have hfits := fb.fits.2.2
  rw [pixOffset, u64, hsum, Int.emod_eq_of_lt (Int.natCast_nonneg _) (by omega), Int.toNat_natCast]
  exact hlt

theorem exists_isEdge (h : frame.Sound fb) (p : FramePixel) (dx dy : ℤ) :
    ∃ edge, isEdge fb frame x y p dx dy = some edge ∧
      (edge = true → u64 (x + dx) < fb.width ∧ u64 (y + dy) < fb.height) := by
  rw [isEdge]
  split_ifs with hinside
  · obtain ⟨q, hq, -⟩ := h _ (pixOffset_lt hinside.1 hinside.2)
    rw [hq]
    exact ⟨_, rfl, fun _ => hinside⟩
  · exact ⟨false, rfl, fun h => absurd h Bool.false_ne_true⟩

theorem exists_edgeTableAt {α : Type*} (table : Fin 8 → α) {id : BitVec 8} (h : id.toNat < 64) :
    ∃ a, edgeTableAt table (id.toNat >>> 3) = some a := by
  have hlt : id.toNat >>> 3 < 8 := by
    rw [Nat.shiftRight_eq_div_pow]
    omega
  exact ⟨_, dif_pos hlt⟩

theorem exists_drawEdge (param : PostProcessParams) (h : frame.Sound fb) (c : FragmentColor)
    (hinside : u64 (x + dx) < fb.width ∧ u64 (y + dy) < fb.height) :
    ∃ c', drawEdge param fb frame x y c dx dy = some c' := by
  obtain ⟨q, hq, hsound⟩ := h _ (pixOffset_lt hinside.1 hinside.2)
  obtain ⟨edgeColor, hedge⟩ := exists_edgeTableAt param.edgeMarkTable hsound.opaquePolyID
  rw [drawEdge, hq]
  simp only [Option.bind_eq_bind, Option.bind_some, hedge]
  exact ⟨_, rfl⟩

theorem exists_edgeMark (param : PostProcessParams) (h : frame.Sound fb) {p : FramePixel}
    (hp : p.Sound) (c : FragmentColor) : ∃ c', edgeMark param fb frame x y p c = some c' := by
  obtain ⟨disabled, hdisabled⟩ := exists_edgeTableAt param.edgeMarkDisabled hp.opaquePolyID
  obtain ⟨up, hup, hupIn⟩ := exists_isEdge (x := x) (y := y) h p 0 (-1)
  obtain ⟨left, hleft, hleftIn⟩ := exists_isEdge (x := x) (y := y) h p (-1) 0
  obtain ⟨right, hright, hrightIn⟩ := exists_isEdge (x := x) (y := y) h p 1 0
  obtain ⟨down, hdown, hdownIn⟩ := exists_isEdge (x := x) (y := y) h p 0 1
  rw [edgeMark, hdisabled]
  simp only [Option.bind_eq_bind, Option.bind_some, hup, hleft, hright, hdown]
  split_ifs with hoff hr hd hl hu
  · exact ⟨c, rfl⟩
  · exact exists_drawEdge param h c (hrightIn hr)
  · exact exists_drawEdge param h c (hdownIn hd)
  · exact exists_drawEdge param h c (hleftIn hl)
  · exact exists_drawEdge param h c (hupIn hu)
  · exact ⟨c, rfl⟩

theorem exists_applyFog (param : PostProcessParams) {p : FramePixel} (hp : p.Sound)
    (c : FragmentColor) : ∃ c', applyFog param p c = some c' := by
  have hlt : (p.depth >>> 9).toNat < param.fogTable.length := by
    rw [BitVec.toNat_ushiftRight, Nat.shiftRight_eq_div_pow, param.fogTable_length]
    have := hp.depth
    omega
  rw [applyFog, List.getElem?_eq_getElem hlt]
  simp only [Option.bind_eq_bind, Option.bind_some]
  split_ifs <;> exact ⟨_, rfl⟩

/-- The edge marking and the fog read no table and no neighbour out of bounds. -/
theorem exists_renderEdgeMarkingAndFog (param : PostProcessParams) (h : frame.Sound fb)
    (hi : y * fb.width + x < fb.width * fb.height) (c : FragmentColor) :
    ∃ c', renderEdgeMarkingAndFog param fb frame x y c = some c' := by
  obtain ⟨p, hp, hsound⟩ := h _ hi
  rw [renderEdgeMarkingAndFog, hp]
  simp only [Option.bind_eq_bind, Option.bind_some]
  have hfog (c : FragmentColor) :
      ∃ c', (if param.enableFog = true then applyFog param p c else some c) = some c' := by
    split_ifs
    · exact exists_applyFog param hsound c
    · exact ⟨c, rfl⟩
  by_cases hedge : param.enableEdgeMarking = true
  · obtain ⟨c', hc'⟩ := exists_edgeMark param (x := x) (y := y) h hsound c
    rw [if_pos hedge, hc', Option.bind_some]
    exact hfog c'
  · rw [if_neg hedge]
    exact hfog c

end PostProcess

end Desmume.Raster
