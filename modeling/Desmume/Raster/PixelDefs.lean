import Desmume.Library.PartialRun
import Desmume.Video.FinalColor

/-! A pixel of the software rasterizer: the depth test, the shader with its tables, the alpha test and
the write. The interpolation is done on floats; a fragment carries the integers that it is floored to. A
read outside of a table has no result. -/

namespace Desmume.Raster
open Library Video

/-- Six bits a component and five of alpha. -/
structure Is6665 (c : FragmentColor) : Prop where
  r : c.r.toNat < 64
  g : c.g.toNat < 64
  b : c.b.toNat < 64
  a : c.a.toNat < 32

/-- `PolygonMode`. -/
inductive PolygonMode where
  | modulate | decal | toonHighlight | shadow
  deriving DecidableEq

/-- The members of `PolygonAttributes` that a fragment is drawn by. -/
structure PolygonAttributes where
  polygonMode : PolygonMode
  enableAlphaDepthWrite : Bool
  enableDepthEqualTest : Bool
  enableRenderFog : Bool
  isTranslucent : Bool
  alpha : BitVec 5
  polygonID : BitVec 6
  deriving DecidableEq

def TEXMODE_A3I5 : BitVec 3 := 1
def TEXMODE_A5I3 : BitVec 3 := 6

/-- `POLY::getAttributes`. -/
def getAttributes (polyAttr texParam : BitVec 32) : PolygonAttributes :=
  let alpha := polyAttr.extractLsb' 16 5
  let texFormat := texParam.extractLsb' 26 3
  { polygonMode :=
      if polyAttr.extractLsb' 4 2 = 0 then .modulate
      else if polyAttr.extractLsb' 4 2 = 1 then .decal
      else if polyAttr.extractLsb' 4 2 = 2 then .toonHighlight
      else .shadow
    enableAlphaDepthWrite := polyAttr.getLsbD 11
    enableDepthEqualTest := polyAttr.getLsbD 14
    enableRenderFog := polyAttr.getLsbD 15
    isTranslucent := (alpha ≠ 0 ∧ alpha ≠ 31) ∨ texFormat = TEXMODE_A3I5 ∨ texFormat = TEXMODE_A5I3
    alpha
    polygonID := polyAttr.extractLsb' 24 6 }

/-- The members of `GFX3D_State` that the pixels depend on. -/
structure RenderState where
  wbuffer : Bool
  enableTexturing : Bool
  enableAlphaTest : Bool
  alphaTestRef : BitVec 5
  enableAlphaBlending : Bool
  highlight : Bool

/-- `max` and `min` of unsigned values. -/
def umax {n : ℕ} (x y : BitVec n) : BitVec n := if x < y then y else x
def umin {n : ℕ} (x y : BitVec n) : BitVec n := if y < x then y else x

/-! ### The texture -/

/-- `Sampler`. -/
structure Sampler where
  enabled : Bool
  wshift : ℕ
  width : BitVec 32
  height : BitVec 32
  wrap : BitVec 4

def Sampler.setup (enableTexturing : Bool) (texParam : BitVec 32) : Sampler where
  enabled := enableTexturing && texParam.extractLsb' 26 3 ≠ 0
  wshift := (texParam.extractLsb' 20 3).toNat + 3
  width := 1#32 <<< ((texParam.extractLsb' 20 3).toNat + 3)
  height := 8#32 <<< (texParam.extractLsb' 23 3).toNat
  wrap := texParam.extractLsb' 16 4

section Wrap

variable (size val : BitVec 32)

def clamp : BitVec 32 :=
  let val := if val.slt 0 then 0 else val
  if (size - 1).slt val then size - 1 else val

def repeatVal : BitVec 32 := val &&& (size - 1)

def flip : BitVec 32 :=
  let val := val &&& ((size <<< 1) - 1)
  if size.sle val then (size <<< 1) - val - 1 else val

/-- The cases of `dowrap` along one axis: the bits for the repetition and for the flip. -/
def wrapAxis (repeats flips : Bool) : BitVec 32 :=
  if !repeats then clamp size val else if flips then flip size val else repeatVal size val

end Wrap

namespace Sampler

variable (s : Sampler)

/-- `dowrap`. -/
def dowrap (iu iv : BitVec 32) : BitVec 32 × BitVec 32 :=
  (wrapAxis s.width iu (s.wrap.getLsbD 0) (s.wrap.getLsbD 2),
    wrapAxis s.height iv (s.wrap.getLsbD 1) (s.wrap.getLsbD 3))

/-- The place in `decoded` that `sample` reads. -/
def texelIndex (iu iv : BitVec 32) : ℕ :=
  (s.dowrap iu iv).2.toNat * 2 ^ s.wshift + (s.dowrap iu iv).1.toNat

end Sampler

/-- A texture as the cache decodes it for the rasterizer, with the size that its parameters name. -/
structure Texture (texParam : BitVec 32) where
  decoded : List FragmentColor
  length_eq : decoded.length =
    2 ^ ((texParam.extractLsb' 20 3).toNat + 3) * 2 ^ ((texParam.extractLsb' 23 3).toNat + 3)
  is6665 : ∀ c ∈ decoded, Is6665 c

/-! ### The shader -/

/-- `GFX3D_5TO6`. -/
def gfx3d5To6 (x : BitVec 8) : ℕ := if x ≠ 0 then 2 * x.toNat + 1 else 0

def modulateTable (i j : ℕ) : Option (BitVec 8) :=
  if i < 64 ∧ j < 64 then some (BitVec.ofNat 8 (((i + 1) * (j + 1) - 1) / 64)) else none

def decalTable (a i j : ℕ) : Option (BitVec 8) :=
  if a < 32 ∧ i < 64 ∧ j < 64 then some (BitVec.ofNat 8 ((i * a + j * (31 - a)) / 32)) else none

/-- `RGB15TO32_NOALPHA` and the conversion of `UpdateToonTable`: six bits from five. -/
def toonComponent (x : BitVec 5) : BitVec 8 :=
  (((x.setWidth 8 <<< 3) ||| (x.setWidth 8 >>> 2)) >>> 2) &&& 0x3F

/-- `toonColor32LUT`. -/
def toonColor32LUT (u16ToonTable : Fin 32 → BitVec 16) (i : BitVec 8) : Option FragmentColor :=
  if h : i.toNat < 32 then
    let col := u16ToonTable ⟨i.toNat, h⟩
    some ⟨toonComponent (col.extractLsb' 0 5), toonComponent (col.extractLsb' 5 5),
      toonComponent (col.extractLsb' 10 5), 0⟩
  else none

/-- What `pixel` is called with. -/
structure Fragment where
  polyAttr : PolygonAttributes
  texParam : BitVec 32
  lastTexKey : Texture texParam
  /-- The floors of the products with `w` and with `z`. -/
  floorW : BitVec 32
  floorZ : BitVec 32
  /-- The floors of the components, and of the texture coordinates. -/
  r : BitVec 32
  g : BitVec 32
  b : BitVec 32
  iu : BitVec 32
  iv : BitVec 32

section Shade

variable (st : RenderState) (u16ToonTable : Fin 32 → BitVec 16) (f : Fragment)

def isShadowPolygon : Bool := f.polyAttr.polygonMode = .shadow

def clampComponent (x : BitVec 32) : BitVec 8 := BitVec.ofNat 8 (min 0x3F x.toNat)

def srcColor : FragmentColor :=
  ⟨clampComponent f.r, clampComponent f.g, clampComponent f.b, f.polyAttr.alpha.setWidth 8⟩

def colorWhite : FragmentColor := ⟨0x3F, 0x3F, 0x3F, 0x1F⟩

def sampler : Sampler := Sampler.setup st.enableTexturing f.texParam

/-- `sample`. -/
def sample : Option FragmentColor := f.lastTexKey.decoded[(sampler st f).texelIndex f.iu f.iv]?

def mainTexColor : Option FragmentColor :=
  if (sampler st f).enabled then sample st f else some colorWhite

/-- A component by `modulate_table`, and the alpha. -/
def modulated (c c' : BitVec 8) : Option (BitVec 8) := modulateTable c.toNat c'.toNat

def modulatedAlpha (a a' : BitVec 8) : Option (BitVec 8) :=
  (modulateTable (gfx3d5To6 a) (gfx3d5To6 a')).map fun x : BitVec 8 => x >>> 1

def addSaturated (x y : BitVec 8) : BitVec 8 := umin 0x3F (x + y)

def shade : Option FragmentColor := do
  let main ← mainTexColor st f
  let src := srcColor f
  match f.polyAttr.polygonMode with
  | .modulate =>
    return ⟨← modulated main.r src.r, ← modulated main.g src.g, ← modulated main.b src.b,
      ← modulatedAlpha main.a src.a⟩
  | .decal =>
    if (sampler st f).enabled then
      let decal (c c' : BitVec 8) := decalTable main.a.toNat c.toNat c'.toNat
      return ⟨← decal main.r src.r, ← decal main.g src.g, ← decal main.b src.b, src.a⟩
    else return src
  | .toonHighlight =>
    let toon ← toonColor32LUT u16ToonTable (src.r >>> 1)
    if st.highlight then
      return ⟨addSaturated (← modulated main.r src.r) toon.r,
        addSaturated (← modulated main.g src.r) toon.g,
        addSaturated (← modulated main.b src.r) toon.b, ← modulatedAlpha main.a src.a⟩
    else
      return ⟨← modulated main.r toon.r, ← modulated main.g toon.g, ← modulated main.b toon.b,
        ← modulatedAlpha main.a src.a⟩
  | .shadow => return src

end Shade

/-! ### The pixel -/

/-- `FragmentAttributes` and the colour at one place of the framebuffer. -/
structure FramePixel where
  color : FragmentColor
  depth : BitVec 32
  opaquePolyID : BitVec 8
  translucentPolyID : BitVec 8
  stencil : BitVec 8
  isFogged : Bool
  isTranslucentPoly : Bool

def alphaBlend (enableAlphaBlending : Bool) (dst src : FragmentColor) : FragmentColor :=
  if src.a = 0 then dst
  else if src.a = 31 ∨ dst.a = 0 ∨ enableAlphaBlending = false then src
  else
    let alpha := src.a + 1
    let invAlpha := 32 - alpha
    let mix (s d : BitVec 8) : BitVec 8 :=
      BitVec.ofNat 8 ((alpha.toNat * s.toNat + invAlpha.toNat * d.toNat) / 32)
    ⟨mix src.r dst.r, mix src.g dst.g, mix src.b dst.b, umax src.a dst.a⟩

/-- `DS_DEPTH15TO24`. -/
def dsDepth15To24 (depth : BitVec 32) : BitVec 32 :=
  let i := depth &&& 0x7FFF
  i * 0x200 + ((i + 1) >>> 15) * 0x01FF

section Pixel

variable (st : RenderState) (u16ToonTable : Fin 32 → BitVec 16) (f : Fragment) (p : FramePixel)

def newDepth : BitVec 32 :=
  if st.wbuffer then f.floorW else dsDepth15To24 f.floorZ &&& 0x00FFFFFC

def SOFTRASTERIZER_DEPTH_EQUAL_TEST_TOLERANCE : BitVec 32 := 0x200

/-- The fragment passes the depth test. -/
def depthTest : Bool :=
  if f.polyAttr.enableDepthEqualTest then
    let minDepth := umax 0 (p.depth - SOFTRASTERIZER_DEPTH_EQUAL_TEST_TOLERANCE)
    let maxDepth := umin 0x00FFFFFF (p.depth + SOFTRASTERIZER_DEPTH_EQUAL_TEST_TOLERANCE)
    !(newDepth st f < minDepth ∨ newDepth st f > maxDepth)
  else newDepth st f < p.depth

/-- What becomes of a fragment: where the jumps of `pixel` lead, or the colour that is written. -/
inductive Fate where
  | depthFail
  | rejected
  | opaquePixel (c : FragmentColor)
  | blended (c : FragmentColor)

def shadowRejected : Bool :=
  isShadowPolygon f && (f.polyAttr.polygonID = 0 || p.stencil = 0 ||
    p.opaquePolyID = f.polyAttr.polygonID.setWidth 8)

def fate : Option Fate :=
  if !depthTest st f p then some .depthFail
  else if shadowRejected f p then some .rejected
  else
    (shade st u16ToonTable f).map fun out =>
      if out.a = 0 ∨ (st.enableAlphaTest = true ∧ out.a < st.alphaTestRef.setWidth 8) then .rejected
      else if out.a = 0x1F then .opaquePixel out
      else if p.translucentPolyID = f.polyAttr.polygonID.setWidth 8 then .rejected
      else .blended out

/-- The count of the failed shadow masks, as every fragment leaves it. -/
def stencilAfter (failed : Bool) : BitVec 8 :=
  let stencil :=
    if failed ∧ isShadowPolygon f = true ∧ f.polyAttr.polygonID = 0 then p.stencil + 1 else p.stencil
  if isShadowPolygon f = true ∧ f.polyAttr.polygonID ≠ 0 ∧ stencil ≠ 0 then stencil - 1 else stencil

/-- The writes. -/
def settle : Fate → FramePixel
  | .depthFail => { p with stencil := stencilAfter f p true }
  | .rejected => { p with stencil := stencilAfter f p false }
  | .opaquePixel c =>
    { p with
      color := c
      depth := newDepth st f
      opaquePolyID := f.polyAttr.polygonID.setWidth 8
      stencil := stencilAfter f p false
      isFogged := f.polyAttr.enableRenderFog
      isTranslucentPoly := f.polyAttr.isTranslucent }
  | .blended c =>
    { p with
      color := alphaBlend st.enableAlphaBlending p.color c
      depth := if f.polyAttr.enableAlphaDepthWrite then newDepth st f else p.depth
      translucentPolyID := f.polyAttr.polygonID.setWidth 8
      stencil := stencilAfter f p false
      isFogged := p.isFogged && f.polyAttr.enableRenderFog }

def pixel : Option FramePixel := (fate st u16ToonTable f p).map (settle st f p)

end Pixel

end Desmume.Raster
