import Desmume.Library.Literals
import Mathlib.Data.Fin.Basic
import Mathlib.Data.Nat.Basic

/-! The colour of one output pixel: the colour effects, the windows, and the functions that put a
pixel of the 3D layer, of a background and of a sprite over what is there. -/

namespace Desmume.Video

/-- `COLOR`: five bits a component and a top bit. -/
abbrev Color := BitVec 16

namespace Color

def red (c : Color) : ℕ := (c.extractLsb' 0 5).toNat
def green (c : Color) : ℕ := (c.extractLsb' 5 5).toNat
def blue (c : Color) : ℕ := (c.extractLsb' 10 5).toNat

/-- The colour bits. -/
def low15 (c : Color) : BitVec 15 := c.setWidth 15

end Color

def rgb (r g b : ℕ) : Color :=
  (BitVec.ofNat 5 r).setWidth 16 ||| ((BitVec.ofNat 5 g).setWidth 16 <<< 5) |||
    ((BitVec.ofNat 5 b).setWidth 16 <<< 10)

/-- A function of the components. -/
def mapColor (f : ℕ → ℕ) (c : Color) : Color := rgb (f c.red) (f c.green) (f c.blue)

/-- `_fadeInColors` and `_fadeOutColors`. -/
def fadeIn (evy : Fin 17) : Color → Color := mapColor fun v => v + (31 - v) * evy / 16
def fadeOut (evy : Fin 17) : Color → Color := mapColor fun v => v - v * evy / 16

/-- `_blendTable555`. -/
def blendTable555 (eva evb : ℕ) (c0 c1 : ℕ) : ℕ := min 31 ((c0 * eva + c1 * evb) / 16)

/-- `_FinalColorBlendFunc`. -/
def finalColorBlend (eva evb : ℕ) (colA colB : Color) : Color :=
  rgb (blendTable555 eva evb colA.red colB.red) (blendTable555 eva evb colA.green colB.green)
    (blendTable555 eva evb colA.blue colB.blue)

/-- `GPULayerID`. -/
inductive LayerID where
  | bg (n : Fin 4)
  | obj
  | none
  deriving DecidableEq

def LayerID.index : LayerID → ℕ
  | .bg n => n
  | .obj => 4
  | .none => 5

inductive BlendFunc where
  | noBlend | blend | increase | decrease
  deriving DecidableEq

/-- The registers of the colour effects. -/
structure Effects where
  BLDCNT : BitVec 16
  EVA : Fin 17
  EVB : Fin 17
  EVY : Fin 17

namespace Effects

variable (e : Effects)

/-- The mode of `_BLDCNT`. -/
def func : BlendFunc :=
  match e.BLDCNT.getLsbD 7, e.BLDCNT.getLsbD 6 with
  | false, false => .noBlend
  | false, true => .blend
  | true, false => .increase
  | true, true => .decrease

/-- A layer is a first target, or a second target (`_blend2`). -/
def blend1 (layer : LayerID) : Bool := e.BLDCNT.getLsbD layer.index

def blend2 (layer : LayerID) : Bool := e.BLDCNT.getLsbD (8 + layer.index)

/-- What the two brightness functions do to a colour. -/
def fade (func : BlendFunc) (c : Color) : Color :=
  match func with
  | .increase => fadeIn e.EVY c
  | .decrease => fadeOut e.EVY c
  | .noBlend | .blend => c

end Effects

/-- The enables and the masks of the windows. -/
structure WindowRegs where
  WIN0_ENABLED : Bool
  WIN1_ENABLED : Bool
  WINOBJ_ENABLED : Bool
  WININ0 : BitVec 5
  WININ0_SPECIAL : Bool
  WININ1 : BitVec 5
  WININ1_SPECIAL : Bool
  WINOUT : BitVec 5
  WINOUT_SPECIAL : Bool
  WINOBJ : BitVec 5
  WINOBJ_SPECIAL : Bool

/-- `windowUsed` of `SetupFinalPixelBlitter`. -/
def WindowRegs.used (w : WindowRegs) : Bool := w.WIN0_ENABLED || w.WIN1_ENABLED || w.WINOBJ_ENABLED

/-- The windows of a line: the registers, and the columns inside windows 0 and 1. -/
structure Windows extends WindowRegs where
  currWin : Fin 2 → Fin 256 → Bool

/-- `_RenderLine_CheckWindows`: whether a column is drawn and has effects. -/
def checkWindows (w : Windows) (sprWin : Fin 256 → Bool) (layer : LayerID) (srcX : Fin 256)
    (draw effect : Bool) : Bool × Bool :=
  if w.currWin 0 srcX then (w.WININ0.getLsbD layer.index, w.WININ0_SPECIAL)
  else if w.currWin 1 srcX then (w.WININ1.getLsbD layer.index, w.WININ1_SPECIAL)
  else if w.WINOBJ_ENABLED && sprWin srcX then (w.WINOBJ.getLsbD layer.index, w.WINOBJ_SPECIAL)
  else if w.used then (w.WINOUT.getLsbD layer.index, w.WINOUT_SPECIAL)
  else (draw, effect)

/-- A pixel of `dstLine` and of `_bgPixels`. -/
structure Pixel where
  color : Color
  under : LayerID
  deriving DecidableEq

structure FragmentColor where
  r : BitVec 8
  g : BitVec 8
  b : BitVec 8
  a : BitVec 8

/-- `R6G6B6TORGB15`. -/
def FragmentColor.toRgb15 (src : FragmentColor) : Color :=
  (src.r.setWidth 16 >>> 1) ||| ((src.g.setWidth 16 &&& 0x3E) <<< 4) |||
    ((src.b.setWidth 16 &&& 0x3E) <<< 9)

/-- A component of a translucent fragment over one of the line. -/
def blend3d (src : BitVec 8) (alpha : BitVec 8) (dst : ℕ) : ℕ :=
  (src.toNat * alpha.toNat + dst * 2 * (32 - alpha.toNat)) / 64

section MasterSetFinal

variable (e : Effects) (w : Windows) (sprWin : Fin 256 → Bool) (func : BlendFunc)
  (window blend1 : Bool) (srcX : Fin 256)

/-- `_master_setFinal3dColor`. -/
def setFinal3dColor (layer : LayerID) (src : FragmentColor) (p : Pixel) : Pixel :=
  let (windowDraw, windowEffect) :=
    if window then checkWindows w sprWin layer srcX false blend1 else (true, blend1)
  if !windowDraw then p
  else
    let final :=
      if e.blend2 p.under then
        let alpha := src.a + 1
        if alpha < 32 then
          rgb (blend3d src.r alpha p.color.red) (blend3d src.g alpha p.color.green)
            (blend3d src.b alpha p.color.blue)
        else src.toRgb15
      else if windowEffect then
        match func with
        | .increase | .decrease => e.fade func (src.toRgb15 &&& 0x7FFF)
        | .noBlend | .blend => src.toRgb15
      else src.toRgb15
    ⟨final ||| 0x8000, layer⟩

/-- `_master_setFinalBGColor`: the colour to draw, if any. -/
def masterSetFinalBGColor (layer : LayerID) (backdrop : Bool) (outColor : Color) (p : Pixel) :
    Option Color :=
  if func = .noBlend ∧ backdrop = true then some outColor
  else if func = .blend ∧ backdrop = true then some outColor
  else
    let (windowDraw, windowEffect) :=
      if window then checkWindows w sprWin layer srcX false true else (true, true)
    let windowDraw := windowDraw || backdrop
    if !windowDraw then none
    else if !(blend1 && windowEffect) then some outColor
    else
      match func with
      | .blend => some (if e.blend2 p.under then finalColorBlend e.EVA e.EVB outColor p.color
          else outColor)
      | .increase | .decrease => some (e.fade func outColor)
      | .noBlend => some outColor

/-- `_SetFinalColorBG`: the backdrop is always drawn, and leaves `_bgPixels`. -/
def setFinalColorBG (layer : LayerID) (backdrop : Bool) (src : Color) (p : Pixel) : Pixel :=
  let src := if backdrop then src else src &&& 0x7FFF
  match masterSetFinalBGColor e w sprWin func window blend1 srcX layer backdrop src p with
  | some c => ⟨c ||| 0x8000, if backdrop then p.under else layer⟩
  | none => if backdrop then ⟨src ||| 0x8000, p.under⟩ else p

/-- `GPU_OBJ_MODE_Transparent` and `GPU_OBJ_MODE_Bitmap`. -/
def isObjTranslucentType (type : BitVec 8) : Bool := type = 1 || type = 3

/-- `_master_setFinalOBJColor`. -/
def setFinalOBJColor (src : Color) (alpha type : BitVec 8) (p : Pixel) : Pixel :=
  let (windowDraw, windowEffectSatisfied) :=
    if window then checkWindows w sprWin .obj srcX true true else (true, true)
  if !windowDraw then p
  else
    let finalDstColor :=
      if windowEffectSatisfied then
        let secondTarget := p.under ≠ .obj ∧ e.blend2 p.under = true
        let selected :=
          if func = .blend then if blend1 ∧ secondTarget then BlendFunc.blend else .noBlend
          else if blend1 then func else .noBlend
        if isObjTranslucentType type ∧ secondTarget then
          if alpha ≠ 255 then finalColorBlend alpha.toNat (16 - alpha.toNat) src p.color
          else finalColorBlend e.EVA e.EVB src p.color
        else
          match selected with
          | .noBlend => src
          | .increase | .decrease => e.fade selected (src &&& 0x7FFF)
          | .blend => finalColorBlend e.EVA e.EVB src p.color
      else src
    ⟨finalDstColor ||| 0x8000, .obj⟩

end MasterSetFinal

end Desmume.Video
