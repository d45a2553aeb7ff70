import Desmume.Library.BitFields
import Desmume.Video.LineDefs
import Desmume.Vram.VramDefs
import Mathlib.Data.Fin.VecNotation

/-! The scanlines of an engine: what a line reads and what it leaves behind, the early exit for a line
that the master brightness makes all white or all black, and the memory as the renderers see it: VRAM
through the pages of the ARM9, and the palettes. -/

namespace Desmume.Video
open Library Vram

inductive EngineID where
  | main | sub
  deriving DecidableEq

inductive DisplayMode where
  | off | normal | vram | mainMemory
  deriving DecidableEq

inductive MasterBrightMode where
  | disable | up | down | reserved
  deriving DecidableEq

/-- `BGType`, as far as `_ModeRender` tells them apart. -/
inductive BGType where
  | invalid | text | affine | affineExt | large8bpp
  deriving DecidableEq

/-- `_mode2type`. -/
def mode2type : Fin 8 → Fin 4 → BGType :=
  ![![.text, .text, .text, .text],
    ![.text, .text, .text, .affine],
    ![.text, .text, .affine, .affine],
    ![.text, .text, .text, .affineExt],
    ![.text, .text, .affine, .affineExt],
    ![.text, .text, .affineExt, .affineExt],
    ![.invalid, .invalid, .large8bpp, .invalid],
    ![.invalid, .invalid, .invalid, .invalid]]

/-- The types that have a reference point. -/
def BGType.rotates : BGType → Bool
  | .affine => true
  | .affineExt => true
  | .large8bpp => true
  | .text => false
  | .invalid => false

/-- `BGxX` and `BGxY`. -/
structure RefPoint where
  x : BitVec 32
  y : BitVec 32
  deriving DecidableEq

/-- The registers of a line. -/
structure LineRegs where
  engine : Engine
  effects : Effects
  windows : WindowRegs
  winV : Fin 2 → BitVec 8 × BitVec 8
  dispMode : DisplayMode
  BG_Mode : Fin 8
  Mosaic_Enable : Fin 4 → Bool
  mosaicWidth : Fin 16
  mosaicHeight : Fin 16
  BGxPB : Fin 2 → BitVec 16
  BGxPD : Fin 2 → BitVec 16
  MasterBrightFactor : Fin 32
  MasterBrightMode : MasterBrightMode

/-- The parameters of a background: `BG2PARMS` is 0 and `BG3PARMS` is 1. -/
def bgParams (n : Fin 4) : Fin 2 := if n = 2 then 0 else 1

namespace LineRegs

variable (r : LineRegs)

def bgType (n : Fin 4) : BGType := mode2type r.BG_Mode n

def winEnabled (i : Fin 2) : Bool :=
  if i = 0 then r.windows.WIN0_ENABLED else r.windows.WIN1_ENABLED

end LineRegs

/-! Mosaic. -/

/-- `MosaicLookup`: an entry starts a block, and the entry that its block starts at. -/
def mosaicBegin (value : Fin 16) (i : ℕ) : Bool := i % (value + 1) = 0

def mosaicTrunc (value : Fin 16) (x : Fin 256) : Fin 256 :=
  ⟨x / (value + 1) * (value + 1), (Nat.div_mul_le_self _ _).trans_lt x.isLt⟩

/-- `MosaicColor::Obj`. -/
structure MosaicObj where
  color : Color
  alpha : BitVec 8
  isOpaque : Bool

/-- `___setFinalColorBck`: the mosaic colours, and the colour that is drawn if any. -/
def setFinalColorBck (r : LineRegs) (l : ℕ) (mosaic : Bool) (mosaicColors : Fin 256 → Color)
    (color : Color) (srcX : Fin 256) (isOpaque : Bool) : (Fin 256 → Color) × Option Color :=
  if !mosaic then (mosaicColors, if isOpaque then some color else none)
  else
    let color := if !isOpaque then 0xFFFF else color &&& 0x7FFF
    let color :=
      if mosaicBegin r.mosaicWidth srcX && mosaicBegin r.mosaicHeight l then color
      else mosaicColors (mosaicTrunc r.mosaicWidth srcX)
    (Function.update mosaicColors srcX color, if color ≠ 0xFFFF then some color else none)

/-- What `SpriteRender` makes of a line. A sprite leaves its number only where it has 256 colours
or is a bitmap. -/
structure SpriteLine where
  sprColor : Fin 256 → Color
  sprAlpha : Fin 256 → BitVec 8
  sprType : Fin 256 → BitVec 8
  sprPrio : Fin 256 → BitVec 8
  sprWin : Fin 256 → Bool
  sprNum : Fin 256 → Option (BitVec 8)

/-- The line of the sprites and their mosaic colours. -/
structure SpriteMosaic where
  sprColor : Fin 256 → Color
  sprAlpha : Fin 256 → BitVec 8
  sprPrio : Fin 256 → BitVec 8
  mosaicColors : Fin 256 → MosaicObj

/-- `_MosaicSpriteLinePixel`. -/
def mosaicSpriteLinePixel (r : LineRegs) (l : ℕ) (enableMosaic : Fin 256 → Bool)
    (s : SpriteMosaic) (x : Fin 256) : SpriteMosaic :=
  if !enableMosaic x then s
  else
    let objColor : MosaicObj := ⟨s.sprColor x, s.sprAlpha x, s.sprPrio x ≤ 4⟩
    let objColor :=
      if mosaicBegin r.mosaicWidth x && mosaicBegin r.mosaicHeight l then objColor
      else s.mosaicColors (mosaicTrunc r.mosaicWidth x)
    { mosaicColors := Function.update s.mosaicColors x objColor
      sprColor := Function.update s.sprColor x objColor.color
      sprAlpha := Function.update s.sprAlpha x objColor.alpha
      sprPrio := if !objColor.isOpaque then Function.update s.sprPrio x 0xFF else s.sprPrio }

/-- `_MosaicSpriteLine`. -/
def mosaicSpriteLine (r : LineRegs) (l : ℕ) (enableMosaic : Fin 256 → Bool) (s : SpriteMosaic) :
    SpriteMosaic :=
  if r.mosaicWidth ≠ 0 ∨ r.mosaicHeight ≠ 0 then
    (List.finRange 256).foldl (mosaicSpriteLinePixel r l enableMosaic) s
  else s

/-! The display FIFO. -/

structure DispFifo where
  buf : ℕ → BitVec 32
  head : ℕ
  tail : ℕ

namespace DispFifo

variable (q : DispFifo)

/-- `DISP_FIFOsend`, `DISP_FIFOrecv` and `DISP_FIFOreset`. -/
def send (val : BitVec 32) : DispFifo :=
  { q with
    buf := Function.update q.buf q.tail val
    tail := if q.tail + 1 > 0x5FFF then 0 else q.tail + 1 }

def recv : DispFifo × BitVec 32 :=
  ({ q with head := if q.head + 1 > 0x5FFF then 0 else q.head + 1 }, q.buf q.head)

def reset : DispFifo := { q with head := 0, tail := 0 }

/-- A line of the FIFO: 128 words. -/
def recvLine : DispFifo × (Fin 128 → BitVec 32) :=
  (List.finRange 128).foldl
    (fun a i => (a.1.recv.1, Function.update a.2 i a.1.recv.2)) (q, fun _ => 0)

end DispFifo

/-- The word of a line that a pixel is in. -/
def fifoWord (x : Fin 256) : Fin 128 := ⟨x / 2, by omega⟩

/-- A pixel of the words of a line. -/
def fifoColor (words : Fin 128 → BitVec 32) (x : Fin 256) : Color :=
  (((words (fifoWord x)).extractLsb' (16 * (x % 2)) 16) : Color) &&& 0x7FFF

/-- `_RenderLine_MasterBrightness`, for a pixel. -/
def masterBrightness (r : LineRegs) (c : Color) : Color :=
  if r.MasterBrightFactor = 0 then c
  else
    match r.MasterBrightMode with
    | .disable => c
    | .up =>
      if h : r.MasterBrightFactor.val < 16 then
        fadeIn ⟨r.MasterBrightFactor, h.trans (by omega)⟩ (c &&& 0x7FFF)
      else 0x7FFF
    | .down =>
      if h : r.MasterBrightFactor.val < 16 then
        fadeOut ⟨r.MasterBrightFactor, h.trans (by omega)⟩ (c &&& 0x7FFF)
      else 0
    | .reserved => c

/-! ### Video memory -/

section Memory

/-- The host memory of the VRAM with the pages that are mapped, the palette memory and the pointers to
the extended palettes of an engine. -/
structure GpuMemory where
  vramArm9Map : ℕ → ℕ
  arm9Lcd : ℕ → BitVec 8
  blankMemory : ℕ → BitVec 8
  arm9Vmem : ℕ → BitVec 8
  extPal : Fin 4 → Option HostPtr
  objExtPal : HostPtr

def mmuAbg : ℕ := 0x06000000
def mmuBbg : ℕ := 0x06200000
def mmuAobj : ℕ := 0x06400000
def mmuBobj : ℕ := 0x06600000

/-- `_engineID * ADDRESS_STEP_1KB`. -/
def EngineID.step1KB : EngineID → ℕ
  | .main => 0
  | .sub => 0x400

/-- The nibble of a byte that belongs to a texel. -/
def nibbleOf (x : ℕ) (palette : BitVec 8) : BitVec 8 :=
  if x &&& 1 ≠ 0 then palette >>> 4 else palette &&& 0xF

namespace GpuMemory

variable (m : GpuMemory)

/-- `MMU_gpu_map`, as a place in `ARM9_LCD`. -/
def mmuGpuMap (vramAddr : ℕ) : ℕ :=
  let vramPage := m.vramArm9Map ((vramAddr >>> 14) &&& 511)
  let ofs := vramAddr &&& 0x3FFF
  (vramPage <<< 14) + ofs

/-- A `u8` and a `u16` behind a pointer that `MMU_gpu_map` returns. -/
def lcd8 (place : ℕ) : BitVec 8 := m.arm9Lcd place

def lcd16 (place : ℕ) : BitVec 16 := m.arm9Lcd (place + 1) ++ m.arm9Lcd place

/-- A `u16` behind a host pointer, `ofs` bytes on. -/
def host16 (p : HostPtr) (ofs : ℕ) : BitVec 16 :=
  match p with
  | .arm9Lcd o => m.arm9Lcd (o + ofs + 1) ++ m.arm9Lcd (o + ofs)
  | .blankMemory o => m.blankMemory (o + ofs + 1) ++ m.blankMemory (o + ofs)

/-- A `u16` of the palette memory. -/
def vmem16 (ofs : ℕ) : BitVec 16 := m.arm9Vmem (ofs + 1) ++ m.arm9Vmem ofs

/-- Within a page the host memory follows the addresses. -/
theorem mmuGpuMap_add {a k : ℕ} (h : a % 0x4000 + k < 0x4000) :
    m.mmuGpuMap (a + k) = m.mmuGpuMap a + k := by
  have hpage : (a + k) >>> 14 = a >>> 14 := by
    rw [Nat.shiftRight_eq_div_pow, Nat.shiftRight_eq_div_pow]
    omega
  have hofs (b : ℕ) : b &&& 0x3FFF = b % 2 ^ 14 := and_lowMask b rfl
  rw [mmuGpuMap, mmuGpuMap, hpage, hofs, hofs]
  omega

/-- The memory with other content behind the same pages and pointers. -/
def filled (byte : ℕ → BitVec 8) : GpuMemory := { m with arm9Lcd := byte }

@[simp] theorem mmuGpuMap_filled (byte : ℕ → BitVec 8) (a : ℕ) :
    (m.filled byte).mmuGpuMap a = m.mmuGpuMap a := rfl

@[simp] theorem lcd8_filled (byte : ℕ → BitVec 8) (place : ℕ) : (m.filled byte).lcd8 place = byte place := rfl

@[simp] theorem lcd16_filled (byte : ℕ → BitVec 8) (place : ℕ) :
    (m.filled byte).lcd16 place = byte (place + 1) ++ byte place := rfl

end GpuMemory

end Memory

end Desmume.Video
