import Desmume.Video.ScanlineDefs
import Mathlib.Data.Fin.VecNotation
import Mathlib.Data.Int.Notation
import Mathlib.Data.List.FinRange

/-! The sprite renderer: the entries of OAM, the plain and the rotated path, and the line buffers they
write. A write outside of a buffer, a texel outside of its sprite and an entry outside of OAM have no
result. -/

namespace Desmume.Video

structure SpriteSize where
  x : ℕ
  y : ℕ
deriving DecidableEq, Repr

/-- `_sprSizeTab`, by size and shape. -/
def sprSizeTab : Fin 4 → Fin 4 → SpriteSize :=
  ![![⟨8, 8⟩, ⟨16, 8⟩, ⟨8, 16⟩, ⟨8, 8⟩],
    ![⟨16, 16⟩, ⟨32, 8⟩, ⟨8, 32⟩, ⟨8, 8⟩],
    ![⟨32, 32⟩, ⟨32, 16⟩, ⟨16, 32⟩, ⟨8, 8⟩],
    ![⟨64, 64⟩, ⟨64, 32⟩, ⟨32, 64⟩, ⟨8, 8⟩]]

/-- `OAMAttributes`. `X` is signed. -/
structure OAMAttributes where
  Y : BitVec 8
  RotScale : Fin 4
  Mode : Fin 4
  Depth : Bool
  Shape : Fin 4
  X : BitVec 9
  RotScalIndex : Fin 8
  HFlip : Bool
  VFlip : Bool
  Size : Fin 4
  TileIndex : BitVec 10
  Priority : Fin 4
  PaletteIndex : Fin 16
  attr3 : BitVec 16

abbrev Oam := Fin 128 → OAMAttributes

namespace OAMAttributes

variable (e : OAMAttributes)

def sprSize : SpriteSize := sprSizeTab e.Size e.Shape

/-- `sprY`: from the bottom of the screen on it is negative. -/
def sprY : ℤ := if 192 ≤ e.Y.toNat then e.Y.toInt else e.Y.toNat

/-- `(l - sprY) & 0xFF`. -/
def line (l : ℕ) : ℤ := ((l : ℤ) - e.sprY) % 256

def prio : BitVec 8 := BitVec.ofNat 8 e.Priority

def tile : ℕ := e.TileIndex.toNat

end OAMAttributes

/-- The bits of `DISPCNT` that the sprite renderer depends on. -/
structure SpriteRegs where
  engineID : EngineID
  OBJ_Tile_mapping : Bool
  OBJ_Tile_1D_Bound : Fin 4
  OBJ_BMP_1D_Bound : Bool
  OBJ_BMP_mapping : Bool
  OBJ_BMP_2D_dim : Bool
  ExOBJPalette_Enable : Bool

namespace SpriteRegs

variable (r : SpriteRegs)

def sprMem : ℕ :=
  match r.engineID with
  | .main => mmuAobj
  | .sub => mmuBobj

/-- `_sprBoundary` and `_sprBMPBoundary`, as `SetVideoProp` leaves them. -/
def sprBoundary : ℕ := if r.OBJ_Tile_mapping then 5 + r.OBJ_Tile_1D_Bound else 5

def sprBMPBoundary : ℕ := if r.OBJ_BMP_1D_Bound && r.engineID = .main then 8 else 7

/-- `SpriteRenderMode_Sprite2D`. -/
def sprite2D : Bool := !r.OBJ_Tile_mapping

end SpriteRegs

/-- What the line buffers hold for a column: `dst`, `dst_alpha`, `typeTab`, `prioTab`, `_sprWin` and
`_sprNum`. -/
structure SpriteCell where
  color : Color
  alpha : BitVec 8
  type : BitVec 8
  prio : BitVec 8
  win : Bool
  num : BitVec 8
deriving DecidableEq, Repr

abbrev SpriteBuffers := Fin 256 → SpriteCell

/-- A column of the buffers is changed. -/
def SpriteBuffers.change (sprX : ℤ) (f : SpriteCell → SpriteCell) (b : SpriteBuffers) :
    Option SpriteBuffers :=
  if h : 0 ≤ sprX ∧ sprX < 256 then
    let i : Fin 256 := ⟨sprX.toNat, by omega⟩
    some (Function.update b i (f (b i)))
  else none

/-- A texel of a sprite. -/
def SpriteSize.texel (size : SpriteSize) (x y : ℤ) : Option (ℕ × ℕ) :=
  if 0 ≤ x ∧ x < size.x ∧ 0 ≤ y ∧ y < size.y then some (x.toNat, y.toNat) else none

/-- An entry of OAM. -/
def Oam.entry (oam : Oam) (i : ℕ) : Option OAMAttributes := if h : i < 128 then some (oam ⟨i, h⟩) else none

/-- A length as an unsigned number of pixels; a negative one goes on without an end. -/
def pixelCount (lg : ℤ) : Option ℕ := if 0 ≤ lg then some lg.toNat else none

/-! ### The pixels of the plain path -/

section Pixels

variable (m : GpuMemory) (prio : BitVec 8)

/-- A round of `_RenderSpriteBMP`. -/
def renderSpriteBMP (spriteNum : BitVec 8) (srcadr : ℕ) (alpha : BitVec 8) (x : ℕ) (c : SpriteCell) :
    SpriteCell :=
  let color := m.lcd16 (m.mmuGpuMap (srcadr + (x <<< 1)))
  -- a cleared alpha bit suppresses the pixel
  if color.msb = true ∧ prio < c.prio then
    { c with color := color, alpha := alpha + 1, type := 3, prio := prio, num := spriteNum }
  else c

/-- A round of `_RenderSprite256`. -/
def renderSprite256 (spriteNum : BitVec 8) (srcadr : ℕ) (pal : BitVec 8 → Color) (alpha : Bool) (x : ℕ)
    (c : SpriteCell) : SpriteCell :=
  let adr := srcadr + (x &&& 0x7) + ((x &&& 0xFFF8) <<< 3)
  let paletteEntry := m.lcd8 (m.mmuGpuMap adr)
  if paletteEntry ≠ 0 ∧ prio < c.prio then
    { c with
      color := pal paletteEntry, alpha := 0xFF, type := if alpha then 1 else 0, prio := prio
      num := spriteNum }
  else c

/-- A round of `_RenderSprite16`, which leaves no number. -/
def renderSprite16 (srcadr : ℕ) (pal : BitVec 8 → Color) (alpha : Bool) (x : ℕ) (c : SpriteCell) :
    SpriteCell :=
  let x1 := x >>> 1
  let adr := srcadr + (x1 &&& 0x3) + ((x1 &&& 0xFFFC) <<< 3)
  let paletteEntry := nibbleOf x (m.lcd8 (m.mmuGpuMap adr))
  if paletteEntry ≠ 0 ∧ prio < c.prio then
    { c with color := pal paletteEntry, alpha := 0xFF, type := if alpha then 1 else 0, prio := prio }
  else c

/-- A round of `_RenderSpriteWin`. -/
def renderSpriteWin (src : ℕ) (col256 : Bool) (x : ℕ) (c : SpriteCell) : SpriteCell :=
  if col256 then
    if m.lcd8 (src + ((x &&& 7) + ((x &&& 0xFFF8) <<< 3))) ≠ 0 then { c with win := true } else c
  else
    let x1 := x >>> 1
    let palette := m.lcd8 (src + ((x1 &&& 0x3) + ((x1 &&& 0xFFFC) <<< 3)))
    if nibbleOf x palette ≠ 0 then { c with win := true } else c

end Pixels

/-- The loop of the plain path over a row of the sprite. -/
def plainLoop (size : SpriteSize) (y xdir : ℤ) (pixel : ℕ → SpriteCell → SpriteCell) :
    ℕ → ℤ → ℤ → SpriteBuffers → Option SpriteBuffers
  | 0, _, _, b => some b
  | n + 1, sprX, x, b => do
    let t ← size.texel x y
    let b ← b.change sprX (pixel t.1)
    plainLoop size y xdir pixel n (sprX + 1) (x + xdir) b

/-! ### The plain path -/

/-- What `_ComputeSpriteVars` returns. -/
structure SpriteVars where
  sprX : ℤ
  x : ℤ
  y : ℤ
  lg : ℤ
  xdir : ℤ

/-- `_ComputeSpriteVars`, with no result for a sprite that is not to be drawn. -/
def computeSpriteVars (e : OAMAttributes) (l : ℕ) : Option SpriteVars :=
  let sprX := e.X.toInt
  let sprSize := e.sprSize
  let lg : ℤ := sprSize.x
  let y := e.line l
  if y ≥ sprSize.y then none
  else if sprX = 256 ∨ sprX + sprSize.x ≤ 0 then none
  else
    -- the portion out of the screen on the left, then on the right
    let (lg, x, sprX) := if sprX < 0 then (lg + sprX, -sprX, 0) else (lg, 0, sprX)
    let lg := if sprX + sprSize.x ≥ 256 then 256 - sprX else lg
    let y := if e.VFlip then sprSize.y - y - 1 else y
    if e.HFlip then some ⟨sprX, sprSize.x - x - 1, y, lg, -1⟩ else some ⟨sprX, x, y, lg, 1⟩

section Render

variable (r : SpriteRegs) (m : GpuMemory)

/-- `_SpriteAddressBMP`. -/
def spriteAddressBMP (e : OAMAttributes) (y : ℕ) : ℕ :=
  if r.OBJ_BMP_mapping then r.sprMem + (e.tile <<< r.sprBMPBoundary) + y * e.sprSize.x * 2
  else if r.OBJ_BMP_2D_dim then
    r.sprMem + (((e.tile &&& 0x3E0) * 64 + (e.tile &&& 0x1F) * 8 + (y <<< 8)) <<< 1)
  else r.sprMem + (((e.tile &&& 0x3F0) * 64 + (e.tile &&& 0x0F) * 8 + (y <<< 7)) <<< 1)

/-- The palette of a sprite of 256 colours and of one of 16. -/
def pal256 (e : OAMAttributes) (entry : BitVec 8) : Color :=
  if r.ExOBJPalette_Enable then m.host16 m.objExtPal (e.PaletteIndex * 0x200 + 2 * entry.toNat)
  else m.vmem16 (0x200 + r.engineID.step1KB + 2 * entry.toNat)

def pal16 (e : OAMAttributes) (entry : BitVec 8) : Color :=
  m.vmem16 (0x200 + r.engineID.step1KB + e.PaletteIndex * 32 + 2 * entry.toNat)

/-- The address of a row of tiles: `depth` is 8 for a byte a texel and 4 for half a byte. -/
def rowAddress (e : OAMAttributes) (depth y : ℕ) : ℕ :=
  if r.sprite2D then r.sprMem + (e.tile <<< 5) + ((y >>> 3) <<< 10) + ((y &&& 0x7) * depth)
  else
    r.sprMem + (e.tile <<< r.sprBoundary) + (y >>> 3) * e.sprSize.x * depth + ((y &&& 0x7) * depth)

/-- The pixel function of the plain path, if the sprite has one. -/
def plainPixel (i : Fin 128) (e : OAMAttributes) (y : ℕ) : Option (ℕ → SpriteCell → SpriteCell) :=
  let num := BitVec.ofNat 8 i
  let depth := if e.Depth then 8 else 4
  if e.Mode = 2 then
    some (renderSpriteWin m (m.mmuGpuMap (rowAddress r e depth y)) e.Depth)
  else if e.Mode = 3 then
    let srcadr := spriteAddressBMP r e y
    -- transparent if alpha is 0
    if e.PaletteIndex = 0 then none
    else some (renderSpriteBMP m e.prio num srcadr (BitVec.ofNat 8 e.PaletteIndex))
  else if e.Depth then
    some (renderSprite256 m e.prio num (rowAddress r e depth y) (pal256 r m e) (e.Mode = 1))
  else some (renderSprite16 m e.prio (rowAddress r e depth y) (pal16 r m e) (e.Mode = 1))

/-- The plain path for an entry. -/
def plainSprite (l : ℕ) (i : Fin 128) (e : OAMAttributes) (b : SpriteBuffers) : Option SpriteBuffers :=
  match computeSpriteVars e l with
  | none => some b
  | some v =>
    match plainPixel r m i e v.y.toNat with
    | none => some b
    | some pixel => do
      let n ← pixelCount v.lg
      plainLoop e.sprSize v.y v.xdir pixel n v.sprX v.x b

/-! ### The rotated path -/

/-- The loop of the rotated path: `realX` and `realY` are fixed point numbers with 8 bits behind the
point. -/
def rotatedLoop (size : SpriteSize) (dx dy : ℤ) (pixel : ℕ → ℕ → SpriteCell → SpriteCell) :
    ℕ → ℤ → ℤ → ℤ → SpriteBuffers → Option SpriteBuffers
  | 0, _, _, _, b => some b
  | n + 1, sprX, realX, realY, b => do
    let auxX := realX >>> (8 : ℕ)
    let auxY := realY >>> (8 : ℕ)
    let b ←
      if auxX ≥ 0 ∧ auxY ≥ 0 ∧ auxX < size.x ∧ auxY < size.y then do
        let t ← size.texel auxX auxY
        b.change sprX (pixel t.1 t.2)
      else some b
    rotatedLoop size dx dy pixel n (sprX + 1) (realX + dx) (realY + dy) b

/-- A round of the loop for 256 colours. -/
def rotated256 (e : OAMAttributes) (src x y : ℕ) (c : SpriteCell) : SpriteCell :=
  let offset :=
    if r.sprite2D then (x &&& 0x7) + ((x &&& 0xFFF8) <<< 3) + ((y >>> 3) <<< 10) + (y &&& 0x7) * 8
    else (x &&& 0x7) + ((x &&& 0xFFF8) <<< 3) + (y >>> 3) * e.sprSize.x * 8 + (y &&& 0x7) * 8
  let colour := m.lcd8 (src + offset)
  if colour ≠ 0 ∧ e.prio < c.prio then
    { c with
      color := pal256 r m e colour, alpha := 0xFF, type := BitVec.ofNat 8 e.Mode, prio := e.prio }
  else c

/-- A round of the loop for direct colours. -/
def rotatedBMP (e : OAMAttributes) (srcadr x y : ℕ) (c : SpriteCell) : SpriteCell :=
  let offset :=
    if r.OBJ_BMP_2D_dim then (spriteAddressBMP r e y - srcadr) / 2 + x else x + y * e.sprSize.x
  let colour := m.lcd16 (m.mmuGpuMap (srcadr + (offset <<< 1)))
  if colour.msb = true ∧ e.prio < c.prio then
    { c with
      color := colour, alpha := BitVec.ofNat 8 e.PaletteIndex, type := BitVec.ofNat 8 e.Mode
      prio := e.prio }
  else c

/-- A round of the loop for 16 colours. -/
def rotated16 (e : OAMAttributes) (src x y : ℕ) (c : SpriteCell) : SpriteCell :=
  let x1 := x >>> 1
  let offset :=
    if r.sprite2D then (x1 &&& 0x3) + ((x1 &&& 0xFFFC) <<< 3) + ((y >>> 3) <<< 10) + (y &&& 0x7) * 4
    else (x1 &&& 0x3) + ((x1 &&& 0xFFFC) <<< 3) + (y >>> 3) * e.sprSize.x * 4 + (y &&& 0x7) * 4
  let colour := nibbleOf x (m.lcd8 (src + offset))
  if colour ≠ 0 ∧ e.prio < c.prio then
    if e.Mode = 2 then { c with win := true }
    else
      { c with
        color := pal16 r m e colour, alpha := 0xFF, type := BitVec.ofNat 8 e.Mode, prio := e.prio }
  else c

/-- The pixel function of the rotated path, if the sprite has one. -/
def rotatedPixel (e : OAMAttributes) : Option (ℕ → ℕ → SpriteCell → SpriteCell) :=
  if e.Depth then some (rotated256 r m e (m.mmuGpuMap (r.sprMem + (e.tile <<< r.sprBoundary))))
  else if e.Mode = 3 then
    -- transparent if alpha is 0
    if e.PaletteIndex = 0 then none else some (rotatedBMP r m e (spriteAddressBMP r e 0))
  else
    let src := if r.sprite2D then m.mmuGpuMap (r.sprMem + (e.tile <<< 5))
      else m.mmuGpuMap (r.sprMem + (e.tile <<< r.sprBoundary))
    some (rotated16 r m e src)

/-- `blockparameter`, a `u8`. -/
def OAMAttributes.blockparameter (e : OAMAttributes) : ℕ :=
  ((e.RotScalIndex.val + (e.HFlip.toNat <<< 3) + (e.VFlip.toNat <<< 4)) * 4) % 256

/-- The rotated path for an entry. -/
def rotatedSprite (oam : Oam) (l : ℕ) (e : OAMAttributes) (b : SpriteBuffers) : Option SpriteBuffers :=
  let sprX := e.X.toInt
  let size := e.sprSize
  let double := e.RotScale = 3
  let fieldX : ℤ := if double then size.x * 2 else size.x
  let fieldY : ℤ := if double then size.y * 2 else size.y
  let lg := fieldX
  let y := e.line l
  if y ≥ fieldY then some b
  else if sprX = 256 ∨ sprX + fieldX ≤ 0 then some b
  else do
    let dx := (← oam.entry e.blockparameter).attr3.toInt
    let dmx := (← oam.entry (e.blockparameter + 1)).attr3.toInt
    let dy := (← oam.entry (e.blockparameter + 2)).attr3.toInt
    let dmy := (← oam.entry (e.blockparameter + 3)).attr3.toInt
    let realX := ((size.x : ℤ) <<< (7 : ℕ)) - (fieldX >>> (1 : ℕ)) * dx -
      (fieldY >>> (1 : ℕ)) * dmx + y * dmx
    let realY := ((size.y : ℤ) <<< (7 : ℕ)) - (fieldX >>> (1 : ℕ)) * dy -
      (fieldY >>> (1 : ℕ)) * dmy + y * dmy
    let (lg, realX, realY, sprX) :=
      if sprX < 0 then (lg + sprX, realX - sprX * dx, realY - sprX * dy, 0)
      else if sprX + fieldX > 256 then (256 - sprX, realX, realY, sprX)
      else (lg, realX, realY, sprX)
    match rotatedPixel r m e with
    | none => some b
    | some pixel =>
      let n ← pixelCount lg
      rotatedLoop size dx dy pixel n sprX realX realY b

/-- What `_SpriteRenderPerform` does for an entry. -/
def spriteEntry (oam : Oam) (l : ℕ) (b : SpriteBuffers) (i : Fin 128) : Option SpriteBuffers :=
  let e := oam i
  if e.RotScale = 2 then some b
  else if e.RotScale.val &&& 1 ≠ 0 then rotatedSprite r m oam l e b
  else plainSprite r m l i e b

/-- `SpriteRender`. -/
def spriteRender (oam : Oam) (l : ℕ) (b : SpriteBuffers) : Option SpriteBuffers :=
  (List.finRange 128).foldlM (spriteEntry r m oam l) b

end Render

end Desmume.Video
