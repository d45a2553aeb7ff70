import Desmume.Video.ScanlineDefs

/-! `RenderLine` of the two engines, and runs of scanlines and register writes. The memory, the other
registers, and what the layer renderers, the sprite pass and the capture make of them are left open. -/

namespace Desmume.Video

/-- What the renderers show of a memory: the backdrop, the pixels that a background passes on for a
column, the captured picture that is shown in place of its colours, the 3D framebuffer, the sprite
pass, the framebuffer in VRAM, and the capture of a line. -/
structure Content (M : Type) (R : Raster) where
  backdrop : LineRegs → M → BitVec 15
  bgPixel : LineRegs → M → ℕ → Fin 4 → RefPoint → Fin 256 → Option (Color × Bool)
  customBG : LineRegs → M → ℕ → Fin 4 → R.Cell → Option Color
  fragment : LineRegs → M → ℕ → R.Cell → FragmentColor
  sprites : LineRegs → M → ℕ → SpriteLine
  oamMosaic : M → BitVec 8 → Bool
  customOBJ : LineRegs → M → ℕ → R.Cell → Option Color
  vramLine : M → ℕ → R.Cell → Color
  captures : LineRegs → M → ℕ → Bool
  captureFifo : LineRegs → M → ℕ → Bool
  capture : LineRegs → M → ℕ → (R.Cell → Color) → (Fin 128 → BitVec 32) → M

variable {M : Type} {R : Bool → Raster}

/-- The state of an engine: what the lines share with the registers and with each other. There is a
framebuffer for native rendering and one for custom rendering. -/
structure Core (M : Type) (R : Bool → Raster) where
  regs : LineRegs
  mem : M
  winH : Fin 2 → BitVec 8 × BitVec 8
  affineInfo : Fin 2 → RefPoint
  ref : Fin 2 → RefPoint
  mosaicBG : Fin 4 → Fin 256 → Color
  mosaicOBJ : Fin 256 → MosaicObj
  fifo : DispFifo
  capRequest : Bool
  capEnabled : Bool
  frame : (b : Bool) → ℕ → (R b).Cell → Color

/-- The columns of the windows, and whether they are to be computed again. -/
structure WinCache where
  hWin : Fin 2 → Fin 256 → Bool
  needUpdateWinh : Fin 2 → Bool

/-- What a line finds in the scratch buffers of the lines before it. -/
structure Leftover where
  blend1 : Bool
  sprWin : Fin 256 → Bool
  sprNum : Fin 256 → BitVec 8

structure GpuState (M : Type) (R : Bool → Raster) where
  core : Core M R
  cache : WinCache
  left : Leftover

/-! The windows. -/

/-- The columns from `startX` to `endX`, around the border if they are the other way. -/
def winRow (h : BitVec 8 × BitVec 8) (x : Fin 256) : Bool :=
  if h.1 > h.2 then x.val ≤ h.2.toNat || h.1.toNat ≤ x.val
  else h.1.toNat ≤ x.val && x.val < h.2.toNat

/-- `_UpdateWINH`, where a window asks for it. -/
def updateWINH (r : LineRegs) (winH : Fin 2 → BitVec 8 × BitVec 8) (cache : WinCache)
    (i : Fin 2) : WinCache :=
  if cache.needUpdateWinh i && r.winEnabled i then
    { hWin := Function.update cache.hWin i (winRow (winH i))
      needUpdateWinh := Function.update cache.needUpdateWinh i false }
  else cache

/-- `_SetupWindows`: the columns of a window on a line. -/
def setupWindows (r : LineRegs) (l : ℕ) (cache : WinCache) (i : Fin 2) : Fin 256 → Bool :=
  let startY := (r.winV i).1.toNat
  let endY := (r.winV i).2.toNat
  if !r.winEnabled i then fun _ => false
  else if startY > endY then
    if l < startY ∧ l > endY then fun _ => false else cache.hWin i
  else if l < startY ∨ l ≥ endY then fun _ => false
  else cache.hWin i

def lineWindows (r : LineRegs) (l : ℕ) (cache : WinCache) : Windows :=
  { r.windows with currWin := setupWindows r l cache }

/-! The layers. -/

section Layers

variable {R : Raster} (c : Content M R) (r : LineRegs) (mem : M) (l : ℕ)

/-- The line of a background: the mosaic colours and what is drawn. -/
structure BGRow where
  mosaicColors : Fin 256 → Color
  drawn : Fin 256 → Option Color

def bgColumn (n : Fin 4) (ref : RefPoint) (row : BGRow) (x : Fin 256) : BGRow :=
  match c.bgPixel r mem l n ref x with
  | none => row
  | some (color, isOpaque) =>
    let result := setFinalColorBck r l (r.Mosaic_Enable n) row.mosaicColors color x isOpaque
    ⟨result.1, Function.update row.drawn x result.2⟩

/-- `_ModeRender`. -/
def modeRender (n : Fin 4) (ref : RefPoint) (mosaicColors : Fin 256 → Color) : BGRow :=
  if r.bgType n = .invalid then ⟨mosaicColors, fun _ => none⟩
  else (List.finRange 256).foldl (bgColumn c r mem l n ref) ⟨mosaicColors, fun _ => none⟩

/-- `BGxX += BGxPB` and `BGxY += BGxPD` of `_LineRot` and `_LineExtRot`. -/
def advance (n : Fin 4) (ref : RefPoint) : RefPoint :=
  if (r.bgType n).rotates then
    ⟨ref.x + (r.BGxPB (bgParams n)).signExtend 32, ref.y + (r.BGxPD (bgParams n)).signExtend 32⟩
  else ref

/-- The backgrounds of a line, as they are drawn one after another. -/
structure BGPass where
  ref : Fin 2 → RefPoint
  mosaicBG : Fin 4 → Fin 256 → Color
  drawn : Fin 4 → Fin 256 → Option Color

def bgPassStep (s : BGPass) (n : Fin 4) : BGPass :=
  if n = 0 ∧ r.engine.is3DEnabled = true then s
  else
    let row := modeRender c r mem l n (s.ref (bgParams n)) (s.mosaicBG n)
    { ref := Function.update s.ref (bgParams n) (advance r n (s.ref (bgParams n)))
      mosaicBG := Function.update s.mosaicBG n row.mosaicColors
      drawn := Function.update s.drawn n row.drawn }

/-- The backgrounds that are drawn, in order. -/
def Engine.bgsDrawn (g : Engine) : List (Fin 4) :=
  [3, 2, 1, 0].flatMap fun prio => (g.itemsForPriority prio).filter fun n => g.enableLayer n.castSucc

def bgPass (ref : Fin 2 → RefPoint) (mosaicBG : Fin 4 → Fin 256 → Color) : BGPass :=
  r.engine.bgsDrawn.foldl (bgPassStep c r mem l) ⟨ref, mosaicBG, fun _ _ => none⟩

/-- The sprites of a line. -/
structure SpritePass where
  sprColor : Fin 256 → Color
  sprAlpha : Fin 256 → BitVec 8
  sprType : Fin 256 → BitVec 8
  sprPrio : Fin 256 → BitVec 8
  sprWin : Fin 256 → Bool
  sprNum : Fin 256 → BitVec 8
  mosaicOBJ : Fin 256 → MosaicObj

/-- `SpriteRender` and `_MosaicSpriteLine`, on cleared buffers; `_sprNum` is never cleared. -/
def spritePass (mosaicOBJ : Fin 256 → MosaicObj) (sprNum : Fin 256 → BitVec 8) : SpritePass :=
  if r.engine.enableLayer 4 then
    let s := c.sprites r mem l
    let sprNum := fun x => (s.sprNum x).getD (sprNum x)
    let m := mosaicSpriteLine r l (fun x => c.oamMosaic mem (sprNum x))
      ⟨s.sprColor, s.sprAlpha, s.sprPrio, mosaicOBJ⟩
    { sprColor := m.sprColor
      sprAlpha := m.sprAlpha
      sprType := s.sprType
      sprPrio := m.sprPrio
      sprWin := s.sprWin
      sprNum := sprNum
      mosaicOBJ := m.mosaicColors }
  else
    { sprColor := fun _ => 0
      sprAlpha := fun _ => 0
      sprType := fun _ => 0
      sprPrio := fun _ => 0xFF
      sprWin := fun _ => false
      sprNum := sprNum
      mosaicOBJ := mosaicOBJ }

def layersPictureOf (bgs : BGPass) (spr : SpritePass) : Picture R where
  backdrop := c.backdrop r mem
  bg := fun n d => (bgs.drawn n (R.column d)).map fun color => (c.customBG r mem l n d).getD color
  fragment := c.fragment r mem l
  sprColor := fun d => (c.customOBJ r mem l d).getD (spr.sprColor (R.column d))
  sprAlpha := spr.sprAlpha
  sprType := spr.sprType
  sprPrio := spr.sprPrio
  sprWin := spr.sprWin

/-- The four display modes, with the layers and the words of the FIFO. -/
def displayed (layers : R.Cell → Color) (words : Fin 128 → BitVec 32) (d : R.Cell) : Color :=
  match r.dispMode with
  | .off => 0x7FFF
  | .normal => layers d
  | .vram => c.vramLine mem l d
  | .mainMemory => fifoColor words (R.column d)

end Layers

/-! The capture. -/

/-- `_RenderLine_DisplayCapture`; `copies` is a `CAPTURELENGTH` other than 0. -/
def displayCapture {b : Bool} (c : Content M (R b)) (l : ℕ) (copies : Bool)
    (layers : (R b).Cell → Color) (s : Core M R) : Core M R :=
  let s := if l = 0 ∧ s.capRequest = true then { s with capEnabled := true } else s
  if !s.capEnabled then s
  else
    let s :=
      if copies then
        let (fifo, words) :=
          if c.captureFifo s.regs s.mem l then s.fifo.recvLine else (s.fifo, fun _ => 0)
        { s with fifo := fifo, mem := c.capture s.regs s.mem l layers words }
      else s
    if l ≥ 191 then { s with capEnabled := false, capRequest := false } else s

/-! A line. -/

namespace Core

variable (s : Core M R)

/-- `refreshAffineStartRegs(-1,-1)`. -/
def refreshAffineStartRegs : Core M R := { s with ref := s.affineInfo }

def writeLine (b : Bool) (l : ℕ) (line : (R b).Cell → Color) : Core M R :=
  { s with frame := Function.update s.frame b (Function.update (s.frame b) l line) }

/-- The capture is the main engine's, and so is the FIFO, which line 191 empties. -/
def capture {b : Bool} (id : EngineID) (c : Content M (R b)) (l : ℕ) (copies : Bool)
    (layers : (R b).Cell → Color) : Core M R :=
  match id with
  | .main =>
    let s := displayCapture c l copies layers s
    if l = 191 then { s with fifo := s.fifo.reset } else s
  | .sub => s

/-- `MasterBrightFactor >= 16` and a mode that makes the line all white or all black. -/
def allWhiteOrBlack : Bool :=
  s.regs.MasterBrightFactor.val ≥ 16 &&
    (s.regs.MasterBrightMode = .up || s.regs.MasterBrightMode = .down)

/-- The main engine goes on where there could be side effects. -/
def skipsWork (id : EngineID) (l : ℕ) : Bool :=
  s.allWhiteOrBlack &&
    match id with
    | .main => !s.capEnabled && l ≠ 0 && l ≠ 191
    | .sub => true

end Core

variable (c : (b : Bool) → Content M (R b)) (id : EngineID)

/-- The whole of a line, from the mosaic and the windows to the master brightness. -/
def drawLine (b : Bool) (l : ℕ) (s : GpuState M R) : GpuState M R :=
  let r := s.core.regs
  let cache := [0, 1].foldl (updateWINH r s.core.winH) s.cache
  let spr := spritePass (c b) r s.core.mem l s.core.mosaicOBJ s.left.sprNum
  let bgs := bgPass (c b) r s.core.mem l s.core.ref s.core.mosaicBG
  let pic := layersPictureOf (c b) r s.core.mem l bgs spr
  let painter := renderLineLayer r.engine r.effects (lineWindows r l cache) pic s.left.sprWin
    s.left.blend1
  let layers := fun d => (painter.line d).color
  let (fifo, words) :=
    if r.dispMode = .mainMemory then s.core.fifo.recvLine else (s.core.fifo, fun _ => 0)
  let line := displayed (c b) r s.core.mem l layers words
  let core := { s.core with
    ref := bgs.ref, mosaicBG := bgs.mosaicBG, mosaicOBJ := spr.mosaicOBJ, fifo := fifo }
  { core := (core.capture id (c b) l ((c b).captures r s.core.mem l) layers).writeLine b l
      fun d => masterBrightness r (line d)
    cache := cache
    left := ⟨painter.blend1, pic.objWindow r.engine, spr.sprNum⟩ }

/-- A line after the set-up of line 0: `skip` is for frames that are not shown, `showGpu` is the
user's, `custom` is `ISCUSTOMRENDERINGNEEDED`. -/
def startedLine (shortcut : Bool) (l : ℕ) (skip showGpu custom : Bool) (s : GpuState M R) :
    GpuState M R :=
  if skip then { s with core := s.core.capture id (c custom) l false fun _ => 0 }
  else if !showGpu then { s with core := s.core.writeLine custom l fun _ => 0 }
  else if shortcut && s.core.skipsWork id l then
    { s with
      core := s.core.writeLine custom l fun d => masterBrightness s.core.regs (s.core.frame custom l d) }
  else drawLine c id custom l s

/-- `GPUEngineA::RenderLine` and `GPUEngineB::RenderLine`, with the shortcut or without. -/
def renderLine (shortcut : Bool) (l : ℕ) (skip showGpu custom : Bool) (s : GpuState M R) :
    GpuState M R :=
  startedLine c id shortcut l skip showGpu custom
    (if l = 0 then { s with core := s.core.refreshAffineStartRegs } else s)

/-! Runs. -/

/-- A write that changes registers and memory at will, the writes that have an effect of their own,
stores to the reference points themselves, and lines. -/
inductive GpuOp (M : Type) where
  | write (f : LineRegs × M → LineRegs × M)
  | setWINH (i : Fin 2) (startX endX : BitVec 8)
  | setAffineStart (n : Fin 2) (xy : Bool) (f : BitVec 32 → BitVec 32)
  | storeRef (n : Fin 2) (f : RefPoint → RefPoint)
  | setDISPCAPCNT (request : Bool) (f : M → M)
  | fifoSend (val : BitVec 32)
  | renderLine (l : ℕ) (skip showGpu custom : Bool)

/-- The writes, on the state they change. -/
def Core.write (s : Core M R) : GpuOp M → Core M R
  | .write f => { s with regs := (f (s.regs, s.mem)).1, mem := (f (s.regs, s.mem)).2 }
  | .setWINH i startX endX => { s with winH := Function.update s.winH i (startX, endX) }
  | .setAffineStart n xy f =>
    let start := if xy then { s.affineInfo n with y := f (s.affineInfo n).y }
      else { s.affineInfo n with x := f (s.affineInfo n).x }
    let active := if xy then { s.ref n with y := start.y } else { s.ref n with x := start.x }
    { s with affineInfo := Function.update s.affineInfo n start, ref := Function.update s.ref n active }
  | .storeRef n f => { s with ref := Function.update s.ref n (f (s.ref n)) }
  | .setDISPCAPCNT request f => { s with capRequest := request, mem := f s.mem }
  | .fifoSend val => { s with fifo := s.fifo.send val }
  | .renderLine .. => s

/-- `need_update_winh` of a window whose columns are written. -/
def WinCache.write (cache : WinCache) : GpuOp M → WinCache
  | .setWINH i _ _ => { cache with needUpdateWinh := Function.update cache.needUpdateWinh i true }
  | .write _ => cache
  | .setAffineStart .. => cache
  | .storeRef .. => cache
  | .setDISPCAPCNT .. => cache
  | .fifoSend _ => cache
  | .renderLine .. => cache

def GpuState.step (shortcut : Bool) (s : GpuState M R) : GpuOp M → GpuState M R
  | .renderLine l skip showGpu custom => renderLine c id shortcut l skip showGpu custom s
  | op => { s with core := s.core.write op, cache := s.cache.write op }

/-- An engine after a reset, whatever is in the memory and the buffers. -/
def GpuState.start (core : Core M R) (left : Leftover) : GpuState M R :=
  ⟨core, ⟨fun _ _ => false, fun _ => true⟩, left⟩

end Desmume.Video
