import Desmume.Library.FlatMemory
import Desmume.Library.Run
import Desmume.Video.ScanlineDefs

/-! Display capture: the control register with the copy that the engine keeps of it, and the lines
that go into the VRAM, at the size of the console's own screen. -/

namespace Desmume.Video
open Library

inductive CapX where
  | _128 | _256
  deriving DecidableEq

/-- `CAPTURELENGTH`, in pixels. -/
def CapX.length : CapX → ℕ
  | ._128 => 128
  | ._256 => 256

/-- `DISPCAPCNT`: the value that was written, and the settings that are taken from it. -/
structure DispCapCnt where
  val : BitVec 32
  enabled : Bool
  EVA : Fin 17
  EVB : Fin 17
  writeBlock : BitVec 2
  writeOffset : BitVec 2
  readBlock : BitVec 2
  readOffset : BitVec 2
  srcA : BitVec 1
  srcB : BitVec 1
  capSrc : BitVec 2
  capx : CapX
  capy : ℕ

/-- The fields of `DISPCNT` that a write to the register looks at. -/
structure DispCnt where
  VRAM_Block : BitVec 2
  DisplayMode : BitVec 2

def capFactor (v : BitVec 5) : Fin 17 := ⟨min 16 v.toNat, by omega⟩

/-- `SetDISPCAPCNT`. -/
def setDISPCAPCNT (dispCnt : DispCnt) (val : BitVec 32) (c : DispCapCnt) : DispCapCnt :=
  { val := val
    enabled := c.enabled
    EVA := capFactor (val.extractLsb' 0 5)
    EVB := capFactor (val.extractLsb' 8 5)
    writeBlock := val.extractLsb' 16 2
    writeOffset := val.extractLsb' 18 2
    readBlock := dispCnt.VRAM_Block
    readOffset := if dispCnt.DisplayMode = 2 then 0 else val.extractLsb' 26 2
    srcA := val.extractLsb' 24 1
    srcB := val.extractLsb' 25 1
    capSrc := val.extractLsb' 29 2
    capx := if val.extractLsb' 20 2 = 0 then ._128 else ._256
    capy := match val.extractLsb' 20 2 with
      | 0 => 128
      | 1 => 64
      | 2 => 128
      | 3 => 192 }

/-- A channel of `_RenderLine_DispCapture_BlendFunc`, from bit `k` on. -/
def captureChannel (k : ℕ) (srcA srcB : Color) (blendEVA blendEVB : Fin 17) : ℕ :=
  let a := if srcA.msb then (srcA.extractLsb' k 5).toNat * blendEVA else 0
  let b := if srcB.msb then (srcB.extractLsb' k 5).toNat * blendEVB else 0
  min 31 ((a + b) >>> 4)

def captureBlend (srcA srcB : Color) (blendEVA blendEVB : Fin 17) : Color :=
  let channel k : Color := BitVec.ofNat 16 (captureChannel k srcA srcB blendEVA blendEVB)
  let a : Color := if srcA.msb || srcB.msb then 0x8000 else 0
  a ||| channel 10 <<< 10 ||| channel 5 <<< 5 ||| channel 0

/-- What a line finds: the banks that are mapped to the LCDC, the registers of the engine, and the
lines that the layers and the 3D engine have drawn. -/
structure CaptureInput where
  lcdc : BitVec 2 → Bool
  dispMode : DisplayMode
  MasterBrightFactor : Fin 32
  MasterBrightMode : MasterBrightMode
  currDst : Fin 256 → Color
  frame3D : Fin 256 → Color

/-- The engine, the register at offset 0x64 with the VRAM behind the LCDC, and the scanlines. -/
structure CaptureState where
  dispCapCnt : DispCapCnt
  reg : BitVec 32
  lcd : ℕ → BitVec 8
  blankMemory : ℕ → BitVec 8
  fifo : DispFifo
  VCount : BitVec 32
  hblankDue : Bool
  skip2D : Bool

/-- The pixels that a line writes, each with the place of its first byte. -/
abbrev LcdWrites := List (ℕ × Color)

def lcdAfter (lcd : ℕ → BitVec 8) (ws : LcdWrites) : ℕ → BitVec 8 :=
  ws.foldl (fun m w => writeWord 2 m w.1 w.2) lcd

def lineAt (m : ℕ → BitVec 8) (adr : ℕ) (i : Fin 256) : Color := m (adr + 2 * i + 1) ++ m (adr + 2 * i)

namespace CaptureState

/-- A reset, with the LCDC memory and the FIFO as they are. -/
def reset (lcd blankMemory : ℕ → BitVec 8) (fifo : DispFifo) : CaptureState :=
  { dispCapCnt := ⟨0, false, 0, 0, 0, 0, 0, 0, 0, 0, 0, ._128, 0⟩
    reg := 0
    lcd := lcd
    blankMemory := blankMemory
    fifo := fifo
    VCount := 262
    hblankDue := false
    skip2D := false }

/-! ### A line -/

variable (s : CaptureState)

/-- `cap_dst_adr`. -/
def capDstAdr (length l : ℕ) : ℕ :=
  ((s.dispCapCnt.writeOffset.toNat * 64 * 256 + l * length) * 2 &&& 0x1FFFF) +
    s.dispCapCnt.writeBlock.toNat * 256 * 256 * 2

/-- `cap_src_adr`. -/
def capSrcAdr (l : ℕ) : ℕ :=
  ((s.dispCapCnt.readOffset.toNat * 64 * 256 + l * 256) * 2 &&& 0x1FFFF) +
    s.dispCapCnt.readBlock.toNat * 256 * 256 * 2

/-- `cap_src`. -/
def capSrcLine (lcdc : BitVec 2 → Bool) (l : ℕ) : Fin 256 → Color :=
  if lcdc s.dispCapCnt.readBlock then lineAt s.lcd (s.capSrcAdr l) else lineAt s.blankMemory 0

/-- `_RenderLine_DispCapture_FIFOToBuffer`. -/
def fifoToBuffer : DispFifo × (Fin 256 → Color) :=
  (s.fifo.recvLine.1, fun i =>
    (s.fifo.recvLine.2 (fifoWord i)).extractLsb' (16 * (i % 2)) 16)

/-- The FIFO and the colours of a line. The place that a pixel is written to is read, if at all, for
that pixel: lines begin at multiples of the size of the shorter ones. -/
def captureColors (input : CaptureInput) (l : ℕ) : DispFifo × (Fin 256 → Color) :=
  let c := s.dispCapCnt
  let srcA := if c.srcA = 0 then input.currDst else input.frame3D
  let blend (srcB : Fin 256 → Color) (i : Fin 256) := captureBlend (srcA i) (srcB i) c.EVA c.EVB
  match c.capSrc with
  | 0 => (s.fifo, if c.srcA = 0 then fun i => srcA i ||| 0x8000 else srcA)
  | 1 =>
    if c.srcB = 0 then (s.fifo, fun i => s.capSrcLine input.lcdc l i ||| 0x8000) else s.fifoToBuffer
  | _ =>
    if c.srcB = 1 then (s.fifoToBuffer.1, blend s.fifoToBuffer.2)
    else (s.fifo, blend (s.capSrcLine input.lcdc l))

def captureStart (l : ℕ) : CaptureState :=
  if l = 0 ∧ s.dispCapCnt.val.msb = true then
    { s with dispCapCnt := { s.dispCapCnt with enabled := true }, reg := s.dispCapCnt.val }
  else s

def capturePixels (length l : ℕ) (input : CaptureInput) : LcdWrites :=
  (List.range length).map fun i =>
    (s.capDstAdr length l + 2 * i, (s.captureColors input l).2 (Fin.ofNat 256 i))

def captureLine (length l : ℕ) (input : CaptureInput) : CaptureState :=
  if length ≠ 0 then
    { s with
      lcd := lcdAfter s.lcd (s.capturePixels length l input)
      fifo := (s.captureColors input l).1 }
  else s

def captureStop (l : ℕ) : CaptureState :=
  if 191 ≤ l then
    { s with
      dispCapCnt :=
        { s.dispCapCnt with enabled := false, val := s.dispCapCnt.val &&& 0x7FFFFFFF }
      reg := s.dispCapCnt.val &&& 0x7FFFFFFF }
  else s

/-- `_RenderLine_DisplayCapture`, and what it writes. -/
def renderLineDisplayCapture (length l : ℕ) (input : CaptureInput) : CaptureState × LcdWrites :=
  let s := s.captureStart l
  if !s.dispCapCnt.enabled then (s, [])
  else ((s.captureLine length l input).captureStop l, s.capturePixels length l input)

/-- The `CAPTURELENGTH` of a line: there is none below the capture, or without a bank to write to. -/
def captureLength (l : ℕ) (input : CaptureInput) : ℕ :=
  if input.lcdc s.dispCapCnt.writeBlock ∧ l < s.dispCapCnt.capy then s.dispCapCnt.capx.length
  else 0

/-- The part of the display modes that reaches beyond the screen. -/
def handleDisplayMode (input : CaptureInput) : CaptureState :=
  match input.dispMode with
  | .mainMemory => { s with fifo := s.fifo.recvLine.1 }
  | _ => s

def resetFifoAfter (l : ℕ) : CaptureState := if l = 191 then { s with fifo := s.fifo.reset } else s

/-- The master brightness leaves nothing to see of a line. -/
def allWhiteOrBlack (input : CaptureInput) : Bool :=
  16 ≤ input.MasterBrightFactor.val &&
    (input.MasterBrightMode = .up || input.MasterBrightMode = .down)

/-- `GPUEngineA::RenderLine`, as far as it changes more than the screen. -/
def renderLine (showGpu : Bool) (l : ℕ) (input : CaptureInput) : CaptureState × LcdWrites :=
  if s.skip2D then
    let r := s.renderLineDisplayCapture 0 l input
    (r.1.resetFifoAfter l, r.2)
  else if !showGpu then (s, [])
  else if allWhiteOrBlack input && (!s.dispCapCnt.enabled && l ≠ 0 && l ≠ 191) then (s, [])
  else
    let s := s.handleDisplayMode input
    let r := s.renderLineDisplayCapture (s.captureLength l input) l input
    (r.1.resetFifoAfter l, r.2)

/-! ### Runs -/

/-- `execHardware_hblank`. -/
def hblank (showGpu : Bool) (input : CaptureInput) : CaptureState × LcdWrites :=
  let r := if s.VCount < 192 then s.renderLine showGpu s.VCount.toNat input else (s, [])
  ({ r.1 with hblankDue := false }, r.2)

/-- `execHardware_hstart`: the frame skipper decides when the last scanline begins. -/
def hstart (skipNext : Bool) : CaptureState :=
  let VCount := s.VCount + 1
  { s with
    VCount := if VCount = 263 then 0 else VCount
    skip2D := if VCount = 262 then skipNext else s.skip2D
    hblankDue := true }

end CaptureState

/-- A write to `DISPCAPCNT` of each width, with `DISPCNT` as it is then; a write to `VCOUNT`, to the
FIFO and to the VRAM; and the next event of the scanlines. -/
inductive CaptureOp where
  | write32 (dispCnt : DispCnt) (val : BitVec 32)
  | write16 (dispCnt : DispCnt) (upper : Bool) (val : BitVec 16)
  | write8 (i : Fin 4) (val : BitVec 8)
  | vcount (val : BitVec 16)
  | fifoSend (val : BitVec 32)
  | vram (adr : ℕ) (val : BitVec 8)
  | dispcnt (input : CaptureInput) (skipNext : Bool)

namespace CaptureState

variable (showGpu : Bool) (s : CaptureState)

def writeReg (dispCnt : DispCnt) (v : BitVec 32) : CaptureState :=
  { s with dispCapCnt := setDISPCAPCNT dispCnt v s.dispCapCnt, reg := v }

def step : CaptureState → CaptureOp → CaptureState
  | s, .write32 dispCnt val => s.writeReg dispCnt val
  | s, .write16 dispCnt upper val =>
    s.writeReg dispCnt
      (if upper then (s.reg &&& 0xFFFF) ||| val.setWidth 32 <<< 16
        else (s.reg &&& 0xFFFF0000) ||| val.setWidth 32)
  | s, .write8 i val =>
    { s with
      reg := (s.reg &&& ~~~ ((0xFF : BitVec 32) <<< (8 * i.val))) ||| val.setWidth 32 <<< (8 * i.val) }
  | s, .vcount val =>
    if 202 ≤ s.VCount ∧ s.VCount ≤ 212 then { s with VCount := val.setWidth 32 } else s
  | s, .fifoSend val => { s with fifo := s.fifo.send val }
  | s, .vram adr val => { s with lcd := Function.update s.lcd adr val }
  | s, .dispcnt input skipNext =>
    if s.hblankDue then (s.hblank showGpu input).1 else s.hstart skipNext

/-- What the capture of a step writes. -/
def captured (input : CaptureInput) : LcdWrites :=
  if s.hblankDue then (s.hblank showGpu input).2 else []

/-! ### What a line leaves behind -/

/-- The scanlines' own part of the state. -/
def scan : BitVec 32 × Bool × Bool := (s.VCount, s.hblankDue, s.skip2D)

/-- The capture goes on in line `l`, or begins there. -/
def Capturing (l : ℕ) : Prop :=
  s.dispCapCnt.enabled = true ∨ l = 0 ∧ s.dispCapCnt.val.msb = true

instance (l : ℕ) : Decidable (s.Capturing l) := inferInstanceAs (Decidable (_ ∨ _))

variable {showGpu s} {l length : ℕ} {input : CaptureInput}

theorem captureStart_eq_self (h : ¬ s.Capturing l) : s.captureStart l = s :=
  if_neg fun hl => h (.inr hl)

theorem captureStart_enabled : (s.captureStart l).dispCapCnt.enabled = true ↔ s.Capturing l := by
  rw [captureStart, Capturing]
  split_ifs with h
  · exact iff_of_true rfl (.inr h)
  · rw [or_iff_left h]

theorem captureStart_dispCapCnt (h : s.Capturing l) :
    (s.captureStart l).dispCapCnt = { s.dispCapCnt with enabled := true } := by
  rw [captureStart]
  split_ifs with hl
  · rfl
  · obtain henabled | hbegin := h
    · rw [← henabled]
    · exact absurd hbegin hl

@[simp] theorem captureStart_scan : (s.captureStart l).scan = s.scan := by
  rw [captureStart]
  split_ifs <;> rfl

@[simp] theorem captureStart_lcd : (s.captureStart l).lcd = s.lcd := by
  rw [captureStart]
  split_ifs <;> rfl

@[simp] theorem capturePixels_captureStart :
    (s.captureStart l).capturePixels length l input = s.capturePixels length l input := by
  rw [captureStart]
  split_ifs <;> rfl

@[simp] theorem captureLine_dispCapCnt :
    (s.captureLine length l input).dispCapCnt = s.dispCapCnt := by
  rw [captureLine]
  split_ifs <;> rfl

@[simp] theorem captureLine_scan : (s.captureLine length l input).scan = s.scan := by
  rw [captureLine]
  split_ifs <;> rfl

theorem captureLine_lcd :
    (s.captureLine length l input).lcd = lcdAfter s.lcd (s.capturePixels length l input) := by
  rw [captureLine]
  split_ifs with h
  · rfl
  · rw [not_not.mp h]
    rfl

@[simp] theorem captureStop_scan : (s.captureStop l).scan = s.scan := by
  rw [captureStop]
  split_ifs <;> rfl

@[simp] theorem captureStop_lcd : (s.captureStop l).lcd = s.lcd := by
  rw [captureStop]
  split_ifs <;> rfl

@[simp] theorem resetFifoAfter_scan : (s.resetFifoAfter l).scan = s.scan := by
  rw [resetFifoAfter]
  split_ifs <;> rfl

@[simp] theorem resetFifoAfter_lcd : (s.resetFifoAfter l).lcd = s.lcd := by
  rw [resetFifoAfter]
  split_ifs <;> rfl

@[simp] theorem resetFifoAfter_reg : (s.resetFifoAfter l).reg = s.reg := by
  rw [resetFifoAfter]
  split_ifs <;> rfl

@[simp] theorem resetFifoAfter_dispCapCnt : (s.resetFifoAfter l).dispCapCnt = s.dispCapCnt := by
  rw [resetFifoAfter]
  split_ifs <;> rfl

/-- The settings after a line of a capture. -/
def lineDone (l : ℕ) (c : DispCapCnt) : DispCapCnt :=
  if 191 ≤ l then { c with enabled := false, val := c.val &&& 0x7FFFFFFF }
  else { c with enabled := true }

theorem renderLineDisplayCapture_idle (h : ¬ s.Capturing l) :
    s.renderLineDisplayCapture length l input = (s, []) := by
  have hoff : (!(s.captureStart l).dispCapCnt.enabled) = true := by
    rw [Bool.not_eq_true', ← Bool.not_eq_true, captureStart_enabled]
    exact h
  rw [renderLineDisplayCapture, if_pos hoff, captureStart_eq_self h]

theorem renderLineDisplayCapture_active (h : s.Capturing l) :
    s.renderLineDisplayCapture length l input =
      (((s.captureStart l).captureLine length l input).captureStop l,
        s.capturePixels length l input) := by
  have hon : ¬ (!(s.captureStart l).dispCapCnt.enabled) = true := by
    rw [captureStart_enabled.mpr h]
    decide
  rw [renderLineDisplayCapture, if_neg hon, capturePixels_captureStart]

theorem renderLineDisplayCapture_dispCapCnt :
    (s.renderLineDisplayCapture length l input).1.dispCapCnt =
      if s.Capturing l then lineDone l s.dispCapCnt else s.dispCapCnt := by
  split_ifs with h
  · rw [renderLineDisplayCapture_active h, captureStop, lineDone]
    split_ifs
    · rw [captureLine_dispCapCnt, captureStart_dispCapCnt h]
    · rw [captureLine_dispCapCnt, captureStart_dispCapCnt h]
  · rw [renderLineDisplayCapture_idle h]

theorem renderLineDisplayCapture_writes :
    (s.renderLineDisplayCapture length l input).2 =
      if s.Capturing l then s.capturePixels length l input else [] := by
  split_ifs with h
  · rw [renderLineDisplayCapture_active h]
  · rw [renderLineDisplayCapture_idle h]

theorem renderLineDisplayCapture_lcd :
    (s.renderLineDisplayCapture length l input).1.lcd =
      lcdAfter s.lcd (s.renderLineDisplayCapture length l input).2 := by
  by_cases h : s.Capturing l
  · rw [renderLineDisplayCapture_active h, captureStop_lcd, captureLine_lcd,
      capturePixels_captureStart, captureStart_lcd]
  · rw [renderLineDisplayCapture_idle h]
    rfl

@[simp] theorem renderLineDisplayCapture_scan :
    (s.renderLineDisplayCapture length l input).1.scan = s.scan := by
  by_cases h : s.Capturing l
  · simp only [renderLineDisplayCapture_active h, captureStop_scan, captureLine_scan,
      captureStart_scan]
  · rw [renderLineDisplayCapture_idle h]

theorem renderLineDisplayCapture_reg (h : s.Capturing l) (hl : 191 ≤ l) :
    (s.renderLineDisplayCapture length l input).1.reg = s.dispCapCnt.val &&& 0x7FFFFFFF := by
  rw [renderLineDisplayCapture_active h, captureStop, if_pos hl]
  simp only [captureLine_dispCapCnt, captureStart_dispCapCnt h]

@[simp] theorem handleDisplayMode_scan : (s.handleDisplayMode input).scan = s.scan := by
  rw [scan, scan, handleDisplayMode]
  split <;> rfl

@[simp] theorem handleDisplayMode_lcd : (s.handleDisplayMode input).lcd = s.lcd := by
  rw [handleDisplayMode]
  split <;> rfl

@[simp] theorem handleDisplayMode_dispCapCnt :
    (s.handleDisplayMode input).dispCapCnt = s.dispCapCnt := by
  rw [handleDisplayMode]
  split <;> rfl

@[simp] theorem capturing_handleDisplayMode :
    (s.handleDisplayMode input).Capturing l ↔ s.Capturing l := by
  rw [Capturing, Capturing, handleDisplayMode_dispCapCnt]

@[simp] theorem captureLength_handleDisplayMode :
    (s.handleDisplayMode input).captureLength l input = s.captureLength l input := by
  rw [captureLength, captureLength, handleDisplayMode_dispCapCnt]

/-- What a line that is rendered makes of the state. -/
def rendered (s : CaptureState) (length l : ℕ) (input : CaptureInput) : CaptureState × LcdWrites :=
  ((s.renderLineDisplayCapture length l input).1.resetFifoAfter l,
    (s.renderLineDisplayCapture length l input).2)

theorem renderLine_skip (h : s.skip2D = true) :
    s.renderLine showGpu l input = s.rendered 0 l input := if_pos h

theorem renderLine_hidden (hskip : s.skip2D = false) (h : showGpu = false) :
    s.renderLine showGpu l input = (s, []) := by
  rw [renderLine, if_neg (by rw [hskip]; decide), if_pos (by rw [h]; rfl)]

/-- A line that goes through the early exit is none of a capture. -/
theorem renderLine_shown (l : ℕ) (input : CaptureInput) (hskip : s.skip2D = false) (h : showGpu = true) :
    s.renderLine showGpu l input =
        (s.handleDisplayMode input).rendered (s.captureLength l input) l input ∨
      ¬ s.Capturing l ∧ s.renderLine showGpu l input = (s, []) := by
  rw [renderLine, if_neg (by rw [hskip]; decide), if_neg (by rw [h]; decide)]
  split_ifs with hquick
  · refine .inr ⟨?_, rfl⟩
    simp only [Bool.and_eq_true, Bool.not_eq_true', decide_eq_true_eq] at hquick
    obtain ⟨-, ⟨henabled, hl⟩, -⟩ := hquick
    rintro (hon | ⟨hzero, -⟩)
    · rw [hon] at henabled
      exact absurd henabled (by decide)
    · exact hl hzero
  · rw [← captureLength_handleDisplayMode]
    exact .inl rfl

/-- The lines of the engine are shown, or skipped with what they leave behind. -/
def Runs (showGpu : Bool) (s : CaptureState) : Prop := showGpu = true ∨ s.skip2D = true

instance : Decidable (s.Runs showGpu) := inferInstanceAs (Decidable (_ ∨ _))

theorem renderLine_dispCapCnt :
    (s.renderLine showGpu l input).1.dispCapCnt =
      if s.Runs showGpu ∧ s.Capturing l then lineDone l s.dispCapCnt else s.dispCapCnt := by
  cases hskip : s.skip2D with
  | true =>
    rw [renderLine_skip hskip, rendered, resetFifoAfter_dispCapCnt,
      renderLineDisplayCapture_dispCapCnt]
    simp only [Runs, hskip, or_true, true_and]
  | false =>
    cases showGpu with
    | false =>
      rw [renderLine_hidden hskip rfl, if_neg]
      rintro ⟨h | h, -⟩
      · exact absurd h (by decide)
      · exact absurd (hskip.symm.trans h) (by decide)
    | true =>
      obtain h | ⟨hidle, h⟩ := renderLine_shown l input hskip rfl
      · rw [h, rendered, resetFifoAfter_dispCapCnt, renderLineDisplayCapture_dispCapCnt]
        simp only [Runs, true_or, true_and, capturing_handleDisplayMode,
          handleDisplayMode_dispCapCnt]
      · rw [h, if_neg fun hboth => hidle hboth.2]

theorem renderLine_reg (hruns : s.Runs showGpu) (h : s.Capturing l) (hl : 191 ≤ l) :
    (s.renderLine showGpu l input).1.reg = s.dispCapCnt.val &&& 0x7FFFFFFF := by
  cases hskip : s.skip2D with
  | true =>
    rw [renderLine_skip hskip, rendered, resetFifoAfter_reg, renderLineDisplayCapture_reg h hl]
  | false =>
    have hshow : showGpu = true := hruns.resolve_right (by rw [hskip]; decide)
    obtain hline | ⟨hidle, -⟩ := renderLine_shown l input hskip hshow
    · rw [hline, rendered, resetFifoAfter_reg,
        renderLineDisplayCapture_reg (capturing_handleDisplayMode.mpr h) hl,
        handleDisplayMode_dispCapCnt]
    · exact absurd h hidle

theorem renderLine_lcd :
    (s.renderLine showGpu l input).1.lcd = lcdAfter s.lcd (s.renderLine showGpu l input).2 := by
  cases hskip : s.skip2D with
  | true =>
    rw [renderLine_skip hskip, rendered, resetFifoAfter_lcd, renderLineDisplayCapture_lcd]
  | false =>
    cases showGpu with
    | false =>
      rw [renderLine_hidden hskip rfl]
      rfl
    | true =>
      obtain h | ⟨-, h⟩ := renderLine_shown l input hskip rfl
      · rw [h, rendered, resetFifoAfter_lcd, renderLineDisplayCapture_lcd, handleDisplayMode_lcd]
      · rw [h]
        rfl

theorem renderLine_scan : (s.renderLine showGpu l input).1.scan = s.scan := by
  cases hskip : s.skip2D with
  | true => rw [renderLine_skip hskip, rendered, resetFifoAfter_scan, renderLineDisplayCapture_scan]
  | false =>
    cases showGpu with
    | false => rw [renderLine_hidden hskip rfl]
    | true =>
      obtain h | ⟨-, h⟩ := renderLine_shown l input hskip rfl
      · rw [h, rendered, resetFifoAfter_scan, renderLineDisplayCapture_scan, handleDisplayMode_scan]
      · rw [h]

@[simp] theorem capturePixels_zero : s.capturePixels 0 l input = [] := rfl

/-- The pixels that a line writes: none without a capture, and none in a frame that is skipped. -/
theorem renderLine_writes :
    (s.renderLine showGpu l input).2 =
      if s.skip2D = false ∧ showGpu = true ∧ s.Capturing l then
        (s.handleDisplayMode input).capturePixels (s.captureLength l input) l input
      else [] := by
  cases hskip : s.skip2D with
  | true =>
    rw [renderLine_skip hskip, rendered, renderLineDisplayCapture_writes, capturePixels_zero,
      ite_self, if_neg (by simp)]
  | false =>
    cases showGpu with
    | false => rw [renderLine_hidden hskip rfl, if_neg (by simp)]
    | true =>
      obtain h | ⟨hidle, h⟩ := renderLine_shown l input hskip rfl
      · rw [h, rendered, renderLineDisplayCapture_writes]
        simp only [capturing_handleDisplayMode, true_and]
      · rw [h, if_neg fun hall => hidle hall.2.2]

/-! ### The places of a line -/

def captureBlock (val : BitVec 32) : ℕ := val.toNat / 2 ^ 16 % 4

def captureOffset (val : BitVec 32) : ℕ := val.toNat / 2 ^ 18 % 4

def captureSize (val : BitVec 32) : ℕ := val.toNat / 2 ^ 20 % 4

def captureWidth (val : BitVec 32) : ℕ := if captureSize val = 0 then 128 else 256

def captureHeight (val : BitVec 32) : ℕ :=
  if captureSize val = 3 then 192 else if captureSize val = 1 then 64 else 128

def captureAddress (val : BitVec 32) (l : ℕ) : ℕ :=
  captureBlock val * 0x20000 + (captureOffset val * 0x8000 + l * captureWidth val * 2) % 0x20000

/-- A line does not reach over the end of its block. -/
theorem captureAddress_inside (val : BitVec 32) (l : ℕ) :
    captureAddress val l + 2 * captureWidth val ≤ (captureBlock val + 1) * 0x20000 := by
  rw [captureAddress, captureWidth]
  split_ifs <;> omega

/-- The settings that say where a line goes are the ones of the value. -/
structure Decoded (c : DispCapCnt) : Prop where
  block : c.writeBlock = c.val.extractLsb' 16 2
  offset : c.writeOffset = c.val.extractLsb' 18 2
  width : c.capx.length = captureWidth c.val
  height : c.capy = captureHeight c.val

theorem toNat_field (val : BitVec 32) (k : ℕ) :
    (val.extractLsb' k 2).toNat = val.toNat / 2 ^ k % 4 := by
  rw [BitVec.extractLsb'_toNat, Nat.shiftRight_eq_div_pow]

theorem setDISPCAPCNT_decoded (dispCnt : DispCnt) (val : BitVec 32) (c : DispCapCnt) :
    Decoded (setDISPCAPCNT dispCnt val c) := by
  have hsize := toNat_field val 20
  refine ⟨rfl, rfl, ?_, ?_⟩
  · simp only [setDISPCAPCNT, captureWidth, captureSize, ← hsize]
    generalize val.extractLsb' 20 2 = size
    revert size
    decide
  · simp only [setDISPCAPCNT, captureHeight, captureSize, ← hsize]
    generalize val.extractLsb' 20 2 = size
    revert size
    decide

theorem capDstAdr_eq (h : Decoded s.dispCapCnt) (l : ℕ) :
    s.capDstAdr (captureWidth s.dispCapCnt.val) l = captureAddress s.dispCapCnt.val l := by
  have hmask (n : ℕ) : n &&& 0x1FFFF = n % 2 ^ 17 := Nat.and_two_pow_sub_one_eq_mod n 17
  rw [capDstAdr, captureAddress, hmask, h.block, h.offset, toNat_field, toNat_field, captureOffset,
    captureBlock]
  generalize s.dispCapCnt.val.toNat / 2 ^ 18 % 4 = offset
  generalize s.dispCapCnt.val.toNat / 2 ^ 16 % 4 = block
  generalize l * captureWidth s.dispCapCnt.val = ofs
  omega

theorem lcdAfter_apart {ws : LcdWrites} (lcd : ℕ → BitVec 8) {a : ℕ}
    (h : ∀ w ∈ ws, a ≠ w.1 ∧ a ≠ w.1 + 1) : lcdAfter lcd ws a = lcd a := by
  induction ws generalizing lcd with
  | nil => rfl
  | cons w ws ih =>
    have hrest := ih (writeWord 2 lcd w.1 w.2) fun v hv => h v (List.mem_cons_of_mem _ hv)
    obtain ⟨hfirst, hsecond⟩ := h w List.mem_cons_self
    rw [lcdAfter, List.foldl_cons, ← lcdAfter, hrest]
    rcases Nat.lt_or_gt_of_ne hfirst with hlt | hgt
    · exact writeWord_apply_of_lt _ hlt
    · exact writeWord_apply_of_le _ (by omega)

/-- Pixels beside each other are all there afterwards. -/
theorem lcdAfter_read {ws : LcdWrites} (lcd : ℕ → BitVec 8)
    (hws : ws.Pairwise fun w v => w.1 + 2 ≤ v.1) {w : ℕ × Color} (hw : w ∈ ws) :
    readWord 2 (lcdAfter lcd ws) w.1 = w.2 := by
  induction ws generalizing lcd with
  | nil => exact absurd hw List.not_mem_nil
  | cons v ws ih =>
    obtain ⟨hfirst, hrest⟩ := List.pairwise_cons.mp hws
    rw [lcdAfter, List.foldl_cons, ← lcdAfter]
    rcases List.mem_cons.mp hw with rfl | hmem
    · have hcell : readWord 2 (lcdAfter (writeWord 2 lcd w.1 w.2) ws) w.1 =
          readWord 2 (writeWord 2 lcd w.1 w.2) w.1 := by
        refine readWord_congr fun a hle hlt => lcdAfter_apart _ fun u hu => ?_
        have := hfirst u hu
        omega
      rw [hcell, readWord_writeWord]
    · exact ih _ hrest hmem

theorem capturePixels_places (s : CaptureState) (length l : ℕ) (input : CaptureInput) :
    (s.capturePixels length l input).map Prod.fst =
      (List.range length).map (s.capDstAdr length l + 2 * ·) := by
  rw [capturePixels, List.map_map]
  rfl

theorem capturePixels_pairwise (s : CaptureState) (length l : ℕ) (input : CaptureInput) :
    (s.capturePixels length l input).Pairwise fun w v => w.1 + 2 ≤ v.1 := by
  rw [capturePixels, List.pairwise_map]
  exact List.pairwise_lt_range.imp fun h => by omega

/-! ### Runs of scanlines and register writes -/

/-- The step is the `HBlank` of line `l`. -/
def LineStep (l : ℕ) (s : CaptureState) (op : CaptureOp) : Prop :=
  s.hblankDue = true ∧ s.VCount.toNat = l ∧ ∃ input skipNext, op = .dispcnt input skipNext

/-- The step is the first line of a frame, with the enable bit set. -/
def StartsCapture (showGpu : Bool) (s : CaptureState) (op : CaptureOp) : Prop :=
  LineStep 0 s op ∧ s.dispCapCnt.val.msb = true ∧ s.Runs showGpu

/-- The next event captures a line. -/
def CapturesLine (showGpu : Bool) (s : CaptureState) (input : CaptureInput) : Prop :=
  s.hblankDue = true ∧ s.VCount.toNat < 192 ∧ s.Capturing s.VCount.toNat ∧
    showGpu = true ∧ s.skip2D = false ∧
    input.lcdc (s.dispCapCnt.val.extractLsb' 16 2) = true ∧
    s.VCount.toNat < captureHeight s.dispCapCnt.val

instance : Decidable (CapturesLine showGpu s input) := inferInstanceAs (Decidable (_ ∧ _))

structure CaptureInv (showGpu : Bool) (s : CaptureState) : Prop where
  visible : s.dispCapCnt.enabled = true → s.VCount.toNat ≤ 191
  started : s.dispCapCnt.enabled = true → s.hblankDue = true → 0 < s.VCount.toNat
  stopped : s.dispCapCnt.enabled = true → s.hblankDue = false → s.VCount.toNat ≠ 191
  runs : s.dispCapCnt.enabled = true → s.Runs showGpu
  decoded : ∀ l, s.Capturing l → Decoded s.dispCapCnt

theorem reset_inv (lcd blankMemory : ℕ → BitVec 8) (fifo : DispFifo) :
    CaptureInv showGpu (reset lcd blankMemory fifo) := by
  have hoff : ¬ (reset lcd blankMemory fifo).dispCapCnt.enabled = true := Bool.false_ne_true
  refine ⟨fun h => absurd h hoff, fun h => absurd h hoff, fun h => absurd h hoff,
    fun h => absurd h hoff, ?_⟩
  rintro l (h | ⟨-, h⟩)
  · exact absurd h hoff
  · exact absurd h (by decide : ¬ (0 : BitVec 32).msb = true)

/-- Neither the settings nor the scanlines are touched. -/
theorem CaptureInv.congr {s' : CaptureState} (h : CaptureInv showGpu s)
    (hcap : s'.dispCapCnt = s.dispCapCnt) (hscan : s'.scan = s.scan) : CaptureInv showGpu s' := by
  simp only [scan, Prod.mk.injEq] at hscan
  obtain ⟨hcount, hdue, hskip⟩ := hscan
  refine ⟨?_, ?_, ?_, ?_, ?_⟩
  · rw [hcap, hcount]
    exact h.visible
  · rw [hcap, hcount, hdue]
    exact h.started
  · rw [hcap, hcount, hdue]
    exact h.stopped
  · rw [hcap, Runs, hskip]
    exact h.runs
  · simp only [Capturing, hcap]
    exact h.decoded

theorem writeReg_inv (h : CaptureInv showGpu s) (dispCnt : DispCnt) (v : BitVec 32) :
    CaptureInv showGpu (s.writeReg dispCnt v) :=
  ⟨h.visible, h.started, h.stopped, h.runs, fun _ _ => setDISPCAPCNT_decoded dispCnt v _⟩

theorem hblank_dispCapCnt :
    (s.hblank showGpu input).1.dispCapCnt =
      if s.VCount.toNat < 192 ∧ s.Runs showGpu ∧ s.Capturing s.VCount.toNat then
        lineDone s.VCount.toNat s.dispCapCnt
      else s.dispCapCnt := by
  have hlt : s.VCount < 192 ↔ s.VCount.toNat < 192 := BitVec.lt_def
  rw [hblank]
  by_cases h : s.VCount < 192
  · simp only [if_pos h, renderLine_dispCapCnt, hlt.mp h, true_and]
  · simp only [if_neg h, hlt.not.mp h, false_and, if_false]

theorem hblank_scan (s : CaptureState) (showGpu : Bool) (input : CaptureInput) :
    (s.hblank showGpu input).1.scan = (s.VCount, false, s.skip2D) := by
  have hline : (if s.VCount < 192 then s.renderLine showGpu s.VCount.toNat input else (s, [])).1.scan =
      s.scan := by
    split_ifs
    · exact renderLine_scan
    · rfl
  simp only [scan, Prod.mk.injEq] at hline
  rw [hblank, scan, hline.1, hline.2.2]

/-- After a line the capture goes on if it ran in the line and this was not the last one. -/
theorem hblank_enabled (h : CaptureInv showGpu s) :
    (s.hblank showGpu input).1.dispCapCnt.enabled = true ↔
      s.VCount.toNat < 191 ∧ s.Runs showGpu ∧ s.Capturing s.VCount.toNat := by
  rw [hblank_dispCapCnt]
  split_ifs with hact
  · rw [lineDone]
    split_ifs with hlast
    · exact iff_of_false id fun hall => by omega
    · exact iff_of_true rfl ⟨by omega, hact.2⟩
  · refine iff_of_false (fun henabled => hact ?_) fun hall => hact ⟨by omega, hall.2⟩
    exact ⟨Nat.lt_succ_of_le (h.visible henabled), h.runs henabled, .inl henabled⟩

theorem msb_cleared (v : BitVec 32) : (v &&& 0x7FFFFFFF).msb = false := by
  rw [BitVec.msb_and]
  exact Bool.and_false _

theorem hblank_inv (h : CaptureInv showGpu s) :
    CaptureInv showGpu (s.hblank showGpu input).1 := by
  have hscan := hblank_scan s showGpu input
  simp only [scan, Prod.mk.injEq] at hscan
  obtain ⟨hcount, hdue, hskip⟩ := hscan
  refine ⟨fun henabled => ?_, fun _ hblank => ?_, fun henabled _ => ?_, fun henabled => ?_, ?_⟩
  · rw [hcount]
    exact ((hblank_enabled h).mp henabled).1.le
  · rw [hdue] at hblank
    exact absurd hblank Bool.false_ne_true
  · rw [hcount]
    exact ((hblank_enabled h).mp henabled).1.ne
  · rw [Runs, hskip]
    exact ((hblank_enabled h).mp henabled).2.1
  · rw [hblank_dispCapCnt]
    intro l hcapturing
    rw [Capturing, hblank_dispCapCnt] at hcapturing
    split_ifs at hcapturing ⊢ with hact
    · have hold := h.decoded _ hact.2.2
      rw [lineDone] at hcapturing ⊢
      split_ifs at hcapturing ⊢ with hlast
      · -- Both copies of the enable bit are gone.
        rcases hcapturing with hon | ⟨-, hbit⟩
        · exact absurd hon id
        · exact absurd hbit (by rw [msb_cleared]; decide)
      · exact ⟨hold.block, hold.offset, hold.width, hold.height⟩
    · exact h.decoded l hcapturing

theorem toNat_succ_of_lt {x : BitVec 32} (h : x.toNat < 191) : (x + 1).toNat = x.toNat + 1 := by
  have hone : (1 : BitVec 32).toNat = 1 := rfl
  exact BitVec.toNat_add_of_lt (by omega)

theorem hstart_inv (h : CaptureInv showGpu s) (hdue : s.hblankDue = false) (skipNext : Bool) :
    CaptureInv showGpu (s.hstart skipNext) := by
  have hlt : s.dispCapCnt.enabled = true → s.VCount.toNat < 191 := fun henabled =>
    lt_of_le_of_ne (h.visible henabled) (h.stopped henabled hdue)
  -- Within a capture the count goes on by one, and the frame stays what it is.
  have hnext : s.dispCapCnt.enabled = true → (s.VCount + 1).toNat = s.VCount.toNat + 1 :=
    fun henabled => toNat_succ_of_lt (hlt henabled)
  have hnot {k : BitVec 32} (hk : 192 ≤ k.toNat) :
      s.dispCapCnt.enabled = true → s.VCount + 1 ≠ k := by
    rintro henabled rfl
    have := hlt henabled
    rw [hnext henabled] at hk
    omega
  have hcount : s.dispCapCnt.enabled = true →
      (s.hstart skipNext).VCount.toNat = s.VCount.toNat + 1 := by
    intro henabled
    rw [hstart, if_neg (hnot (by decide) henabled), hnext henabled]
  refine ⟨fun henabled => ?_, fun henabled _ => ?_, fun _ hidle => ?_, fun henabled => ?_, ?_⟩
  · have := hlt henabled
    rw [hcount henabled]
    omega
  · rw [hcount henabled]
    exact Nat.succ_pos _
  · exact absurd hidle (Bool.noConfusion)
  · have hskip : (s.hstart skipNext).skip2D = s.skip2D := if_neg (hnot (by decide) henabled)
    rw [Runs, hskip]
    exact h.runs henabled
  · exact h.decoded

theorem step_inv (op : CaptureOp) (h : CaptureInv showGpu s) :
    CaptureInv showGpu (step showGpu s op) := by
  cases op with
  | write32 dispCnt val => exact writeReg_inv h dispCnt _
  | write16 dispCnt upper val => exact writeReg_inv h dispCnt _
  | write8 i val => exact h.congr rfl rfl
  | vcount val =>
    rw [step]
    split_ifs with hrange
    · have hoff : ¬ s.dispCapCnt.enabled = true := by
        intro henabled
        have hle : (202 : BitVec 32).toNat ≤ s.VCount.toNat := hrange.1
        exact absurd (hle.trans (h.visible henabled)) (by decide)
      exact ⟨fun hon => absurd hon hoff, fun hon => absurd hon hoff, fun hon => absurd hon hoff,
        fun hon => absurd hon hoff, h.decoded⟩
    · exact h
  | fifoSend val => exact h.congr rfl rfl
  | vram adr val => exact h.congr rfl rfl
  | dispcnt input skipNext =>
    rw [step]
    split_ifs with hdue
    · exact hblank_inv h
    · exact hstart_inv h (Bool.eq_false_of_not_eq_true hdue) skipNext

/-- What a step does to the flag. -/
theorem step_enabled (op : CaptureOp) (h : CaptureInv showGpu s) :
    (step showGpu s op).dispCapCnt.enabled = true ↔
      StartsCapture showGpu s op ∨ s.dispCapCnt.enabled = true ∧ ¬ LineStep 191 s op := by
  have hother (hop : ∀ l, ¬ LineStep l s op)
      (hsame : (step showGpu s op).dispCapCnt.enabled = s.dispCapCnt.enabled) :
      (step showGpu s op).dispCapCnt.enabled = true ↔
        StartsCapture showGpu s op ∨ s.dispCapCnt.enabled = true ∧ ¬ LineStep 191 s op := by
    rw [hsame, StartsCapture, and_iff_left (hop 191), or_iff_right fun hstart => hop 0 hstart.1]
  have hregister (hop : ∀ input skipNext, op ≠ .dispcnt input skipNext) (l : ℕ) :
      ¬ LineStep l s op := fun ⟨_, _, input, skipNext, heq⟩ => hop input skipNext heq
  cases op with
  | write32 dispCnt val => exact hother (hregister fun _ _ => nofun) rfl
  | write16 dispCnt upper val => exact hother (hregister fun _ _ => nofun) rfl
  | write8 i val => exact hother (hregister fun _ _ => nofun) rfl
  | vcount val =>
    refine hother (hregister fun _ _ => nofun) ?_
    rw [step]
    split_ifs <;> rfl
  | fifoSend val => exact hother (hregister fun _ _ => nofun) rfl
  | vram adr val => exact hother (hregister fun _ _ => nofun) rfl
  | dispcnt input skipNext =>
    by_cases hdue : s.hblankDue = true
    · have hline (l : ℕ) : LineStep l s (.dispcnt input skipNext) ↔ s.VCount.toNat = l := by
        rw [LineStep, and_iff_right hdue, and_iff_left ⟨input, skipNext, rfl⟩]
      rw [step, if_pos hdue, hblank_enabled h, StartsCapture, hline, hline, Capturing]
      constructor
      · rintro ⟨hlt, hruns, henabled | ⟨hzero, hbit⟩⟩
        · exact .inr ⟨henabled, hlt.ne⟩
        · exact .inl ⟨hzero, hbit, hruns⟩
      · rintro (⟨hzero, hbit, hruns⟩ | ⟨henabled, hne⟩)
        · exact ⟨by omega, hruns, .inr ⟨hzero, hbit⟩⟩
        · exact ⟨lt_of_le_of_ne (h.visible henabled) hne, h.runs henabled, .inl henabled⟩
    · refine hother (fun l hline => hdue hline.1) ?_
      rw [step, if_neg hdue]
      rfl

/-- The last line clears the enable bit in both places. -/
theorem lastLine_clears (h : CaptureInv showGpu s) (henabled : s.dispCapCnt.enabled = true)
    {op : CaptureOp} (hop : LineStep 191 s op) :
    (step showGpu s op).dispCapCnt.enabled = false ∧
      (step showGpu s op).dispCapCnt.val.msb = false ∧ (step showGpu s op).reg.msb = false := by
  obtain ⟨hdue, hlast, input, skipNext, rfl⟩ := hop
  have hruns := h.runs henabled
  have hcapturing : s.Capturing s.VCount.toNat := .inl henabled
  have hcap : (s.hblank showGpu input).1.dispCapCnt =
      { s.dispCapCnt with enabled := false, val := s.dispCapCnt.val &&& 0x7FFFFFFF } := by
    rw [hblank_dispCapCnt, if_pos ⟨by omega, hruns, hcapturing⟩, lineDone, if_pos hlast.ge]
  have hreg : (s.hblank showGpu input).1.reg = s.dispCapCnt.val &&& 0x7FFFFFFF := by
    have hlt : s.VCount < 192 := BitVec.lt_def.mpr (by rw [hlast]; decide)
    rw [hblank, if_pos hlt]
    exact renderLine_reg hruns hcapturing hlast.ge
  rw [step, if_pos hdue, hcap, hreg]
  exact ⟨rfl, msb_cleared _, msb_cleared _⟩

theorem captured_eq (h : CaptureInv showGpu s) :
    s.captured showGpu input =
      if CapturesLine showGpu s input then
        (s.handleDisplayMode input).capturePixels (captureWidth s.dispCapCnt.val) s.VCount.toNat input
      else [] := by
  have hlt : s.VCount < 192 ↔ s.VCount.toNat < 192 := BitVec.lt_def
  rw [captured, hblank]
  by_cases hdue : s.hblankDue = true
  · by_cases hvisible : s.VCount < 192
    · rw [if_pos hdue, if_pos hvisible, renderLine_writes]
      by_cases hrun : s.skip2D = false ∧ showGpu = true ∧ s.Capturing s.VCount.toNat
      · have hdec := h.decoded _ hrun.2.2
        simp only [captureLength, hdec.block, hdec.width, hdec.height, CapturesLine, hdue,
          hlt.mp hvisible, hrun.1, hrun.2.1, hrun.2.2, true_and]
        split_ifs <;> rfl
      · rw [if_neg hrun, if_neg]
        rintro ⟨-, -, hcapturing, hshow, hskip, -⟩
        exact hrun ⟨hskip, hshow, hcapturing⟩
    · rw [if_pos hdue, if_neg hvisible, if_neg fun hline => hvisible (hlt.mpr hline.2.1)]
  · rw [if_neg hdue, if_neg fun hline => hdue hline.1]

theorem captured_places (h : CaptureInv showGpu s) :
    (s.captured showGpu input).map Prod.fst =
      if CapturesLine showGpu s input then
        (List.range (captureWidth s.dispCapCnt.val)).map
          (captureAddress s.dispCapCnt.val s.VCount.toNat + 2 * ·)
      else [] := by
  rw [captured_eq h]
  split_ifs with hline
  · have hdec : Decoded (s.handleDisplayMode input).dispCapCnt := by
      rw [handleDisplayMode_dispCapCnt]
      exact h.decoded _ hline.2.2.1
    have hadr := capDstAdr_eq hdec s.VCount.toNat
    rw [handleDisplayMode_dispCapCnt] at hadr
    rw [capturePixels_places, hadr]
  · rfl

theorem captured_pairwise (h : CaptureInv showGpu s) :
    (s.captured showGpu input).Pairwise fun w v => w.1 + 2 ≤ v.1 := by
  rw [captured_eq h]
  split_ifs
  · exact capturePixels_pairwise ..
  · exact List.Pairwise.nil

/-- The events of the scanlines change the memory by what they capture. -/
theorem step_dispcnt_lcd (skipNext : Bool) :
    (step showGpu s (.dispcnt input skipNext)).lcd = lcdAfter s.lcd (s.captured showGpu input) := by
  rw [step, captured]
  split_ifs
  · rw [hblank]
    split_ifs
    · exact renderLine_lcd
    · rfl
  · rfl

/-- In every run a capture is active exactly since the first line of a frame whose enable bit was set,
until the last line, which clears the bit in the register and in the engine. A line that is captured
writes the pixels of its width to its place in the block, and nothing else is written. -/
theorem displayCapture_run (showGpu : Bool) (lcd blankMemory : ℕ → BitVec 8) (fifo : DispFifo)
    (ops : List CaptureOp) :
    let start := reset lcd blankMemory fifo
    let s := run (step showGpu) start ops
    let val := s.dispCapCnt.val
    let l := s.VCount.toNat
    ((s.dispCapCnt.enabled = true ↔ ∃ pre op post, ops = pre ++ op :: post ∧
        StartsCapture showGpu (run (step showGpu) start pre) op ∧
        AtEach (step showGpu) (fun s op => ¬ LineStep 191 s op)
          (run (step showGpu) start (pre ++ [op])) post) ∧
      (s.dispCapCnt.enabled = true → l < 192) ∧
      ∀ op, s.dispCapCnt.enabled = true → LineStep 191 s op →
        (step showGpu s op).dispCapCnt.enabled = false ∧
          (step showGpu s op).dispCapCnt.val.msb = false ∧ (step showGpu s op).reg.msb = false) ∧
    (∀ input skipNext,
      let ws := s.captured showGpu input
      let s' := step showGpu s (.dispcnt input skipNext)
      ws.map Prod.fst =
          (if CapturesLine showGpu s input then
            (List.range (captureWidth val)).map (captureAddress val l + 2 * ·) else []) ∧
        captureAddress val l + 2 * captureWidth val ≤ (captureBlock val + 1) * 0x20000 ∧
        (∀ w ∈ ws, readWord 2 s'.lcd w.1 = w.2) ∧
        ∀ a, (∀ w ∈ ws, a ≠ w.1 ∧ a ≠ w.1 + 1) → s'.lcd a = s.lcd a) ∧
    ∀ op, (∀ input skipNext, op ≠ .dispcnt input skipNext) → (∀ adr v, op ≠ .vram adr v) →
      (step showGpu s op).lcd = s.lcd := by
  have hreset : CaptureInv showGpu (reset lcd blankMemory fifo) := reset_inv lcd blankMemory fifo
  intro start s val l
  have hinv : CaptureInv showGpu s := run_invariant (fun _ op h => step_inv op h) hreset ops
  refine ⟨⟨?_, fun henabled => Nat.lt_succ_of_le (hinv.visible henabled),
    fun op henabled => lastLine_clears hinv henabled⟩, fun input skipNext => ?_, fun op hevent hvram => ?_⟩
  · exact @flag_iff_since _ _ (step showGpu) (CaptureInv showGpu) (fun s => s.dispCapCnt.enabled = true)
      (StartsCapture showGpu) (LineStep 191) (fun _ op h => step_inv op h)
      (fun _ op h => step_enabled op h) _ hreset Bool.false_ne_true ops
  · refine ⟨captured_places hinv, captureAddress_inside val l, fun w hw => ?_, fun a ha => ?_⟩
    · rw [step_dispcnt_lcd]
      exact lcdAfter_read _ (captured_pairwise hinv) hw
    · rw [step_dispcnt_lcd]
      exact lcdAfter_apart _ ha
  · cases op with
    | write32 dispCnt val => rfl
    | write16 dispCnt upper val => rfl
    | write8 i val => rfl
    | vcount val =>
      rw [step]
      split_ifs <;> rfl
    | fifoSend val => rfl
    | vram adr val => exact absurd rfl (hvram adr val)
    | dispcnt input skipNext => exact absurd rfl (hevent input skipNext)

end CaptureState

end Desmume.Video
