import Desmume.Geometry.GxFifo
import Desmume.Geometry.MatrixStack
import Desmume.SaveState.Fields

/-! The state of the geometry engine: the variables of the table `SF_GFX3D`, the vertex and
polygon lists and the matrix stacks. -/

namespace Desmume.Geometry
open SaveState

def polylistSize : ℕ := 20000
def vertlistSize : ℕ := polylistSize * 4

/-- `VERT`; its floats are kept as their bits. -/
structure Vert where
  x : BitVec 32
  y : BitVec 32
  z : BitVec 32
  w : BitVec 32
  u : BitVec 32
  v : BitVec 32
  color : Fin 3 → BitVec 8
  fcolor : Fin 3 → BitVec 32

/-- `POLY`. -/
structure Poly where
  type : BitVec 32
  vtxFormat : BitVec 32
  vertIndexes : Fin 4 → BitVec 16
  polyAttr : BitVec 32
  texParam : BitVec 32
  texPalette : BitVec 32
  viewport : BitVec 32
  miny : BitVec 32
  maxy : BitVec 32

/-- `VERTLIST` and `POLYLIST`: the entries in use are the first `count` ones. -/
structure RecordList (α : Type) (cap : ℕ) where
  list : ℕ → α
  count : ℕ
  count_le : count ≤ cap

/-- The variables of `SF_GFX3D`. -/
inductive Gfx3dVar where
  | control | polyAttr | polyAttrPending | inBegin | textureFormat | texturePalette | mode
  | mtxTemporal | mtxCurrent | ml4x4ind | ml4x3ind | mm4x4ind | mm4x3ind | mm3x3ind | s16coord
  | coordind | vtxFormat | trans | transind | scale | scaleind | t | s | lastT | lastS | clCmd
  | clInd | clInd2 | isSwapBuffers | btind | ptind | ptcoords | btcoords | gxFifoHead
  | gxFifoTail | gxFifoSize | gxFifoMatrixStackOpSize | gxFifoCmd | gxFifoParam | gxPipeHead
  | gxPipeTail | gxPipeSize | gxPipeCmd | gxPipeParam | colorRGB | lightColor | lightDirection
  | dsDiffuse | dsAmbient | dsSpecular | dsEmission | flushPending | drawPending
  | enableTexturing | enableAlphaTest | enableAlphaBlending | enableAntialiasing
  | enableEdgeMarking | enableClearImage | enableFog | enableFogAlphaOnly | fogShift | shading
  | wbuffer | sortmode | alphaTestRef | viewport | clearColor | clearDepth | fogColor | fogOffset
  | u16ToonTable | shininessTable | shininessInd | activeFlushCommand | pendingFlushCommand
  | triStripToggle | tempVertInfoCount | tempVertInfoMap | tempVertInfoFirst
  deriving DecidableEq

/-- The bytes that the compiler gives a variable, padding behind `tempVertInfo.first` and
`fogColor` included. -/
def Gfx3dVar.bytes : Gfx3dVar → ℕ
  | .ml4x4ind | .ml4x3ind | .mm4x4ind | .mm4x3ind | .mm3x3ind | .coordind | .gxPipeHead
  | .gxPipeTail | .gxPipeSize | .alphaTestRef => 1
  | .dsDiffuse | .dsAmbient | .dsSpecular | .dsEmission => 2
  | .s16coord => 8
  | .btcoords => 12
  | .trans | .scale | .ptcoords | .gxPipeParam | .lightColor | .lightDirection | .fogColor
  | .tempVertInfoMap => 16
  | .mtxTemporal | .u16ToonTable => 64
  | .shininessTable => 128
  | .mtxCurrent => 256
  | .gxFifoCmd => hackGxfifoSize
  | .gxFifoParam => 4 * hackGxfifoSize
  | _ => 4

/-- A row of the table; the last one holds a pointer that is null when the table is set up. -/
structure Gfx3dRow where
  c1 : Char
  c2 : Char
  c3 : Char
  c4 : Char
  size : BitVec 32
  count : BitVec 32
  var : Option Gfx3dVar

def gfx3dRows : List Gfx3dRow :=
  [
    ⟨'G', 'C', 'T', 'L', 4, 1, some .control⟩,
    ⟨'G', 'P', 'A', 'T', 4, 1, some .polyAttr⟩,
    ⟨'G', 'P', 'A', 'P', 4, 1, some .polyAttrPending⟩,
    ⟨'G', 'I', 'N', 'B', 4, 1, some .inBegin⟩,
    ⟨'G', 'T', 'F', 'M', 4, 1, some .textureFormat⟩,
    ⟨'G', 'T', 'P', 'A', 4, 1, some .texturePalette⟩,
    ⟨'G', 'M', 'O', 'D', 4, 1, some .mode⟩,
    ⟨'G', 'M', 'T', 'M', 4, 16, some .mtxTemporal⟩,
    ⟨'G', 'M', 'C', 'U', 4, 64, some .mtxCurrent⟩,
    ⟨'M', 'L', '4', 'I', 1, 1, some .ml4x4ind⟩,
    ⟨'M', 'L', '3', 'I', 1, 1, some .ml4x3ind⟩,
    ⟨'M', 'M', '4', 'I', 1, 1, some .mm4x4ind⟩,
    ⟨'M', 'M', '3', 'I', 1, 1, some .mm4x3ind⟩,
    ⟨'M', 'M', 'x', 'I', 1, 1, some .mm3x3ind⟩,
    ⟨'G', 'S', 'C', 'O', 4, 1, some .s16coord⟩,
    ⟨'G', 'C', 'O', 'I', 1, 1, some .coordind⟩,
    ⟨'G', 'V', 'F', 'M', 4, 1, some .vtxFormat⟩,
    ⟨'G', 'T', 'R', 'N', 4, 4, some .trans⟩,
    ⟨'G', 'T', 'R', 'I', 1, 1, some .transind⟩,
    ⟨'G', 'S', 'C', 'A', 4, 4, some .scale⟩,
    ⟨'G', 'S', 'C', 'I', 1, 1, some .scaleind⟩,
    ⟨'G', '_', 'T', '_', 4, 1, some .t⟩,
    ⟨'G', '_', 'S', '_', 4, 1, some .s⟩,
    ⟨'G', 'L', '_', 'T', 4, 1, some .lastT⟩,
    ⟨'G', 'L', '_', 'S', 4, 1, some .lastS⟩,
    ⟨'G', 'L', 'C', 'M', 4, 1, some .clCmd⟩,
    ⟨'G', 'L', 'I', 'N', 4, 1, some .clInd⟩,
    ⟨'G', 'L', 'I', '2', 4, 1, some .clInd2⟩,
    ⟨'G', 'L', 'S', 'B', 4, 1, some .isSwapBuffers⟩,
    ⟨'G', 'L', 'B', 'T', 4, 1, some .btind⟩,
    ⟨'G', 'L', 'P', 'T', 4, 1, some .ptind⟩,
    ⟨'G', 'L', 'P', 'C', 4, 4, some .ptcoords⟩,
    ⟨'G', 'B', 'T', 'C', 2, 6, some .btcoords⟩,
    ⟨'G', 'F', 'H', 'E', 4, 1, some .gxFifoHead⟩,
    ⟨'G', 'F', 'T', 'A', 4, 1, some .gxFifoTail⟩,
    ⟨'G', 'F', 'S', 'Z', 4, 1, some .gxFifoSize⟩,
    ⟨'G', 'F', 'M', 'S', 4, 1, some .gxFifoMatrixStackOpSize⟩,
    ⟨'G', 'F', 'C', 'M', 1, .ofNat 32 hackGxfifoSize, some .gxFifoCmd⟩,
    ⟨'G', 'F', 'P', 'M', 4, .ofNat 32 hackGxfifoSize, some .gxFifoParam⟩,
    ⟨'G', 'P', 'H', 'E', 1, 1, some .gxPipeHead⟩,
    ⟨'G', 'P', 'T', 'A', 1, 1, some .gxPipeTail⟩,
    ⟨'G', 'P', 'S', 'Z', 1, 1, some .gxPipeSize⟩,
    ⟨'G', 'P', 'C', 'M', 1, 4, some .gxPipeCmd⟩,
    ⟨'G', 'P', 'P', 'M', 4, 4, some .gxPipeParam⟩,
    ⟨'G', 'C', 'O', 'L', 1, 4, some .colorRGB⟩,
    ⟨'G', 'L', 'C', 'O', 4, 4, some .lightColor⟩,
    ⟨'G', 'L', 'D', 'I', 4, 4, some .lightDirection⟩,
    ⟨'G', 'M', 'D', 'I', 2, 1, some .dsDiffuse⟩,
    ⟨'G', 'M', 'A', 'M', 2, 1, some .dsAmbient⟩,
    ⟨'G', 'M', 'S', 'P', 2, 1, some .dsSpecular⟩,
    ⟨'G', 'M', 'E', 'M', 2, 1, some .dsEmission⟩,
    ⟨'G', 'F', 'L', 'P', 4, 1, some .flushPending⟩,
    ⟨'G', 'D', 'R', 'P', 4, 1, some .drawPending⟩,
    ⟨'G', 'S', 'E', 'T', 4, 1, some .enableTexturing⟩,
    ⟨'G', 'S', 'E', 'A', 4, 1, some .enableAlphaTest⟩,
    ⟨'G', 'S', 'E', 'B', 4, 1, some .enableAlphaBlending⟩,
    ⟨'G', 'S', 'E', 'X', 4, 1, some .enableAntialiasing⟩,
    ⟨'G', 'S', 'E', 'E', 4, 1, some .enableEdgeMarking⟩,
    ⟨'G', 'S', 'E', 'C', 4, 1, some .enableClearImage⟩,
    ⟨'G', 'S', 'E', 'F', 4, 1, some .enableFog⟩,
    ⟨'G', 'S', 'E', 'O', 4, 1, some .enableFogAlphaOnly⟩,
    ⟨'G', 'F', 'S', 'H', 4, 1, some .fogShift⟩,
    ⟨'G', 'S', 'S', 'H', 4, 1, some .shading⟩,
    ⟨'G', 'S', 'W', 'B', 4, 1, some .wbuffer⟩,
    ⟨'G', 'S', 'S', 'M', 4, 1, some .sortmode⟩,
    ⟨'G', 'S', 'A', 'R', 1, 1, some .alphaTestRef⟩,
    ⟨'G', 'S', 'V', 'P', 4, 1, some .viewport⟩,
    ⟨'G', 'S', 'C', 'C', 4, 1, some .clearColor⟩,
    ⟨'G', 'S', 'C', 'D', 4, 1, some .clearDepth⟩,
    ⟨'G', 'S', 'F', 'C', 4, 4, some .fogColor⟩,
    ⟨'G', 'S', 'F', 'O', 4, 1, some .fogOffset⟩,
    ⟨'G', 'S', 'T', '4', 2, 32, some .u16ToonTable⟩,
    ⟨'G', 'S', 'S', 'U', 1, 128, some .shininessTable⟩,
    ⟨'G', 'S', 'S', 'I', 4, 1, some .shininessInd⟩,
    ⟨'G', 'S', 'A', 'F', 4, 1, some .activeFlushCommand⟩,
    ⟨'G', 'S', 'P', 'F', 4, 1, some .pendingFlushCommand⟩,
    ⟨'G', 'T', 'S', 'T', 4, 1, some .triStripToggle⟩,
    ⟨'G', 'T', 'V', 'C', 4, 1, some .tempVertInfoCount⟩,
    ⟨'G', 'T', 'V', 'M', 4, 4, some .tempVertInfoMap⟩,
    ⟨'G', 'T', 'V', 'F', 4, 1, some .tempVertInfoFirst⟩,
    ⟨'G', '3', 'C', 'X', 1, 196608, none⟩]

/-- Where the variables are. -/
structure Gfx3dLayout where
  addr : Gfx3dVar → ℕ
  addr_ne : ∀ v, addr v ≠ 0
  disjoint : ∀ v w, v ≠ w → addr v + v.bytes ≤ addr w ∨ addr w + w.bytes ≤ addr v

def Gfx3dRow.toSFormat (l : Gfx3dLayout) (row : Gfx3dRow) : SFormat where
  desc := [row.c1, row.c2, row.c3, row.c4].map fun c => BitVec.ofNat 8 c.toNat
  size := row.size
  count := row.count
  v := (row.var.map l.addr).getD 0
  desc_length := rfl

/-- `SF_GFX3D`. -/
def sfGfx3d (l : Gfx3dLayout) : List SFormat := gfx3dRows.map (Gfx3dRow.toSFormat l)

structure Gfx3d where
  mem : Memory
  vertlists : Fin 2 → RecordList Vert vertlistSize
  polylists : Fin 2 → RecordList Poly polylistSize
  listTwiddle : Fin 2
  mtxStack : (k : Fin 4) → MatrixStack k
  shiftCommand : BitVec 32
  paramCounter : BitVec 32
  cacheLightDirection : Fin 64 → Byte
  cacheHalfVector : Fin 64 → Byte

namespace Gfx3d

variable (s : Gfx3d)

/-- `vertlist`. -/
def vertlist : RecordList Vert vertlistSize := s.vertlists s.listTwiddle

/-- `polylist`. -/
def polylist : RecordList Poly polylistSize := s.polylists s.listTwiddle

/-- `s16coord[i]`. -/
def s16coord (l : Gfx3dLayout) (i : ℕ) : BitVec 16 :=
  decode 2 (Library.load s.mem (l.addr .s16coord + 2 * i) 2)

end Gfx3d

end Desmume.Geometry
