import Desmume.Geometry.Gfx3dState

/-! Saving and loading the geometry engine: `gfx3d_savestate` and `gfx3d_loadstate`, and their
chunk next to the one of the table. -/

namespace Desmume.Geometry
open SaveState SaveState.EmufileMemory

/-- `VERT::save` and `VERT::load`. -/
def vertCodec : FieldCodec Vert where
  fields vert :=
    [encode 4 vert.x, encode 4 vert.y, encode 4 vert.z, encode 4 vert.w, encode 4 vert.u,
      encode 4 vert.v, encode 1 (vert.color 0), encode 1 (vert.color 1), encode 1 (vert.color 2),
      encode 4 (vert.fcolor 0), encode 4 (vert.fcolor 1), encode 4 (vert.fcolor 2)]
  setFields
    | _, [x, y, z, w, u, v, c0, c1, c2, f0, f1, f2] =>
      { x := decode 4 x, y := decode 4 y, z := decode 4 z, w := decode 4 w, u := decode 4 u
        v := decode 4 v, color := ![decode 1 c0, decode 1 c1, decode 1 c2]
        fcolor := ![decode 4 f0, decode 4 f1, decode 4 f2] }
    | vert, _ => vert
  lengths vert vert' := by simp only [List.map_cons, List.map_nil, length_encode]

/-- `POLY::save` and `POLY::load`. -/
def polyCodec : FieldCodec Poly where
  fields poly :=
    [encode 4 poly.type, encode 2 (poly.vertIndexes 0), encode 2 (poly.vertIndexes 1),
      encode 2 (poly.vertIndexes 2), encode 2 (poly.vertIndexes 3), encode 4 poly.polyAttr,
      encode 4 poly.texParam, encode 4 poly.texPalette, encode 4 poly.viewport,
      encode 4 poly.miny, encode 4 poly.maxy]
  setFields
    | poly, [type, v0, v1, v2, v3, polyAttr, texParam, texPalette, viewport, miny, maxy] =>
      { poly with
        type := decode 4 type, polyAttr := decode 4 polyAttr, texParam := decode 4 texParam
        vertIndexes := ![decode 2 v0, decode 2 v1, decode 2 v2, decode 2 v3]
        texPalette := decode 4 texPalette, viewport := decode 4 viewport
        miny := decode 4 miny, maxy := decode 4 maxy }
    | poly, _ => poly
  lengths poly poly' := by simp only [List.map_cons, List.map_nil, length_encode]

/-- A stack is saved with as many slots as its size says. -/
def stackCodec (k : Fin 4) : FieldCodec (MatrixStack k) where
  fields st := encode 4 st.position ::
    (List.range (mtxStackSize k * 16)).map fun a => encode 4 (st.matrix a)
  setFields
    | st, position :: matrix =>
      ⟨decode 4 position, fun a => (matrix[a]?.map (decode 4)).getD (st.matrix a)⟩
    | st, [] => st
  lengths st st' := by
    simp only [List.map_cons, List.map_map, length_encode, Function.comp_def]

namespace RecordList

variable {α : Type} {cap : ℕ}

/-- The count and the entries in use. -/
def save (c : FieldCodec α) (l : RecordList α cap) (os : EmufileMemory) :
    Option EmufileMemory := do
  let os ← os.writeFields [encode 4 (BitVec.ofNat 32 l.count)]
  saveEach (fun _ => c.save) l.list (List.range l.count) os

/-- No result when the count is beyond the array. -/
def loadEntries (c : FieldCodec α) (l : RecordList α cap) (count : ℕ) (is : EmufileMemory) :
    Option (RecordList α cap × EmufileMemory) :=
  if h : count ≤ cap then
    (loadEach (fun _ => c.load) (List.range count) l.list is).map fun r => (⟨r.1, count, h⟩, r.2)
  else none

def load (c : FieldCodec α) (l : RecordList α cap) (is : EmufileMemory) :
    Option (RecordList α cap × EmufileMemory) := do
  let (field, is) ← is.readField (encode 4 (BitVec.ofNat 32 l.count))
  l.loadEntries c (decode 4 field).toNat is

end RecordList

namespace Gfx3d

variable (s : Gfx3d)

/-- `GXF_Hardware::savestate`. -/
def gxfSavestate (os : EmufileMemory) : Option EmufileMemory := do
  let os ← os.write32le 2
  let os ← os.write32le s.shiftCommand
  os.write32le s.paramCounter

/-- The caches of the lights. -/
def cacheFields : List (List Byte) := [List.ofFn s.cacheLightDirection, List.ofFn s.cacheHalfVector]

def gfx3dSavestate (os : EmufileMemory) : Option EmufileMemory := do
  let os ← os.write32le 4
  let os ← s.vertlist.save vertCodec os
  let os ← s.polylist.save polyCodec os
  let os ← saveEach (fun k => (stackCodec k).save) s.mtxStack [0, 1, 2, 3] os
  let os ← s.gxfSavestate os
  os.writeFields s.cacheFields

/-- Bytes that are read and dropped. -/
def skipBytes : ℕ → EmufileMemory → Option EmufileMemory
  | 0, is => some is
  | n + 1, is => do
    let (_, is) ← is.fread 1
    skipBytes n is

/-- The registers keep what they hold when nothing was read. -/
def setHardware (shiftCommand? paramCounter? : Option (BitVec 32)) : Gfx3d :=
  { s with
    shiftCommand := shiftCommand?.getD s.shiftCommand
    paramCounter := paramCounter?.getD s.paramCounter }

/-- `GXF_Hardware::loadstate` behind the version; the states of the versions 0 and 1 are
skipped. -/
def gxfLoadVersion (version : BitVec 32) (is : EmufileMemory) :
    Option (Gfx3d × EmufileMemory) :=
  if version = 0 then do
    let (junk32?, is) ← is.read32le
    let junk32 ← junk32?
    let commandCursor : BitVec 32 := 4 - junk32
    let is ← skipBytes (4 - commandCursor.toNat) is
    let (_, is) ← is.read32le
    let is ← skipBytes (4 - commandCursor.toNat) is
    let is ← skipBytes 1 is
    return (s, is)
  else if version = 1 then do
    let (_, is) ← is.read32le
    let (_, is) ← is.read32le
    let is ← skipBytes 4 is
    let is ← skipBytes 4 is
    let is ← skipBytes 1 is
    return (s, is)
  else if version = 2 then do
    let (shiftCommand?, is) ← is.read32le
    is.read32le.map fun r => (s.setHardware shiftCommand? r.1, r.2)
  else return (s, is)

def gxfLoadstate (is : EmufileMemory) : Option (Gfx3d × EmufileMemory) := do
  let (version?, is) ← is.read32le
  match version? with
  | none => return (s, is)
  | some version => s.gxfLoadVersion version is

def setLists (vertlist : RecordList Vert vertlistSize) (polylist : RecordList Poly polylistSize) :
    Gfx3d :=
  { s with
    vertlists := Function.update s.vertlists s.listTwiddle vertlist
    polylists := Function.update s.polylists s.listTwiddle polylist }

def loadLists (is : EmufileMemory) : Option (Gfx3d × EmufileMemory) := do
  let (vertlist, is) ← s.vertlist.load vertCodec is
  (s.polylist.load polyCodec is).map fun r => (s.setLists vertlist r.1, r.2)

def loadStacks (is : EmufileMemory) : Option (Gfx3d × EmufileMemory) :=
  (loadEach (fun k => (stackCodec k).load) [0, 1, 2, 3] s.mtxStack is).map fun r =>
    ({ s with mtxStack := r.1 }, r.2)

def setCaches (direction half : List Byte) : Gfx3d :=
  { s with
    cacheLightDirection := fun i => direction.getD i 0
    cacheHalfVector := fun i => half.getD i 0 }

def loadCaches (is : EmufileMemory) : Option (Gfx3d × EmufileMemory) := do
  let (direction, is) ← is.readField (List.ofFn s.cacheLightDirection)
  (is.readField (List.ofFn s.cacheHalfVector)).map fun r => (s.setCaches direction r.1, r.2)

/-- The lists that are not filled are emptied for the renderer. -/
def wipeLists : Gfx3d :=
  let i := s.listTwiddle + 1
  { s with
    vertlists := Function.update s.vertlists i { s.vertlists i with count := 0, count_le := by omega }
    polylists := Function.update s.polylists i { s.polylists i with count := 0, count_le := by omega } }

/-- The parts that a state of the version has. -/
def loadParts (version : ℤ) (is : EmufileMemory) : Option (Gfx3d × EmufileMemory) := do
  let (s, is) ← if 1 ≤ version then s.loadLists is else some (s, is)
  let (s, is) ← if 2 ≤ version then s.loadStacks is else some (s, is)
  let (s, is) ← if 3 ≤ version then s.gxfLoadstate is else some (s, is)
  let s := s.wipeLists
  if 4 ≤ version then s.loadCaches is else some (s, is)

def gfx3dLoadstate (size : ℤ) (is : EmufileMemory) : Option ((Bool × Gfx3d) × EmufileMemory) := do
  let (version?, is) ← is.read32le
  match version? with
  | none => return ((false, s), is)
  | some version =>
    let version := if size = 8 then 0 else version.toInt
    let s := { s with listTwiddle := 0 }
    (s.loadParts version is).map fun r => ((true, r.1), r.2)

/-- The two chunks of the geometry engine in `writechunks`. -/
def gfx3dSave (l : Gfx3dLayout) (os : EmufileMemory) : Option EmufileMemory := do
  let (_, os) ← savestateWriteChunk s.mem os 90 (some (sfGfx3d l))
  let os ← os
  savestateWriteProc os 91 s.gfx3dSavestate

/-- The case of the table in `ReadStateChunks`, for at most `fuel` rounds over its rows. -/
def loadTable (l : Gfx3dLayout) (fuel : ℕ) (size : ℤ) (is : EmufileMemory) :
    Option ((Bool × Gfx3d) × EmufileMemory) :=
  (readStateChunk fuel is s.mem (sfGfx3d l) size).map fun r =>
    ((r.1, { s with mem := r.2.mem }), r.2.is)

/-- The cases of the geometry engine in `ReadStateChunks`. -/
def loadChunk (l : Gfx3dLayout) (fuel : ℕ) (type : BitVec 32) (size : ℤ) (is : EmufileMemory) :
    Option ((Bool × Gfx3d) × EmufileMemory) :=
  if type = 90 then s.loadTable l fuel size is
  else if type = 91 then s.gfx3dLoadstate size is
  else none

/-- A round of the loop of `ReadStateChunks`. -/
def readGfx3dChunk (l : Gfx3dLayout) (fuel : ℕ) (is : EmufileMemory) :
    Option ((Bool × Gfx3d) × EmufileMemory) := do
  let (type?, is) ← is.read32le
  match type? with
  | none => return ((false, s), is)
  | some type =>
    let (size?, is) ← is.read32le
    match size? with
    | none => return ((false, s), is)
    | some size => s.loadChunk l fuel type size.toInt is

/-- `ReadStateChunks` over the two chunks. -/
def gfx3dLoad (l : Gfx3dLayout) (fuel : ℕ) (is : EmufileMemory) :
    Option ((Bool × Gfx3d) × EmufileMemory) := do
  let (r, is) ← s.readGfx3dChunk l fuel is
  if r.1 then r.2.readGfx3dChunk l fuel is else return (r, is)

end Gfx3d

end Desmume.Geometry
