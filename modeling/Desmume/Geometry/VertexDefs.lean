import Desmume.Geometry.Gfx3dState
import Desmume.Library.PartialRun
import Mathlib.Data.Fin.VecNotation

/-! The vertex commands: a vertex is stored in the vertex list behind those of the polygons built
so far, and one that completes a primitive adds a polygon. A write outside a list has no result. -/

namespace Desmume.Geometry

/-! Fixed point arithmetic. -/

def fx32Mul (a b : BitVec 32) : BitVec 64 := a.signExtend 64 * b.signExtend 64

def fx32Shiftdown (a : BitVec 64) : BitVec 32 := (a.sshiftRight 12).setWidth 32

/-- `MatrixMultVec4x4`. -/
def matrixMultVec4x4 (matrix : Matrix44) (v : Fin 4 → BitVec 32) : Fin 4 → BitVec 32 := fun i =>
  fx32Shiftdown (fx32Mul (v 0) (matrix ⟨i, by omega⟩) + fx32Mul (v 1) (matrix ⟨i + 4, by omega⟩) +
    fx32Mul (v 2) (matrix ⟨i + 8, by omega⟩) + fx32Mul (v 3) (matrix ⟨i + 12, by omega⟩))

/-- The floating point operations of the vertices, on the bits of the floats. -/
structure FloatOps where
  div16 : BitVec 32 → BitVec 32
  div4096 : BitVec 32 → BitVec 32
  ofByte : BitVec 8 → BitVec 32
  eq : BitVec 32 → BitVec 32 → Bool

/-- The first four members of `PolygonPrimitiveType`. -/
inductive PrimitiveType where
  | triangles | quads | triangleStrip | quadStrip
  deriving DecidableEq, Repr

def PrimitiveType.ofBits (v : BitVec 32) : PrimitiveType :=
  ![.triangles, .quads, .triangleStrip, .quadStrip] (v.setWidth 2).toFin

def PrimitiveType.toBits : PrimitiveType → BitVec 32
  | .triangles => 0
  | .quads => 1
  | .triangleStrip => 2
  | .quadStrip => 3

def polygonTypeTriangle : BitVec 32 := 3
def polygonTypeQuad : BitVec 32 := 4

/-- What the commands between the vertices set. -/
structure VertexAttr where
  mtxCurrent : Fin 4 → Matrix44
  texCoordinateTransform : BitVec 2
  s : BitVec 32
  t : BitVec 32
  lastS : BitVec 32
  lastT : BitVec 32
  colorRGB : Fin 3 → BitVec 8
  polyAttrPending : BitVec 32
  textureFormat : BitVec 32
  texturePalette : BitVec 32
  viewport : BitVec 32

/-- `vertlist` and `polylist`. -/
structure GeomLists where
  vert : ℕ → Vert
  vertCount : ℕ
  poly : ℕ → Poly
  polyCount : ℕ

namespace GeomLists

def setVert (l : GeomLists) (i : ℤ) (x : Vert) : Option GeomLists :=
  if 0 ≤ i ∧ i < vertlistSize then some { l with vert := Function.update l.vert i.toNat x }
  else none

/-- A write to the polygon under construction. -/
def updatePoly (l : GeomLists) (f : Poly → Poly) : Option GeomLists :=
  if l.polyCount < polylistSize then
    some { l with poly := Function.update l.poly l.polyCount (f (l.poly l.polyCount)) }
  else none

def clear (l : GeomLists) : GeomLists := { l with vertCount := 0, polyCount := 0 }

end GeomLists

/-- `count`, `map` and `first` are those of `tempVertInfo`. -/
structure GeomState where
  attr : VertexAttr
  polyAttr : BitVec 32
  vtxFormat : PrimitiveType
  inBegin : Bool
  triStripToggle : Bool
  count : ℕ
  map : Fin 4 → ℤ
  first : Bool
  polygonListCompleted : ℕ
  s16coord : Fin 3 → BitVec 16
  coordind : ℕ
  lists : GeomLists
  otherLists : GeomLists
  isSwapBuffers : Bool
  pendingFlushCommand : BitVec 32

namespace GeomState

variable (s : GeomState)

/-- How many of the vertices of a continued strip are already stored. -/
def continuation : ℕ :=
  if (s.vtxFormat = .triangleStrip ∨ s.vtxFormat = .quadStrip) ∧ s.first = false then 2 else 0

/-- `vertlist->count + tempVertInfo.count - continuation`. -/
def vertIndex : ℤ := (s.lists.vertCount + s.count : ℕ) - (s.continuation : ℤ)

/-- `last_s` and `last_t` when the texture coordinates come from the vertex. -/
def transformTexcoord : GeomState :=
  if s.attr.texCoordinateTransform = 3 then
    let c i := (s.s16coord i).signExtend 64
    let m i := (s.attr.mtxCurrent 3 i).signExtend 64
    { s with attr := { s.attr with
        lastS := ((c 0 * m 0 + c 1 * m 4 + c 2 * m 8 +
          (s.attr.s.signExtend 64 <<< 24)).sshiftRight 24).setWidth 32
        lastT := ((c 0 * m 1 + c 1 * m 5 + c 2 * m 9 +
          (s.attr.t.signExtend 64 <<< 24)).sshiftRight 24).setWidth 32 } }
  else s

/-- The vertex of the current coordinates and attributes. -/
def vertex (fl : FloatOps) : Vert :=
  let coord : Fin 4 → BitVec 32 := ![(s.s16coord 0).signExtend 32, (s.s16coord 1).signExtend 32,
    (s.s16coord 2).signExtend 32, 1 <<< 12]
  let coordTransformed :=
    matrixMultVec4x4 (s.attr.mtxCurrent 0) (matrixMultVec4x4 (s.attr.mtxCurrent 1) coord)
  let color : Fin 3 → BitVec 8 := fun i =>
    if s.attr.colorRGB i = 0 then 0 else (s.attr.colorRGB i <<< 1) + 1
  { x := fl.div4096 (coordTransformed 0)
    y := fl.div4096 (coordTransformed 1)
    z := fl.div4096 (coordTransformed 2)
    w := fl.div4096 (coordTransformed 3)
    u := fl.div16 s.attr.lastS
    v := fl.div16 s.attr.lastT
    color := color
    fcolor := fun i => fl.ofByte (color i) }

/-- Record the vertex and its index. -/
def storeVertex (fl : FloatOps) : Option GeomState := do
  let lists ← s.lists.setVert s.vertIndex (s.vertex fl)
  -- tempVertInfo.map has four entries
  if h : s.count < 4 then
    some { s with
      lists := lists
      map := Function.update s.map ⟨s.count, h⟩ s.vertIndex
      count := s.count + 1 }
  else none

/-- `SUBMITVERTEX` for the given pairs, and the type of the polygon. -/
def submit (pairs : List (Fin 4 × Fin 4)) (type : BitVec 32) : Option GeomState :=
  (s.lists.updatePoly fun p => { p with
    vertIndexes := pairs.foldl
      (fun v q => Function.update v q.1 (BitVec.ofInt 16 (s.map q.2))) p.vertIndexes
    type := type }).map fun lists => { s with lists := lists, polygonListCompleted := 1 }

def addVerts (n : ℕ) : GeomState :=
  { s with lists := { s.lists with vertCount := s.lists.vertCount + n } }

/-- The first three vertices lie on a line of the screen. -/
def isLineSegment (fl : FloatOps) (p : Poly) : Bool :=
  let v i := s.lists.vert (p.vertIndexes i).toNat
  (fl.eq (v 0).x (v 1).x && fl.eq (v 0).y (v 1).y) ||
    (fl.eq (v 1).x (v 2).x && fl.eq (v 1).y (v 2).y) ||
    (fl.eq (v 0).y (v 1).y && fl.eq (v 1).y (v 2).y) ||
    (fl.eq (v 0).x (v 1).x && fl.eq (v 1).x (v 2).x)

/-- The attributes of a completed polygon; the polygon is counted. -/
def finishPolygon (fl : FloatOps) : Option GeomState :=
  (s.lists.updatePoly fun p => { p with
    vtxFormat :=
      if s.attr.textureFormat &&& 0x1C000000#32 = 0 ∧ s.isLineSegment fl p then
        s.vtxFormat.toBits + 4 else s.vtxFormat.toBits
    polyAttr := s.polyAttr
    texParam := s.attr.textureFormat
    texPalette := s.attr.texturePalette
    viewport := s.attr.viewport }).map fun lists =>
      { s with lists := { lists with polyCount := lists.polyCount + 1 } }

/-! What each primitive leaves behind when it is complete. -/

def closeTriangles : GeomState := { s.addVerts 3 with count := 0 }

def closeQuads : GeomState := { s.addVerts 4 with count := 0 }

def closeTriangleStrip : GeomState :=
  { s.addVerts (if s.first then 3 else 1) with
    map := Function.update s.map (if s.triStripToggle then 1 else 0)
      ((s.lists.vertCount + 2 : ℕ) - (s.continuation : ℤ))
    triStripToggle := !s.triStripToggle
    first := false
    count := 2 }

def closeQuadStrip : GeomState :=
  { s.addVerts (if s.first then 4 else 2) with
    map := Function.update
      (Function.update s.map 0 ((s.lists.vertCount + 2 : ℕ) - (s.continuation : ℤ))) 1
      ((s.lists.vertCount + 3 : ℕ) - (s.continuation : ℤ))
    first := false
    count := 2 }

/-- The switch over the primitive types after a vertex was stored. -/
def completePolygon (fl : FloatOps) : Option GeomState :=
  let s := { s with polygonListCompleted := 2 }
  match s.vtxFormat with
  | .triangles =>
    if s.count ≠ 3 then some s
    else (s.submit [(0, 0), (1, 1), (2, 2)] polygonTypeTriangle).bind
      fun t => t.closeTriangles.finishPolygon fl
  | .quads =>
    if s.count ≠ 4 then some s
    else (s.submit [(0, 0), (1, 1), (2, 2), (3, 3)] polygonTypeQuad).bind
      fun t => t.closeQuads.finishPolygon fl
  | .triangleStrip =>
    if s.count ≠ 3 then some s
    else (s.submit [(0, 0), (1, 1), (2, 2)] polygonTypeTriangle).bind
      fun t => t.closeTriangleStrip.finishPolygon fl
  | .quadStrip =>
    if s.count ≠ 4 then some s
    else (s.submit [(0, 0), (1, 1), (2, 3), (3, 2)] polygonTypeQuad).bind
      fun t => t.closeQuadStrip.finishPolygon fl

/-- The vertex list or the polygon list is full. -/
def Full : Prop := vertlistSize ≤ s.lists.vertCount ∨ polylistSize ≤ s.lists.polyCount

instance : Decidable s.Full := inferInstanceAs (Decidable (_ ∨ _))

/-- `SetVertex`. -/
def setVertex (fl : FloatOps) : Option GeomState :=
  let s := { s.transformTexcoord with polygonListCompleted := 0 }
  -- full lists drop the vertex
  if s.Full then some s
  else do
    let stored ← s.storeVertex fl
    stored.completePolygon fl

end GeomState

/-- The ten bits of a coordinate at `lo`, as `s16`. -/
def coord10 (v : BitVec 32) (lo : ℕ) : BitVec 16 := (v.extractLsb' lo 10).signExtend 16

/-- Commands and events: `attr` stands for the commands that set attributes only, and `vblank` for
`gfx3d_VBlankSignal`. -/
inductive GeomOp where
  | beginVtxs (v : BitVec 32)
  | endVtxs
  | vtx16 (v : BitVec 32)
  | vtx10 (v : BitVec 32)
  | vtx3 (one two : Fin 3) (v : BitVec 32)
  | vtxDiff (v : BitVec 32)
  | attr (a : VertexAttr)
  | swapBuffers (v : BitVec 32)
  | vblank

/-- `gfx3d_glBegin`. -/
def glBegin (v : BitVec 32) (s : GeomState) : GeomState :=
  { s with
    inBegin := true
    vtxFormat := .ofBits v
    triStripToggle := false
    count := 0
    first := true
    polyAttr := s.attr.polyAttrPending }

/-- `gfx3d_glEnd`. -/
def glEnd (s : GeomState) : GeomState := { s with count := 0, inBegin := false }

/-- `gfx3d_glVertex16b`. -/
def glVertex16b (fl : FloatOps) (v : BitVec 32) (s : GeomState) : Option GeomState :=
  if s.coordind = 0 then
    some { s with
      s16coord := ![v.setWidth 16, (v >>> 16).setWidth 16, s.s16coord 2]
      coordind := s.coordind + 1 }
  else
    { s with
      s16coord := ![s.s16coord 0, s.s16coord 1, v.setWidth 16]
      coordind := 0 }.setVertex fl

/-- `gfx3d_glVertex10b`. -/
def glVertex10b (fl : FloatOps) (v : BitVec 32) (s : GeomState) : Option GeomState :=
  { s with s16coord := ![coord10 v 0 <<< 6, coord10 v 10 <<< 6, coord10 v 20 <<< 6] }.setVertex fl

/-- `gfx3d_glVertex3_cord`. -/
def glVertex3Cord (fl : FloatOps) (one two : Fin 3) (v : BitVec 32) (s : GeomState) :
    Option GeomState :=
  { s with
    s16coord := Function.update (Function.update s.s16coord one (v.setWidth 16)) two
      ((v >>> 16).setWidth 16) }.setVertex fl

/-- `gfx3d_glVertex_rel`. -/
def glVertexRel (fl : FloatOps) (v : BitVec 32) (s : GeomState) : Option GeomState :=
  { s with
    s16coord := ![s.s16coord 0 + coord10 v 0, s.s16coord 1 + coord10 v 10,
      s.s16coord 2 + coord10 v 20] }.setVertex fl

/-- `gfx3d_glFlush`. -/
def glFlush (v : BitVec 32) (s : GeomState) : GeomState :=
  { s with pendingFlushCommand := v, isSwapBuffers := true }

/-- `twiddleLists`. -/
def twiddleLists (s : GeomState) : GeomState :=
  { s with lists := s.otherLists.clear, otherLists := s.lists }

/-- `gfx3d_VBlankSignal`; of `gfx3d_doFlush` the lists that are built next. -/
def gfx3dVBlankSignal (s : GeomState) : GeomState :=
  if s.isSwapBuffers then { twiddleLists s with isSwapBuffers := false } else s

def geomStep (fl : FloatOps) (s : GeomState) : GeomOp → Option GeomState
  | .beginVtxs v => some (glBegin v s)
  | .endVtxs => some (glEnd s)
  | .vtx16 v => glVertex16b fl v s
  | .vtx10 v => glVertex10b fl v s
  | .vtx3 one two v => glVertex3Cord fl one two v s
  | .vtxDiff v => glVertexRel fl v s
  | .attr a => some { s with attr := a }
  | .swapBuffers v => some (glFlush v s)
  | .vblank => some (gfx3dVBlankSignal s)

/-- The operation runs `SetVertex`. -/
def GeomOp.SetsVertex (s : GeomState) : GeomOp → Prop
  | .vtx16 _ => s.coordind ≠ 0
  | .vtx10 _ | .vtx3 _ _ _ | .vtxDiff _ => True
  | _ => False

/-- `gfx3d_reset`, with any attributes and any memory under the lists. -/
def gfx3dReset (a : VertexAttr) (l m : GeomLists) : GeomState :=
  { attr := a
    polyAttr := 0
    vtxFormat := .triangles
    inBegin := false
    triStripToggle := false
    count := 0
    map := fun _ => 0
    first := false
    polygonListCompleted := 0
    s16coord := fun _ => 0
    coordind := 0
    lists := l.clear
    otherLists := m
    isSwapBuffers := false
    pendingFlushCommand := 0 }

end Desmume.Geometry
