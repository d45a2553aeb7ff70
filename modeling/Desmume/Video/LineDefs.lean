import Desmume.Library.Scatter
import Desmume.Video.FinalColor
import Mathlib.Data.List.FinRange

/-! The painter of a scanline: the layer lists by priority that every register change rebuilds, and
the layers drawn from the lowest priority to the highest over the backdrop. -/

namespace Desmume.Video
open Library

/-- The layers with an enable bit: the backgrounds, and the sprites at 4. -/
abbrev LayerIndex := Fin 5

/-- The registers of an engine that its painter reads, with what `ResortBGLayers` makes of them. -/
structure Engine where
  dispLayers : LayerIndex → Bool
  enableBit : LayerIndex → Bool
  priority : Fin 4 → Fin 4
  is3DEnabled : Bool
  enableLayer : LayerIndex → Bool
  itemsForPriority : Fin 4 → List (Fin 4)

namespace Engine

variable (g : Engine)

/-- `ResortBGLayers`: a layer that the user has unticked is shown if it is not enabled. -/
def resortEnable : LayerIndex → Bool := fun l => xor (g.dispLayers l) (!g.enableBit l)

def resortItems : Fin 4 → List (Fin 4) :=
  [3, 2, 1, 0].foldl
    (fun items i => if g.resortEnable i.castSucc then
      Function.update items (g.priority i) (items (g.priority i) ++ [i]) else items)
    fun _ => []

def resortBGLayers : Engine :=
  { g with enableLayer := g.resortEnable, itemsForPriority := g.resortItems }

/-- `SetBGProp`, `SetVideoProp` and `SetLayerEnableState`, as far as the painter goes. -/
def setBGProp (num : Fin 4) (priority : Fin 4) : Engine :=
  { g with priority := Function.update g.priority num priority }.resortBGLayers

def setVideoProp (enableBit : LayerIndex → Bool) (priority : Fin 4 → Fin 4) : Engine :=
  [3, 2, 1, 0].foldl (fun g num => g.setBGProp num (priority num)) { g with enableBit := enableBit }

/-- `UpdateVRAM3DUsageProperties`, at the start of a frame. -/
def updateVRAM3DUsageProperties (bg0Is3D : Bool) : Engine :=
  { g with is3DEnabled := g.enableBit 0 && bg0Is3D }

def setLayerEnableState (layer : LayerIndex) (theState : Bool) : Engine :=
  { g with dispLayers := Function.update g.dispLayers layer theState }.resortBGLayers

/-- `_Reset_Base`, with every layer ticked. -/
def reset : Engine where
  dispLayers := fun _ => true
  enableBit := fun _ => false
  priority := fun _ => 0
  is3DEnabled := false
  enableLayer := fun _ => false
  itemsForPriority := fun _ => []

end Engine

/-- The output pixels of a line. A line is scaled from 256 columns: each output pixel is drawn for
one column, and in one place of the row-major order. -/
structure Raster where
  Cell : Type
  [decEq : DecidableEq Cell]
  cells : List Cell
  nodup : cells.Nodup
  complete : ∀ d, d ∈ cells
  column : Cell → Fin 256

attribute [instance] Raster.decEq

/-- One pixel for a column. -/
def nativeRaster : Raster where
  Cell := Fin 256
  cells := List.finRange 256
  nodup := List.nodup_finRange 256
  complete := List.mem_finRange
  column := id

def nativeCell (x : Fin 256) : nativeRaster.Cell := x

namespace Raster

variable (R : Raster)

/-- The output pixels of a column, and of some columns. -/
def cellsOf (x : Fin 256) : List R.Cell := R.cells.filter fun d => R.column d = x

def cellsOfColumns (columns : List (Fin 256)) : List R.Cell := columns.flatMap R.cellsOf

end Raster

/-- What the layers of a line hold: the colours that the background renderers pass on for their
opaque pixels, the fragments that the 3D framebuffer has at the scrolled columns (with `a = 0` for
none), and the result of the sprite pass. -/
structure Picture (R : Raster) where
  backdrop : BitVec 15
  bg : Fin 4 → R.Cell → Option Color
  fragment : R.Cell → FragmentColor
  sprColor : R.Cell → Color
  sprAlpha : Fin 256 → BitVec 8
  sprType : Fin 256 → BitVec 8
  sprPrio : Fin 256 → BitVec 8
  sprWin : Fin 256 → Bool

abbrev Line (R : Raster) := R.Cell → Pixel

/-- A line being painted, with `_blend1`. -/
structure Painter (R : Raster) where
  line : Line R
  blend1 : Bool

section Render

variable {R : Raster} (g : Engine) (e : Effects) (w : Windows) (pic : Picture R)

def Picture.backdropColor : Color := pic.backdrop.setWidth 16

/-- `_sprWin`, cleared for every line and filled by the sprite pass. -/
def Picture.objWindow (x : Fin 256) : Bool := g.enableLayer 4 && pic.sprWin x

/-- The backdrop, with the sprite window and `_blend1` of the line before. -/
def drawBackdrop (sprWin : Fin 256 → Bool) (blend1 : Bool) : Line R :=
  if w.used then
    fun d => ⟨(setFinalColorBG e w sprWin e.func true blend1 (R.column d) .none true
      pic.backdropColor ⟨0, .none⟩).color, .none⟩
  else
    match e.func with
    | .noBlend | .blend => fun _ => ⟨pic.backdropColor, .none⟩
    | .increase | .decrease => fun _ =>
      ⟨if e.blend1 .none then e.fade e.func pic.backdropColor else pic.backdropColor, .none⟩

/-- A pixel of the 3D layer, of a background and of the sprites. -/
def fragmentPixel (blend1 : Bool) (d : R.Cell) (p : Pixel) : Pixel :=
  if (pic.fragment d).a = 0 then p
  else setFinal3dColor e w (pic.objWindow g) e.func w.used blend1 (R.column d) (.bg 0)
    (pic.fragment d) p

def bgPixel (blend1 : Bool) (layer : Fin 4) (d : R.Cell) (p : Pixel) : Pixel :=
  match pic.bg layer d with
  | some color =>
    setFinalColorBG e w (pic.objWindow g) e.func w.used blend1 (R.column d) (.bg layer) false color p
  | none => p

def objPixel (blend1 : Bool) (d : R.Cell) (p : Pixel) : Pixel :=
  setFinalOBJColor e w (pic.objWindow g) e.func w.used blend1 (R.column d) (pic.sprColor d)
    (pic.sprAlpha (R.column d)) (pic.sprType (R.column d)) p

/-- A background or the 3D layer. -/
def drawBG (s : Painter R) (layer : Fin 4) : Painter R :=
  if g.enableLayer layer.castSucc then
    let blend1 := e.blend1 (.bg layer)
    if layer = 0 ∧ g.is3DEnabled = true then
      { blend1 := blend1
        line := paint R.cells (fragmentPixel g e w pic blend1) s.line }
    else
      { blend1 := blend1
        line := paint (R.cellsOfColumns (List.finRange 256)) (bgPixel g e w pic blend1 layer)
          s.line }
  else s

/-- `PixelsX` of a priority. -/
def Picture.pixelsX (prio : Fin 4) : List (Fin 256) :=
  (List.finRange 256).filter fun x => (pic.sprPrio x).toNat = prio

/-- The sprite pixels of a priority. -/
def drawOBJ (s : Painter R) (prio : Fin 4) : Painter R :=
  if g.enableLayer 4 then
    let blend1 := e.blend1 .obj
    { blend1 := blend1
      line := paint (R.cellsOfColumns (pic.pixelsX prio)) (objPixel g e w pic blend1) s.line }
  else s

/-- A priority: its backgrounds, then its sprites. -/
def drawPriority (s : Painter R) (prio : Fin 4) : Painter R :=
  let bgEnabled := [0, 1, 2, 3].any fun i : Fin 4 => g.enableLayer i.castSucc
  let s := if bgEnabled then (g.itemsForPriority prio).foldl (drawBG g e w pic) s else s
  drawOBJ g e w pic s prio

/-- `_RenderLine_Layer`. -/
def renderLineLayer (sprWin : Fin 256 → Bool) (blend1 : Bool) : Painter R :=
  [3, 2, 1, 0].foldl (drawPriority g e w pic) ⟨drawBackdrop e w pic sprWin blend1, blend1⟩

end Render

/-! What one output pixel goes through. -/

/-- A layer as it is drawn: a background, or the sprites of a priority. -/
inductive Item where
  | bg (n : Fin 4)
  | obj (prio : Fin 4)
  deriving DecidableEq

/-- The layer of an item, for the targets of the effects. -/
def Item.layer : Item → LayerID
  | .bg n => .bg n
  | .obj _ => .obj

def Engine.enabled (g : Engine) : Item → Bool
  | .bg n => g.enableLayer n.castSucc
  | .obj _ => g.enableLayer 4

section Cell

variable {R : Raster} (g : Engine) (e : Effects) (w : Windows) (pic : Picture R)

def Engine.drawOrder : List Item :=
  [3, 2, 1, 0].flatMap fun prio => (g.itemsForPriority prio).map Item.bg ++ [Item.obj prio]

def bgItem (n : Fin 4) (d : R.Cell) (p : Pixel) : Pixel :=
  if g.enableLayer n.castSucc then
    if n = 0 ∧ g.is3DEnabled = true then fragmentPixel g e w pic (e.blend1 (.bg n)) d p
    else bgPixel g e w pic (e.blend1 (.bg n)) n d p
  else p

def objItem (prio : Fin 4) (d : R.Cell) (p : Pixel) : Pixel :=
  if g.enableLayer 4 = true ∧ (pic.sprPrio (R.column d)).toNat = prio then
    objPixel g e w pic (e.blend1 .obj) d p
  else p

def drawItem (d : R.Cell) (p : Pixel) : Item → Pixel
  | .bg n => bgItem g e w pic n d p
  | .obj prio => objItem g e w pic prio d p

variable (R)

theorem Raster.mem_cellsOfColumns {columns : List (Fin 256)} {d : R.Cell} :
    d ∈ R.cellsOfColumns columns ↔ R.column d ∈ columns := by
  unfold cellsOfColumns cellsOf
  simp [R.complete]

theorem Raster.nodup_cellsOfColumns {columns : List (Fin 256)} (h : columns.Nodup) :
    (R.cellsOfColumns columns).Nodup := by
  unfold cellsOfColumns
  refine List.nodup_flatMap.mpr ⟨fun x _ => R.nodup.filter _, h.imp ?_⟩
  intro x y hxy d hx hy
  unfold cellsOf at hx hy
  simp only [List.mem_filter, decide_eq_true_eq] at hx hy
  exact hxy (hx.2.symm.trans hy.2)

variable {R}

theorem drawBG_line (s : Painter R) (n : Fin 4) (d : R.Cell) :
    (drawBG g e w pic s n).line d = bgItem g e w pic n d (s.line d) := by
  unfold drawBG bgItem
  split
  · dsimp only
    split
    · exact paint_of_mem R.nodup _ _ (R.complete d)
    · exact paint_of_mem (R.nodup_cellsOfColumns (List.nodup_finRange 256)) _ _
        (R.mem_cellsOfColumns.mpr (List.mem_finRange _))
  · rfl

theorem drawOBJ_line (s : Painter R) (prio : Fin 4) (d : R.Cell) :
    (drawOBJ g e w pic s prio).line d = objItem g e w pic prio d (s.line d) := by
  have hmem : R.column d ∈ pic.pixelsX prio ↔ (pic.sprPrio (R.column d)).toNat = prio := by
    unfold Picture.pixelsX
    simp
  unfold drawOBJ objItem
  split
  · rename_i henable
    by_cases h : (pic.sprPrio (R.column d)).toNat = prio
    · rw [if_pos ⟨henable, h⟩]
      exact paint_of_mem (R.nodup_cellsOfColumns ((List.nodup_finRange 256).filter _)) _ _
        (R.mem_cellsOfColumns.mpr (hmem.mpr h))
    · rw [if_neg fun hand => h hand.2]
      exact paint_of_notMem _ _ (mt R.mem_cellsOfColumns.mp (mt hmem.mp h))
  · rename_i henable
    rw [if_neg fun hand => henable hand.1]

theorem foldl_drawBG_line (s : Painter R) (ns : List (Fin 4)) (d : R.Cell) :
    (ns.foldl (drawBG g e w pic) s).line d =
      (ns.map Item.bg).foldl (drawItem g e w pic d) (s.line d) := by
  induction ns generalizing s with
  | nil => rfl
  | cons n ns ih =>
    rw [List.foldl_cons, ih, drawBG_line, List.map_cons, List.foldl_cons]
    rfl

theorem foldl_disabled (ns : List (Fin 4)) (d : R.Cell) (p : Pixel)
    (h : ∀ n : Fin 4, g.enableLayer n.castSucc = false) :
    (ns.map Item.bg).foldl (drawItem g e w pic d) p = p := by
  induction ns with
  | nil => rfl
  | cons n ns ih =>
    rw [List.map_cons, List.foldl_cons, drawItem, bgItem, if_neg (by simp [h n])]
    exact ih

theorem drawPriority_line (s : Painter R) (prio : Fin 4) (d : R.Cell) :
    (drawPriority g e w pic s prio).line d =
      ((g.itemsForPriority prio).map Item.bg ++ [Item.obj prio]).foldl (drawItem g e w pic d)
        (s.line d) := by
  unfold drawPriority
  rw [drawOBJ_line, List.foldl_append, List.foldl_cons, List.foldl_nil]
  congr 1
  split
  · exact foldl_drawBG_line ..
  · rename_i hnone
    refine (foldl_disabled g e w pic _ d _ fun n => ?_).symm
    rw [Bool.not_eq_true, List.any_eq_false] at hnone
    exact Bool.eq_false_iff.mpr (hnone n (by revert n; decide))

/-- An output pixel is the backdrop with every layer put over it in turn. -/
theorem renderLineLayer_line (sprWin : Fin 256 → Bool) (blend1 : Bool) (d : R.Cell) :
    (renderLineLayer g e w pic sprWin blend1).line d =
      g.drawOrder.foldl (drawItem g e w pic d) (drawBackdrop e w pic sprWin blend1 d) := by
  have hfold (s : Painter R) (prios : List (Fin 4)) :
      (prios.foldl (drawPriority g e w pic) s).line d =
        (prios.flatMap fun prio => (g.itemsForPriority prio).map Item.bg ++
          [Item.obj prio]).foldl (drawItem g e w pic d) (s.line d) := by
    induction prios generalizing s with
    | nil => rfl
    | cons prio prios ih =>
      rw [List.foldl_cons, ih, drawPriority_line, List.flatMap_cons, ← List.foldl_append]
  exact hfold ..

end Cell

end Desmume.Video
