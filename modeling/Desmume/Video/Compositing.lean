import Desmume.Library.Run
import Desmume.Video.LineDefs
import Mathlib.Data.Prod.Lex
import Mathlib.Order.WellFounded
import Mathlib.Tactic.FinCases

/-! The compositing order: without windows and effects an output pixel is the frontmost opaque
layer pixel, by priority, sprites before backgrounds, lower backgrounds before higher. -/

namespace Desmume.Video
open Library

/-! The layer lists. -/

/-- The lists are those of the registers. -/
def Engine.InSync (g : Engine) : Prop :=
  g.enableLayer = g.resortEnable ∧ g.itemsForPriority = g.resortItems

theorem resortBGLayers_inSync (g : Engine) : g.resortBGLayers.InSync := ⟨rfl, rfl⟩

/-- The changes of the registers and the settings. -/
inductive EngineOp where
  | setBGProp (num priority : Fin 4)
  | setVideoProp (enableBit : LayerIndex → Bool) (priority : Fin 4 → Fin 4)
  | setLayerEnableState (layer : LayerIndex) (theState : Bool)
  | updateVRAM3DUsageProperties (bg0Is3D : Bool)

def Engine.apply (g : Engine) : EngineOp → Engine
  | .setBGProp num priority => g.setBGProp num priority
  | .setVideoProp enableBit priority => g.setVideoProp enableBit priority
  | .setLayerEnableState layer theState => g.setLayerEnableState layer theState
  | .updateVRAM3DUsageProperties bg0Is3D => g.updateVRAM3DUsageProperties bg0Is3D

theorem reset_inSync : Engine.reset.InSync := ⟨rfl, rfl⟩

theorem apply_inSync {g : Engine} (hg : g.InSync) (op : EngineOp) : (g.apply op).InSync := by
  cases op with
  | setBGProp num priority => exact resortBGLayers_inSync _
  | setVideoProp enableBit priority => exact resortBGLayers_inSync _
  | setLayerEnableState layer theState => exact resortBGLayers_inSync _
  | updateVRAM3DUsageProperties bg0Is3D => exact hg

theorem run_inSync (ops : List EngineOp) : (run Engine.apply .reset ops).InSync := by
  have hstep (g : Engine) (op : EngineOp) (hg : g.InSync) : (g.apply op).InSync :=
    apply_inSync hg op
  exact run_invariant hstep reset_inSync ops

theorem resortItems_eq (g : Engine) (prio : Fin 4) :
    g.resortItems prio =
      [3, 2, 1, 0].filter fun i => g.resortEnable i.castSucc && g.priority i = prio := by
  have hfold (is : List (Fin 4)) (items : Fin 4 → List (Fin 4)) :
      is.foldl (fun items i => if g.resortEnable i.castSucc then
        Function.update items (g.priority i) (items (g.priority i) ++ [i]) else items) items prio =
      items prio ++ is.filter fun i => g.resortEnable i.castSucc && g.priority i = prio := by
    induction is generalizing items with
    | nil => simp
    | cons i is ih =>
      rw [List.foldl_cons, ih]
      by_cases hi : g.resortEnable i.castSucc = true
      · by_cases hp : g.priority i = prio
        · subst hp
          simp [hi]
        · simp [hi, hp, Function.update_of_ne (Ne.symm hp)]
      · simp [hi]
  exact hfold _ _

/-! The order of the layers. -/

/-- From the front: the priority, the sprites, the backgrounds by number. -/
def Engine.key (g : Engine) : Item → ℕ ×ₗ ℕ
  | .bg n => toLex (g.priority n, n + 1)
  | .obj prio => toLex (prio, 0)

theorem drawOrder_sorted {g : Engine} (hg : g.InSync) :
    g.drawOrder.Pairwise fun a b => g.key b < g.key a := by
  have hitem {prio : Fin 4} {a : Item}
      (ha : a ∈ (g.itemsForPriority prio).map Item.bg ++ [Item.obj prio]) :
      ∃ rank : ℕ, g.key a = toLex ((prio : ℕ), rank) := by
    rw [hg.2, resortItems_eq] at ha
    rcases List.mem_append.mp ha with h | h
    · obtain ⟨n, hn, rfl⟩ := List.mem_map.mp h
      simp only [List.mem_filter, Bool.and_eq_true, decide_eq_true_eq] at hn
      exact ⟨n + 1, by rw [Engine.key, hn.2.2]⟩
    · rw [List.mem_singleton.mp h]
      exact ⟨0, rfl⟩
  refine List.pairwise_flatMap.mpr ⟨fun prio _ => ?_, ?_⟩
  · -- within a priority the backgrounds go down by number
    rw [hg.2, resortItems_eq]
    refine List.pairwise_append.mpr ⟨?_, List.pairwise_singleton _ _, ?_⟩
    · refine List.pairwise_map.mpr (List.Pairwise.imp_of_mem ?_
        (List.Pairwise.filter _ (show [3, 2, 1, 0].Pairwise fun a b : Fin 4 => b < a by decide)))
      intro i j hi hj hij
      simp only [List.mem_filter, Bool.and_eq_true, decide_eq_true_eq] at hi hj
      refine Prod.Lex.toLex_lt_toLex.mpr (.inr ⟨?_, ?_⟩)
      · rw [hi.2.2, hj.2.2]
      · exact Nat.add_lt_add_right hij 1
    · intro a ha b hb
      obtain ⟨n, hn, rfl⟩ := List.mem_map.mp ha
      simp only [List.mem_filter, Bool.and_eq_true, decide_eq_true_eq] at hn
      rw [List.mem_singleton.mp hb]
      refine Prod.Lex.toLex_lt_toLex.mpr (.inr ⟨?_, Nat.succ_pos _⟩)
      rw [hn.2.2]
  · -- the priorities go down
    refine (show [3, 2, 1, 0].Pairwise fun a b : Fin 4 => b < a by decide).imp ?_
    intro p q hpq a ha b hb
    obtain ⟨r, hr⟩ := hitem ha
    obtain ⟨r', hr'⟩ := hitem hb
    rw [hr, hr']
    exact Prod.Lex.toLex_lt_toLex.mpr (.inl hpq)

theorem mem_drawOrder_bg {g : Engine} (hg : g.InSync) (n : Fin 4) :
    Item.bg n ∈ g.drawOrder ↔ g.enableLayer n.castSucc = true := by
  have hprio : ∀ p : Fin 4, p ∈ [3, 2, 1, 0] := by decide
  unfold Engine.drawOrder
  simp only [hg.2, hg.1, resortItems_eq, List.mem_flatMap, List.mem_append, List.mem_map,
    List.mem_filter, List.mem_singleton, Bool.and_eq_true, decide_eq_true_eq, Item.bg.injEq,
    exists_eq_right, reduceCtorEq, or_false]
  constructor
  · rintro ⟨p, -, -, h, -⟩
    exact h
  · intro h
    exact ⟨g.priority n, hprio _, hprio n, h, rfl⟩

theorem mem_drawOrder_obj (g : Engine) (prio : Fin 4) : Item.obj prio ∈ g.drawOrder := by
  have hprio : ∀ p : Fin 4, p ∈ [3, 2, 1, 0] := by decide
  exact List.mem_flatMap.mpr ⟨prio, hprio prio, List.mem_append.mpr (.inr (by simp))⟩

/-! What is seen. -/

section Shows

variable {R : Raster} (g : Engine) (pic : Picture R)

/-- The opaque pixel of an enabled background or of the 3D layer, and of the sprites. -/
def bgShows (n : Fin 4) (d : R.Cell) : Option Pixel :=
  if g.resortEnable n.castSucc then
    if n = 0 ∧ g.is3DEnabled = true then
      if (pic.fragment d).a = 0 then none
      else some ⟨(pic.fragment d).toRgb15 ||| 0x8000, .bg 0⟩
    else (pic.bg n d).map fun c => ⟨(c &&& 0x7FFF) ||| 0x8000, .bg n⟩
  else none

def objShows (prio : Fin 4) (d : R.Cell) : Option Pixel :=
  if g.resortEnable 4 = true ∧ (pic.sprPrio (R.column d)).toNat = prio then
    some ⟨pic.sprColor d ||| 0x8000, .obj⟩
  else none

/-- The opaque pixel that a layer has at an output pixel. -/
def shows (d : R.Cell) : Item → Option Pixel
  | .bg n => bgShows g pic n d
  | .obj prio => objShows g pic prio d

/-- A layer has an opaque pixel there and no other one is in front of it. -/
def Frontmost (d : R.Cell) (i : Item) (p : Pixel) : Prop :=
  shows g pic d i = some p ∧ ∀ j, shows g pic d j ≠ none → g.key i ≤ g.key j

/-- No translucent sprite pixel. -/
def OpaqueSprites (pic : Picture R) : Prop :=
  ∀ x, (pic.sprPrio x).toNat < 4 → isObjTranslucentType (pic.sprType x) = false

/-- No effects, and no translucent pixel: of a sprite, or of the 3D layer over a second target. -/
structure Plain (e : Effects) (pic : Picture R) : Prop where
  mode : e.func = .noBlend
  sprites : OpaqueSprites pic
  fragments : (∀ layer, e.blend2 layer = false) ∨
    ∀ d, (pic.fragment d).a = 0 ∨ (pic.fragment d).a = 31

variable {g pic} {e : Effects} {w : Windows}

theorem fragmentPixel_plain (hw : w.used = false) (he : Plain e pic) (blend1 : Bool) (d : R.Cell)
    (p : Pixel) : fragmentPixel g e w pic blend1 d p = if (pic.fragment d).a = 0 then p else
      ⟨(pic.fragment d).toRgb15 ||| 0x8000, .bg 0⟩ := by
  unfold fragmentPixel
  split
  · rfl
  · rename_i hsolid
    have hfinal : (if e.blend2 p.under then
        if (pic.fragment d).a + 1 < 32 then
          rgb (blend3d (pic.fragment d).r ((pic.fragment d).a + 1) p.color.red)
            (blend3d (pic.fragment d).g ((pic.fragment d).a + 1) p.color.green)
            (blend3d (pic.fragment d).b ((pic.fragment d).a + 1) p.color.blue)
        else (pic.fragment d).toRgb15
        else (pic.fragment d).toRgb15) = (pic.fragment d).toRgb15 := by
      rcases he.fragments with hsecond | hfragments
      · rw [hsecond, if_neg Bool.false_ne_true]
      · rw [(hfragments d).resolve_left hsolid]
        simp
    unfold setFinal3dColor
    simp only [hw, he.mode, Bool.false_eq_true, if_false, Bool.not_true, ite_self, hfinal]

theorem bgPixel_plain (hw : w.used = false) (he : Plain e pic) (blend1 : Bool) (n : Fin 4)
    (d : R.Cell) (p : Pixel) : bgPixel g e w pic blend1 n d p =
      ((pic.bg n d).map fun c => ⟨(c &&& 0x7FFF) ||| 0x8000, .bg n⟩).getD p := by
  unfold bgPixel
  cases pic.bg n d with
  | none => rfl
  | some c =>
    unfold setFinalColorBG masterSetFinalBGColor
    simp [hw, he.mode]

theorem objPixel_plain (hw : w.used = false) (he : Plain e pic) (blend1 : Bool) {d : R.Cell}
    (hd : (pic.sprPrio (R.column d)).toNat < 4) (p : Pixel) :
    objPixel g e w pic blend1 d p = ⟨pic.sprColor d ||| 0x8000, .obj⟩ := by
  unfold objPixel setFinalOBJColor
  simp [hw, he.mode, he.sprites _ hd]

theorem drawItem_plain (hg : g.InSync) (hw : w.used = false) (he : Plain e pic) (d : R.Cell)
    (p : Pixel) (i : Item) : drawItem g e w pic d p i = (shows g pic d i).getD p := by
  cases i with
  | bg n =>
    rw [drawItem, shows, bgItem, bgShows, hg.1]
    split
    · split
      · rename_i h3d
        rw [h3d.1, fragmentPixel_plain hw he]
        split <;> rfl
      · exact bgPixel_plain hw he _ n d p
    · rfl
  | obj prio =>
    rw [drawItem, shows, objItem, objShows, hg.1]
    split
    · rename_i h
      exact objPixel_plain hw he _ (by rw [h.2]; exact prio.isLt) p
    · rfl

theorem renderLineLayer_plain (hg : g.InSync) (hw : w.used = false) (he : Plain e pic)
    (sprWin : Fin 256 → Bool) (blend1 : Bool) (d : R.Cell) :
    (renderLineLayer g e w pic sprWin blend1).line d =
      layered (shows g pic d) g.drawOrder ⟨pic.backdropColor, .none⟩ := by
  have hback : drawBackdrop e w pic sprWin blend1 d = ⟨pic.backdropColor, .none⟩ := by
    unfold drawBackdrop
    rw [hw, he.mode]
    rfl
  rw [renderLineLayer_line, hback]
  unfold layered
  congr 1
  funext p i
  exact drawItem_plain hg hw he d p i

theorem mem_drawOrder_of_shows (hg : g.InSync) {d : R.Cell} {i : Item}
    (h : shows g pic d i ≠ none) : i ∈ g.drawOrder := by
  cases i with
  | bg n =>
    rw [mem_drawOrder_bg hg, hg.1]
    by_contra hn
    rw [shows, bgShows, if_neg hn] at h
    exact h rfl
  | obj prio => exact mem_drawOrder_obj g prio

end Shows

/-- Without windows and effects, after any run of register changes, an output pixel has the colour
of the frontmost opaque layer pixel, or that of the backdrop where there is none. -/
theorem renderLineLayer_frontmost (ops : List EngineOp) (R : Raster) (pic : Picture R)
    (e : Effects) (w : Windows) (hw : w.used = false) (he : Plain e pic)
    (sprWin : Fin 256 → Bool) (blend1 : Bool) (d : R.Cell) :
    let g := run Engine.apply .reset ops
    let out := (renderLineLayer g e w pic sprWin blend1).line d
    (∀ i p, Frontmost g pic d i p → out = p) ∧
      ((∀ i, shows g pic d i = none) → out = ⟨pic.backdropColor, .none⟩) ∧
      ((∀ i, shows g pic d i = none) ∨ ∃ i p, Frontmost g pic d i p) := by
  intro g out
  have hg : g.InSync := run_inSync ops
  have hout : out = layered (shows g pic d) g.drawOrder ⟨pic.backdropColor, .none⟩ :=
    renderLineLayer_plain hg hw he sprWin blend1 d
  refine ⟨?_, ?_, ?_⟩
  · rintro i p ⟨hshows, hfront⟩
    rw [hout]
    exact layered_of_frontmost (drawOrder_sorted hg) _
      (mem_drawOrder_of_shows hg (by rw [hshows]; exact Option.some_ne_none p)) hshows
      fun j _ hj => hfront j hj
  · intro hnone
    rw [hout]
    exact layered_of_none _ fun i _ => hnone i
  · rcases Set.eq_empty_or_nonempty {i | shows g pic d i ≠ none} with hempty | hne
    · refine .inl fun i => ?_
      by_contra hi
      exact Set.eq_empty_iff_forall_notMem.mp hempty i hi
    · obtain ⟨p, hp⟩ := Option.ne_none_iff_exists'.mp (Function.argminOn_mem g.key _ hne)
      exact .inr ⟨_, p, hp, fun j hj => Function.argminOn_le g.key _ hj⟩

/-! A line with sprites, a background and a 3D layer, and no effects. -/

/-- The 3D layer at 1, a background at 0 and the sprites shown. -/
def threeLayers : List EngineOp :=
  [.setVideoProp (fun l => l = 0 ∨ l = 2 ∨ l = 4) fun n => if n = 0 then 1 else 0,
    .updateVRAM3DUsageProperties true]

def threeLayersPicture (a : BitVec 8) : Picture nativeRaster where
  backdrop := 0
  bg := fun n d => if n = 2 ∧ d.val < 8 then some 0x001F else none
  fragment := fun _ => ⟨62, 0, 0, a⟩
  sprColor := fun _ => 0x7C00
  sprAlpha := fun _ => 255
  sprType := fun _ => 0
  sprPrio := fun x => if x.val < 4 then 0 else 0x7F
  sprWin := fun _ => false

/-- Mode 0, with the backdrop a second target. -/
def secondTargetBackdrop : Effects := ⟨0x2000, 0, 0, 0⟩

def noWindows : Windows where
  WIN0_ENABLED := false
  WIN1_ENABLED := false
  WINOBJ_ENABLED := false
  WININ0 := 0
  WININ0_SPECIAL := false
  WININ1 := 0
  WININ1_SPECIAL := false
  WINOUT := 0
  WINOUT_SPECIAL := false
  WINOBJ := 0
  WINOBJ_SPECIAL := false
  currWin := fun _ _ => false

theorem threeLayersPicture_opaqueSprites (a : BitVec 8) : OpaqueSprites (threeLayersPicture a) :=
  fun _ _ => rfl

theorem renderLineLayer_frontmost_threeLayers :
    (renderLineLayer (run Engine.apply .reset threeLayers) secondTargetBackdrop noWindows
      (threeLayersPicture 31) (fun _ => false) false).line (nativeCell 0) = ⟨0xFC00, .obj⟩ :=
  (renderLineLayer_frontmost threeLayers nativeRaster (threeLayersPicture 31) secondTargetBackdrop
    noWindows rfl ⟨rfl, threeLayersPicture_opaqueSprites 31, .inr fun _ => .inr rfl⟩ (fun _ => false)
    false (nativeCell 0)).1 (.obj 0) _ ⟨by decide, fun j _ => by
      cases j with
      | bg n => revert n; decide
      | obj prio => revert prio; decide⟩

/-- With mode 0 a translucent pixel of the 3D layer is still blended with a second target. -/
theorem renderLineLayer_translucent3d :
    ¬∀ (ops : List EngineOp) (R : Raster) (pic : Picture R) (e : Effects) (w : Windows),
      w.used = false → e.func = .noBlend → OpaqueSprites pic →
      ∀ (sprWin : Fin 256 → Bool) (blend1 : Bool) (d : R.Cell) (i : Item) (p : Pixel),
        Frontmost (run Engine.apply .reset ops) pic d i p →
        (renderLineLayer (run Engine.apply .reset ops) e w pic sprWin blend1).line d = p := by
  intro h
  have hout := h threeLayers nativeRaster (threeLayersPicture 15) secondTargetBackdrop noWindows
    rfl rfl (threeLayersPicture_opaqueSprites 15) (fun _ => false) false (nativeCell 100) (.bg 0)
    ⟨0x801F, .bg 0⟩ ⟨by decide, fun j hj => by
      cases j with
      | bg n => revert n; decide
      | obj prio => revert prio; decide⟩
  rw [renderLineLayer_line] at hout
  exact absurd (congrArg Pixel.color hout) (by decide)

end Desmume.Video
