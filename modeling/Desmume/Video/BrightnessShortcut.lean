import Desmume.Library.Run
import Desmume.Video.RenderLine

/-! The shortcut for lines that the master brightness makes white or black: what it would have to do
for the lines after it, and the runs in which it is not seen. -/

namespace Desmume.Video
open Library

variable {M : Type} {R : Bool → Raster}

/-! The windows are computed when a line needs them. -/

/-- The columns are those of the registers, or are to be computed again. -/
def CacheOk (winH : Fin 2 → BitVec 8 × BitVec 8) (cache : WinCache) : Prop :=
  ∀ i, cache.needUpdateWinh i = false → cache.hWin i = winRow (winH i)

theorem updateWINH_ok {r : LineRegs} {winH : Fin 2 → BitVec 8 × BitVec 8} {cache : WinCache}
    (h : CacheOk winH cache) (i : Fin 2) : CacheOk winH (updateWINH r winH cache i) := by
  unfold updateWINH
  split
  · intro j hj
    rcases eq_or_ne j i with rfl | hne
    · exact Function.update_self ..
    · dsimp only at hj ⊢
      rw [Function.update_of_ne hne] at hj ⊢
      exact h j hj
  · exact h

/-- A window that is enabled is computed once it has been asked for. -/
theorem updateWINH_computed (r : LineRegs) (winH : Fin 2 → BitVec 8 × BitVec 8) (cache : WinCache)
    {i : Fin 2} (hi : r.winEnabled i = true) (j : Fin 2)
    (h : j = i ∨ cache.needUpdateWinh i = false) :
    (updateWINH r winH cache j).needUpdateWinh i = false := by
  unfold updateWINH
  split
  · dsimp only
    rcases eq_or_ne i j with rfl | hne
    · exact Function.update_self ..
    · rw [Function.update_of_ne hne]
      exact h.resolve_left hne.symm
  · rename_i hskip
    rcases h with rfl | h
    · rw [hi, Bool.and_true, Bool.not_eq_true] at hskip
      exact hskip
    · exact h

/-- A line sees the windows of the registers. -/
theorem setupWindows_eq {r : LineRegs} {winH : Fin 2 → BitVec 8 × BitVec 8} {cache : WinCache}
    (h : CacheOk winH cache) (l : ℕ) :
    setupWindows r l ([0, 1].foldl (updateWINH r winH) cache) =
      setupWindows r l ⟨fun i => winRow (winH i), fun _ => false⟩ := by
  have hok : CacheOk winH ([0, 1].foldl (updateWINH r winH) cache) :=
    updateWINH_ok (updateWINH_ok h 0) 1
  have hcomputed (i : Fin 2) (hi : r.winEnabled i = true) :
      ([0, 1].foldl (updateWINH r winH) cache).needUpdateWinh i = false := by
    rcases Fin.exists_fin_two.mp ⟨i, rfl⟩ with rfl | rfl
    · exact updateWINH_computed r winH _ hi 1 (.inr (updateWINH_computed r winH _ hi 0 (.inl rfl)))
    · exact updateWINH_computed r winH _ hi 1 (.inl rfl)
  funext i
  unfold setupWindows
  cases hi : r.winEnabled i with
  | false => rfl
  | true => rw [hok i (hcomputed i hi)]

theorem lineWindows_eq {r : LineRegs} {winH : Fin 2 → BitVec 8 × BitVec 8} {cache cache' : WinCache}
    (h : CacheOk winH cache) (h' : CacheOk winH cache') (l : ℕ) :
    lineWindows r l ([0, 1].foldl (updateWINH r winH) cache) =
      lineWindows r l ([0, 1].foldl (updateWINH r winH) cache') := by
  unfold lineWindows
  rw [setupWindows_eq h, setupWindows_eq h']

/-! What a line leaves behind, where it leaves nothing. -/

section NoTrace

variable {R : Raster} (c : Content M R) (r : LineRegs) (mem : M) (l : ℕ)

theorem modeRender_mosaicColors {n : Fin 4} (h : r.bgType n = .invalid ∨ r.Mosaic_Enable n = false)
    (ref : RefPoint) (mosaicColors : Fin 256 → Color) :
    (modeRender c r mem l n ref mosaicColors).mosaicColors = mosaicColors := by
  have hfold (hoff : r.Mosaic_Enable n = false) (xs : List (Fin 256)) (row : BGRow) :
      (xs.foldl (bgColumn c r mem l n ref) row).mosaicColors = row.mosaicColors := by
    induction xs generalizing row with
    | nil => rfl
    | cons x xs ih =>
      rw [List.foldl_cons, ih]
      unfold bgColumn
      split
      · rfl
      · rw [hoff]
        rfl
  unfold modeRender
  split
  · rfl
  · rename_i hvalid
    exact hfold (h.resolve_left hvalid) ..

theorem advance_zero {n : Fin 4} (h : (r.bgType n).rotates = true →
    r.BGxPB (bgParams n) = 0 ∧ r.BGxPD (bgParams n) = 0) (ref : RefPoint) :
    advance r n ref = ref := by
  unfold advance
  split
  · rename_i hrotates
    rw [(h hrotates).1, (h hrotates).2]
    simp
  · rfl

/-- A line that leaves the reference points, the mosaic colours and the FIFO as they are. -/
structure LeavesNoTrace : Prop where
  affine : ∀ n ∈ r.engine.bgsDrawn, (r.bgType n).rotates = true →
    r.BGxPB (bgParams n) = 0 ∧ r.BGxPD (bgParams n) = 0
  mosaic : ∀ n ∈ r.engine.bgsDrawn, ¬(n = 0 ∧ r.engine.is3DEnabled = true) →
    r.bgType n = .invalid ∨ r.Mosaic_Enable n = false
  sprites : r.engine.enableLayer 4 = true →
    (r.mosaicWidth = 0 ∧ r.mosaicHeight = 0) ∨ ∀ num, c.oamMosaic mem num = false
  fifo : r.dispMode ≠ .mainMemory

variable {c r mem}

theorem bgPass_noTrace (h : LeavesNoTrace c r mem) (ref : Fin 2 → RefPoint)
    (mosaicBG : Fin 4 → Fin 256 → Color) :
    (bgPass c r mem l ref mosaicBG).ref = ref ∧
      (bgPass c r mem l ref mosaicBG).mosaicBG = mosaicBG := by
  have hfold (ns : List (Fin 4)) (hns : ∀ n ∈ ns, n ∈ r.engine.bgsDrawn) (s : BGPass) :
      (ns.foldl (bgPassStep c r mem l) s).ref = s.ref ∧
        (ns.foldl (bgPassStep c r mem l) s).mosaicBG = s.mosaicBG := by
    induction ns generalizing s with
    | nil => exact ⟨rfl, rfl⟩
    | cons n ns ih =>
      have hn := hns n (List.mem_cons_self ..)
      have hstep : (bgPassStep c r mem l s n).ref = s.ref ∧
          (bgPassStep c r mem l s n).mosaicBG = s.mosaicBG := by
        unfold bgPassStep
        split
        · exact ⟨rfl, rfl⟩
        · rename_i h3d
          dsimp only
          rw [advance_zero r (h.affine n hn), modeRender_mosaicColors c r mem l (h.mosaic n hn h3d),
            Function.update_eq_self, Function.update_eq_self]
          exact ⟨rfl, rfl⟩
      rw [List.foldl_cons, ← hstep.1, ← hstep.2]
      exact ih (fun m hm => hns m (List.mem_cons_of_mem _ hm)) _
  exact hfold _ (fun _ hn => hn) _

theorem mosaicSpriteLine_off {enableMosaic : Fin 256 → Bool}
    (h : (r.mosaicWidth = 0 ∧ r.mosaicHeight = 0) ∨ ∀ x, enableMosaic x = false)
    (s : SpriteMosaic) : mosaicSpriteLine r l enableMosaic s = s := by
  unfold mosaicSpriteLine
  split
  · rename_i hsize
    rcases h with hzero | hoff
    · exact absurd hsize (by simp [hzero])
    · have hstep : mosaicSpriteLinePixel r l enableMosaic = fun s _ => s := by
        funext s x
        unfold mosaicSpriteLinePixel
        rw [hoff x]
        rfl
      rw [hstep]
      exact List.foldl_fixed ..
  · rfl

theorem spritePass_noTrace (h : LeavesNoTrace c r mem) (mosaicOBJ : Fin 256 → MosaicObj)
    (sprNum : Fin 256 → BitVec 8) :
    (spritePass c r mem l mosaicOBJ sprNum).mosaicOBJ = mosaicOBJ := by
  unfold spritePass
  split
  · rename_i hshown
    dsimp only
    rw [mosaicSpriteLine_off l ((h.sprites hshown).imp_right fun hoff x => hoff _)]
  · rfl

end NoTrace

/-! What a line takes from the scratch buffers. -/

/-- `_blend1` after the layers of a line. -/
def leftBlend1 (g : Engine) (e : Effects) (blend1 : Bool) : Bool :=
  g.drawOrder.foldl (fun b i => if g.enabled i then e.blend1 i.layer else b) blend1

/-- The scratch buffers that differ from those of a run without the shortcut. -/
structure Stale where
  blend1 : Bool
  sprWin : Bool
  sprNum : Bool

/-- The backdrop through windows, with a brightness effect, takes `_blend1` and the object window of
the line before; the mosaic of the sprites takes their numbers wherever no sprite left one. -/
structure ReadsNoStale (m : Stale) (r : LineRegs) : Prop where
  backdrop : r.windows.used = true → r.effects.func = .increase ∨ r.effects.func = .decrease →
    m.blend1 = false ∧ (r.windows.WINOBJ_ENABLED = true → m.sprWin = false)
  sprites : r.engine.enableLayer 4 = true → r.mosaicWidth ≠ 0 ∨ r.mosaicHeight ≠ 0 → m.sprNum = false

section Leftover

variable {R : Raster} {g : Engine} {e : Effects} {w : Windows} {pic : Picture R}

theorem drawBG_blend1 (s : Painter R) (n : Fin 4) :
    (drawBG g e w pic s n).blend1 = if g.enabled (.bg n) then e.blend1 (.bg n) else s.blend1 := by
  unfold drawBG Engine.enabled
  split
  · dsimp only
    split <;> rfl
  · rfl

theorem drawOBJ_blend1 (s : Painter R) (prio : Fin 4) :
    (drawOBJ g e w pic s prio).blend1 =
      if g.enabled (.obj prio) then e.blend1 .obj else s.blend1 := by
  unfold drawOBJ Engine.enabled
  split <;> rfl

theorem drawPriority_blend1 (s : Painter R) (prio : Fin 4) :
    (drawPriority g e w pic s prio).blend1 =
      ((g.itemsForPriority prio).map Item.bg ++ [Item.obj prio]).foldl
        (fun b i => if g.enabled i then e.blend1 i.layer else b) s.blend1 := by
  have hfold (ns : List (Fin 4)) (s : Painter R) :
      (ns.foldl (drawBG g e w pic) s).blend1 = (ns.map Item.bg).foldl
        (fun b i => if g.enabled i then e.blend1 i.layer else b) s.blend1 := by
    induction ns generalizing s with
    | nil => rfl
    | cons n ns ih =>
      rw [List.foldl_cons, ih, drawBG_blend1]
      rfl
  have hnone (h : ∀ n : Fin 4, g.enableLayer n.castSucc = false) (ns : List (Fin 4)) (b : Bool) :
      (ns.map Item.bg).foldl (fun b i => if g.enabled i then e.blend1 i.layer else b) b = b := by
    induction ns with
    | nil => rfl
    | cons n ns ih =>
      rw [List.map_cons, List.foldl_cons, Engine.enabled, h n]
      exact ih
  unfold drawPriority
  rw [drawOBJ_blend1, List.foldl_append]
  congr 1
  split
  · exact hfold _ s
  · rename_i hnot
    refine (hnone (fun n => ?_) _ _).symm
    rw [Bool.not_eq_true, List.any_eq_false] at hnot
    exact Bool.eq_false_iff.mpr (hnot n (by revert n; decide))

theorem renderLineLayer_blend1 (sprWin : Fin 256 → Bool) (blend1 : Bool) :
    (renderLineLayer g e w pic sprWin blend1).blend1 = leftBlend1 g e blend1 := by
  have hfold (prios : List (Fin 4)) (s : Painter R) :
      (prios.foldl (drawPriority g e w pic) s).blend1 =
        (prios.flatMap fun prio => (g.itemsForPriority prio).map Item.bg ++ [Item.obj prio]).foldl
          (fun b i => if g.enabled i then e.blend1 i.layer else b) s.blend1 := by
    induction prios generalizing s with
    | nil => rfl
    | cons prio prios ih =>
      rw [List.foldl_cons, ih, drawPriority_blend1, List.flatMap_cons, ← List.foldl_append]
  exact hfold _ _

/-- A line that draws a layer sets `_blend1`, whatever it was. -/
theorem leftBlend1_drawn (h : g.drawOrder.any g.enabled = true) (b b' : Bool) :
    leftBlend1 g e b = leftBlend1 g e b' := by
  have hfold (items : List Item) (hany : items.any g.enabled = true) (b b' : Bool) :
      items.foldl (fun b i => if g.enabled i then e.blend1 i.layer else b) b =
        items.foldl (fun b i => if g.enabled i then e.blend1 i.layer else b) b' := by
    induction items generalizing b b' with
    | nil => exact absurd hany Bool.false_ne_true
    | cons i items ih =>
      rw [List.foldl_cons, List.foldl_cons]
      cases hi : g.enabled i with
      | true => rfl
      | false =>
        rw [List.any_cons, hi, Bool.false_or] at hany
        exact ih hany _ _
  exact hfold _ h b b'

theorem drawBackdrop_congr {sprWin sprWin' : Fin 256 → Bool} {blend1 blend1' : Bool}
    (h : w.used = true → e.func = .increase ∨ e.func = .decrease →
      blend1 = blend1' ∧ (w.WINOBJ_ENABLED = true → sprWin = sprWin')) :
    drawBackdrop e w pic sprWin blend1 = drawBackdrop e w pic sprWin' blend1' := by
  unfold drawBackdrop
  split
  · rename_i hused
    have hcheck (hobj : w.WINOBJ_ENABLED = true → sprWin = sprWin') (x : Fin 256) :
        checkWindows w sprWin .none x false true = checkWindows w sprWin' .none x false true := by
      unfold checkWindows
      cases hw : w.WINOBJ_ENABLED with
      | false => rfl
      | true => rw [hobj hw]
    have hfade (func : BlendFunc) (hfunc : e.func = func)
        (hmode : func = .increase ∨ func = .decrease) (d : R.Cell) :
        setFinalColorBG e w sprWin func true blend1 (R.column d) .none true pic.backdropColor
          ⟨0, .none⟩ = setFinalColorBG e w sprWin' func true blend1' (R.column d) .none true
          pic.backdropColor ⟨0, .none⟩ := by
      obtain ⟨rfl, hobj⟩ := h hused (hfunc ▸ hmode)
      unfold setFinalColorBG masterSetFinalBGColor
      simp only [if_true, hcheck hobj]
    funext d
    cases hfunc : e.func with
    | noBlend => rfl
    | blend => rfl
    | increase => rw [hfade .increase hfunc (.inl rfl)]
    | decrease => rw [hfade .decrease hfunc (.inr rfl)]
  · rfl

/-- The layers of a line, over a backdrop that does not show the leftovers. -/
theorem renderLineLayer_congr {sprWin sprWin' : Fin 256 → Bool} {blend1 blend1' : Bool}
    (h : w.used = true → e.func = .increase ∨ e.func = .decrease →
      blend1 = blend1' ∧ (w.WINOBJ_ENABLED = true → sprWin = sprWin')) :
    (renderLineLayer g e w pic sprWin blend1).line =
      (renderLineLayer g e w pic sprWin' blend1').line := by
  funext d
  rw [renderLineLayer_line, renderLineLayer_line, drawBackdrop_congr h]

theorem spritePass_congr {M : Type} (c : Content M R) (r : LineRegs) (mem : M) (l : ℕ)
    (mosaicOBJ : Fin 256 → MosaicObj) {sprNum sprNum' : Fin 256 → BitVec 8}
    (h : r.engine.enableLayer 4 = true → r.mosaicWidth ≠ 0 ∨ r.mosaicHeight ≠ 0 →
      sprNum = sprNum') :
    spritePass c r mem l mosaicOBJ sprNum' = { spritePass c r mem l mosaicOBJ sprNum with
      sprNum := (spritePass c r mem l mosaicOBJ sprNum').sprNum } := by
  unfold spritePass
  cases hshown : r.engine.enableLayer 4 with
  | false => rfl
  | true =>
    by_cases hsize : r.mosaicWidth ≠ 0 ∨ r.mosaicHeight ≠ 0
    · rw [h hshown hsize]
    · have hzero : r.mosaicWidth = 0 ∧ r.mosaicHeight = 0 := by
        rw [not_or, not_not, not_not] at hsize
        exact hsize
      simp only [if_true, mosaicSpriteLine_off l (.inl hzero)]

theorem spritePass_sprNum {M : Type} (c : Content M R) (r : LineRegs) (mem : M) (l : ℕ)
    (mosaicOBJ : Fin 256 → MosaicObj) (sprNum : Fin 256 → BitVec 8) :
    (spritePass c r mem l mosaicOBJ sprNum).sprNum =
      if r.engine.enableLayer 4 then fun x => ((c.sprites r mem l).sprNum x).getD (sprNum x)
      else sprNum := by
  unfold spritePass
  split <;> rfl

end Leftover

/-! The two runs. -/

/-- Nothing has been skipped. -/
def Stale.fresh : Stale := ⟨false, false, false⟩

/-- A line is skipped: its layers would have set `_blend1`, its sprites the object window and the
numbers. -/
def Stale.afterSkip (m : Stale) (r : LineRegs) (left : Leftover) : Stale where
  blend1 := m.blend1 || leftBlend1 r.engine r.effects left.blend1 != left.blend1
  sprWin := true
  sprNum := m.sprNum || r.engine.enableLayer 4

def Stale.afterLine (m : Stale) (r : LineRegs) : Stale where
  blend1 := m.blend1 && !r.engine.drawOrder.any r.engine.enabled
  sprWin := false
  sprNum := m.sprNum

def staleRecord (id : EngineID) (m : Stale) (s : GpuState M R) : GpuOp M → Stale
  | .renderLine l skip showGpu _ =>
    if skip || !showGpu then m
    else if s.core.skipsWork id l then m.afterSkip s.core.regs s.left
    else m.afterLine s.core.regs
  | _ => m

/-- A line that is skipped would have left no trace, and a line that is drawn reads nothing stale. -/
def Unseen (c : (b : Bool) → Content M (R b)) (id : EngineID) (x : Stale × GpuState M R) :
    GpuOp M → Prop
  | .renderLine l skip showGpu custom => skip = false → showGpu = true →
    if x.2.core.skipsWork id l then LeavesNoTrace (c custom) x.2.core.regs x.2.core.mem
    else ReadsNoStale x.1 x.2.core.regs
  | _ => True

/-- The scratch buffers agree where they are not stale. -/
structure SameLeft (m : Stale) (s t : Leftover) : Prop where
  blend1 : m.blend1 = false → s.blend1 = t.blend1
  sprWin : m.sprWin = false → s.sprWin = t.sprWin
  sprNum : m.sprNum = false → s.sprNum = t.sprNum

structure SameState (m : Stale) (s t : GpuState M R) : Prop where
  core : s.core = t.core
  cache : CacheOk s.core.winH s.cache
  cache' : CacheOk t.core.winH t.cache
  left : SameLeft m s.left t.left

variable (c : (b : Bool) → Content M (R b)) (id : EngineID)

theorem masterBrightness_congr {r : LineRegs} (hfactor : r.MasterBrightFactor.val ≥ 16)
    (hmode : r.MasterBrightMode = .up ∨ r.MasterBrightMode = .down) (a b : Color) :
    masterBrightness r a = masterBrightness r b := by
  have hzero : r.MasterBrightFactor ≠ 0 := by
    intro h
    rw [h] at hfactor
    exact absurd hfactor (by decide)
  unfold masterBrightness
  rw [if_neg hzero, if_neg hzero]
  rcases hmode with hmode | hmode
  · rw [hmode]
    simp only [dif_neg (not_lt.mpr hfactor)]
  · rw [hmode]
    simp only [dif_neg (not_lt.mpr hfactor)]

/-- Without a capture there is nothing to do for it between line 0 and line 191. -/
theorem capture_skipsWork {b : Bool} {s : Core M R} {l : ℕ} (h : s.skipsWork id l = true)
    (copies : Bool) (layers : (R b).Cell → Color) : s.capture id (c b) l copies layers = s := by
  unfold Core.capture
  cases id with
  | sub => rfl
  | main =>
    unfold Core.skipsWork at h
    simp only [Bool.and_eq_true, Bool.not_eq_true', decide_eq_true_eq] at h
    obtain ⟨-, ⟨hoff, hl0⟩, hl191⟩ := h
    unfold displayCapture
    simp only [hl0, false_and, if_false, hoff, Bool.not_false, if_true, hl191]

theorem skipsWork_bright {s : Core M R} {l : ℕ} (h : s.skipsWork id l = true) :
    s.regs.MasterBrightFactor.val ≥ 16 ∧
      (s.regs.MasterBrightMode = .up ∨ s.regs.MasterBrightMode = .down) := by
  unfold Core.skipsWork Core.allWhiteOrBlack at h
  simp only [Bool.and_eq_true, Bool.or_eq_true, decide_eq_true_eq] at h
  exact h.1

/-- The whole of a line that leaves no trace writes what the shortcut writes. -/
theorem drawLine_core_noTrace {s : GpuState M R} {custom : Bool} {l : ℕ}
    (hskips : s.core.skipsWork id l = true)
    (htrace : LeavesNoTrace (c custom) s.core.regs s.core.mem) :
    (drawLine c id custom l s).core = s.core.writeLine custom l fun d =>
      masterBrightness s.core.regs (s.core.frame custom l d) := by
  have hbgs := bgPass_noTrace l htrace s.core.ref s.core.mosaicBG
  have hspr := spritePass_noTrace l htrace s.core.mosaicOBJ s.left.sprNum
  obtain ⟨hfactor, hmode⟩ := skipsWork_bright id hskips
  unfold drawLine
  simp only [if_neg htrace.fifo, hbgs.1, hbgs.2, hspr]
  rw [capture_skipsWork c id hskips]
  congr 1
  funext d
  exact masterBrightness_congr hfactor hmode _ _

theorem drawLine_left (s : GpuState M R) (custom : Bool) (l : ℕ) :
    (drawLine c id custom l s).left.blend1 =
        leftBlend1 s.core.regs.engine s.core.regs.effects s.left.blend1 ∧
      (drawLine c id custom l s).left.sprNum =
        (if s.core.regs.engine.enableLayer 4 then
          fun x => (((c custom).sprites s.core.regs s.core.mem l).sprNum x).getD (s.left.sprNum x)
        else s.left.sprNum) := by
  refine ⟨?_, ?_⟩
  · unfold drawLine
    exact renderLineLayer_blend1 _ _
  · unfold drawLine
    exact spritePass_sprNum ..

theorem drawLine_cache (s : GpuState M R) (custom : Bool) (l : ℕ) :
    (drawLine c id custom l s).cache =
      [0, 1].foldl (updateWINH s.core.regs s.core.winH) s.cache := rfl

/-- A skipped line against the whole of it. -/
theorem skippedLine_same {m : Stale} {s t : GpuState M R} (h : SameState m s t) {custom : Bool}
    {l : ℕ} (hskips : s.core.skipsWork id l = true)
    (htrace : LeavesNoTrace (c custom) s.core.regs s.core.mem) :
    SameState (m.afterSkip s.core.regs s.left)
      { s with core := s.core.writeLine custom l fun d =>
          masterBrightness s.core.regs (s.core.frame custom l d) }
      (drawLine c id custom l t) := by
  obtain ⟨hcore, hcache, hcache', hleft⟩ := h
  obtain ⟨hblend1, hsprNum⟩ := drawLine_left c id t custom l
  rw [hcore] at hskips htrace
  have hdrawn := drawLine_core_noTrace c id hskips htrace
  refine ⟨?_, ?_, ?_, ?_⟩
  · rw [hdrawn, hcore]
  · exact hcache
  · rw [drawLine_cache, hdrawn]
    exact updateWINH_ok (updateWINH_ok hcache' 0) 1
  · refine ⟨fun hfresh => ?_, fun hfresh => absurd hfresh nofun, fun hfresh => ?_⟩
    · unfold Stale.afterSkip at hfresh
      simp only [Bool.or_eq_false_iff, bne_eq_false_iff_eq] at hfresh
      rw [hblend1, ← hleft.blend1 hfresh.1, ← hcore, hfresh.2]
    · unfold Stale.afterSkip at hfresh
      simp only [Bool.or_eq_false_iff] at hfresh
      rw [hsprNum, ← hcore, hfresh.2]
      exact hleft.sprNum hfresh.1

theorem drawLine_core_congr {m : Stale} {s t : GpuState M R} (h : SameState m s t)
    (hreads : ReadsNoStale m s.core.regs) (custom : Bool) (l : ℕ) :
    (drawLine c id custom l s).core = (drawLine c id custom l t).core ∧
      (drawLine c id custom l s).left.sprWin = (drawLine c id custom l t).left.sprWin := by
  obtain ⟨hcore, hcache, hcache', hleft⟩ := h
  have hspr := spritePass_congr (c custom) s.core.regs s.core.mem l s.core.mosaicOBJ
    fun hshown hsize => hleft.sprNum (hreads.sprites hshown hsize)
  have hline (pic : Picture (R custom)) :
      (renderLineLayer s.core.regs.engine s.core.regs.effects (lineWindows s.core.regs l
        ([0, 1].foldl (updateWINH s.core.regs s.core.winH) s.cache)) pic s.left.sprWin
        s.left.blend1).line =
      (renderLineLayer s.core.regs.engine s.core.regs.effects (lineWindows s.core.regs l
        ([0, 1].foldl (updateWINH s.core.regs s.core.winH) s.cache)) pic t.left.sprWin
        t.left.blend1).line :=
    renderLineLayer_congr fun hused hfade => (hreads.backdrop hused hfade).imp hleft.blend1
      fun hobj hwin => hleft.sprWin (hobj hwin)
  unfold drawLine
  dsimp only
  rw [← hcore] at hcache' ⊢
  rw [hspr, ← lineWindows_eq hcache hcache' l]
  exact ⟨by simp only [layersPictureOf, hline], rfl⟩

theorem capture_winH {b : Bool} (s : Core M R) (l : ℕ) (copies : Bool)
    (layers : (R b).Cell → Color) : (s.capture id (c b) l copies layers).winH = s.winH := by
  unfold Core.capture
  cases id with
  | sub => rfl
  | main =>
    unfold displayCapture
    dsimp only
    split_ifs <;> rfl

theorem drawLine_winH (s : GpuState M R) (custom : Bool) (l : ℕ) :
    (drawLine c id custom l s).core.winH = s.core.winH := by
  unfold drawLine
  exact capture_winH c id _ l _ _

/-- A drawn line against the same line of the other run. -/
theorem drawnLine_same {m : Stale} {s t : GpuState M R} (h : SameState m s t)
    (hreads : ReadsNoStale m s.core.regs) (custom : Bool) (l : ℕ) :
    SameState (m.afterLine s.core.regs) (drawLine c id custom l s) (drawLine c id custom l t) := by
  obtain ⟨hdrawn, hwin⟩ := drawLine_core_congr c id h hreads custom l
  obtain ⟨hcore, hcache, hcache', hleft⟩ := h
  obtain ⟨hblend1, hsprNum⟩ := drawLine_left c id s custom l
  obtain ⟨hblend1', hsprNum'⟩ := drawLine_left c id t custom l
  refine ⟨hdrawn, ?_, ?_, ?_⟩
  · rw [drawLine_winH, drawLine_cache]
    exact updateWINH_ok (updateWINH_ok hcache 0) 1
  · rw [drawLine_winH, drawLine_cache]
    exact updateWINH_ok (updateWINH_ok hcache' 0) 1
  · refine ⟨fun hfresh => ?_, fun _ => hwin, fun hfresh => ?_⟩
    · rw [hblend1, hblend1', ← hcore]
      unfold Stale.afterLine at hfresh
      rcases Bool.and_eq_false_iff.mp hfresh with hfresh | hany
      · rw [hleft.blend1 hfresh]
      · exact leftBlend1_drawn (by simpa using hany) _ _
    · rw [hsprNum, hsprNum', ← hcore, hleft.sprNum hfresh]

theorem SameState.withCore {m : Stale} {s t : GpuState M R} (h : SameState m s t)
    {core core' : Core M R} (hcore : core = core') (hwinH : core.winH = s.core.winH) :
    SameState m { s with core := core } { t with core := core' } := by
  refine ⟨hcore, ?_, ?_, h.left⟩
  · rw [hwinH]
    exact h.cache
  · rw [← hcore, hwinH, h.core]
    exact h.cache'

theorem write_cacheOk {s : Core M R} {cache : WinCache} (h : CacheOk s.winH cache) (op : GpuOp M) :
    CacheOk (s.write op).winH (cache.write op) := by
  cases op with
  | setWINH i startX endX =>
    intro j hj
    dsimp only [WinCache.write, Core.write] at hj ⊢
    rcases eq_or_ne j i with rfl | hne
    · rw [Function.update_self] at hj
      exact absurd hj Bool.false_ne_true.symm
    · rw [Function.update_of_ne hne] at hj ⊢
      exact h j hj
  | write f => exact h
  | setAffineStart n xy f => exact h
  | storeRef n f => exact h
  | setDISPCAPCNT request f => exact h
  | fifoSend val => exact h
  | renderLine l skip showGpu custom => exact h

theorem write_same {m : Stale} {s t : GpuState M R} (h : SameState m s t) (op : GpuOp M) :
    SameState m { s with core := s.core.write op, cache := s.cache.write op }
      { t with core := t.core.write op, cache := t.cache.write op } := by
  refine ⟨?_, write_cacheOk h.cache op, write_cacheOk h.cache' op, h.left⟩
  exact congrArg (fun core => core.write op) h.core

/-- A line after the refresh of line 0. -/
theorem startedLine_same {m : Stale} {s t : GpuState M R} (h : SameState m s t) (l : ℕ)
    (skip showGpu custom : Bool)
    (hunseen : Unseen c id (m, s) (.renderLine l skip showGpu custom)) :
    SameState (staleRecord id m s (.renderLine l skip showGpu custom))
      (startedLine c id true l skip showGpu custom s)
      (startedLine c id false l skip showGpu custom t) := by
  unfold startedLine staleRecord
  cases skip with
  | true =>
    refine h.withCore ?_ (capture_winH c id _ l _ _)
    rw [h.core]
  | false =>
    cases showGpu with
    | false =>
      refine h.withCore ?_ rfl
      rw [h.core]
    | true =>
      have hcond := hunseen rfl rfl
      simp only [Bool.false_eq_true, Bool.not_true, Bool.or_self, if_false, Bool.true_and,
        Bool.false_and]
      dsimp only at hcond
      split
      · rename_i hskips
        rw [if_pos hskips] at hcond
        exact skippedLine_same c id h hskips hcond
      · rename_i hdraws
        rw [if_neg hdraws] at hcond
        exact drawnLine_same c id h hcond custom l

theorem renderLine_same {m : Stale} {s t : GpuState M R} (h : SameState m s t) (l : ℕ)
    (skip showGpu custom : Bool)
    (hunseen : Unseen c id (m, s) (.renderLine l skip showGpu custom)) :
    SameState (staleRecord id m s (.renderLine l skip showGpu custom))
      (renderLine c id true l skip showGpu custom s)
      (renderLine c id false l skip showGpu custom t) := by
  unfold renderLine
  split
  · exact startedLine_same c id
      (h.withCore (congrArg Core.refreshAffineStartRegs h.core) rfl) l skip showGpu custom hunseen
  · exact startedLine_same c id h l skip showGpu custom hunseen

theorem step_same {m : Stale} {s t : GpuState M R} (h : SameState m s t) (op : GpuOp M)
    (hunseen : Unseen c id (m, s) op) :
    SameState (staleRecord id m s op) (s.step c id true op) (t.step c id false op) := by
  cases op with
  | renderLine l skip showGpu custom => exact renderLine_same c id h l skip showGpu custom hunseen
  | write f => exact write_same h _
  | setWINH i startX endX => exact write_same h _
  | setAffineStart n xy f => exact write_same h _
  | storeRef n f => exact write_same h _
  | setDISPCAPCNT request f => exact write_same h _
  | fifoSend val => exact write_same h _

/-- The windows that a line would be drawn through. -/
def GpuState.windowsAt (s : GpuState M R) (l : ℕ) : Windows :=
  lineWindows s.core.regs l ([0, 1].foldl (updateWINH s.core.regs s.core.winH) s.cache)

/-- In a run in which every skipped line would have left no trace, and no drawn line reads what a
skipped line left stale, the shortcut is not seen: neither in what later lines depend on nor in the
pixels of any line. -/
theorem shortcut_unseen (core : Core M R) (left : Leftover) (ops : List (GpuOp M))
    (h : AtEach (recordStep (GpuState.step c id true) (staleRecord id)) (Unseen c id)
      (.fresh, .start core left) ops) :
    let s := run (GpuState.step c id true) (.start core left) ops
    let t := run (GpuState.step c id false) (.start core left) ops
    s.core = t.core ∧ ∀ l, s.windowsAt l = t.windowsAt l := by
  intro s t
  have hstart : SameState .fresh (GpuState.start core left) (GpuState.start core left) :=
    ⟨rfl, fun _ hneed => absurd hneed Bool.false_ne_true.symm,
      fun _ hneed => absurd hneed Bool.false_ne_true.symm, ⟨fun _ => rfl, fun _ => rfl, fun _ => rfl⟩⟩
  have hstep (m : Stale) (s t : GpuState M R) (op : GpuOp M) (hrel : SameState m s t)
      (hcond : Unseen c id (m, s) op) :
      SameState (staleRecord id m s op) (s.step c id true op) (t.step c id false op) :=
    step_same c id hrel op hcond
  obtain ⟨m, hsame⟩ := run_related hstep hstart h
  refine ⟨hsame.core, fun l => ?_⟩
  have hcache' := hsame.cache'
  rw [← hsame.core] at hcache'
  unfold GpuState.windowsAt
  rw [← hsame.core]
  exact lineWindows_eq hsame.cache hcache' l

/-! A white line with a rotated background. -/

/-- A memory in which there is nothing to see. -/
def blankContent (_ : Bool) : Content Unit nativeRaster where
  backdrop := fun _ _ => 0
  bgPixel := fun _ _ _ _ _ _ => none
  customBG := fun _ _ _ _ _ => none
  fragment := fun _ _ _ _ => ⟨0, 0, 0, 0⟩
  sprites := fun _ _ _ => ⟨fun _ => 0, fun _ => 0, fun _ => 0, fun _ => 0xFF, fun _ => false,
    fun _ => none⟩
  oamMosaic := fun _ _ => false
  customOBJ := fun _ _ _ _ => none
  vramLine := fun _ _ _ => 0
  captures := fun _ _ _ => false
  captureFifo := fun _ _ _ => false
  capture := fun _ _ _ _ _ => ()

/-- `BG2` rotates by `step` a line, and the screen is made white. -/
def whiteRegs (step : BitVec 16) : LineRegs where
  engine := Engine.reset.setVideoProp (fun l => l = 2) fun _ => 0
  effects := ⟨0, 0, 0, 0⟩
  windows := ⟨false, false, false, 0, false, 0, false, 0, false, 0, false⟩
  winV := fun _ => (0, 0)
  dispMode := .normal
  BG_Mode := 2
  Mosaic_Enable := fun _ => false
  mosaicWidth := 0
  mosaicHeight := 0
  BGxPB := fun _ => step
  BGxPD := fun _ => step
  MasterBrightFactor := 16
  MasterBrightMode := .up

def whiteCore (step : BitVec 16) : Core Unit fun _ => nativeRaster where
  regs := whiteRegs step
  mem := ()
  winH := fun _ => (0, 0)
  affineInfo := fun _ => ⟨0, 0⟩
  ref := fun _ => ⟨0, 0⟩
  mosaicBG := fun _ _ => 0
  mosaicOBJ := fun _ => ⟨0, 0, false⟩
  fifo := ⟨fun _ => 0, 0, 0⟩
  capRequest := false
  capEnabled := false
  frame := fun _ _ _ => 0

def blankLeftover : Leftover := ⟨false, fun _ => false, fun _ => 0⟩

/-- Line 1 in white, then line 2 as it is. -/
def whiteThenShown : List (GpuOp Unit) :=
  [.renderLine 1 false true false, .write fun x => ({ x.1 with MasterBrightFactor := 0 }, x.2),
    .renderLine 2 false true false]

theorem shortcut_unseen_whiteThenShown :
    (run (GpuState.step blankContent .main true) (.start (whiteCore 0) blankLeftover)
      whiteThenShown).core =
    (run (GpuState.step blankContent .main false) (.start (whiteCore 0) blankLeftover)
      whiteThenShown).core :=
  (shortcut_unseen blankContent .main (whiteCore 0) blankLeftover whiteThenShown
    ⟨fun _ _ => ⟨fun _ _ _ => ⟨rfl, rfl⟩, fun _ _ _ => .inr rfl, fun _ => .inl ⟨rfl, rfl⟩, nofun⟩,
      trivial, fun _ _ => ⟨nofun, nofun⟩, trivial⟩).1

/-- A skipped line does not move the reference point on. -/
theorem shortcut_strands_ref :
    (run (GpuState.step blankContent .main true) (.start (whiteCore 0x100) blankLeftover)
      [.renderLine 1 false true false]).core.ref 0 ≠
    (run (GpuState.step blankContent .main false) (.start (whiteCore 0x100) blankLeftover)
      [.renderLine 1 false true false]).core.ref 0 := by
  decide

end Desmume.Video
