import Desmume.Video.SpriteBounds

/-! Sprites that are rotated by the identity, against the same sprites with the rotation off. -/

namespace Desmume.Video

/-- What a sprite draws in a column: all but its number, which only the mosaic asks for. -/
def SpriteCell.drawn (c : SpriteCell) : SpriteCell := { c with num := 0 }

/-- A sprite that is rotated by the identity, without flips and in its own size. -/
structure IdentityRotation (oam : Oam) (e : OAMAttributes) : Prop where
  rotScale : e.RotScale = 1
  hflip : e.HFlip = false
  vflip : e.VFlip = false
  matrix : oam.matrix e = ![0x100, 0, 0, 0x100]

/-- OAM with the rotation of an entry off. -/
def Oam.plain (oam : Oam) (i : Fin 128) : Oam := Function.update oam i { oam i with RotScale := 0 }

/-- A column of the sprite that is on the line. -/
def OAMAttributes.Shown (e : OAMAttributes) (l j : ℕ) : Prop :=
  e.line l < e.sprSize.y ∧ j < e.sprSize.x ∧ 0 ≤ e.X.toInt + j ∧ e.X.toInt + j < 256

section Texels

variable (r : SpriteRegs) (m : GpuMemory) (e : OAMAttributes)

/-- Where the tiles of a sprite start, and where a texel lies from there on. -/
def tileAddress : ℕ := r.sprMem + (e.tile <<< if r.sprite2D then 5 else r.sprBoundary)

def tileOffset (x y : ℕ) : ℕ :=
  let depth := if e.Depth then 8 else 4
  let column := if e.Depth then (x &&& 0x7) + ((x &&& 0xFFF8) <<< 3)
    else (x >>> 1 &&& 0x3) + ((x >>> 1 &&& 0xFFFC) <<< 3)
  let row := if r.sprite2D then (y >>> 3) <<< 10 else (y >>> 3) * e.sprSize.x * depth
  column + row + (y &&& 0x7) * depth

/-- A texel that both paths draw alike: one of a normal or a translucent sprite whose byte the pages
leave where the first tile leads to, or one of a bitmap that nobody sees. -/
def DrawnAlike (x y : ℕ) : Prop :=
  e.Mode.val < 2 ∧
      m.mmuGpuMap (tileAddress r e + tileOffset r e x y) =
        m.mmuGpuMap (tileAddress r e) + tileOffset r e x y ∨
    e.Mode = 3 ∧ e.Depth = false ∧ e.PaletteIndex = 0

/-- What the two paths do with a column, by its texel. -/
def plainCell (i : Fin 128) (x y : ℕ) (c : SpriteCell) : SpriteCell :=
  match plainPixel r m i e y with
  | none => c
  | some pixel => pixel x c

def rotatedCell (x y : ℕ) (c : SpriteCell) : SpriteCell :=
  match rotatedPixel r m e with
  | none => c
  | some pixel => pixel x y c

end Texels

section Paths

variable {r : SpriteRegs} {m : GpuMemory} {oam : Oam} {e : OAMAttributes} {i : Fin 128} {l : ℕ}
  {b : SpriteBuffers}

theorem spriteEntry_plain (hflip : (oam i).HFlip = false) (vflip : (oam i).VFlip = false) :
    spriteEntry r m (oam.plain i) l b i = some (
      if (oam i).line l ≥ (oam i).sprSize.y then b
      else paintSpan (fun j => plainCell r m (oam i) i j ((oam i).line l).toNat) (oam i).X.toInt
        (oam i).sprSize.x b) := by
  have hentry : oam.plain i i = { oam i with RotScale := 0 } := Function.update_self ..
  have hrow : ({ oam i with RotScale := 0 } : OAMAttributes).texelRow l = ((oam i).line l).toNat := by
    simp only [OAMAttributes.texelRow, vflip, Bool.false_eq_true, if_false]
    rfl
  have hcolumn (j : ℕ) : ({ oam i with RotScale := 0 } : OAMAttributes).texelColumn j = j := by
    simp only [OAMAttributes.texelColumn, hflip, Bool.false_eq_true, if_false]
  have hpixel (y : ℕ) : plainPixel r m i { oam i with RotScale := 0 } y = plainPixel r m i (oam i) y := rfl
  rw [spriteEntry, hentry, if_neg (show (0 : Fin 4) ≠ 2 by decide),
    if_neg (show ¬ ((0 : Fin 4).val &&& 1 ≠ 0) by decide), plainSprite_eq, hrow, hpixel]
  simp only [hcolumn]
  refine congrArg some (if_congr Iff.rfl rfl ?_)
  unfold plainCell
  cases plainPixel r m i (oam i) ((oam i).line l).toNat with
  | none => exact (paintSpan_id).symm
  | some pixel => rfl

/-- The identity leads from a column and a line to the texel there. -/
theorem rotatedPlace_identity {pixel : ℕ → ℕ → SpriteCell → SpriteCell} {size : SpriteSize} {y : ℤ}
    (hy : 0 ≤ y ∧ y < size.y) {j : ℕ} (hj : j < size.x) :
    rotatedPlace size pixel 0x100 0 0 (y * 0x100) j = pixel j y.toNat := by
  have hauxX : (0 + 0x100 * (j : ℤ)) >>> (8 : ℕ) = j := by
    rw [Int.shiftRight_eq_div_pow]
    omega
  have hauxY : (y * 0x100 + 0 * (j : ℤ)) >>> (8 : ℕ) = y := by
    rw [Int.shiftRight_eq_div_pow]
    omega
  funext c
  rw [rotatedPlace, hauxX, hauxY, if_pos (by omega), Int.toNat_natCast]

theorem spriteEntry_rotated (h : IdentityRotation oam (oam i)) :
    spriteEntry r m oam l b i = some (
      if (oam i).line l ≥ (oam i).sprSize.y then b
      else paintSpan (fun j => rotatedCell r m (oam i) j ((oam i).line l).toNat) (oam i).X.toInt
        (oam i).sprSize.x b) := by
  have hline := (oam i).line_nonneg l
  have hsize := (oam i).sprSize_spec
  have hfieldX : (oam i).fieldX = (oam i).sprSize.x := by rw [OAMAttributes.fieldX, h.rotScale]; rfl
  have hfieldY : (oam i).fieldY = (oam i).sprSize.y := by rw [OAMAttributes.fieldY, h.rotScale]; rfl
  have hstartX : (oam i).realStart l (oam i).sprSize.x 0x100 0 = 0 := by
    simp only [OAMAttributes.realStart, hfieldX, Int.shiftLeft_eq, Int.shiftRight_eq_div_pow]
    omega
  have hstartY : (oam i).realStart l (oam i).sprSize.y 0 0x100 = (oam i).line l * 0x100 := by
    simp only [OAMAttributes.realStart, hfieldY, Int.shiftLeft_eq, Int.shiftRight_eq_div_pow]
    omega
  have h₀ : oam.matrix (oam i) 0 = 0x100 := congrFun h.matrix 0
  have h₁ : oam.matrix (oam i) 1 = 0 := congrFun h.matrix 1
  have h₂ : oam.matrix (oam i) 2 = 0 := congrFun h.matrix 2
  have h₃ : oam.matrix (oam i) 3 = 0x100 := congrFun h.matrix 3
  have hrot := h.rotScale
  rw [spriteEntry, if_neg (by rw [hrot]; decide), if_pos (by rw [hrot]; decide), rotatedSprite_eq,
    hfieldX, hfieldY, h₀, h₁, h₂, h₃, hstartX, hstartY]
  refine congrArg some ?_
  split_ifs with hlow
  · rfl
  · unfold rotatedCell
    cases rotatedPixel r m (oam i) with
    | none => exact (paintSpan_id).symm
    | some pixel =>
      refine paintSpan_congr fun c => ⟨Iff.rfl, fun hin => ?_⟩
      rw [rotatedPlace_identity (by omega) (by omega)]

end Paths

section Alike

variable {r : SpriteRegs} {m : GpuMemory} {e : OAMAttributes} {x y : ℕ} {c : SpriteCell}

/-- A column with a texel of tiles, by the byte the texel lies in. -/
def drawTile (r : SpriteRegs) (m : GpuMemory) (e : OAMAttributes) (byte : BitVec 8) (x : ℕ)
    (c : SpriteCell) : SpriteCell :=
  if (if e.Depth then byte else nibbleOf x byte) ≠ 0 ∧ e.prio < c.prio then
    { c with
      color := if e.Depth then pal256 r m e byte else pal16 r m e (nibbleOf x byte), alpha := 0xFF
      type := BitVec.ofNat 8 e.Mode, prio := e.prio }
  else c

theorem tileAddress_eq : tileAddress r e = r.sprMem + (e.tile <<< r.sprBoundary) := by
  rw [tileAddress, SpriteRegs.sprite2D, SpriteRegs.sprBoundary]
  cases r.OBJ_Tile_mapping <;> rfl

theorem tileOffset_depth (h : e.Depth = true) : tileOffset r e x y =
    (x &&& 0x7) + ((x &&& 0xFFF8) <<< 3) +
      (if r.sprite2D then (y >>> 3) <<< 10 else (y >>> 3) * e.sprSize.x * 8) + (y &&& 0x7) * 8 := by
  simp only [tileOffset, h, if_true]

theorem tileOffset_nibbles (h : e.Depth = false) : tileOffset r e x y =
    (x >>> 1 &&& 0x3) + ((x >>> 1 &&& 0xFFFC) <<< 3) +
      (if r.sprite2D then (y >>> 3) <<< 10 else (y >>> 3) * e.sprSize.x * 4) + (y &&& 0x7) * 4 := by
  simp only [tileOffset, h, Bool.false_eq_true, if_false]

theorem rowAddress_eq (depth : ℕ) : rowAddress r e depth y =
    tileAddress r e + (if r.sprite2D then (y >>> 3) <<< 10 else (y >>> 3) * e.sprSize.x * depth) +
      (y &&& 0x7) * depth := by
  rw [rowAddress, tileAddress]
  cases r.sprite2D <;> rfl

theorem rotatedCell_of_tiles (h : e.Depth = true ∨ e.Mode.val < 2) :
    rotatedCell r m e x y c =
      drawTile r m e (m.lcd8 (m.mmuGpuMap (tileAddress r e) + tileOffset r e x y)) x c := by
  rw [rotatedCell, rotatedPixel, drawTile]
  cases hdepth : e.Depth with
  | true =>
    rw [tileOffset_depth hdepth, ← tileAddress_eq]
    cases hdim : r.sprite2D <;> simp only [rotated256, hdim, if_true, if_false, Bool.false_eq_true]
  | false =>
    have hmode : e.Mode.val < 2 := h.resolve_left (by rw [hdepth]; decide)
    have h₂ : e.Mode ≠ 2 := fun heq => by rw [heq] at hmode; exact absurd hmode (by decide)
    have h₃ : e.Mode ≠ 3 := fun heq => by rw [heq] at hmode; exact absurd hmode (by decide)
    rw [tileOffset_nibbles hdepth, if_neg Bool.false_ne_true, if_neg h₃, tileAddress]
    cases hdim : r.sprite2D <;> simp only [rotated16, hdim, h₂, if_true, if_false, Bool.false_eq_true]

theorem plainCell_of_tiles (i : Fin 128) (h : e.Mode.val < 2) :
    (plainCell r m e i x y c).drawn =
      (drawTile r m e (m.lcd8 (m.mmuGpuMap (tileAddress r e + tileOffset r e x y))) x c).drawn := by
  have h₂ : e.Mode ≠ 2 := fun heq => by rw [heq] at h; exact absurd h (by decide)
  have h₃ : e.Mode ≠ 3 := fun heq => by rw [heq] at h; exact absurd h (by decide)
  have htype : (if decide (e.Mode = 1) = true then 1 else 0 : BitVec 8) = BitVec.ofNat 8 e.Mode := by
    generalize e.Mode = mode at h
    revert mode
    decide
  rw [plainCell, plainPixel, drawTile]
  simp only [h₂, h₃, if_false]
  cases hdepth : e.Depth with
  | true =>
    have hplace : rowAddress r e 8 y + (x &&& 0x7) + ((x &&& 0xFFF8) <<< 3) =
        tileAddress r e + tileOffset r e x y := by
      rw [rowAddress_eq, tileOffset_depth hdepth]
      ring
    simp only [if_true, renderSprite256, hplace, htype]
    split_ifs <;> rfl
  | false =>
    have hplace : rowAddress r e 4 y + (x >>> 1 &&& 0x3) + ((x >>> 1 &&& 0xFFFC) <<< 3) =
        tileAddress r e + tileOffset r e x y := by
      rw [rowAddress_eq, tileOffset_nibbles hdepth]
      ring
    simp only [Bool.false_eq_true, if_false, renderSprite16, hplace, htype]

/-- A column before the first sprite. -/
def blankCell : SpriteCell := ⟨0, 0, 0, 0xFF, false, 0⟩

theorem prio_lt : e.prio < 0xFF := by
  rw [OAMAttributes.prio]
  generalize e.Priority = prio
  revert prio
  decide

theorem drawTile_zero : drawTile r m e 0 x c = c := by
  have hnone : (if e.Depth = true then 0 else nibbleOf x 0 : BitVec 8) = 0 := by
    rw [nibbleOf]
    split_ifs <;> rfl
  rw [drawTile, if_neg fun h => h.1 hnone]

theorem drawTile_ones : (drawTile r m e 0xFF x blankCell).alpha = 0xFF := by
  have hsome : (if e.Depth = true then 0xFF else nibbleOf x 0xFF : BitVec 8) ≠ 0 := by
    rw [nibbleOf]
    split_ifs <;> decide
  rw [drawTile, if_pos ⟨hsome, prio_lt⟩]

/-- A window leaves the column as transparent as it was, and a bitmap never makes it opaque. -/
theorem plainCell_alpha (i : Fin 128) (h : ¬ e.Mode.val < 2) :
    (plainCell r m e i x y blankCell).alpha ≠ 0xFF := by
  have hpalette : BitVec.ofNat 8 e.PaletteIndex + 1 ≠ 0xFF := by
    generalize e.PaletteIndex = palette
    revert palette
    decide
  rw [plainCell, plainPixel]
  by_cases hwin : e.Mode = 2
  · simp only [hwin, if_true, renderSpriteWin]
    split_ifs <;> decide
  · have hmode : e.Mode = 3 := by omega
    simp only [hmode, show (3 : Fin 4) ≠ 2 by decide, if_true, if_false]
    by_cases hnone : e.PaletteIndex = 0
    · simp only [hnone, if_true]
      decide
    · simp only [hnone, if_false, renderSpriteBMP]
      split_ifs
      · exact hpalette
      · decide

/-- The plain path does not ask a window for its priority. -/
theorem window_differs (i : Fin 128) (hdepth : e.Depth = false) (hmode : e.Mode = 2) :
    ∃ c, (rotatedCell r (m.filled fun _ => 0xFF) e x y c).drawn ≠
      (plainCell r (m.filled fun _ => 0xFF) e i x y c).drawn := by
  have hnibble : nibbleOf x 255#8 ≠ 0#8 := by
    rw [nibbleOf]
    split_ifs <;> decide
  refine ⟨{ blankCell with prio := 0 }, fun hcell => ?_⟩
  have hwin := congrArg SpriteCell.win hcell
  simp [rotatedCell, rotatedPixel, plainCell, plainPixel, hdepth, hmode, rotated16, renderSpriteWin,
    hnibble, SpriteCell.drawn, blankCell] at hwin

/-- The alpha of a bitmap is one more on the plain path. -/
theorem bitmap_differs (i : Fin 128) (hdepth : e.Depth = false) (hmode : e.Mode = 3)
    (hpalette : e.PaletteIndex ≠ 0) :
    ∃ c, (rotatedCell r (m.filled fun _ => 0xFF) e x y c).drawn ≠
      (plainCell r (m.filled fun _ => 0xFF) e i x y c).drawn := by
  have hprio : e.prio < 255#8 := prio_lt
  have hmsb (place : ℕ) : ((m.filled fun _ => 255#8).lcd16 place).msb = true := by
    rw [GpuMemory.lcd16_filled, BitVec.msb_append]
    rfl
  refine ⟨blankCell, fun hcell => ?_⟩
  have halpha := congrArg SpriteCell.alpha hcell
  simp [rotatedCell, rotatedPixel, plainCell, plainPixel, hdepth, hmode, hpalette, rotatedBMP,
    renderSpriteBMP, hprio, hmsb, SpriteCell.drawn, blankCell, -GpuMemory.lcd16_filled] at halpha

/-- The paths draw a texel alike, whatever is in memory and on the line, or they do not. -/
theorem forall_cells_iff (i : Fin 128) :
    (∀ m' : GpuMemory, m'.vramArm9Map = m.vramArm9Map → ∀ c,
      (rotatedCell r m' e x y c).drawn = (plainCell r m' e i x y c).drawn) ↔ DrawnAlike r m e x y := by
  have hmap {m' : GpuMemory} (h : m'.vramArm9Map = m.vramArm9Map) (a : ℕ) :
      m'.mmuGpuMap a = m.mmuGpuMap a := by
    rw [GpuMemory.mmuGpuMap, GpuMemory.mmuGpuMap, h]
  have halpha : blankCell.alpha ≠ 0xFF := by decide
  constructor
  · intro h
    by_cases htiles : e.Mode.val < 2
    · refine .inl ⟨htiles, by_contra fun hplace => ?_⟩
      -- a texel that is set in the place of the plain path only
      have hcell := h (m.filled fun p =>
        if p = m.mmuGpuMap (tileAddress r e + tileOffset r e x y) then 0xFF else 0) rfl blankCell
      rw [rotatedCell_of_tiles (.inr htiles), plainCell_of_tiles i htiles, GpuMemory.lcd8_filled, GpuMemory.lcd8_filled,
        GpuMemory.mmuGpuMap_filled, GpuMemory.mmuGpuMap_filled, if_neg (fun heq => hplace heq.symm), if_pos rfl,
        drawTile_zero] at hcell
      exact halpha ((congrArg SpriteCell.alpha hcell).trans drawTile_ones)
    · by_cases hdepth : e.Depth = true
      · have hcell := h (m.filled fun _ => 0xFF) rfl blankCell
        rw [rotatedCell_of_tiles (.inl hdepth)] at hcell
        exact absurd ((congrArg SpriteCell.alpha hcell).symm.trans drawTile_ones)
          (plainCell_alpha i htiles)
      rw [Bool.not_eq_true] at hdepth
      by_cases hwin : e.Mode = 2
      · obtain ⟨c, hc⟩ := window_differs (r := r) (m := m) (x := x) (y := y) i hdepth hwin
        exact absurd (h (m.filled fun _ => 0xFF) rfl c) hc
      · have hmode : e.Mode = 3 := by omega
        refine .inr ⟨hmode, hdepth, by_contra fun hpalette => ?_⟩
        obtain ⟨c, hc⟩ := bitmap_differs (r := r) (m := m) (x := x) (y := y) i hdepth hmode hpalette
        exact absurd (h (m.filled fun _ => 0xFF) rfl c) hc
  · rintro (⟨htiles, hplace⟩ | ⟨hmode, hdepth, hpalette⟩) m' hpages c
    · rw [rotatedCell_of_tiles (.inr htiles), plainCell_of_tiles i htiles, hmap hpages, hmap hpages,
        hplace]
    · have hrotated : rotatedPixel r m' e = none := by
        rw [rotatedPixel, if_neg (by rw [hdepth]; decide), if_pos hmode, if_pos hpalette]
      have hplain : plainPixel r m' i e y = none := by
        simp only [plainPixel, hmode, hpalette, if_true, show (3 : Fin 4) ≠ 2 by decide, if_false]
      rw [rotatedCell, hrotated, plainCell, hplain]

end Alike

theorem map_drawn_paintSpan {f : ℕ → SpriteCell → SpriteCell} {sprX : ℤ} {n : ℕ} {b : SpriteBuffers}
    (c : Fin 256) : (SpriteCell.drawn ∘ paintSpan f sprX n b) c =
      if sprX ≤ c.val ∧ (c.val : ℤ) < sprX + n then (f ((c.val : ℤ) - sprX).toNat (b c)).drawn
      else (b c).drawn := by
  rw [Function.comp_apply, paintSpan]
  split_ifs <;> rfl

/-- A sprite that is rotated by the identity is drawn as the same sprite with the rotation off, for
every content of the memory and of the line buffers, exactly if all its texels on the line are. -/
theorem identity_rotation_iff (r : SpriteRegs) (m : GpuMemory) (oam : Oam) (i : Fin 128) (l : ℕ)
    (h : IdentityRotation oam (oam i)) :
    (∀ m' : GpuMemory, m'.vramArm9Map = m.vramArm9Map → ∀ b,
      (spriteEntry r m' oam l b i).map (SpriteCell.drawn ∘ ·) =
        (spriteEntry r m' (oam.plain i) l b i).map (SpriteCell.drawn ∘ ·)) ↔
    ∀ j, (oam i).Shown l j → DrawnAlike r m (oam i) j ((oam i).line l).toNat := by
  have hsize := (oam i).sprSize_spec
  simp only [spriteEntry_rotated h, spriteEntry_plain h.hflip h.vflip, Option.map_some,
    Option.some.injEq]
  constructor
  · rintro hall j ⟨hline, hj, hleft, hright⟩
    refine (forall_cells_iff i).mp fun m' hpages c => ?_
    -- the column of the texel, with the cell everywhere
    have hcolumn := congrFun (hall m' hpages fun _ => c) ⟨((oam i).X.toInt + j).toNat, by omega⟩
    have hcast : (((oam i).X.toInt + j).toNat : ℤ) = (oam i).X.toInt + j := Int.toNat_of_nonneg hleft
    rw [if_neg (by omega), if_neg (by omega), map_drawn_paintSpan, map_drawn_paintSpan] at hcolumn
    simp only [hcast, if_pos (show (oam i).X.toInt ≤ (oam i).X.toInt + j ∧
      (oam i).X.toInt + j < (oam i).X.toInt + (oam i).sprSize.x by omega), add_sub_cancel_left,
      Int.toNat_natCast] at hcolumn
    exact hcolumn
  · intro hall m' hpages b
    by_cases hline : (oam i).line l ≥ (oam i).sprSize.y
    · rw [if_pos hline, if_pos hline]
    · rw [if_neg hline, if_neg hline]
      funext c
      rw [map_drawn_paintSpan, map_drawn_paintSpan]
      split_ifs with hin
      · exact (forall_cells_iff i).mpr (hall _ ⟨by omega, by omega, by omega, by omega⟩) m' hpages (b c)
      · rfl

/-! ### Sprites of 8x8 texels in the corner of the screen -/

section Corner

/-- Sprites of a mode with the identity in every matrix. -/
def cornerOam (mode : Fin 4) : Oam := fun i =>
  { Y := 0, RotScale := 1, Mode := mode, Depth := false, Shape := 0, X := 0, RotScalIndex := 0
    HFlip := false, VFlip := false, Size := 0, TileIndex := 0, Priority := 0, PaletteIndex := 15
    attr3 := ![0x100, 0, 0, 0x100] (Fin.ofNat 4 i) }

def cornerRegs : SpriteRegs :=
  { engineID := .main, OBJ_Tile_mapping := false, OBJ_Tile_1D_Bound := 0, OBJ_BMP_1D_Bound := false
    OBJ_BMP_mapping := true, OBJ_BMP_2D_dim := false, ExOBJPalette_Enable := false }

def onesMemory : GpuMemory :=
  { vramArm9Map := id, arm9Lcd := fun _ => 0xFF, blankMemory := fun _ => 0, arm9Vmem := fun _ => 0
    extPal := fun _ => none, objExtPal := .blankMemory 0 }

theorem cornerOam_identity (mode : Fin 4) : IdentityRotation (cornerOam mode) (cornerOam mode 0) where
  rotScale := rfl
  hflip := rfl
  vflip := rfl
  matrix := funext fun k => by revert k mode; decide

/-- A bitmap gets another alpha if it is rotated. -/
theorem bitmap_alpha_rotated :
    IdentityRotation (cornerOam 3) (cornerOam 3 0) ∧
      (spriteEntry cornerRegs onesMemory (cornerOam 3) 0 (fun _ => blankCell) 0).map
          (SpriteCell.drawn ∘ ·) ≠
        (spriteEntry cornerRegs onesMemory ((cornerOam 3).plain 0) 0 (fun _ => blankCell) 0).map
          (SpriteCell.drawn ∘ ·) := by
  refine ⟨cornerOam_identity 3, fun heq => ?_⟩
  have halpha := congrArg (Option.map fun b => (b 0).alpha) heq
  revert halpha
  decide

/-- A sprite of 16 colours in the first page is drawn as without the rotation. -/
theorem identity_rotation_corner :
    (spriteEntry cornerRegs onesMemory (cornerOam 0) 0 (fun _ => blankCell) 0).map
        (SpriteCell.drawn ∘ ·) =
      (spriteEntry cornerRegs onesMemory ((cornerOam 0).plain 0) 0 (fun _ => blankCell) 0).map
        (SpriteCell.drawn ∘ ·) := by
  have htexels : ∀ j < 8,
      onesMemory.mmuGpuMap (tileAddress cornerRegs (cornerOam 0 0) +
          tileOffset cornerRegs (cornerOam 0 0) j 0) =
        onesMemory.mmuGpuMap (tileAddress cornerRegs (cornerOam 0 0)) +
          tileOffset cornerRegs (cornerOam 0 0) j 0 := by decide
  exact (identity_rotation_iff cornerRegs onesMemory (cornerOam 0) 0 0 (cornerOam_identity 0)).mpr
    (fun j hj => .inl ⟨by decide, htexels j hj.2.1⟩) onesMemory rfl _

end Corner

end Desmume.Video
