import Desmume.Video.RenderLine
import Desmume.Video.RotScale
import Desmume.Video.TextBG

/-! The mosaic of the backgrounds over a frame, against the background without it. -/

namespace Desmume.Video

/-! ### Backgrounds that are rotated and scaled -/

namespace BgRegs

variable (r : BgRegs)

/-- `_BG_bmp_ram` and `_BG_bmp_large_ram`. -/
def bgBmpLargeRam : ℕ :=
  match r.engineID with
  | .main => mmuAbg
  | .sub => mmuBbg

def bgBmpRam : ℕ := r.bgBmpLargeRam + r.ScreenBase_Block * 0x4000

/-- The row of `_sizeTab` for a background that is rotated and scaled, with the extended ones told
apart by `affineModeSelection`. -/
def rotType (mode : BGType) : Option RotType :=
  match mode with
  | .affine => some .affine
  | .large8bpp => some .large8bpp
  | .affineExt =>
    if !r.Palette_256 then some .affineExt256x16
    else if r.CharacBase_Block.val &&& 1 = 0 then some .affineExt256x1
    else some .affineExtDirect
  | .text => none
  | .invalid => none

end BgRegs

section RotPixels

variable (m : GpuMemory) (lg : BitVec 32) (map tile : ℕ) (pal : ℕ → Color) (t : TexelCall)

/-- An address of 32 bits, `ofs` bytes on. -/
def vramAddress (base : ℕ) (ofs : BitVec 32) : ℕ := (BitVec.ofNat 32 base + ofs).toNat

/-- `(auxX>>3) + (auxY>>3) * (lg>>3)`. -/
def mapIndex : BitVec 32 := t.auxX.sshiftRight 3 + t.auxY.sshiftRight 3 * lg.sshiftRight 3

def rotTiled8bitEntry : PixelCall :=
  let tileindex := m.lcd8 (m.mmuGpuMap (vramAddress map (mapIndex lg t)))
  let x := t.auxX &&& 7
  let y := t.auxY &&& 7
  let paletteEntry := m.lcd8 (m.mmuGpuMap (vramAddress tile ((tileindex.setWidth 32 <<< 6) + (y <<< 3) + x)))
  ⟨pal paletteEntry.toNat, t.i, paletteEntry ≠ 0⟩

def rotTiled16bitEntry (extPal : Bool) : PixelCall :=
  let e := tileEntry (m.lcd16 (m.mmuGpuMap (vramAddress map (mapIndex lg t <<< 1))))
  let x := (if e.HFlip then 7 - t.auxX else t.auxX) &&& 7
  let y := (if e.VFlip then 7 - t.auxY else t.auxY) &&& 7
  let paletteEntry :=
    m.lcd8 (m.mmuGpuMap (vramAddress tile ((BitVec.ofNat 32 e.TileNum <<< 6) + (y <<< 3) + x)))
  ⟨pal (paletteEntry.toNat + if extPal then e.Palette <<< 8 else 0), t.i, paletteEntry ≠ 0⟩

def rot256Map : PixelCall :=
  let paletteEntry := m.lcd8 (m.mmuGpuMap (vramAddress map (t.auxX + t.auxY * lg)))
  ⟨pal paletteEntry.toNat, t.i, paletteEntry ≠ 0⟩

def rotBMPMap : PixelCall :=
  let color := m.lcd16 (m.mmuGpuMap (vramAddress map ((t.auxX + t.auxY * lg) <<< 1)))
  ⟨color, t.i, color.msb⟩

end RotPixels

/-- What `_RotBG2` and `_ExtRotBG2` hand to `apply_rot_fun`, if there is a palette. -/
def rotFun (r : BgRegs) (m : GpuMemory) (num : Fin 4) (type : RotType) : Option (TexelCall → PixelCall) :=
  let lg := (sizeTab type r.ScreenSize).1
  let pal (entry : ℕ) : Color := m.vmem16 (r.engineID.step1KB + 2 * entry)
  match type with
  | .affine => some (rotTiled8bitEntry m lg r.bgMapRam r.bgTileRam pal)
  | .affineExt256x16 =>
    if r.ExBGxPalette_Enable then
      (m.extPal (r.bgExtPalSlot num)).map fun p =>
        (rotTiled16bitEntry m lg r.bgMapRam r.bgTileRam (fun entry => m.host16 p (2 * entry)) · true)
    else some (rotTiled16bitEntry m lg r.bgMapRam r.bgTileRam pal · false)
  | .affineExt256x1 => some (rot256Map m lg r.bgBmpRam pal)
  | .affineExtDirect => some (rotBMPMap m lg r.bgBmpRam)
  | .large8bpp => some (rot256Map m lg r.bgBmpLargeRam pal)

/-! ### A frame -/

/-- The registers of a background. `BGxX` and `BGxY` are what the frame starts with. -/
structure BgFrame extends TextRegs where
  BGxPA : BitVec 16
  BGxPC : BitVec 16
  start : RefPoint

/-- The calls of `_ModeRender` on a line, from a reference point. -/
def lineCalls (f : BgFrame) (r : LineRegs) (m : GpuMemory) (num : Fin 4) (l : ℕ) (ref : RefPoint) :
    Option (List PixelCall) :=
  if r.bgType num = .text then lineText f.toTextRegs m num (BitVec.ofNat 16 l)
  else
    match f.rotType (r.bgType num) with
    | none => some []
    | some type =>
      match rotFun f.toBgRegs m num type with
      | none => some []
      | some pixel =>
        let size := sizeTab type f.ScreenSize
        some ((rotScaleOp f.PaletteSet_Wrap size.1 size.2 ⟨ref.x, ref.y, f.BGxPA, f.BGxPC⟩ 256).map pixel)

/-- A call of `__setFinalColorBck`. -/
def drawCall (r : LineRegs) (l : ℕ) (mosaic : Bool) (row : BGRow) (c : PixelCall) : BGRow :=
  if h : c.srcX < 256 then
    let result := setFinalColorBck r l mosaic row.mosaicColors c.color ⟨c.srcX, h⟩ c.isOpaque
    ⟨result.1, Function.update row.drawn ⟨c.srcX, h⟩ result.2⟩
  else row

def drawCalls (r : LineRegs) (l : ℕ) (mosaic : Bool) (mosaicColors : Fin 256 → Color)
    (calls : List PixelCall) : BGRow :=
  calls.foldl (drawCall r l mosaic) ⟨mosaicColors, fun _ => none⟩

/-- The reference point on a line. -/
def BgFrame.refPoint (f : BgFrame) (r : LineRegs) (num : Fin 4) : ℕ → RefPoint
  | 0 => f.start
  | l + 1 => advance r num (f.refPoint r num l)

/-- The last of so many lines of a frame. -/
def frameRow (f : BgFrame) (r : LineRegs) (m : GpuMemory) (num : Fin 4) (mosaic : Bool)
    (mosaicColors : Fin 256 → Color) : ℕ → Option BGRow
  | 0 => some ⟨mosaicColors, fun _ => none⟩
  | l + 1 => do
    let row ← frameRow f r m num mosaic mosaicColors l
    let calls ← lineCalls f r m num l (f.refPoint r num l)
    some (drawCalls r l mosaic row.mosaicColors calls)

/-! ### A line of calls -/

/-- The call for a column. -/
def callAt (calls : List PixelCall) (x : Fin 256) : Option PixelCall := calls.find? fun c => c.srcX = x

/-- The calls of a line come from left to right. -/
def InOrder (calls : List PixelCall) : Prop := calls.Pairwise fun c c' => c.srcX < c'.srcX

/-- What a call leaves in the mosaic colours at the start of a block, and what it shows of them. -/
def mosaicEntry (c : PixelCall) : Color := if c.isOpaque then c.color &&& 0x7FFF else 0xFFFF

def entryShown (entry : Color) : Option Color := if entry ≠ 0xFFFF then some entry else none

theorem mosaicEntry_ne {c : PixelCall} (h : c.isOpaque = true) : mosaicEntry c ≠ 0xFFFF := by
  intro heq
  have hbit := congrArg (BitVec.getLsbD · 15) heq
  simp [mosaicEntry, h] at hbit

/-- The mosaic shows the colours without their highest bit, which is no part of them. -/
theorem entryShown_mosaicEntry (c : PixelCall) :
    (entryShown (mosaicEntry c)).map (· &&& 0x7FFF) =
      (if c.isOpaque then some c.color else none).map (· &&& 0x7FFF) := by
  cases h : c.isOpaque with
  | true =>
    rw [entryShown, if_pos (mosaicEntry_ne h), mosaicEntry, if_pos h]
    simp [BitVec.and_assoc]
  | false =>
    rw [mosaicEntry, h]
    rfl

section Line

variable {r : LineRegs} {l : ℕ} {mosaic : Bool} {calls : List PixelCall} {c : PixelCall} {row : BGRow}
  {x : Fin 256}

theorem callAt_cons : callAt (c :: calls) x = if c.srcX = x then some c else callAt calls x := by
  rw [callAt, List.find?_cons, callAt]
  by_cases h : c.srcX = x <;> simp [h]

theorem callAt_eq_none (h : ∀ c ∈ calls, x.val < c.srcX) : callAt calls x = none := by
  rw [callAt, List.find?_eq_none]
  intro c hc
  simpa using (h c hc).ne'

/-- A call for another column. -/
theorem drawCall_other (h : c.srcX ≠ x) :
    (drawCall r l mosaic row c).mosaicColors x = row.mosaicColors x ∧
      (drawCall r l mosaic row c).drawn x = row.drawn x := by
  rw [drawCall]
  split_ifs with hlt
  · have hne : x ≠ ⟨c.srcX, hlt⟩ := fun heq => h (congrArg Fin.val heq).symm
    refine ⟨?_, Function.update_of_ne hne ..⟩
    cases mosaic
    · rfl
    · exact Function.update_of_ne hne ..
  · exact ⟨rfl, rfl⟩

theorem drawCall_at (h : c.srcX = x) :
    drawCall r l mosaic row c =
      ⟨(setFinalColorBck r l mosaic row.mosaicColors c.color x c.isOpaque).1,
        Function.update row.drawn x
          (setFinalColorBck r l mosaic row.mosaicColors c.color x c.isOpaque).2⟩ := by
  have hlt : c.srcX < 256 := h ▸ x.isLt
  have hx : (⟨c.srcX, hlt⟩ : Fin 256) = x := Fin.ext h
  rw [drawCall, dif_pos hlt, hx]

theorem drawCall_plain (h : c.srcX = x) :
    (drawCall r l false row c).drawn x = if c.isOpaque then some c.color else none := by
  rw [drawCall_at h]
  exact Function.update_self ..

/-- The entry that a call leaves in the mosaic colours. -/
def nextEntry (r : LineRegs) (l : ℕ) (mosaicColors : Fin 256 → Color) (c : PixelCall) (x : Fin 256) : Color :=
  if mosaicBegin r.mosaicWidth x && mosaicBegin r.mosaicHeight l then mosaicEntry c
  else mosaicColors (mosaicTrunc r.mosaicWidth x)

theorem drawCall_mosaic (h : c.srcX = x) :
    (drawCall r l true row c).mosaicColors x = nextEntry r l row.mosaicColors c x ∧
      (drawCall r l true row c).drawn x = entryShown (nextEntry r l row.mosaicColors c x) := by
  have hentry : (if !c.isOpaque then 0xFFFF else c.color &&& 0x7FFF) = mosaicEntry c := by
    rw [mosaicEntry]
    cases c.isOpaque <;> rfl
  rw [drawCall_at h]
  simp only [setFinalColorBck, Bool.not_true, Bool.false_eq_true, if_false, hentry,
    Function.update_self]
  exact ⟨rfl, rfl⟩

/-- The columns without a call stay as they are. -/
theorem foldl_of_callAt_none (h : callAt calls x = none) :
    (calls.foldl (drawCall r l mosaic) row).mosaicColors x = row.mosaicColors x ∧
      (calls.foldl (drawCall r l mosaic) row).drawn x = row.drawn x := by
  induction calls generalizing row with
  | nil => exact ⟨rfl, rfl⟩
  | cons c calls ih =>
    rw [callAt_cons] at h
    split_ifs at h with hx
    rw [List.foldl_cons, (ih h).1, (ih h).2]
    exact drawCall_other hx

/-- Without the mosaic a column shows its call. -/
theorem foldl_plain (horder : InOrder calls) (h : callAt calls x = some c) :
    (calls.foldl (drawCall r l false) row).drawn x = if c.isOpaque then some c.color else none := by
  induction calls generalizing row with
  | nil => cases h
  | cons c' calls ih =>
    obtain ⟨hfirst, hrest⟩ := List.pairwise_cons.mp horder
    rw [callAt_cons] at h
    split_ifs at h with hx
    · obtain rfl := Option.some.inj h
      have hnone : callAt calls x = none := callAt_eq_none fun c hc => hx ▸ hfirst c hc
      rw [List.foldl_cons, (foldl_of_callAt_none hnone).2, drawCall_plain hx]
    · rw [List.foldl_cons, ih hrest h]

theorem mosaicTrunc_le (value : Fin 16) (x : Fin 256) : mosaicTrunc value x ≤ x := Nat.div_mul_le_self _ _

theorem mosaicBegin_iff {value : Fin 16} {i : ℕ} : mosaicBegin value i = true ↔ i % (value + 1) = 0 :=
  decide_eq_true_iff

theorem mosaicTrunc_val (value : Fin 16) (x : Fin 256) :
    (mosaicTrunc value x).val = x - x % (value + 1) := by
  have hx := Nat.div_add_mod' x.val (value + 1)
  change x.val / (value + 1) * (value + 1) = _
  omega

theorem mosaicTrunc_eq_self {value : Fin 16} {x : Fin 256} :
    mosaicTrunc value x = x ↔ mosaicBegin value x = true := by
  have hmod := Nat.mod_le x.val (value + 1)
  rw [mosaicBegin_iff, Fin.ext_iff, mosaicTrunc_val]
  omega

/-- With the mosaic a column shows what it leaves in the mosaic colours: its call at the start of a
block, what was there before on the other lines of the block, and in the other columns of the block
what the line leaves in the first of them. -/
theorem foldl_mosaic (horder : InOrder calls) (h : callAt calls x = some c) :
    let after := calls.foldl (drawCall r l true) row
    after.mosaicColors x =
        (if mosaicBegin r.mosaicWidth x && mosaicBegin r.mosaicHeight l then mosaicEntry c
          else if mosaicBegin r.mosaicWidth x then row.mosaicColors x
          else after.mosaicColors (mosaicTrunc r.mosaicWidth x)) ∧
      after.drawn x = entryShown (after.mosaicColors x) := by
  induction calls generalizing row with
  | nil => cases h
  | cons c' calls ih =>
    obtain ⟨hfirst, hrest⟩ := List.pairwise_cons.mp horder
    rw [callAt_cons] at h
    split_ifs at h with hx
    · obtain rfl := Option.some.inj h
      obtain ⟨hentry, hdrawn⟩ := @drawCall_mosaic r l _ row _ hx
      have hlater (x' : Fin 256) (hx' : x'.val ≤ x) : callAt calls x' = none :=
        callAt_eq_none fun c hc => hx'.trans_lt (hx ▸ hfirst c hc)
      have hself := @foldl_of_callAt_none r l true _ (drawCall r l true row c') _ (hlater x le_rfl)
      have htrunc := @foldl_of_callAt_none r l true _ (drawCall r l true row c') _
        (hlater _ (mosaicTrunc_le r.mosaicWidth x))
      dsimp only
      rw [List.foldl_cons, hself.1, hself.2, htrunc.1, hentry, hdrawn]
      refine ⟨?_, rfl⟩
      by_cases hbegin : mosaicBegin r.mosaicWidth x = true
      · rw [nextEntry, hbegin, Bool.true_and, mosaicTrunc_eq_self.mpr hbegin, if_pos rfl]
      · have hother : c'.srcX ≠ mosaicTrunc r.mosaicWidth x := fun heq =>
          hbegin (mosaicTrunc_eq_self.mp (Fin.ext (heq.symm.trans hx)))
        rw [Bool.not_eq_true] at hbegin
        rw [nextEntry, hbegin, (drawCall_other hother).1]
        simp only [Bool.false_and, Bool.false_eq_true, if_false]
    · have hother := @drawCall_other r l true _ row _ hx
      have hnext := @ih (drawCall r l true row c') hrest h
      rw [hother.1] at hnext
      exact hnext

end Line

/-! ### The lines of a frame -/

section Frame

variable {r : LineRegs} {calls : ℕ → List PixelCall} {mosaicColors : Fin 256 → Color} {x : Fin 256} {n : ℕ}

/-- What so many lines leave. -/
def rowAfter (r : LineRegs) (calls : ℕ → List PixelCall) (mosaic : Bool) (mosaicColors : Fin 256 → Color) :
    ℕ → BGRow
  | 0 => ⟨mosaicColors, fun _ => none⟩
  | l + 1 => drawCalls r l mosaic (rowAfter r calls mosaic mosaicColors l).mosaicColors (calls l)

/-- The first line of the block of a line. -/
def blockLine (r : LineRegs) (y : ℕ) : ℕ := y - y % (r.mosaicHeight + 1)

/-- The first column of the block of a column. -/
def blockColumn (r : LineRegs) (x : Fin 256) : Fin 256 := ⟨x - x % (r.mosaicWidth + 1), by omega⟩

theorem mosaicTrunc_eq (x : Fin 256) : mosaicTrunc r.mosaicWidth x = blockColumn r x :=
  Fin.ext (mosaicTrunc_val r.mosaicWidth x)

theorem blockColumn_blockColumn : blockColumn r (blockColumn r x) = blockColumn r x := by
  have hdiv := Nat.sub_mod_eq_zero_of_mod_eq (Nat.mod_mod x.val (r.mosaicWidth + 1)).symm
  rw [Fin.ext_iff]
  change (x.val - x % (r.mosaicWidth + 1)) - (x.val - x % (r.mosaicWidth + 1)) % (r.mosaicWidth + 1) = _
  rw [hdiv]
  rfl

/-- The columns that are visited on a line are those that the block is visited in. -/
def VisitsBlocks (r : LineRegs) (visits : ℕ → Fin 256 → Prop) : Prop :=
  ∀ y < 192, ∀ x, visits y x ↔ visits (blockLine r y) (blockColumn r x)

/-- The line of a frame shows with the mosaic what the blocks show without it. -/
def RowsShowBlocks (r : LineRegs) (row : Bool → ℕ → BGRow) : Prop :=
  ∀ y < 192, ∀ x,
    ((row true (y + 1)).drawn x).map (· &&& 0x7FFF) =
      ((row false (blockLine r y + 1)).drawn (blockColumn r x)).map (· &&& 0x7FFF)

/-- What a call shows without the mosaic. -/
theorem drawn_rowAfter_plain (horder : ∀ l, InOrder (calls l)) (l : ℕ) :
    (rowAfter r calls false mosaicColors (l + 1)).drawn x =
      (callAt (calls l) x).bind fun c => if c.isOpaque then some c.color else none := by
  rw [rowAfter, drawCalls]
  cases h : callAt (calls l) x with
  | none => exact (foldl_of_callAt_none h).2
  | some c => exact foldl_plain (horder l) h

theorem rowAfter_none {mosaic : Bool} {l : ℕ} (h : callAt (calls l) x = none) :
    (rowAfter r calls mosaic mosaicColors (l + 1)).mosaicColors x =
        (rowAfter r calls mosaic mosaicColors l).mosaicColors x ∧
      (rowAfter r calls mosaic mosaicColors (l + 1)).drawn x = none := foldl_of_callAt_none h

theorem rowAfter_mosaic (horder : ∀ l, InOrder (calls l)) {l : ℕ} {c : PixelCall}
    (h : callAt (calls l) x = some c) :
    let after := rowAfter r calls true mosaicColors (l + 1)
    after.mosaicColors x =
        (if mosaicBegin r.mosaicWidth x && mosaicBegin r.mosaicHeight l then mosaicEntry c
          else if mosaicBegin r.mosaicWidth x then (rowAfter r calls true mosaicColors l).mosaicColors x
          else after.mosaicColors (blockColumn r x)) ∧
      after.drawn x = entryShown (after.mosaicColors x) := by
  rw [← mosaicTrunc_eq]
  exact foldl_mosaic (horder l) h

theorem blockLine_eq_self {y : ℕ} (h : mosaicBegin r.mosaicHeight y = true) : blockLine r y = y := by
  rw [blockLine, mosaicBegin_iff.mp h, Nat.sub_zero]

theorem blockLine_succ {y : ℕ} (h : ¬ mosaicBegin r.mosaicHeight (y + 1) = true) :
    blockLine r (y + 1) = blockLine r y := by
  rw [mosaicBegin_iff] at h
  rw [blockLine, blockLine]
  have hmod := Nat.mod_lt y (Nat.succ_pos r.mosaicHeight.val)
  have hstep : (y + 1) % (r.mosaicHeight + 1) = y % (r.mosaicHeight + 1) + 1 := by
    rw [Nat.add_mod] at h ⊢
    by_cases hone : (r.mosaicHeight : ℕ) = 0
    · rw [hone, Nat.mod_one] at h
      exact absurd rfl h
    · rw [Nat.mod_eq_of_lt (show 1 < r.mosaicHeight.val + 1 by omega)] at h ⊢
      refine Nat.mod_eq_of_lt (Nat.lt_of_le_of_ne hmod fun heq => h ?_)
      rw [heq, Nat.mod_self]
  omega

/-- The first column of a block keeps what the first line of the block left there. -/
theorem mosaicColors_blockColumn (horder : ∀ l, InOrder (calls l))
    (hblocks : VisitsBlocks r fun y x => (callAt (calls y) x).isSome) {y : ℕ} (hy : y < 192)
    (hx : blockColumn r x = x) (h : (callAt (calls y) x).isSome) :
    ∃ c, callAt (calls (blockLine r y)) x = some c ∧
      (rowAfter r calls true mosaicColors (y + 1)).mosaicColors x = mosaicEntry c := by
  have hbegin : mosaicBegin r.mosaicWidth x = true := mosaicTrunc_eq_self.mp ((mosaicTrunc_eq x).trans hx)
  induction y with
  | zero =>
    obtain ⟨c, hc⟩ := Option.isSome_iff_exists.mp h
    refine ⟨c, by rwa [blockLine, Nat.zero_mod], ?_⟩
    rw [(rowAfter_mosaic horder hc).1, hbegin]
    rfl
  | succ y ih =>
    obtain ⟨c, hc⟩ := Option.isSome_iff_exists.mp h
    rw [(rowAfter_mosaic horder hc).1, hbegin, Bool.true_and]
    by_cases hline : mosaicBegin r.mosaicHeight (y + 1) = true
    · exact ⟨c, by rwa [blockLine_eq_self hline], by rw [if_pos hline]⟩
    · -- the line before belongs to the same block
      have hprev : (callAt (calls y) x).isSome := by
        have hcorner := (hblocks (y + 1) hy x).mp h
        rw [blockLine_succ hline] at hcorner
        exact (hblocks y (by omega) x).mpr hcorner
      rw [if_neg hline, if_pos rfl, blockLine_succ hline]
      exact ih (by omega) hprev

/-- A block is shown as its first pixel, if the background visits all of it or nothing of it. -/
theorem rowsShowBlocks_of_visitsBlocks (horder : ∀ l, InOrder (calls l))
    (hblocks : VisitsBlocks r fun y x => (callAt (calls y) x).isSome) :
    RowsShowBlocks r (rowAfter r calls · mosaicColors) := by
  intro y hy x
  have hvisits (x : Fin 256) : (callAt (calls y) x).isSome ↔
      (callAt (calls (blockLine r y)) (blockColumn r x)).isSome := hblocks y hy x
  rw [drawn_rowAfter_plain horder]
  cases h : callAt (calls y) x with
  | none =>
    have hcorner : callAt (calls (blockLine r y)) (blockColumn r x) = none := by
      rw [← Option.not_isSome_iff_eq_none, ← hvisits, h]
      exact Bool.false_ne_true
    rw [hcorner, (rowAfter_none h).2]
    rfl
  | some c =>
    have hcorner := (hvisits x).mp (by rw [h]; rfl)
    -- the first column of the block is visited on this line too
    have hcolumn : (callAt (calls y) (blockColumn r x)).isSome := by
      rwa [hvisits, blockColumn_blockColumn]
    obtain ⟨c₀, hc₀, hentry⟩ := @mosaicColors_blockColumn _ _ mosaicColors _ horder hblocks _ hy
      blockColumn_blockColumn hcolumn
    have hkept : (rowAfter r calls true mosaicColors (y + 1)).mosaicColors x = mosaicEntry c₀ := by
      by_cases hx : blockColumn r x = x
      · rwa [hx] at hentry
      · have hbegin : mosaicBegin r.mosaicWidth x = false := by
          rw [← Bool.not_eq_true, ← mosaicTrunc_eq_self, mosaicTrunc_eq]
          exact hx
        rw [(rowAfter_mosaic horder h).1, hbegin]
        exact hentry
    rw [(rowAfter_mosaic horder h).2, hkept, hc₀, Option.bind_some]
    exact entryShown_mosaicEntry c₀

/-- With opaque calls only, the mosaic colours stay what can be shown. -/
theorem mosaicColors_ne (horder : ∀ l, InOrder (calls l)) (hsolid : ∀ l, ∀ c ∈ calls l, c.isOpaque = true)
    (l : ℕ) (x : Fin 256) : (rowAfter r calls true (fun _ => 0) l).mosaicColors x ≠ 0xFFFF := by
  induction l generalizing x with
  | zero => exact of_decide_eq_true rfl
  | succ l ih =>
    have hentry {x : Fin 256} {c : PixelCall} (h : callAt (calls l) x = some c) :
        mosaicEntry c ≠ 0xFFFF := mosaicEntry_ne (hsolid l c (List.mem_of_find?_eq_some h))
    have hcolumn {x : Fin 256} (hbegin : mosaicBegin r.mosaicWidth x = true) :
        (rowAfter r calls true (fun _ => 0) (l + 1)).mosaicColors x ≠ 0xFFFF := by
      cases h : callAt (calls l) x with
      | none => rw [(rowAfter_none h).1]; exact ih x
      | some c =>
        rw [(rowAfter_mosaic horder h).1, hbegin, Bool.true_and, if_pos rfl]
        split_ifs
        · exact hentry h
        · exact ih x
    cases h : callAt (calls l) x with
    | none => rw [(rowAfter_none h).1]; exact ih x
    | some c =>
      by_cases hbegin : mosaicBegin r.mosaicWidth x = true
      · exact hcolumn hbegin
      · have hfirst : mosaicBegin r.mosaicWidth (blockColumn r x) = true := by
          rw [← mosaicTrunc_eq_self, mosaicTrunc_eq, blockColumn_blockColumn]
        rw [Bool.not_eq_true] at hbegin
        rw [(rowAfter_mosaic horder h).1, hbegin]
        exact hcolumn hfirst

/-- With opaque calls only, the mosaic shows the blocks just if the background visits all of each or
nothing of it. -/
theorem visitsBlocks_of_rowsShowBlocks (horder : ∀ l, InOrder (calls l))
    (hsolid : ∀ l, ∀ c ∈ calls l, c.isOpaque = true)
    (h : RowsShowBlocks r (rowAfter r calls · fun _ => 0)) :
    VisitsBlocks r fun y x => (callAt (calls y) x).isSome := by
  intro y hy x
  have hshown := congrArg Option.isSome (h y hy x)
  have hplain : ((rowAfter r calls false (fun _ => 0) (blockLine r y + 1)).drawn (blockColumn r x)).isSome =
      (callAt (calls (blockLine r y)) (blockColumn r x)).isSome := by
    rw [drawn_rowAfter_plain horder]
    cases hc : callAt (calls (blockLine r y)) (blockColumn r x) with
    | none => rfl
    | some c => rw [Option.bind_some, if_pos (hsolid _ c (List.mem_of_find?_eq_some hc))]; rfl
  have hmosaic : ((rowAfter r calls true (fun _ => 0) (y + 1)).drawn x).isSome =
      (callAt (calls y) x).isSome := by
    cases hc : callAt (calls y) x with
    | none => rw [(rowAfter_none hc).2]; rfl
    | some c =>
      rw [(rowAfter_mosaic horder hc).2, entryShown, if_pos (mosaicColors_ne horder hsolid (y + 1) x)]
      rfl
  rw [Option.isSome_map, Option.isSome_map, hplain, hmosaic] at hshown
  exact iff_of_eq (congrArg (· = true) hshown)

end Frame

/-! ### The columns that a background visits -/

section Visits

variable {wrap : Bool} {wh ht dx dy x y auxX auxY : BitVec 32} {n i : ℕ}

/-- Texel calls in order, for the columns from `i` on that meet a condition. -/
structure Visiting (ts : List TexelCall) (i n : ℕ) (visits : ℕ → Prop) : Prop where
  inOrder : ts.Pairwise fun t t' => t.i < t'.i
  visited : ∀ j, (∃ t ∈ ts, t.i = j) ↔ i ≤ j ∧ j < i + n ∧ visits j

theorem Visiting.nil {visits : ℕ → Prop} : Visiting [] i 0 visits where
  inOrder := List.Pairwise.nil
  visited _ := ⟨fun ⟨_, h, _⟩ => (nomatch h), fun ⟨_, _, _⟩ => by omega⟩

theorem Visiting.cons {ts : List TexelCall} {visits : ℕ → Prop} {t : TexelCall} (ht : t.i = i)
    (hvisits : visits i) (h : Visiting ts (i + 1) n visits) : Visiting (t :: ts) i (n + 1) visits where
  inOrder := List.pairwise_cons.mpr ⟨fun t' ht' => by
    have hlater := (h.visited t'.i).mp ⟨t', ht', rfl⟩
    omega, h.inOrder⟩
  visited j := by
    rw [List.exists_mem_cons_iff, h.visited, ht]
    constructor
    · rintro (rfl | ⟨hlow, hhigh, hj⟩)
      · exact ⟨le_rfl, by omega, hvisits⟩
      · exact ⟨by omega, by omega, hj⟩
    · rintro ⟨hlow, hhigh, hj⟩
      by_cases heq : i = j
      · exact .inl heq
      · exact .inr ⟨by omega, by omega, hj⟩

theorem Visiting.skip {ts : List TexelCall} {visits : ℕ → Prop} (hvisits : ¬ visits i)
    (h : Visiting ts (i + 1) n visits) : Visiting ts i (n + 1) visits where
  inOrder := h.inOrder
  visited j := by
    rw [h.visited]
    refine ⟨fun ⟨hlow, hhigh, hj⟩ => ⟨by omega, by omega, hj⟩, fun ⟨hlow, hhigh, hj⟩ => ?_⟩
    have hne : i ≠ j := fun heq => hvisits (heq ▸ hj)
    exact ⟨by omega, by omega, hj⟩

theorem Visiting.congr {ts : List TexelCall} {visits visits' : ℕ → Prop} (h : Visiting ts i n visits)
    (hiff : ∀ j, i ≤ j → (visits j ↔ visits' j)) : Visiting ts i n visits' where
  inOrder := h.inOrder
  visited j := (h.visited j).trans (and_congr_right fun hj => and_congr_right fun _ => hiff j hj)

theorem fastLoop_visiting : Visiting (fastLoop wrap wh auxY n i auxX) i n fun _ => True := by
  induction n generalizing i auxX with
  | zero => exact Visiting.nil
  | succ n ih => exact Visiting.cons rfl trivial ih

/-- The position in front of a column. -/
theorem position_succ (x dx : BitVec 32) {j : ℕ} (h : i + 1 ≤ j) :
    x + dx + BitVec.ofNat 32 (j - (i + 1)) * dx = x + BitVec.ofNat 32 (j - i) * dx := by
  obtain ⟨k, rfl⟩ := Nat.exists_eq_add_of_le h
  rw [show i + 1 + k - (i + 1) = k by omega, show i + 1 + k - i = 1 + k by omega, BitVec.ofNat_add,
    BitVec.add_mul, BitVec.add_assoc]
  congr 2
  exact (BitVec.one_mul dx).symm

/-- A column is visited if its position is inside of the background. -/
def InsideAt (wrap : Bool) (wh ht dx dy x y : BitVec 32) (j : ℕ) : Prop :=
  wrap = true ∨
    inBounds wh (rotoInteger (x + BitVec.ofNat 32 j * dx)) = true ∧
      inBounds ht (rotoInteger (y + BitVec.ofNat 32 j * dy)) = true

theorem pixelLoop_visiting : Visiting (pixelLoop wrap wh ht dx dy n i x y) i n fun j =>
    InsideAt wrap wh ht dx dy x y (j - i) := by
  induction n generalizing i x y with
  | zero => exact Visiting.nil
  | succ n ih =>
    have hrest : Visiting (pixelLoop wrap wh ht dx dy n (i + 1) (x + dx) (y + dy)) (i + 1) n fun j =>
        InsideAt wrap wh ht dx dy x y (j - i) :=
      ih.congr fun j hj => by
        rw [InsideAt, InsideAt, position_succ x dx hj, position_succ y dy hj]
    have hzero (c d : BitVec 32) : c + BitVec.ofNat 32 (i - i) * d = c := by
      rw [Nat.sub_self]
      exact (congrArg (c + ·) (BitVec.zero_mul)).trans (BitVec.add_zero c)
    have hfirst : InsideAt wrap wh ht dx dy x y (i - i) ↔
        (wrap || (inBounds wh (wrapCoord wrap wh (rotoInteger x)) &&
          inBounds ht (wrapCoord wrap ht (rotoInteger y)))) = true := by
      rw [InsideAt, hzero, hzero, Bool.or_eq_true, Bool.and_eq_true]
      cases wrap
      · rfl
      · exact iff_of_true (.inl rfl) (.inl rfl)
    rw [pixelLoop]
    by_cases hdrawn : InsideAt wrap wh ht dx dy x y (i - i)
    · rw [if_pos (hfirst.mp hdrawn)]
      exact Visiting.cons rfl hdrawn hrest
    · rw [if_neg (mt hfirst.mpr hdrawn)]
      exact Visiting.skip hdrawn hrest

/-- The columns of a line, with the fast path or without it. -/
theorem rotScaleOp_visiting {type : RotType} {size : Fin 4} (param : RotParams) :
    Visiting (rotScaleOp wrap (sizeTab type size).1 (sizeTab type size).2 param 256) 0 256
      (InsideAt wrap (sizeTab type size).1 (sizeTab type size).2 (param.BGxPA.signExtend 32)
        (param.BGxPC.signExtend 32) param.BGxX param.BGxY) := by
  cases wrap with
  | false =>
    have hgeneral : rotScaleOp false (sizeTab type size).1 (sizeTab type size).2 param 256 =
        generalRotScaleOp false (sizeTab type size).1 (sizeTab type size).2 param 256 :=
      rotScaleOp_eq (fun h => absurd h Bool.false_ne_true) (toInt_sizeTab_le type size) param 256
    rw [hgeneral]
    exact pixelLoop_visiting
  | true =>
    rw [rotScaleOp]
    split_ifs
    · exact fastLoop_visiting.congr fun j _ => iff_of_true trivial (.inl rfl)
    · exact pixelLoop_visiting

end Visits

/-! ### The frame of a background -/

section Backgrounds

variable {f : BgFrame} {r : LineRegs} {m m' : GpuMemory} {num : Fin 4} {mosaicColors : Fin 256 → Color} {l : ℕ}

/-- A background passes a pixel on: one of a text background always, unless there is no palette, and one
that is rotated and scaled if it wraps or if the position lies inside of it. -/
def BgFrame.Visits (f : BgFrame) (r : LineRegs) (m : GpuMemory) (num : Fin 4) (l : ℕ) (x : Fin 256) : Prop :=
  if r.bgType num = .text then HasPalette f.toTextRegs m num
  else
    match f.rotType (r.bgType num) with
    | none => False
    | some type =>
      (rotFun f.toBgRegs m num type).isSome ∧
        InsideAt f.PaletteSet_Wrap (sizeTab type f.ScreenSize).1 (sizeTab type f.ScreenSize).2
          (f.BGxPA.signExtend 32) (f.BGxPC.signExtend 32) (f.refPoint r num l).x (f.refPoint r num l).y x

/-- The memory may have other content, behind the same pages and palette slots. -/
structure SamePages (m m' : GpuMemory) : Prop where
  vramArm9Map : m'.vramArm9Map = m.vramArm9Map
  extPal : m'.extPal = m.extPal

theorem rotFun_srcX {type : RotType} {pixel : TexelCall → PixelCall}
    (h : rotFun f.toBgRegs m num type = some pixel) (t : TexelCall) : (pixel t).srcX = t.i := by
  cases type with
  | affineExt256x16 =>
    rw [rotFun] at h
    split_ifs at h
    · obtain ⟨p, -, rfl⟩ := Option.map_eq_some_iff.mp h
      rfl
    · exact Option.some.inj h ▸ rfl
  | _ => exact Option.some.inj h ▸ rfl

theorem rotFun_isSome (h : SamePages m m') (type : RotType) :
    (rotFun f.toBgRegs m' num type).isSome = (rotFun f.toBgRegs m num type).isSome := by
  cases type with
  | affineExt256x16 =>
    rw [rotFun, rotFun, h.extPal]
    split_ifs
    · rw [Option.isSome_map, Option.isSome_map]
    · rfl
  | _ => rfl

/-- With all bits of the memory set no texel is transparent. -/
theorem rotFun_opaque {type : RotType} {pixel : TexelCall → PixelCall}
    (h : rotFun f.toBgRegs (m.filled fun _ => 0xFF) num type = some pixel) (t : TexelCall) :
    (pixel t).isOpaque = true := by
  cases type with
  | affineExt256x16 =>
    rw [rotFun] at h
    split_ifs at h
    · obtain ⟨p, -, rfl⟩ := Option.map_eq_some_iff.mp h
      rfl
    · exact Option.some.inj h ▸ rfl
  | affineExtDirect =>
    obtain rfl := Option.some.inj h
    rw [rotBMPMap, GpuMemory.lcd16_filled, BitVec.msb_append]
    rfl
  | _ => exact Option.some.inj h ▸ rfl

theorem visits_congr (h : SamePages m m') (l : ℕ) (x : Fin 256) :
    f.Visits r m' num l x ↔ f.Visits r m num l x := by
  rw [BgFrame.Visits, BgFrame.Visits, HasPalette, HasPalette, h.extPal]
  refine iff_of_eq (congrArg _ ?_)
  cases f.rotType (r.bgType num) with
  | none => rfl
  | some type => simp only [rotFun_isSome h]

theorem callAt_isSome {calls : List PixelCall} {x : Fin 256} :
    (callAt calls x).isSome ↔ ∃ c ∈ calls, c.srcX = x := by
  rw [callAt, List.find?_isSome]
  simp only [decide_eq_true_eq]

theorem callAt_map_isSome {α : Type} {ts : List α} {call : α → PixelCall} {x : Fin 256} :
    (callAt (ts.map call) x).isSome ↔ ∃ t ∈ ts, (call t).srcX = x := by
  rw [callAt_isSome]
  exact ⟨fun ⟨_, hc, hx⟩ => let ⟨t, ht, h⟩ := List.mem_map.mp hc; ⟨t, ht, h ▸ hx⟩,
    fun ⟨t, ht, hx⟩ => ⟨call t, List.mem_map_of_mem ht, hx⟩⟩

/-- The calls of a line, in order and for the columns that the background visits. -/
theorem exists_lineCalls (f : BgFrame) (r : LineRegs) (m : GpuMemory) (num : Fin 4) (l : ℕ) :
    ∃ calls, lineCalls f r m num l (f.refPoint r num l) = some calls ∧ InOrder calls ∧
      (∀ x, (callAt calls x).isSome ↔ f.Visits r m num l x) := by
  rw [lineCalls]
  by_cases htext : r.bgType num = .text
  · rw [if_pos htext, lineText_calls]
    refine ⟨_, rfl, ?_, fun x => ?_⟩
    · split_ifs
      · exact List.pairwise_map.mpr List.pairwise_lt_range'
      · exact List.Pairwise.nil
    · rw [BgFrame.Visits, if_pos htext]
      split_ifs with hpalette
      · rw [pixelsFrom, callAt_map_isSome]
        exact iff_of_true ⟨x, List.mem_range'_1.mpr ⟨Nat.zero_le _, by omega⟩, rfl⟩ hpalette
      · exact iff_of_false Bool.false_ne_true hpalette
  rw [if_neg htext]
  cases htype : f.rotType (r.bgType num) with
  | none =>
    refine ⟨[], rfl, List.Pairwise.nil, fun x => ?_⟩
    rw [BgFrame.Visits, if_neg htext, htype]
    exact iff_of_false Bool.false_ne_true id
  | some type =>
    dsimp only
    cases hpixel : rotFun f.toBgRegs m num type with
    | none =>
      refine ⟨[], rfl, List.Pairwise.nil, fun x => ?_⟩
      rw [BgFrame.Visits, if_neg htext, htype]
      simp [callAt, hpixel]
    | some pixel =>
      have hvisit := @rotScaleOp_visiting f.PaletteSet_Wrap type f.ScreenSize
        ⟨(f.refPoint r num l).x, (f.refPoint r num l).y, f.BGxPA, f.BGxPC⟩
      refine ⟨_, rfl, ?_, fun x => ?_⟩
      · refine List.pairwise_map.mpr (hvisit.inOrder.imp fun h => ?_)
        rwa [rotFun_srcX hpixel, rotFun_srcX hpixel]
      · rw [callAt_map_isSome, BgFrame.Visits, if_neg htext, htype]
        simp only [rotFun_srcX hpixel, hpixel, Option.isSome_some, true_and]
        rw [hvisit.visited]
        exact ⟨fun h => h.2.2, fun h => ⟨Nat.zero_le _, by omega, h⟩⟩

/-- With all bits of the memory set, a background that is rotated and scaled passes on opaque pixels
only. -/
theorem lineCalls_opaque {calls : List PixelCall} {ref : RefPoint} (htext : r.bgType num ≠ .text)
    (h : lineCalls f r (m.filled fun _ => 0xFF) num l ref = some calls) :
    ∀ c ∈ calls, c.isOpaque = true := by
  rw [lineCalls, if_neg htext] at h
  split at h
  · exact Option.some.inj h ▸ fun c hc => nomatch hc
  · split at h
    · exact Option.some.inj h ▸ fun c hc => nomatch hc
    · next pixel hpixel =>
      obtain rfl := Option.some.inj h
      intro c hc
      obtain ⟨t, -, rfl⟩ := List.mem_map.mp hc
      exact rotFun_opaque hpixel t

theorem frameRow_eq {calls : ℕ → List PixelCall} {mosaic : Bool}
    (h : ∀ l, lineCalls f r m num l (f.refPoint r num l) = some (calls l)) (l : ℕ) :
    frameRow f r m num mosaic mosaicColors l = some (rowAfter r calls mosaic mosaicColors l) := by
  induction l with
  | zero => rfl
  | succ l ih => rw [frameRow, ih, h l]; rfl

/-- The frame shows with the mosaic what the blocks show without it. -/
def ShowsBlocks (f : BgFrame) (r : LineRegs) (m : GpuMemory) (num : Fin 4)
    (mosaicColors : Fin 256 → Color) : Prop :=
  ∃ row : Bool → ℕ → BGRow, (∀ mosaic l, frameRow f r m num mosaic mosaicColors l = some (row mosaic l)) ∧
    RowsShowBlocks r row

/-- A frame of opaque texels tells which pixels the background visits. -/
theorem visitsBlocks_of_showsBlocks (htext : r.bgType num ≠ .text)
    (h : ShowsBlocks f r (m.filled fun _ => 0xFF) num fun _ => 0) : VisitsBlocks r (f.Visits r m num) := by
  obtain ⟨row, hrow, hshows⟩ := h
  choose calls hcalls horder hvisits using exists_lineCalls f r (m.filled fun _ => 0xFF) num
  have heq : row = (rowAfter r calls · fun _ => 0) := funext fun mosaic => funext fun l =>
    Option.some.inj ((hrow mosaic l).symm.trans (frameRow_eq hcalls l))
  have hblocks := visitsBlocks_of_rowsShowBlocks horder
    (fun l => lineCalls_opaque htext (hcalls l)) (heq ▸ hshows)
  have hpages : SamePages m (m.filled fun _ => 0xFF) := ⟨rfl, rfl⟩
  intro y hy x
  rw [← visits_congr hpages, ← visits_congr hpages, ← hvisits, ← hvisits]
  exact hblocks y hy x

end Backgrounds

/-- A background is shown in blocks, whatever is in memory and in the mosaic colours, exactly if each
block is visited as a whole or not at all. -/
theorem showsBlocks_iff (f : BgFrame) (r : LineRegs) (m : GpuMemory) (num : Fin 4) :
    (∀ m', SamePages m m' → ∀ mosaicColors, ShowsBlocks f r m' num mosaicColors) ↔
      VisitsBlocks r (f.Visits r m num) := by
  constructor
  · intro h
    by_cases htext : r.bgType num = .text
    · intro y _ x
      rw [BgFrame.Visits, BgFrame.Visits, if_pos htext, if_pos htext]
    · exact visitsBlocks_of_showsBlocks htext (h (m.filled fun _ => 0xFF) ⟨rfl, rfl⟩ fun _ => 0)
  · intro h m' hpages mosaicColors
    choose calls hcalls horder hvisits using exists_lineCalls f r m' num
    refine ⟨(rowAfter r calls · mosaicColors), fun mosaic l => frameRow_eq hcalls l,
      rowsShowBlocks_of_visitsBlocks horder fun y hy x => ?_⟩
    change (callAt (calls y) x).isSome ↔ (callAt (calls (blockLine r y)) (blockColumn r x)).isSome
    rw [hvisits, hvisits, visits_congr hpages, visits_congr hpages]
    exact h y hy x

/-! ### A small bitmap in blocks of three -/

section Bitmap

def threeRegs : LineRegs where
  engine := .reset
  effects := ⟨0, 0, 0, 0⟩
  windows := ⟨false, false, false, 0, false, 0, false, 0, false, 0, false⟩
  winV := fun _ => (0, 0)
  dispMode := .normal
  BG_Mode := 1
  Mosaic_Enable := fun _ => true
  mosaicWidth := 2
  mosaicHeight := 2
  BGxPB := fun _ => 0
  BGxPD := fun _ => 0x100
  MasterBrightFactor := 0
  MasterBrightMode := .disable

/-- A background of 128x128 texels in the corner of the screen, which does not wrap. -/
def cornerBitmap : BgFrame where
  engineID := .main
  screenBase := 0
  characBase := 0
  ExBGxPalette_Enable := false
  CharacBase_Block := 0
  ScreenBase_Block := 0
  Palette_256 := false
  PaletteSet_Wrap := false
  ScreenSize := 0
  BGxHOFS := 0
  BGxVOFS := 0
  BGxPA := 0x100
  BGxPC := 0
  start := ⟨0, 0⟩

def blankPages : GpuMemory where
  vramArm9Map := id
  arm9Lcd := fun _ => 0
  blankMemory := fun _ => 0
  arm9Vmem := fun _ => 0
  extPal := fun _ => none
  objExtPal := .blankMemory 0

/-- The last block of a line is cut off: the pixel (128, 0) is outside, and (126, 0) is not. -/
theorem cornerBitmap_not_showsBlocks :
    ¬ ShowsBlocks cornerBitmap threeRegs (blankPages.filled fun _ => 0xFF) 3 fun _ => 0 := by
  intro h
  have hvisits (x : Fin 256) : cornerBitmap.Visits threeRegs blankPages 3 0 x ↔
      (rotFun cornerBitmap.toBgRegs blankPages 3 .affine).isSome ∧
        InsideAt false 128 128 0x100 0 0 0 x := by
    rw [BgFrame.Visits, if_neg (by decide)]
    rfl
  have hinside : cornerBitmap.Visits threeRegs blankPages 3 0 126 :=
    (hvisits 126).mpr ⟨rfl, .inr (by decide)⟩
  have hblocks := visitsBlocks_of_showsBlocks (m := blankPages) (by decide) h 0 (by decide) 128
  rcases ((hvisits 128).mp (hblocks.mpr hinside)).2 with hwrap | hin
  · exact absurd hwrap Bool.false_ne_true
  · exact absurd hin (by decide)

end Bitmap

end Desmume.Video
