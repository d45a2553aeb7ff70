import Desmume.Video.ScanlineDefs
import Mathlib.Data.List.Range

/-! Text backgrounds: the loops over the tiles of a line, and the texel that belongs to a coordinate of
the map. -/

namespace Desmume.Video
open Library

/-- What a background reads of `BGxCNT` and of `DISPCNT`, where `screenBase` and `characBase` are the
blocks of `DISPCNT`. -/
structure BgRegs where
  engineID : EngineID
  screenBase : Fin 8
  characBase : Fin 8
  ExBGxPalette_Enable : Bool
  CharacBase_Block : Fin 16
  ScreenBase_Block : Fin 32
  Palette_256 : Bool
  PaletteSet_Wrap : Bool
  ScreenSize : Fin 4

/-- The registers of a text background. -/
structure TextRegs extends BgRegs where
  BGxHOFS : BitVec 16
  BGxVOFS : BitVec 16

/-- A call of `__setFinalColorBck`. -/
structure PixelCall where
  color : Color
  srcX : ℕ
  isOpaque : Bool
deriving DecidableEq, Repr

/-! ### `SetBGProp` -/

namespace BgRegs

variable (r : BgRegs)

/-- `_BG_tile_ram` and `_BG_map_ram`. -/
def bgTileRam : ℕ :=
  (match r.engineID with
    | .main => mmuAbg + r.characBase * 0x10000
    | .sub => mmuBbg) + r.CharacBase_Block * 0x4000

def bgMapRam : ℕ :=
  (match r.engineID with
    | .main => mmuAbg + r.screenBase * 0x10000
    | .sub => mmuBbg) + r.ScreenBase_Block * 0x800

/-- `BGExtPalSlot`. -/
def bgExtPalSlot (num : Fin 4) : Fin 4 :=
  if h : num.val < 2 then ⟨r.PaletteSet_Wrap.toNat * 2 + num, by have := r.PaletteSet_Wrap.toNat_le; omega⟩
  else num

end BgRegs

namespace TextRegs

variable (r : TextRegs)

/-- `BGSize`. -/
def bgSize : ℕ × ℕ := ![(256, 256), (512, 256), (256, 512), (512, 512)] r.ScreenSize

/-- `GetHOFS` and `GetVOFS`. -/
def hofs : BitVec 16 := r.BGxHOFS &&& 0x01FF

def vofs : BitVec 16 := r.BGxVOFS &&& 0x01FF

end TextRegs

/-- The fields of `TILEENTRY`. -/
structure TileEntry where
  TileNum : ℕ
  HFlip : Bool
  VFlip : Bool
  Palette : ℕ

def tileEntry (val : BitVec 16) : TileEntry where
  TileNum := (val.extractLsb' 0 10).toNat
  HFlip := val.getLsbD 10
  VFlip := val.getLsbD 11
  Palette := (val.extractLsb' 12 4).toNat

/-! ### The loops -/

section Loops

variable (r : TextRegs) (m : GpuMemory)

/-- The loop over the pixels of a tile of 16 colours: the first pixel of a byte is in its low half, or
in its high half if the tile is flipped. -/
def nibbleLoop (flip : Bool) (pal : BitVec 8 → Color) (xfin : ℕ) :
    ℕ → ℕ → ℕ → BitVec 16 → Option (List PixelCall × ℕ × BitVec 16)
  | 0, _, x, xoff => if x < xfin then none else some ([], x, xoff)
  | n + 1, line, x, xoff =>
    if x < xfin then do
      let byte := m.lcd8 line
      let first := if flip then byte >>> 4 else byte &&& 0xF
      let second := if flip then byte &&& 0xF else byte >>> 4
      let (calls, x, xoff) :=
        if xoff.toNat &&& 1 = 0 then ([PixelCall.mk (pal first) x (first ≠ 0)], x + 1, xoff + 1)
        else ([], x, xoff)
      let (calls, x, xoff) :=
        if x < xfin then (calls ++ [PixelCall.mk (pal second) x (second ≠ 0)], x + 1, xoff + 1)
        else (calls, x, xoff)
      let (rest, x, xoff) ← nibbleLoop flip pal xfin n (if flip then line - 1 else line + 1) x xoff
      some (calls ++ rest, x, xoff)
    else some ([], x, xoff)

/-- The loop over the pixels of a tile of 256 colours. -/
def byteLoop (flip : Bool) (pal : BitVec 8 → Color) (xfin : ℕ) :
    ℕ → ℕ → ℕ → BitVec 16 → Option (List PixelCall × ℕ × BitVec 16)
  | 0, _, x, xoff => if x < xfin then none else some ([], x, xoff)
  | n + 1, line, x, xoff =>
    if x < xfin then do
      let byte := m.lcd8 line
      let (rest, x', xoff) ←
        byteLoop flip pal xfin n (if flip then line - 1 else line + 1) (x + 1) (xoff + 1)
      some (⟨pal byte, x, byte ≠ 0⟩ :: rest, x', xoff)
    else some ([], x, xoff)

/-- The row of map entries that a line goes through. -/
def rowMap (YBG : BitVec 16) : ℕ :=
  let tmp := (YBG.toNat &&& (r.bgSize.2 - 1)) >>> 3
  r.bgMapRam + (tmp &&& 31) * 64 + (if tmp > 31 then 0x200 <<< r.ScreenSize.val else 0)

/-- The map entry of a column of tiles. -/
def mapEntry (map : ℕ) (xoff : BitVec 16) : TileEntry :=
  let tmp := (xoff.toNat &&& (r.bgSize.1 - 1)) >>> 3
  tileEntry (m.lcd16 (m.mmuGpuMap (map + (tmp &&& 0x1F) * 2 + if tmp > 31 then 32 * 32 * 2 else 0)))

/-- A round of the loop over the tiles, for 16 colours. -/
def tileRound16 (YBG : BitVec 16) (x : ℕ) (xoff : BitVec 16) (xfin : ℕ) :
    Option (List PixelCall × ℕ × BitVec 16) :=
  let e := mapEntry r m (rowMap r YBG) xoff
  let yoff := (YBG.toNat &&& 7) <<< 2
  let tilePalette := e.Palette * 16
  let line := m.mmuGpuMap (r.bgTileRam + e.TileNum * 0x20 + if e.VFlip then 7 * 4 - yoff else yoff)
  let line := line + if e.HFlip then 3 - ((xoff.toNat &&& 7) >>> 1) else (xoff.toNat &&& 7) >>> 1
  nibbleLoop m e.HFlip (fun offset => m.vmem16 (r.engineID.step1KB + 2 * (offset.toNat + tilePalette)))
    xfin (xfin - x) line x xoff

/-- The palette for 256 colours, by the palette number of the tile. -/
def palette256 (num : Fin 4) : Option (ℕ → BitVec 8 → Color) :=
  if r.ExBGxPalette_Enable then
    (m.extPal (r.bgExtPalSlot num)).map fun p palette entry => m.host16 p ((palette <<< 9) + 2 * entry.toNat)
  else some fun _ entry => m.vmem16 (r.engineID.step1KB + 2 * entry.toNat)

/-- A round of the loop over the tiles, for 256 colours. -/
def tileRound256 (pal : ℕ → BitVec 8 → Color) (YBG : BitVec 16) (x : ℕ) (xoff : BitVec 16) (xfin : ℕ) :
    Option (List PixelCall × ℕ × BitVec 16) :=
  let e := mapEntry r m (rowMap r YBG) xoff
  let yoff := (YBG.toNat &&& 7) <<< 3
  let line := m.mmuGpuMap (r.bgTileRam + e.TileNum * 0x40 + if e.VFlip then 7 * 8 - yoff else yoff)
  let line := line + if e.HFlip then 7 - (xoff.toNat &&& 7) else xoff.toNat &&& 7
  byteLoop m e.HFlip (pal e.Palette) xfin (xfin - x) line x xoff

/-- The loop over the tiles of a line. -/
def tileLoop (round : ℕ → BitVec 16 → ℕ → Option (List PixelCall × ℕ × BitVec 16)) (LG : ℕ) :
    ℕ → ℕ → BitVec 16 → ℕ → Option (List PixelCall)
  | 0, x, _, _ => if x < LG then none else some []
  | n + 1, x, xoff, xfin =>
    if x < LG then do
      let (calls, x, xoff) ← round x xoff xfin
      let rest ← tileLoop round LG n x xoff (min ((x + 8) % 0x10000) LG)
      some (calls ++ rest)
    else some []

/-- `_RenderLine_TextBG`. -/
def renderLineTextBG (num : Fin 4) (XBG YBG : BitVec 16) (LG : ℕ) : Option (List PixelCall) :=
  let xfin := 8 - (XBG.toNat &&& 7)
  if !r.Palette_256 then tileLoop (tileRound16 r m YBG) LG LG 0 XBG xfin
  else
    match palette256 r m num with
    | none => some []
    | some pal => tileLoop (tileRound256 r m pal YBG) LG LG 0 XBG xfin

/-- `_LineText`. -/
def lineText (num : Fin 4) (currLine : BitVec 16) : Option (List PixelCall) :=
  renderLineTextBG r m num r.hofs (currLine + r.vofs) 256

end Loops

/-! ### The texel of a coordinate -/

section Texels

variable (r : TextRegs) (m : GpuMemory)

/-- The map entry of a coordinate: the blocks of 32x32 entries lie one after the other, from left to
right and from top to bottom. -/
def entryAt (X Y : ℕ) : TileEntry :=
  let block := X / 256 + Y / 256 * (r.bgSize.1 / 256)
  tileEntry (m.lcd16 (m.mmuGpuMap (r.bgMapRam + block * 0x800 + Y / 8 % 32 * 64 + X / 8 % 32 * 2)))

/-- The column or the row in a tile. -/
def inTile (flip : Bool) (c : ℕ) : ℕ := if flip then 7 - c % 8 else c % 8

/-- The palette index of the texel at a coordinate, with 0 for none. -/
def indexAt (X Y : ℕ) : BitVec 8 :=
  let e := entryAt r m X Y
  let column := inTile e.HFlip X
  let row := inTile e.VFlip Y
  if r.Palette_256 then m.lcd8 (m.mmuGpuMap (r.bgTileRam + e.TileNum * 64 + row * 8 + column))
  else nibbleOf column (m.lcd8 (m.mmuGpuMap (r.bgTileRam + e.TileNum * 32 + row * 4 + column / 2)))

/-- The colour of an index, in the palette of the map entry. -/
def colorAt (num : Fin 4) (X Y : ℕ) : Color :=
  let e := entryAt r m X Y
  let index := (indexAt r m X Y).toNat
  if !r.Palette_256 then m.vmem16 (r.engineID.step1KB + (e.Palette * 16 + index) * 2)
  else if !r.ExBGxPalette_Enable then m.vmem16 (r.engineID.step1KB + index * 2)
  else
    match m.extPal (r.bgExtPalSlot num) with
    | none => 0
    | some p => m.host16 p ((e.Palette * 256 + index) * 2)

/-- A background of 256 colours without a palette in memory draws nothing. -/
def HasPalette (num : Fin 4) : Prop :=
  r.Palette_256 = true → r.ExBGxPalette_Enable = true → m.extPal (r.bgExtPalSlot num) ≠ none

instance (num : Fin 4) : Decidable (HasPalette r m num) :=
  inferInstanceAs (Decidable (_ → _ → m.extPal (r.bgExtPalSlot num) ≠ none))

/-- What belongs to the pixel `x`. -/
def pixelAt (num : Fin 4) (X Y x : ℕ) : PixelCall :=
  ⟨colorAt r m num X Y, x, indexAt r m X Y ≠ 0⟩

end Texels

/-! ### A tile -/

section Tiles

variable {m : GpuMemory} {B : BitVec 16} {x xfin n line base : ℕ} {flip : Bool} {pal : BitVec 8 → Color}

theorem toNat_xoff (B : BitVec 16) (x : ℕ) :
    (B + BitVec.ofNat 16 x).toNat = (B.toNat + x) % 0x10000 := by
  rw [BitVec.toNat_add, BitVec.toNat_ofNat, Nat.add_mod_mod]

theorem xoff_succ (B : BitVec 16) (x : ℕ) :
    B + BitVec.ofNat 16 x + 1 = B + BitVec.ofNat 16 (x + 1) := by
  rw [BitVec.ofNat_add, ← BitVec.add_assoc]
  rfl

/-- A pixel in a row of four bytes, and one in a row of eight. -/
def nibblePixel (m : GpuMemory) (flip : Bool) (pal : BitVec 8 → Color) (base c k : ℕ) : PixelCall :=
  let index := nibbleOf (inTile flip c) (m.lcd8 (base + inTile flip c / 2))
  ⟨pal index, k, index ≠ 0⟩

def bytePixel (m : GpuMemory) (flip : Bool) (pal : BitVec 8 → Color) (base c k : ℕ) : PixelCall :=
  let index := m.lcd8 (base + inTile flip c)
  ⟨pal index, k, index ≠ 0⟩

theorem nibblePixel_even {c k : ℕ} (h : c % 2 = 0) (hline : line = base + inTile flip c / 2) :
    nibblePixel m flip pal base c k =
      let first := if flip then m.lcd8 line >>> 4 else m.lcd8 line &&& 0xF
      ⟨pal first, k, first ≠ 0⟩ := by
  have hnibble (byte : BitVec 8) : nibbleOf (inTile flip c) byte =
      if flip then byte >>> 4 else byte &&& 0xF := by
    rw [nibbleOf, Nat.and_one_is_mod, inTile]
    cases flip <;> simp only [Bool.false_eq_true, if_true, if_false]
    · rw [if_neg (by omega)]
    · rw [if_pos (by omega)]
  rw [nibblePixel, ← hline, hnibble]

theorem nibblePixel_odd {c k : ℕ} (h : c % 2 = 1) (hline : line = base + inTile flip c / 2) :
    nibblePixel m flip pal base c k =
      let second := if flip then m.lcd8 line &&& 0xF else m.lcd8 line >>> 4
      ⟨pal second, k, second ≠ 0⟩ := by
  have hnibble (byte : BitVec 8) : nibbleOf (inTile flip c) byte =
      if flip then byte &&& 0xF else byte >>> 4 := by
    rw [nibbleOf, Nat.and_one_is_mod, inTile]
    cases flip <;> simp only [Bool.false_eq_true, if_true, if_false]
    · rw [if_pos (by omega)]
    · rw [if_neg (by omega)]
  rw [nibblePixel, ← hline, hnibble]

/-- The byte of a pixel: two pixels share it, and the next pair goes on in its direction. -/
theorem line_of_even {c : ℕ} (h : c % 2 = 0) : inTile flip (c + 1) / 2 = inTile flip c / 2 := by
  rw [inTile, inTile]
  split_ifs <;> omega

theorem line_of_odd {c : ℕ} (h : c % 2 = 1) (hcross : c % 8 ≠ 7) (hline : line = base + inTile flip c / 2) :
    (if flip then line - 1 else line + 1) = base + inTile flip (c + 1) / 2 := by
  rw [hline, inTile, inTile]
  split_ifs <;> omega

theorem nibbleLoop_eq (hx : x ≤ xfin) (hfuel : xfin - x ≤ n)
    (hcross : (B.toNat + x) % 8 + (xfin - x) ≤ 8)
    (hline : x < xfin → line = base + inTile flip (B.toNat + x) / 2) :
    nibbleLoop m flip pal xfin n line x (B + BitVec.ofNat 16 x) =
      some ((List.range' x (xfin - x)).map fun k => nibblePixel m flip pal base (B.toNat + k) k, xfin,
        B + BitVec.ofNat 16 xfin) := by
  have hparity (x : ℕ) : (B + BitVec.ofNat 16 x).toNat &&& 1 = (B.toNat + x) % 2 := by
    rw [Nat.and_one_is_mod, toNat_xoff]
    omega
  have hdone (n line : ℕ) : nibbleLoop m flip pal xfin n line xfin (B + BitVec.ofNat 16 xfin) =
      some ([], xfin, B + BitVec.ofNat 16 xfin) := by
    cases n <;> rw [nibbleLoop, if_neg (lt_irrefl _)]
  induction n generalizing x line with
  | zero =>
    obtain rfl : x = xfin := by omega
    rw [hdone, Nat.sub_self]
    rfl
  | succ n ih =>
    by_cases hend : x = xfin
    · rw [hend, hdone, Nat.sub_self]
      rfl
    have hlt : x < xfin := by omega
    have hline := hline hlt
    rw [nibbleLoop, if_pos hlt, hparity]
    by_cases heven : (B.toNat + x) % 2 = 0
    · have hfirst := @nibblePixel_even m _ _ _ pal _ x heven hline
      dsimp only at hfirst
      by_cases hlast : x + 1 = xfin
      · -- the line ends on the first pixel of a pair
        simp only [if_pos heven, xoff_succ, hlast, lt_irrefl, if_false, hdone, ← hfirst,
          Option.bind_eq_bind, Option.bind_some, show xfin - x = 1 by omega]
        rfl
      · have hsecond := @nibblePixel_odd m _ _ _ pal _ (x + 1)
          (show (B.toNat + x + 1) % 2 = 1 by omega) (hline.trans (by rw [line_of_even heven]))
        have hrest := @ih (x + 1 + 1) (if flip then line - 1 else line + 1) (by omega) (by omega)
          (by omega) fun h => line_of_odd (c := B.toNat + x + 1) (by omega) (by omega)
            (hline.trans (by rw [line_of_even heven]))
        dsimp only at hsecond
        simp only [if_pos heven, if_pos (show x + 1 < xfin by omega), xoff_succ, hrest, ← hfirst, ← hsecond,
          Option.bind_eq_bind, Option.bind_some]
        rw [show xfin - x = xfin - (x + 1 + 1) + 1 + 1 by omega, List.range'_succ, List.range'_succ]
        rfl
    · have hodd : (B.toNat + x) % 2 = 1 := by omega
      have hsecond := @nibblePixel_odd m _ _ _ pal _ x hodd hline
      have hrest := @ih (x + 1) (if flip then line - 1 else line + 1) (by omega) (by omega) (by omega)
        fun h => line_of_odd (c := B.toNat + x) hodd (by omega) hline
      dsimp only at hsecond
      simp only [if_neg heven, if_pos hlt, xoff_succ, hrest, ← hsecond, Option.bind_eq_bind,
        Option.bind_some]
      rw [show xfin - x = xfin - (x + 1) + 1 by omega, List.range'_succ]
      rfl

theorem byteLoop_eq (hx : x ≤ xfin) (hfuel : xfin - x ≤ n)
    (hcross : (B.toNat + x) % 8 + (xfin - x) ≤ 8)
    (hline : x < xfin → line = base + inTile flip (B.toNat + x)) :
    byteLoop m flip pal xfin n line x (B + BitVec.ofNat 16 x) =
      some ((List.range' x (xfin - x)).map fun k => bytePixel m flip pal base (B.toNat + k) k, xfin,
        B + BitVec.ofNat 16 xfin) := by
  induction n generalizing x line with
  | zero =>
    obtain rfl : x = xfin := by omega
    rw [byteLoop, if_neg (lt_irrefl _), Nat.sub_self]
    rfl
  | succ n ih =>
    by_cases hlt : x < xfin
    · rw [byteLoop, if_pos hlt]
      have hrest := @ih (x + 1) (if flip then line - 1 else line + 1) (by omega) (by omega) (by omega)
        fun h => by rw [hline hlt, inTile, inTile]; split_ifs <;> omega
      have hpixel : bytePixel m flip pal base (B.toNat + x) x = ⟨pal (m.lcd8 line), x, m.lcd8 line ≠ 0⟩ := by
        rw [bytePixel, ← hline hlt]
      simp only [xoff_succ, hrest, ← hpixel, Option.bind_eq_bind, Option.bind_some]
      rw [show xfin - x = xfin - (x + 1) + 1 by omega, List.range'_succ]
      rfl
    · obtain rfl : x = xfin := by omega
      rw [byteLoop, if_neg hlt, Nat.sub_self]
      rfl

end Tiles

/-! ### A line -/

section Lines

variable {r : TextRegs} {m : GpuMemory} {num : Fin 4} {B YBG : BitVec 16} {X X' Y x xfin n LG : ℕ}

/-- The four sizes. -/
theorem bgSize_cases (r : TextRegs) :
    (r.bgSize = (256, 256) ∨ r.bgSize = (512, 256)) ∨
      r.bgSize = (256, 512) ∧ r.ScreenSize = 2 ∨ r.bgSize = (512, 512) ∧ r.ScreenSize = 3 := by
  rw [TextRegs.bgSize]
  generalize r.ScreenSize = size
  revert size
  decide

theorem bgSize_dvd (r : TextRegs) : 8 ∣ r.bgSize.1 ∧ 8 ∣ r.bgSize.2 ∧ r.bgSize.1 ∣ 0x10000 ∧
    r.bgSize.2 ∣ 0x10000 := by
  rw [TextRegs.bgSize]
  generalize r.ScreenSize = size
  revert size
  decide

/-- The entry of the loops is the entry of the coordinate. -/
theorem mapEntry_eq (xoff : BitVec 16) :
    mapEntry r m (rowMap r YBG) xoff = entryAt r m (xoff.toNat % r.bgSize.1) (YBG.toNat % r.bgSize.2) := by
  have hmask (c : ℕ) : c &&& 255 = c % 256 := and_lowMask (n := 8) c rfl
  have hmask' (c : ℕ) : c &&& 511 = c % 512 := and_lowMask (n := 9) c rfl
  have hmask₃ (c : ℕ) : c &&& 31 = c % 32 := and_lowMask (n := 5) c rfl
  rw [mapEntry, rowMap, entryAt]
  simp only [Nat.shiftRight_eq_div_pow, hmask₃]
  congr 3
  rcases bgSize_cases r with (hsize | hsize) | ⟨hsize, hshift⟩ | ⟨hsize, hshift⟩
  all_goals
    rw [hsize]
    simp only [Nat.add_one_sub_one, hmask, hmask']
  · split_ifs <;> omega
  · split_ifs <;> omega
  · simp only [hshift, show 0x200 <<< (2 : Fin 4).val = 0x800 from rfl]
    split_ifs <;> omega
  · simp only [hshift, show 0x200 <<< (3 : Fin 4).val = 0x1000 from rfl]
    split_ifs <;> omega

/-- A tile has one entry. -/
theorem entryAt_congr (h : X / 8 = X' / 8) : entryAt r m X Y = entryAt r m X' Y := by
  rw [entryAt, entryAt, h, show X / 256 = X / 8 / 32 by omega, h, show X' / 256 = X' / 8 / 32 by omega]

theorem inTile_mod (flip : Bool) {c size : ℕ} (h : 8 ∣ size) : inTile flip (c % size) = inTile flip c := by
  rw [inTile, inTile, Nat.mod_mod_of_dvd _ h]

theorem inTile_le (flip : Bool) (c : ℕ) : inTile flip c ≤ 7 := by
  rw [inTile]
  split_ifs <;> omega

/-- Tiles start at a multiple of their size. -/
theorem bgTileRam_mod (r : TextRegs) : r.bgTileRam % 0x4000 = 0 := by
  rw [BgRegs.bgTileRam]
  cases r.engineID <;> simp only [mmuAbg, mmuBbg] <;> omega

/-- The pixels from `x` to `xfin`, as their coordinates say. -/
def pixelsFrom (r : TextRegs) (m : GpuMemory) (num : Fin 4) (B YBG : BitVec 16) (x xfin : ℕ) :
    List PixelCall :=
  (List.range' x (xfin - x)).map fun k =>
    pixelAt r m num ((B.toNat + k) % r.bgSize.1) (YBG.toNat % r.bgSize.2) k

theorem mapEntry_xoff (B : BitVec 16) (x : ℕ) :
    mapEntry r m (rowMap r YBG) (B + BitVec.ofNat 16 x) =
      entryAt r m ((B.toNat + x) % r.bgSize.1) (YBG.toNat % r.bgSize.2) := by
  rw [mapEntry_eq, toNat_xoff, Nat.mod_mod_of_dvd _ (bgSize_dvd r).2.2.1]

/-- A pixel of the same tile has the same entry. -/
theorem entryAt_tile {k : ℕ} (hk : x ≤ k) (hcross : (B.toNat + x) % 8 + (k - x) < 8) :
    entryAt r m ((B.toNat + k) % r.bgSize.1) Y = entryAt r m ((B.toNat + x) % r.bgSize.1) Y := by
  obtain ⟨tiles, htiles⟩ := (bgSize_dvd r).1
  refine entryAt_congr ?_
  rw [htiles, Nat.mod_mul_right_div_self, Nat.mod_mul_right_div_self]
  congr 1
  omega

theorem and_seven (c : ℕ) : c &&& 7 = c % 8 := and_lowMask (n := 3) c rfl

/-- The place of a row of a tile, and of a byte in it. -/
theorem mmuGpuMap_row {k : ℕ} (r : TextRegs) (e : TileEntry) {bytes row : ℕ} (hbytes : bytes = 4 ∨ bytes = 8)
    (hk : k < bytes) :
    m.mmuGpuMap (r.bgTileRam + e.TileNum * (8 * bytes) + row * bytes + k) =
      m.mmuGpuMap (r.bgTileRam + e.TileNum * (8 * bytes) + row * bytes) + k := by
  have hram := bgTileRam_mod r
  refine m.mmuGpuMap_add ?_
  rcases hbytes with rfl | rfl <;> omega

theorem yoff_eq {e : TileEntry} {bytes shift : ℕ} (h : bytes = 2 ^ shift) (YBG : BitVec 16) :
    (if e.VFlip then 7 * bytes - (YBG.toNat &&& 7) <<< shift else (YBG.toNat &&& 7) <<< shift) =
      inTile e.VFlip (YBG.toNat % r.bgSize.2) * bytes := by
  rw [inTile_mod _ (bgSize_dvd r).2.1, and_seven, Nat.shiftLeft_eq, ← h, inTile]
  split_ifs
  · rw [Nat.sub_mul]
  · rfl

theorem tileRound16_eq (hpal : r.Palette_256 = false) (hx : x ≤ xfin)
    (hcross : (B.toNat + x) % 8 + (xfin - x) ≤ 8) :
    tileRound16 r m YBG x (B + BitVec.ofNat 16 x) xfin =
      some (pixelsFrom r m num B YBG x xfin, xfin, B + BitVec.ofNat 16 xfin) := by
  rw [tileRound16, mapEntry_xoff]
  generalize hentry : entryAt r m ((B.toNat + x) % r.bgSize.1) (YBG.toNat % r.bgSize.2) = e
  have hline (base : ℕ) : (base + if e.HFlip then 3 - (((B + BitVec.ofNat 16 x).toNat &&& 7) >>> 1)
      else ((B + BitVec.ofNat 16 x).toNat &&& 7) >>> 1) = base + inTile e.HFlip (B.toNat + x) / 2 := by
    rw [and_seven, toNat_xoff, Nat.shiftRight_eq_div_pow, inTile]
    split_ifs <;> omega
  have hyoff : (if e.VFlip then 7 * 4 - (YBG.toNat &&& 7) <<< 2 else (YBG.toNat &&& 7) <<< 2) =
      inTile e.VFlip (YBG.toNat % r.bgSize.2) * 4 := yoff_eq rfl YBG
  rw [hyoff, nibbleLoop_eq hx le_rfl hcross fun _ => hline _]
  refine congrArg some (Prod.ext (List.map_congr_left fun k hk => ?_) rfl)
  obtain ⟨hk₀, hk₁⟩ := List.mem_range'_1.mp hk
  have hcolumn := inTile_le e.HFlip (B.toNat + k)
  have hindex : indexAt r m ((B.toNat + k) % r.bgSize.1) (YBG.toNat % r.bgSize.2) =
      nibbleOf (inTile e.HFlip (B.toNat + k)) (m.lcd8 (m.mmuGpuMap (r.bgTileRam + e.TileNum * 0x20 +
        inTile e.VFlip (YBG.toNat % r.bgSize.2) * 4) + inTile e.HFlip (B.toNat + k) / 2)) := by
    rw [← mmuGpuMap_row r e (.inl rfl) (by omega), indexAt, entryAt_tile hk₀ (by omega), hentry]
    simp only [hpal, Bool.false_eq_true, if_false, inTile_mod _ (bgSize_dvd r).1]
  rw [pixelAt, hindex, colorAt, entryAt_tile hk₀ (by omega), hentry, hindex]
  simp only [nibblePixel, hpal, Bool.not_false, if_true, Nat.mul_comm 2, Nat.add_comm (e.Palette * 16)]

theorem tileRound256_eq {pal : ℕ → BitVec 8 → Color} (h256 : r.Palette_256 = true)
    (hpal : palette256 r m num = some pal) (hx : x ≤ xfin)
    (hcross : (B.toNat + x) % 8 + (xfin - x) ≤ 8) :
    tileRound256 r m pal YBG x (B + BitVec.ofNat 16 x) xfin =
      some (pixelsFrom r m num B YBG x xfin, xfin, B + BitVec.ofNat 16 xfin) := by
  rw [tileRound256, mapEntry_xoff]
  generalize hentry : entryAt r m ((B.toNat + x) % r.bgSize.1) (YBG.toNat % r.bgSize.2) = e
  have hline (base : ℕ) : (base + if e.HFlip then 7 - ((B + BitVec.ofNat 16 x).toNat &&& 7)
      else (B + BitVec.ofNat 16 x).toNat &&& 7) = base + inTile e.HFlip (B.toNat + x) := by
    rw [and_seven, toNat_xoff, inTile]
    split_ifs <;> omega
  have hyoff : (if e.VFlip then 7 * 8 - (YBG.toNat &&& 7) <<< 3 else (YBG.toNat &&& 7) <<< 3) =
      inTile e.VFlip (YBG.toNat % r.bgSize.2) * 8 := yoff_eq rfl YBG
  rw [hyoff, byteLoop_eq hx le_rfl hcross fun _ => hline _]
  refine congrArg some (Prod.ext (List.map_congr_left fun k hk => ?_) rfl)
  obtain ⟨hk₀, hk₁⟩ := List.mem_range'_1.mp hk
  have hcolumn := inTile_le e.HFlip (B.toNat + k)
  have hindex : indexAt r m ((B.toNat + k) % r.bgSize.1) (YBG.toNat % r.bgSize.2) =
      m.lcd8 (m.mmuGpuMap (r.bgTileRam + e.TileNum * 0x40 +
        inTile e.VFlip (YBG.toNat % r.bgSize.2) * 8) + inTile e.HFlip (B.toNat + k)) := by
    rw [← mmuGpuMap_row r e (.inr rfl) (by omega), indexAt, entryAt_tile hk₀ (by omega), hentry]
    simp only [h256, if_true, inTile_mod _ (bgSize_dvd r).1]
  rw [pixelAt, hindex, colorAt, entryAt_tile hk₀ (by omega), hentry, hindex, bytePixel]
  -- the palette is that of the background, or the one of the tile in the slot
  rw [palette256] at hpal
  by_cases hext : r.ExBGxPalette_Enable = true
  · rw [if_pos hext] at hpal
    obtain ⟨p, hp, rfl⟩ := Option.map_eq_some_iff.mp hpal
    simp only [h256, hext, hp, Bool.not_true, Bool.false_eq_true, if_false, Nat.shiftLeft_eq]
    congr 2
    omega
  · rw [if_neg hext, Option.some.injEq] at hpal
    subst hpal
    simp only [h256, hext, Bool.not_true, Bool.not_false, Bool.false_eq_true, if_true, if_false,
      Nat.mul_comm 2]

/-- Tile after tile the loop goes through the whole line. -/
theorem tileLoop_eq {round : ℕ → BitVec 16 → ℕ → Option (List PixelCall × ℕ × BitVec 16)}
    (hround : ∀ {x xfin}, x ≤ xfin → (B.toNat + x) % 8 + (xfin - x) ≤ 8 →
      round x (B + BitVec.ofNat 16 x) xfin =
        some (pixelsFrom r m num B YBG x xfin, xfin, B + BitVec.ofNat 16 xfin))
    (hLG : LG + 8 < 0x10000) (hx : x ≤ LG) (hfuel : LG - x ≤ n)
    (hxfin : x < LG → x < xfin ∧ xfin ≤ LG ∧ (B.toNat + x) % 8 + (xfin - x) ≤ 8 ∧
      (xfin = LG ∨ (B.toNat + xfin) % 8 = 0)) :
    tileLoop round LG n x (B + BitVec.ofNat 16 x) xfin = some (pixelsFrom r m num B YBG x LG) := by
  induction n generalizing x xfin with
  | zero =>
    obtain rfl : x = LG := by omega
    rw [tileLoop, if_neg (lt_irrefl _), pixelsFrom, Nat.sub_self]
    rfl
  | succ n ih =>
    by_cases hlt : x < LG
    · obtain ⟨hfirst, hlast, hcross, hnext⟩ := hxfin hlt
      have hrest := @ih xfin (min ((xfin + 8) % 0x10000) LG) hlast (by omega) (by omega)
      rw [tileLoop, if_pos hlt, hround hfirst.le hcross]
      simp only [Option.bind_eq_bind, Option.bind_some, hrest, pixelsFrom, ← List.map_append]
      have hjoin : List.range' x (xfin - x) 1 ++ List.range' (x + 1 * (xfin - x)) (LG - xfin) 1 = _ :=
        List.range'_append
      rw [Nat.one_mul, Nat.add_sub_cancel' hfirst.le, show xfin - x + (LG - xfin) = LG - x by omega] at hjoin
      rw [hjoin]
    · obtain rfl : x = LG := by omega
      rw [tileLoop, if_neg (lt_irrefl _), pixelsFrom, Nat.sub_self]
      rfl

end Lines

/-- A line of a text background goes through all pixels, if it has a palette. -/
theorem lineText_calls (r : TextRegs) (m : GpuMemory) (num : Fin 4) (currLine : BitVec 16) :
    lineText r m num currLine = some (
      if HasPalette r m num then pixelsFrom r m num r.hofs (currLine + r.vofs) 0 256 else []) := by
  have hzero : r.hofs = r.hofs + BitVec.ofNat 16 0 := (BitVec.add_zero _).symm
  have hxfin : 8 - (r.hofs.toNat &&& 7) = 8 - r.hofs.toNat % 8 := by rw [and_seven]
  have hfirst : 0 < 256 → 0 < 8 - r.hofs.toNat % 8 ∧ 8 - r.hofs.toNat % 8 ≤ 256 ∧
      (r.hofs.toNat + 0) % 8 + (8 - r.hofs.toNat % 8 - 0) ≤ 8 ∧
      (8 - r.hofs.toNat % 8 = 256 ∨ (r.hofs.toNat + (8 - r.hofs.toNat % 8)) % 8 = 0) := by omega
  have hloop {round : ℕ → BitVec 16 → ℕ → Option (List PixelCall × ℕ × BitVec 16)}
      (hround : ∀ {x xfin}, x ≤ xfin → (r.hofs.toNat + x) % 8 + (xfin - x) ≤ 8 →
        round x (r.hofs + BitVec.ofNat 16 x) xfin = some (pixelsFrom r m num r.hofs (currLine + r.vofs) x xfin,
          xfin, r.hofs + BitVec.ofNat 16 xfin)) :
      tileLoop round 256 256 0 r.hofs (8 - r.hofs.toNat % 8) =
        some (pixelsFrom r m num r.hofs (currLine + r.vofs) 0 256) := by
    have h := tileLoop_eq hround (n := 256) (by decide) (Nat.zero_le 256) le_rfl hfirst
    rwa [← hzero] at h
  rw [lineText, renderLineTextBG, hxfin]
  cases h256 : r.Palette_256 with
  | false =>
    rw [if_pos (show HasPalette r m num from fun h => nomatch h256.symm.trans h)]
    exact hloop (tileRound16_eq h256)
  | true =>
    have hpal : HasPalette r m num ↔ palette256 r m num ≠ none := by
      rw [HasPalette, palette256, h256]
      by_cases hext : r.ExBGxPalette_Enable = true
      · rw [if_pos hext]
        exact ⟨fun h heq => h rfl hext (Option.map_eq_none_iff.mp heq),
          fun h _ _ heq => h (Option.map_eq_none_iff.mpr heq)⟩
      · rw [if_neg hext]
        exact ⟨fun _ => nofun, fun _ _ h => absurd h hext⟩
    rw [if_congr hpal rfl rfl]
    cases hpal : palette256 r m num with
    | none => rfl
    | some pal => exact hloop (tileRound256_eq h256 hpal)

/-- A line of a text background: from left to right every pixel gets the texel of its coordinate. -/
theorem lineText_eq (r : TextRegs) (m : GpuMemory) (num : Fin 4) (currLine : BitVec 16) :
    lineText r m num currLine = some (
      if HasPalette r m num then
        (List.range 256).map fun x =>
          pixelAt r m num ((x + r.hofs.toNat) % r.bgSize.1)
            ((currLine.toNat + r.vofs.toNat) % r.bgSize.2) x
      else []) := by
  have hvofs : (currLine + r.vofs).toNat % r.bgSize.2 =
      (currLine.toNat + r.vofs.toNat) % r.bgSize.2 := by
    rw [BitVec.toNat_add, Nat.mod_mod_of_dvd _ (bgSize_dvd r).2.2.2]
  rw [lineText_calls, pixelsFrom, hvofs, Nat.sub_zero, List.range_eq_range']
  simp only [Nat.add_comm r.hofs.toNat]

end Desmume.Video
