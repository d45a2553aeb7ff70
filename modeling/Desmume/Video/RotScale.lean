import Desmume.Video.ScanlineDefs
import Mathlib.Data.List.Range

/-! The loop of the backgrounds that are rotated and scaled, with its fast path for lines that are
neither. -/

namespace Desmume.Video

/-- The rows of `_sizeTab` that are no text backgrounds and are not made of zeros only. -/
inductive RotType where
  | affine
  | large8bpp
  | affineExt256x16
  | affineExt256x1
  | affineExtDirect
deriving DecidableEq, Repr

/-- `_sizeTab`. -/
def sizeTab : RotType → Fin 4 → BitVec 32 × BitVec 32
  | .affine => ![(128, 128), (256, 256), (512, 512), (1024, 1024)]
  | .large8bpp => ![(512, 1024), (1024, 512), (0, 0), (0, 0)]
  | .affineExt256x16 => ![(128, 128), (256, 256), (512, 512), (1024, 1024)]
  | .affineExt256x1 => ![(128, 128), (256, 256), (512, 256), (512, 512)]
  | .affineExtDirect => ![(128, 128), (256, 256), (512, 256), (512, 512)]

/-- `ROTOCOORD::bits.Integer`. -/
def rotoInteger (val : BitVec 32) : BitVec 32 := (val.extractLsb' 8 20).signExtend 32

/-- A call of the pixel function. -/
structure TexelCall where
  auxX : BitVec 32
  auxY : BitVec 32
  i : ℕ
deriving DecidableEq, Repr

/-- What the loop reads of `BGxPARMS`. -/
structure RotParams where
  BGxX : BitVec 32
  BGxY : BitVec 32
  BGxPA : BitVec 16
  BGxPC : BitVec 16

section Loops

variable (wrap : Bool) (wh ht : BitVec 32)

def wrapCoord (size c : BitVec 32) : BitVec 32 := if wrap then c &&& (size - 1) else c

def inBounds (size c : BitVec 32) : Bool := (0 : BitVec 32).sle c && c.slt size

/-- The loop of the fast path, for so many more pixels. -/
def fastLoop (auxY : BitVec 32) : ℕ → ℕ → BitVec 32 → List TexelCall
  | 0, _, _ => []
  | n + 1, i, auxX => ⟨auxX, auxY, i⟩ :: fastLoop auxY n (i + 1) (wrapCoord wrap wh (auxX + 1))

/-- The loop over all pixels, for so many more of them. -/
def pixelLoop (dx dy : BitVec 32) : ℕ → ℕ → BitVec 32 → BitVec 32 → List TexelCall
  | 0, _, _, _ => []
  | n + 1, i, x, y =>
    let auxX := wrapCoord wrap wh (rotoInteger x)
    let auxY := wrapCoord wrap ht (rotoInteger y)
    (if wrap || (inBounds wh auxX && inBounds ht auxY) then [⟨auxX, auxY, i⟩] else []) ++
      pixelLoop dx dy n (i + 1) (x + dx) (y + dy)

/-- The loop without its fast path. -/
def generalRotScaleOp (param : RotParams) (LG : BitVec 16) : List TexelCall :=
  pixelLoop wrap wh ht (param.BGxPA.signExtend 32) (param.BGxPC.signExtend 32) LG.toNat 0 param.BGxX
    param.BGxY

/-- `rot_scale_op`. -/
def rotScaleOp (param : RotParams) (LG : BitVec 16) : List TexelCall :=
  let dx : BitVec 32 := param.BGxPA.signExtend 32
  let dy : BitVec 32 := param.BGxPC.signExtend 32
  let auxX := wrapCoord wrap wh (rotoInteger param.BGxX)
  let auxY := wrapCoord wrap ht (rotoInteger param.BGxY)
  if (dx = 256 && dy = 0) &&
      (wrap || ((auxX + LG.setWidth 32).slt wh && (0 : BitVec 32).sle auxX && auxY.slt ht &&
        (0 : BitVec 32).sle auxY)) then
    fastLoop wrap wh auxY LG.toNat 0 auxX
  else pixelLoop wrap wh ht dx dy LG.toNat 0 param.BGxX param.BGxY

end Loops

/-! ### Coordinates -/

/-- The sizes that a background really has. -/
def IsSize (size : BitVec 32) : Prop := ∃ k : Fin 11, size.toNat = 2 ^ (k : ℕ)

instance (size : BitVec 32) : Decidable (IsSize size) := inferInstanceAs (Decidable (∃ _, _))

theorem isSize_sizeTab (type : RotType) {size : Fin 4} (h : (sizeTab type size).1 ≠ 0) :
    IsSize (sizeTab type size).1 ∧ IsSize (sizeTab type size).2 := by
  cases type <;> revert h <;> revert size <;> decide

variable {wrap : Bool} {wh ht size c x y dy : BitVec 32} {n i k : ℕ}

theorem toNat_wrapCoord (hsize : size.toNat = 2 ^ k) :
    (wrapCoord true size c).toNat = c.toNat % 2 ^ k := by
  have hpos : 0 < 2 ^ k := Nat.two_pow_pos k
  have hone : (1 : BitVec 32) ≤ size := by
    rw [BitVec.le_def, hsize]
    exact hpos
  have hmask : (size - 1).toNat = 2 ^ k - 1 := by
    rw [BitVec.toNat_sub_of_le hone, hsize]
    rfl
  rw [wrapCoord, if_pos rfl, BitVec.toNat_and, hmask, Nat.and_two_pow_sub_one_eq_mod]

theorem inBounds_iff : inBounds size c = true ↔ 0 ≤ c.toInt ∧ c.toInt < size.toInt := by
  rw [inBounds, Bool.and_eq_true, BitVec.sle_iff_toInt_le, BitVec.slt_iff_toInt_lt]
  rfl

theorem inBounds_wrapCoord (h : IsSize size) : inBounds size (wrapCoord true size c) = true := by
  obtain ⟨k, hsize⟩ := h
  have hle : 2 ^ (k : ℕ) ≤ 2 ^ 10 := Nat.pow_le_pow_right (by decide) (Nat.le_of_lt_succ k.isLt)
  have hlt : c.toNat % 2 ^ (k : ℕ) < 2 ^ (k : ℕ) := Nat.mod_lt _ (Nat.two_pow_pos k)
  have hc := toNat_wrapCoord (c := c) hsize
  rw [inBounds_iff, BitVec.toInt_eq_toNat_of_lt (by omega), BitVec.toInt_eq_toNat_of_lt (by omega)]
  omega

theorem toInt_rotoInteger (x : BitVec 32) :
    (rotoInteger x).toInt =
      if 2 * (x.toNat / 256 % 2 ^ 20) < 2 ^ 20 then ((x.toNat / 256 % 2 ^ 20 : ℕ) : ℤ)
      else ((x.toNat / 256 % 2 ^ 20 : ℕ) : ℤ) - 2 ^ 20 := by
  have hfield : (x.extractLsb' 8 20).toNat = x.toNat / 256 % 2 ^ 20 := by
    rw [BitVec.extractLsb'_toNat, Nat.shiftRight_eq_div_pow]
  rw [rotoInteger, BitVec.toInt_signExtend_of_le (by decide), BitVec.toInt_eq_toNat_cond, hfield]
  rfl

theorem toNat_rotoInteger (x : BitVec 32) :
    (rotoInteger x).toNat % 2 ^ 20 = x.toNat / 256 % 2 ^ 20 := by
  have hint := toInt_rotoInteger x
  rw [BitVec.toInt_eq_toNat_cond] at hint
  have hlt := (rotoInteger x).isLt
  split_ifs at hint <;> omega

/-- A pixel further on the integer part is one more, as far as a size goes. -/
theorem wrapCoord_add (h : IsSize size) (x : BitVec 32) :
    wrapCoord true size (wrapCoord true size (rotoInteger x) + 1) =
      wrapCoord true size (rotoInteger (x + 256)) := by
  obtain ⟨k, hsize⟩ := h
  have hdvd : 2 ^ (k : ℕ) ∣ 2 ^ 20 := Nat.pow_dvd_pow 2 (by omega)
  have hdvd' : 2 ^ (k : ℕ) ∣ 2 ^ 32 := Nat.pow_dvd_pow 2 (by omega)
  have hnext : (x + 256).toNat / 256 % 2 ^ 20 = (x.toNat / 256 % 2 ^ 20 + 1) % 2 ^ 20 := by
    have hsum : (x + 256).toNat = (x.toNat + 256) % 2 ^ 32 := BitVec.toNat_add x 256
    omega
  apply BitVec.eq_of_toNat_eq
  rw [toNat_wrapCoord hsize, toNat_wrapCoord hsize, BitVec.toNat_add, toNat_wrapCoord hsize,
    Nat.mod_mod_of_dvd _ hdvd', ← Nat.mod_mod_of_dvd (rotoInteger (x + 256)).toNat hdvd,
    toNat_rotoInteger, hnext, ← toNat_rotoInteger, Nat.mod_mod_of_dvd _ hdvd]
  have hone : (1 : BitVec 32).toNat = 1 := rfl
  rw [hone, Nat.mod_add_mod, Nat.add_mod, Nat.add_mod ((rotoInteger x).toNat % 2 ^ 20),
    Nat.mod_mod_of_dvd _ hdvd]

theorem toInt_add_one (hlow : 0 ≤ c.toInt) (hhigh : c.toInt + 1 < 2 ^ 19) :
    (c + 1).toInt = c.toInt + 1 := by
  have hadd : (c + 1).toInt = (c.toInt + 1).bmod (2 ^ 32) := BitVec.toInt_add ..
  rw [hadd, Int.bmod_eq_of_le (by omega) (by omega)]

theorem rotoInteger_add (hlow : 0 ≤ (rotoInteger x).toInt) (hhigh : (rotoInteger x).toInt + 1 < 2 ^ 19) :
    rotoInteger (x + 256) = rotoInteger x + 1 := by
  have hsum : (x + 256).toNat = (x.toNat + 256) % 2 ^ 32 := BitVec.toNat_add x 256
  have hx := toInt_rotoInteger x
  have hnext := toInt_rotoInteger (x + 256)
  apply BitVec.eq_of_toInt_eq
  rw [toInt_add_one hlow hhigh]
  split_ifs at hx hnext <;> omega

/-! ### The loops -/

theorem fastLoop_of_wrap (h : IsSize wh) :
    fastLoop true wh (wrapCoord true ht (rotoInteger y)) n i (wrapCoord true wh (rotoInteger x)) =
      pixelLoop true wh ht 256 0 n i x y := by
  induction n generalizing i x with
  | zero => rfl
  | succ n ih =>
    have hrow : y + 0 = y := BitVec.add_zero y
    rw [fastLoop, pixelLoop, wrapCoord_add h, ih, hrow, Bool.true_or, if_pos rfl]
    rfl

theorem fastLoop_of_inside (hlow : 0 ≤ (rotoInteger x).toInt)
    (hhigh : (rotoInteger x).toInt + n < wh.toInt) (hwh : wh.toInt ≤ 2 ^ 10)
    (hy : inBounds ht (rotoInteger y) = true) :
    fastLoop false wh (rotoInteger y) n i (rotoInteger x) = pixelLoop false wh ht 256 0 n i x y := by
  induction n generalizing i x with
  | zero => rfl
  | succ n ih =>
    have hx : inBounds wh (rotoInteger x) = true := inBounds_iff.mpr ⟨hlow, by omega⟩
    have hnext := rotoInteger_add hlow (by omega)
    have hone := toInt_add_one hlow (by omega)
    have hrow : y + 0 = y := BitVec.add_zero y
    have hrest := @ih (x + 256) (i + 1) (by rw [hnext, hone]; omega) (by rw [hnext, hone]; omega)
    rw [hnext] at hrest
    rw [pixelLoop, hrow, ← hrest]
    change _ = (if (false || (inBounds wh (rotoInteger x) && inBounds ht (rotoInteger y))) = true then
      [TexelCall.mk (rotoInteger x) (rotoInteger y) i] else []) ++ _
    rw [hx, hy]
    rfl

theorem mem_pixelLoop {t : TexelCall} {dx : BitVec 32} (hsize : wrap = true → IsSize wh ∧ IsSize ht)
    (hmem : t ∈ pixelLoop wrap wh ht dx dy n i x y) :
    inBounds wh t.auxX = true ∧ inBounds ht t.auxY = true := by
  induction n generalizing i x y with
  | zero => cases hmem
  | succ n ih =>
    rcases List.mem_append.mp hmem with hfirst | hrest
    · split_ifs at hfirst with hdrawn
      · obtain rfl := List.mem_singleton.mp hfirst
        cases wrap with
        | true => exact ⟨inBounds_wrapCoord (hsize rfl).1, inBounds_wrapCoord (hsize rfl).2⟩
        | false => exact Bool.and_eq_true_iff.mp hdrawn
      · cases hfirst
    · exact ih hrest

/-- The fast path is the loop itself, for the sizes that a background really has. -/
theorem rotScaleOp_eq (hsize : wrap = true → IsSize wh) (hwh : wh.toInt ≤ 2 ^ 10) (param : RotParams)
    (LG : BitVec 16) : rotScaleOp wrap wh ht param LG = generalRotScaleOp wrap wh ht param LG := by
  rw [rotScaleOp, generalRotScaleOp]
  split_ifs with hfast
  · simp only [Bool.and_eq_true, decide_eq_true_eq] at hfast
    obtain ⟨⟨hdx, hdy⟩, hinside⟩ := hfast
    rw [hdx, hdy]
    cases wrap with
    | true => exact fastLoop_of_wrap (hsize rfl)
    | false =>
      simp only [Bool.false_or, Bool.and_eq_true, BitVec.sle_iff_toInt_le,
        BitVec.slt_iff_toInt_lt] at hinside
      obtain ⟨⟨⟨hhigh, hlow⟩, hyhigh⟩, hylow⟩ := hinside
      replace hlow : 0 ≤ (rotoInteger param.BGxX).toInt := hlow
      replace hhigh : (rotoInteger param.BGxX + LG.setWidth 32).toInt < wh.toInt := hhigh
      have hlong : (LG.setWidth 32).toInt = LG.toNat := by
        rw [BitVec.toInt_setWidth]
        exact Int.bmod_eq_of_le (by omega) (by omega)
      have hupper : (rotoInteger param.BGxX).toInt < 2 ^ 19 := by
        rw [toInt_rotoInteger]
        split_ifs <;> omega
      have hsum : (rotoInteger param.BGxX + LG.setWidth 32).toInt =
          (rotoInteger param.BGxX).toInt + LG.toNat := by
        rw [BitVec.toInt_add, hlong]
        exact Int.bmod_eq_of_le (by omega) (by omega)
      exact fastLoop_of_inside hlow (hsum ▸ hhigh) hwh (inBounds_iff.mpr ⟨hylow, hyhigh⟩)
  · rfl

/-! ### Both together -/

/-- The fast path draws what the loop draws, and all texels are inside the background. -/
def DrawsTexels (wrap : Bool) (size : BitVec 32 × BitVec 32) (param : RotParams) (LG : BitVec 16) :
    Prop :=
  rotScaleOp wrap size.1 size.2 param LG = generalRotScaleOp wrap size.1 size.2 param LG ∧
    ∀ t ∈ rotScaleOp wrap size.1 size.2 param LG,
      inBounds size.1 t.auxX = true ∧ inBounds size.2 t.auxY = true

/-- A wrapping background of no size draws its first pixel all the same. -/
theorem rotScaleOp_ne_nil (hLG : LG ≠ 0) (param : RotParams) : rotScaleOp true wh ht param LG ≠ [] := by
  obtain ⟨n, hn⟩ : ∃ n, LG.toNat = n + 1 :=
    Nat.exists_eq_succ_of_ne_zero fun h => hLG (BitVec.eq_of_toNat_eq h)
  rw [rotScaleOp, hn]
  split_ifs
  · exact List.cons_ne_nil _ _
  · rw [pixelLoop, Bool.true_or, if_pos rfl]
    exact List.cons_ne_nil _ _

theorem rotScaleOp_zero (param : RotParams) : rotScaleOp wrap wh ht param 0 = [] := by
  rw [rotScaleOp]
  split_ifs <;> rfl

theorem toInt_sizeTab_le (type : RotType) (size : Fin 4) :
    (sizeTab type size).1.toInt ≤ 2 ^ 10 := by
  cases type <;> revert size <;> decide

theorem sizeTab_eq_zero (type : RotType) (size : Fin 4) :
    sizeTab type size = (0, 0) ↔ (sizeTab type size).1 = 0 := by
  cases type <;> revert size <;> decide

theorem drawsTexels_iff (type : RotType) (size : Fin 4) (wrap : Bool) (param : RotParams)
    (LG : BitVec 16) :
    DrawsTexels wrap (sizeTab type size) param LG ↔
      (wrap = true → LG ≠ 0 → sizeTab type size ≠ (0, 0)) := by
  constructor
  · rintro ⟨-, hinside⟩ rfl hLG hzero
    rw [hzero] at hinside
    obtain ⟨t, ht⟩ := List.exists_mem_of_ne_nil _ (rotScaleOp_ne_nil hLG param)
    obtain ⟨hlow, hhigh⟩ := inBounds_iff.mp (hinside t ht).1
    exact absurd (hlow.trans_lt hhigh) (lt_irrefl 0)
  · intro hsize
    by_cases hLG : LG = 0
    · rw [DrawsTexels, hLG, rotScaleOp_zero]
      exact ⟨rfl, fun t ht => nomatch ht⟩
    · have hreal : wrap = true → IsSize (sizeTab type size).1 ∧ IsSize (sizeTab type size).2 :=
        fun hwrap => isSize_sizeTab type (mt (sizeTab_eq_zero type size).mpr (hsize hwrap hLG))
      have heq := @rotScaleOp_eq _ _ (sizeTab type size).2 (fun hwrap => (hreal hwrap).1)
        (toInt_sizeTab_le type size) param LG
      refine ⟨heq, fun t ht => mem_pixelLoop hreal (heq ▸ ht)⟩

/-- A large bitmap of a size that the table leaves open draws the texel (0, 0), which it has not. -/
theorem large8bpp_without_size :
    ¬ DrawsTexels true (sizeTab .large8bpp 2) ⟨0, 0, 256, 0⟩ 256 := by
  rintro ⟨-, hinside⟩
  have hfirst : (⟨0, 0, 0⟩ : TexelCall) ∈ rotScaleOp true 0 0 ⟨0, 0, 256, 0⟩ 256 := by decide +kernel
  exact absurd (hinside _ hfirst).1 (by decide)

end Desmume.Video
