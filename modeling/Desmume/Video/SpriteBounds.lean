import Desmume.Video.SpriteDefs
import Desmume.Library.PartialRun
import Mathlib.Tactic.Ring

/-! What the two loops of the sprite renderer do to a line, and that no sprite leaves the line buffers,
its own texels or OAM. -/

namespace Desmume.Video
open Library

/-! ### Spans of columns -/

/-- The columns from `sprX` on, each changed by a function of its place in the span. -/
def paintSpan (f : ℕ → SpriteCell → SpriteCell) (sprX : ℤ) (n : ℕ) (b : SpriteBuffers) : SpriteBuffers :=
  fun c => if sprX ≤ c.val ∧ (c.val : ℤ) < sprX + n then f ((c.val : ℤ) - sprX).toNat (b c) else b c

section Loops

variable {f : ℕ → SpriteCell → SpriteCell} {sprX x y xdir realX realY dx dy : ℤ} {n : ℕ}
  {size : SpriteSize} {b : SpriteBuffers}

theorem paintSpan_zero : paintSpan f sprX 0 b = b := by
  funext c
  rw [paintSpan, if_neg (by omega)]

theorem paintSpan_off (h : sprX + n ≤ 0) : paintSpan f sprX n b = b := by
  funext c
  rw [paintSpan, if_neg (by omega)]

theorem paintSpan_id : paintSpan (fun _ c => c) sprX n b = b := by
  funext c
  rw [paintSpan, ite_self]

/-- The part of a span that is on the line is all of it. -/
theorem paintSpan_congr {g : ℕ → SpriteCell → SpriteCell} {sprX' : ℤ} {n' : ℕ}
    (h : ∀ c : Fin 256, (sprX ≤ c.val ∧ (c.val : ℤ) < sprX + n ↔ sprX' ≤ c.val ∧ (c.val : ℤ) < sprX' + n') ∧
      (sprX ≤ c.val ∧ (c.val : ℤ) < sprX + n →
        f ((c.val : ℤ) - sprX).toNat = g ((c.val : ℤ) - sprX').toNat)) :
    paintSpan f sprX n b = paintSpan g sprX' n' b := by
  funext c
  obtain ⟨hiff, hval⟩ := h c
  rw [paintSpan, paintSpan, if_congr hiff rfl rfl]
  split_ifs with hin
  · rw [hval (hiff.mpr hin)]
  · rfl

/-- The first column of a span, and the others. -/
theorem paintSpan_succ (h : 0 ≤ sprX ∧ sprX < 256) :
    ((b.change sprX (f 0)).bind fun b => some (paintSpan (fun j => f (j + 1)) (sprX + 1) n b)) =
      some (paintSpan f sprX (n + 1) b) := by
  rw [SpriteBuffers.change, dif_pos h, Option.bind_some]
  refine congrArg some (funext fun c => ?_)
  rw [paintSpan, paintSpan]
  by_cases hfirst : (c.val : ℤ) = sprX
  · have hc : c = ⟨sprX.toNat, by omega⟩ := Fin.ext (by change c.val = sprX.toNat; omega)
    rw [if_neg (by omega), if_pos (by omega), hc, Function.update_self]
    congr 1
    change (0 : ℕ) = ((sprX.toNat : ℤ) - sprX).toNat
    omega
  · have hc : c ≠ ⟨sprX.toNat, by omega⟩ := fun heq => hfirst (by rw [heq]; change (sprX.toNat : ℤ) = _; omega)
    rw [Function.update_of_ne hc]
    split_ifs with hrest hall hall
    · congr 1
      omega
    · exact absurd hrest (by omega)
    · exact absurd hall (by omega)
    · rfl

theorem texel_of_inside (h : 0 ≤ x ∧ x < size.x ∧ 0 ≤ y ∧ y < size.y) :
    size.texel x y = some (x.toNat, y.toNat) := if_pos h

/-- A row of texels of a sprite goes to a span of columns. -/
theorem plainLoop_eq {pixel : ℕ → SpriteCell → SpriteCell} (hy : 0 ≤ y ∧ y < size.y)
    (hx : ∀ j < n, 0 ≤ x + xdir * j ∧ x + xdir * j < size.x)
    (hspan : 0 ≤ sprX ∧ sprX + n ≤ 256) :
    plainLoop size y xdir pixel n sprX x b =
      some (paintSpan (fun j => pixel (x + xdir * j).toNat) sprX n b) := by
  induction n generalizing sprX x b with
  | zero => rw [paintSpan_zero, plainLoop]
  | succ n ih =>
    have hfirst := hx 0 (Nat.succ_pos n)
    rw [Int.natCast_zero, mul_zero, add_zero] at hfirst
    have hstep (j : ℕ) : x + xdir + xdir * j = x + xdir * ((j + 1 : ℕ) : ℤ) := by push_cast; ring
    have hrest (b : SpriteBuffers) := @ih (sprX + 1) (x + xdir) b
      (fun j hj => by rw [hstep]; exact hx (j + 1) (Nat.succ_lt_succ hj)) (by omega)
    have hpaint := @paintSpan_succ (fun j => pixel (x + xdir * j).toNat) sprX n b (by omega)
    rw [plainLoop, texel_of_inside ⟨hfirst.1, hfirst.2, hy⟩]
    simp only [hrest, hstep, Option.bind_eq_bind, Option.bind_some]
    rw [← hpaint, Int.natCast_zero, mul_zero, add_zero]

/-- What the rotated path does with a place of the span. -/
def rotatedPlace (size : SpriteSize) (pixel : ℕ → ℕ → SpriteCell → SpriteCell) (dx dy realX realY : ℤ)
    (j : ℕ) (c : SpriteCell) : SpriteCell :=
  let auxX := (realX + dx * j) >>> (8 : ℕ)
  let auxY := (realY + dy * j) >>> (8 : ℕ)
  if auxX ≥ 0 ∧ auxY ≥ 0 ∧ auxX < size.x ∧ auxY < size.y then pixel auxX.toNat auxY.toNat c else c

theorem rotatedPlace_shift {pixel : ℕ → ℕ → SpriteCell → SpriteCell} {c : ℤ} (hc : 0 ≤ c)
    (hx : sprX < 0) :
    rotatedPlace size pixel dx dy (realX - sprX * dx) (realY - sprX * dy) c.toNat =
      rotatedPlace size pixel dx dy realX realY (c - sprX).toNat := by
  have hreal (r d : ℤ) : r - sprX * d + d * (c.toNat : ℤ) = r + d * ((c - sprX).toNat : ℤ) := by
    rw [Int.toNat_of_nonneg hc, Int.toNat_of_nonneg (by omega)]
    ring
  funext cell
  rw [rotatedPlace, rotatedPlace, hreal, hreal]

theorem rotatedLoop_eq {pixel : ℕ → ℕ → SpriteCell → SpriteCell} (hspan : 0 ≤ sprX ∧ sprX + n ≤ 256) :
    rotatedLoop size dx dy pixel n sprX realX realY b =
      some (paintSpan (rotatedPlace size pixel dx dy realX realY) sprX n b) := by
  induction n generalizing sprX realX realY b with
  | zero => rw [paintSpan_zero, rotatedLoop]
  | succ n ih =>
    have hrest (b : SpriteBuffers) := @ih (sprX + 1) (realX + dx) (realY + dy) b (by omega)
    have hstep : (fun j => rotatedPlace size pixel dx dy realX realY (j + 1)) =
        rotatedPlace size pixel dx dy (realX + dx) (realY + dy) := by
      funext j c
      have hreal (r d : ℤ) : r + d * ((j + 1 : ℕ) : ℤ) = r + d + d * j := by push_cast; ring
      rw [rotatedPlace, rotatedPlace, hreal, hreal]
    have hpaint := @paintSpan_succ (rotatedPlace size pixel dx dy realX realY) sprX n b (by omega)
    rw [hstep] at hpaint
    have hzero (r d : ℤ) : r + d * ((0 : ℕ) : ℤ) = r := by rw [Int.natCast_zero, mul_zero, add_zero]
    have hplace : rotatedPlace size pixel dx dy realX realY 0 = fun c =>
        if realX >>> (8 : ℕ) ≥ 0 ∧ realY >>> (8 : ℕ) ≥ 0 ∧ realX >>> (8 : ℕ) < size.x ∧
            realY >>> (8 : ℕ) < size.y then
          pixel (realX >>> (8 : ℕ)).toNat (realY >>> (8 : ℕ)).toNat c else c := by
      funext c
      rw [rotatedPlace, hzero, hzero]
    rw [rotatedLoop, ← hpaint, hplace]
    by_cases hinside : realX >>> (8 : ℕ) ≥ 0 ∧ realY >>> (8 : ℕ) ≥ 0 ∧
        realX >>> (8 : ℕ) < size.x ∧ realY >>> (8 : ℕ) < size.y
    · simp only [hinside, and_self, if_true, Option.bind_eq_bind, hrest]
      rw [texel_of_inside ⟨hinside.1, hinside.2.2.1, hinside.2.1, hinside.2.2.2⟩, Option.bind_some]
    · simp only [hinside, if_false, Option.bind_eq_bind, hrest, Option.bind_some]
      rw [SpriteBuffers.change, dif_pos (by omega), Option.bind_some, Function.update_eq_self]

end Loops

/-! ### Where a sprite lies -/

namespace OAMAttributes

variable (e : OAMAttributes)

theorem sprSize_spec : 8 ≤ e.sprSize.x ∧ e.sprSize.x ≤ 64 ∧ 8 ≤ e.sprSize.y ∧ e.sprSize.y ≤ 64 ∧
    e.sprSize.x % 2 = 0 ∧ e.sprSize.y % 2 = 0 := by
  have htab : ∀ size shape : Fin 4, 8 ≤ (sprSizeTab size shape).x ∧ (sprSizeTab size shape).x ≤ 64 ∧
      8 ≤ (sprSizeTab size shape).y ∧ (sprSizeTab size shape).y ≤ 64 ∧
      (sprSizeTab size shape).x % 2 = 0 ∧ (sprSizeTab size shape).y % 2 = 0 := by decide
  exact htab e.Size e.Shape

theorem X_range : -256 ≤ e.X.toInt ∧ e.X.toInt < 256 := ⟨BitVec.le_toInt e.X, BitVec.toInt_lt⟩

theorem line_nonneg (l : ℕ) : 0 ≤ e.line l := Int.emod_nonneg _ (by decide)

/-- The row and the columns of the texels of a plain sprite, flips included. -/
def texelRow (l : ℕ) : ℕ :=
  (if e.VFlip then (e.sprSize.y : ℤ) - e.line l - 1 else e.line l).toNat

def texelColumn (j : ℕ) : ℕ :=
  if e.HFlip then e.sprSize.x - 1 - j else j

end OAMAttributes

/-- What a plain sprite that is to be drawn covers: a row of its texels, on the part of its place that
lies on the line. -/
structure Covers (e : OAMAttributes) (l : ℕ) (v : SpriteVars) : Prop where
  visible : e.line l < e.sprSize.y
  row : 0 ≤ v.y ∧ v.y < e.sprSize.y
  row_eq : v.y.toNat = e.texelRow l
  span : 0 ≤ v.sprX ∧ 0 ≤ v.lg ∧ v.sprX + v.lg ≤ 256
  texels : ∀ j : ℕ, j < v.lg → 0 ≤ v.x + v.xdir * j ∧ v.x + v.xdir * j < e.sprSize.x
  place : ∀ c : ℤ, 0 ≤ c → c < 256 →
    (v.sprX ≤ c ∧ c < v.sprX + v.lg ↔ e.X.toInt ≤ c ∧ c < e.X.toInt + e.sprSize.x)
  columns : ∀ c : ℤ, v.sprX ≤ c → c < v.sprX + v.lg →
    (v.x + v.xdir * (c - v.sprX)).toNat = e.texelColumn (c - e.X.toInt).toNat

theorem covers_of_computeSpriteVars {e : OAMAttributes} {l : ℕ} {v : SpriteVars}
    (h : computeSpriteVars e l = some v) : Covers e l v := by
  have hsize := e.sprSize_spec
  have hX := e.X_range
  have hline := e.line_nonneg l
  rw [computeSpriteVars] at h
  by_cases hlow : e.line l ≥ e.sprSize.y
  · simp [hlow] at h
  by_cases hout : e.X.toInt = 256 ∨ e.X.toInt + e.sprSize.x ≤ 0
  · simp [hlow, hout] at h
  have hrow : 0 ≤ (if e.VFlip then (e.sprSize.y : ℤ) - e.line l - 1 else e.line l) ∧
      (if e.VFlip then (e.sprSize.y : ℤ) - e.line l - 1 else e.line l) < e.sprSize.y := by
    split_ifs <;> omega
  simp only [hlow, hout, if_false] at h
  -- the sprite may stick out on the left, and its columns may go backwards
  by_cases hleft : e.X.toInt < 0 <;> by_cases hflip : e.HFlip = true
  all_goals
    simp only [hleft, hflip, if_true, if_false] at h
    cases h
    refine ⟨by omega, hrow, rfl, ?_, fun j hj => ?_, fun c hc₀ hc => ?_, fun c hfirst hlast => ?_⟩
    all_goals
      simp only [OAMAttributes.texelColumn, hflip, if_true, if_false, Bool.false_eq_true] at *
      split_ifs at * <;> omega

/-- A sprite that is not to be drawn has no row on the line, or no column. -/
theorem hidden_of_computeSpriteVars {e : OAMAttributes} {l : ℕ} (h : computeSpriteVars e l = none) :
    e.line l ≥ e.sprSize.y ∨ e.X.toInt + e.sprSize.x ≤ 0 := by
  have hX := e.X_range
  by_contra hvisible
  have hlow : ¬ e.line l ≥ e.sprSize.y := fun hlow => hvisible (.inl hlow)
  have hout : ¬ (e.X.toInt = 256 ∨ e.X.toInt + e.sprSize.x ≤ 0) := by omega
  rw [computeSpriteVars] at h
  simp only [hlow, hout, if_false] at h
  split_ifs at h

section Entries

variable {r : SpriteRegs} {m : GpuMemory} {oam : Oam} {l : ℕ} {e : OAMAttributes} {b : SpriteBuffers}

/-- A plain sprite changes the columns of its place, by the row of its texels on the line. -/
theorem plainSprite_eq (i : Fin 128) :
    plainSprite r m l i e b = some (
      if e.line l ≥ e.sprSize.y then b
      else match plainPixel r m i e (e.texelRow l) with
      | none => b
      | some pixel => paintSpan (fun j => pixel (e.texelColumn j)) e.X.toInt e.sprSize.x b) := by
  rw [plainSprite]
  cases h : computeSpriteVars e l with
  | none =>
    rcases hidden_of_computeSpriteVars h with hlow | hleft
    · simp only [hlow, if_true]
    · simp only [paintSpan_off hleft]
      split_ifs <;> [rfl; (split <;> rfl)]
  | some v =>
    have hcov := covers_of_computeSpriteVars h
    obtain ⟨hsprX, hlg, hright⟩ := hcov.span
    have hvisible := hcov.visible
    simp only [hcov.row_eq, if_neg (show ¬ e.line l ≥ e.sprSize.y by omega)]
    cases plainPixel r m i e (e.texelRow l) with
    | none => rfl
    | some pixel =>
      have hloop := @plainLoop_eq _ _ _ _ v.lg.toNat _ b pixel hcov.row
        (fun j hj => hcov.texels j (by omega)) ⟨hsprX, by omega⟩
      simp only [pixelCount, if_pos hlg, Option.bind_eq_bind, Option.bind_some, hloop]
      refine congrArg some (paintSpan_congr fun c => ?_)
      have hplace := hcov.place c.val (by omega) (by omega)
      refine ⟨by rw [Int.toNat_of_nonneg hlg, hplace], fun hin => ?_⟩
      rw [Int.toNat_of_nonneg hlg] at hin
      rw [Int.toNat_of_nonneg (by omega), hcov.columns c.val hin.1 hin.2]

/-- The four entries with the matrix of a sprite. -/
theorem blockparameter_add_lt (e : OAMAttributes) {k : ℕ} (hk : k < 4) : e.blockparameter + k < 128 := by
  have hindex := e.RotScalIndex.isLt
  rw [OAMAttributes.blockparameter]
  cases e.HFlip <;> cases e.VFlip <;> simp only [Bool.toNat_true, Bool.toNat_false] <;> omega

theorem entry_blockparameter {k : ℕ} (hk : k < 4) :
    oam.entry (e.blockparameter + k) = some (oam ⟨e.blockparameter + k, blockparameter_add_lt e hk⟩) :=
  dif_pos _

/-- The matrix of a sprite: `dx`, `dmx`, `dy` and `dmy`. -/
def Oam.matrix (oam : Oam) (e : OAMAttributes) (k : Fin 4) : ℤ :=
  (oam ⟨e.blockparameter + k, blockparameter_add_lt e k.isLt⟩).attr3.toInt

/-- The size of the area of a rotated sprite. -/
def OAMAttributes.fieldX (e : OAMAttributes) : ℕ := if e.RotScale = 3 then e.sprSize.x * 2 else e.sprSize.x

def OAMAttributes.fieldY (e : OAMAttributes) : ℕ := if e.RotScale = 3 then e.sprSize.y * 2 else e.sprSize.y

/-- The fixed point coordinate at the left end of the area: `size` with `d` and `dm` are those of an
axis. -/
def OAMAttributes.realStart (e : OAMAttributes) (l size : ℕ) (d dm : ℤ) : ℤ :=
  ((size : ℤ) <<< (7 : ℕ)) - ((e.fieldX : ℤ) >>> (1 : ℕ)) * d -
    ((e.fieldY : ℤ) >>> (1 : ℕ)) * dm + e.line l * dm

/-- A rotated sprite changes the columns of its area where the matrix leads to one of its texels. -/
theorem rotatedSprite_eq :
    rotatedSprite r m oam l e b = some (
      if e.line l ≥ e.fieldY then b
      else match rotatedPixel r m e with
      | none => b
      | some pixel =>
        paintSpan (rotatedPlace e.sprSize pixel (oam.matrix e 0) (oam.matrix e 2)
          (e.realStart l e.sprSize.x (oam.matrix e 0) (oam.matrix e 1))
          (e.realStart l e.sprSize.y (oam.matrix e 2) (oam.matrix e 3))) e.X.toInt e.fieldX b) := by
  have hX := e.X_range
  have hfieldX : (if e.RotScale = 3 then (e.sprSize.x : ℤ) * 2 else e.sprSize.x) = (e.fieldX : ℤ) := by
    rw [OAMAttributes.fieldX]
    split_ifs <;> push_cast <;> rfl
  have hfieldY : (if e.RotScale = 3 then (e.sprSize.y : ℤ) * 2 else e.sprSize.y) = (e.fieldY : ℤ) := by
    rw [OAMAttributes.fieldY]
    split_ifs <;> push_cast <;> rfl
  have hwidth : e.fieldX ≤ 128 := by
    have hsize := e.sprSize_spec
    rw [OAMAttributes.fieldX]
    split_ifs <;> omega
  have hmatrix (k : Fin 4) : oam.entry (e.blockparameter + k) =
      some (oam ⟨e.blockparameter + k, blockparameter_add_lt e k.isLt⟩) := dif_pos _
  rw [rotatedSprite]
  simp only [hfieldX, hfieldY]
  by_cases hlow : e.line l ≥ e.fieldY
  · rw [if_pos hlow, if_pos hlow]
  by_cases hout : e.X.toInt = 256 ∨ e.X.toInt + e.fieldX ≤ 0
  · rw [if_neg hlow, if_neg hlow, if_pos hout]
    cases rotatedPixel r m e with
    | none => rfl
    | some pixel => exact congrArg some (paintSpan_off (by omega)).symm
  have h₀ : oam.entry e.blockparameter = _ := hmatrix 0
  have h₁ : oam.entry (e.blockparameter + 1) = _ := hmatrix 1
  have h₂ : oam.entry (e.blockparameter + 2) = _ := hmatrix 2
  have h₃ : oam.entry (e.blockparameter + 3) = _ := hmatrix 3
  rw [if_neg hlow, if_neg hlow, if_neg hout, h₀, h₁, h₂, h₃]
  simp only [Option.bind_eq_bind, Option.bind_some]
  cases rotatedPixel r m e with
  | none => rfl
  | some pixel =>
    by_cases hleft : e.X.toInt < 0
    · simp only [if_pos hleft]
      rw [pixelCount, if_pos (by omega), Option.bind_some, rotatedLoop_eq (by omega)]
      refine congrArg some (paintSpan_congr fun c => ⟨by omega, fun _ => ?_⟩)
      rw [Int.sub_zero]
      exact rotatedPlace_shift (by omega) (by omega)
    by_cases hright : e.X.toInt + e.fieldX > 256
    · simp only [if_neg hleft, if_pos hright]
      rw [pixelCount, if_pos (by omega), Option.bind_some, rotatedLoop_eq (by omega)]
      exact congrArg some (paintSpan_congr fun c => ⟨by omega, fun _ => rfl⟩)
    · simp only [if_neg hleft, if_neg hright]
      rw [pixelCount, if_pos (by omega), Option.bind_some, rotatedLoop_eq (by omega)]
      exact congrArg some (paintSpan_congr fun c => ⟨by omega, fun _ => rfl⟩)

end Entries

/-- A line of sprites writes inside of the line buffers, takes texels from inside of the sprites and
matrices from inside of OAM. -/
theorem spriteRender_isSome (r : SpriteRegs) (m : GpuMemory) (oam : Oam) (l : ℕ) (b : SpriteBuffers) :
    (spriteRender r m oam l b).isSome := by
  refine Option.isSome_iff_exists.mpr (runM_isSome (P := fun _ _ => True) (fun b i _ => ?_) ?_)
  · rw [spriteEntry]
    split_ifs
    · rfl
    · rw [rotatedSprite_eq]
      rfl
    · rw [plainSprite_eq]
      rfl
  · exact @atEachM_of_invariant _ _ (fun _ => True) _ _ (fun _ _ _ => trivial)
      (fun _ _ _ _ _ => trivial) _ trivial _

end Desmume.Video
