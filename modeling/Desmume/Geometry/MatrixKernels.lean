import Desmume.Geometry.VertexDefs
import Desmume.Library.Run
import Mathlib.Data.Fintype.Basic
import Mathlib.Tactic.FinCases

/-! The matrix products: those for translations, scales, single elements and incomplete matrices
agree with the product of two full ones, to the last bit. -/

namespace Desmume.Geometry

def fx32Shiftup (a : BitVec 32) : BitVec 64 := a.signExtend 64 <<< 12

/-- `MatrixIdentity`. -/
def matrixIdentity : Matrix44 := ![1 <<< 12, 0, 0, 0, 0, 1 <<< 12, 0, 0, 0, 0, 1 <<< 12, 0, 0, 0, 0,
  1 <<< 12]

/-- `MatrixMultiply`, an element of it for each of the sixteen lines of the source. -/
def matrixMultiply (matrix rightMatrix : Matrix44) : Matrix44 := fun i =>
  let row : Fin 4 := ⟨i % 4, by omega⟩
  let col : Fin 4 := ⟨i / 4, by omega⟩
  fx32Shiftdown (fx32Mul (matrix ⟨row, by omega⟩) (rightMatrix ⟨4 * col, by omega⟩) +
    fx32Mul (matrix ⟨row + 4, by omega⟩) (rightMatrix ⟨4 * col + 1, by omega⟩) +
    fx32Mul (matrix ⟨row + 8, by omega⟩) (rightMatrix ⟨4 * col + 2, by omega⟩) +
    fx32Mul (matrix ⟨row + 12, by omega⟩) (rightMatrix ⟨4 * col + 3, by omega⟩))

/-- `MatrixGetMultipliedIndex`. -/
def matrixGetMultipliedIndex (index : Fin 16) (matrix rightMatrix : Matrix44) : BitVec 32 :=
  let iMod : Fin 4 := ⟨index % 4, by omega⟩
  let iDiv : Fin 13 := ⟨index.val >>> 2 <<< 2, by
    rw [Nat.shiftLeft_eq, Nat.shiftRight_eq_div_pow]
    omega⟩
  let temp := fx32Mul (matrix ⟨iMod, by omega⟩) (rightMatrix ⟨iDiv, by omega⟩) +
    fx32Mul (matrix ⟨iMod + 4, by omega⟩) (rightMatrix ⟨iDiv + 1, by omega⟩) +
    (fx32Mul (matrix ⟨iMod + 8, by omega⟩) (rightMatrix ⟨iDiv + 2, by omega⟩) +
      fx32Mul (matrix ⟨iMod + 12, by omega⟩) (rightMatrix ⟨iDiv + 3, by omega⟩))
  (temp.sshiftRight 12).setWidth 32

/-- `MatrixScale`. -/
def matrixScale (matrix : Matrix44) (ptr : Fin 3 → BitVec 32) : Matrix44 := fun i =>
  if h : i.val < 12 then fx32Shiftdown (fx32Mul (matrix i) (ptr ⟨i.val >>> 2, by
    rw [Nat.shiftRight_eq_div_pow]
    omega⟩))
  else matrix i

/-- `MatrixTranslate`; the elements it reads from the other columns are not written. -/
def matrixTranslate (matrix : Matrix44) (ptr : Fin 3 → BitVec 32) : Matrix44 := fun i =>
  if h : 12 ≤ i.val then
    fx32Shiftdown (fx32Shiftup (matrix i) + fx32Mul (matrix ⟨i - 12, by omega⟩) (ptr 0) +
      fx32Mul (matrix ⟨i - 8, by omega⟩) (ptr 1) + fx32Mul (matrix ⟨i - 4, by omega⟩) (ptr 2))
  else matrix i

/-- The matrix of a translation, and of a scale. -/
def translationMatrix (t : Fin 3 → BitVec 32) : Matrix44 :=
  ![1 <<< 12, 0, 0, 0, 0, 1 <<< 12, 0, 0, 0, 0, 1 <<< 12, 0, t 0, t 1, t 2, 1 <<< 12]

def scaleMatrix (s : Fin 3 → BitVec 32) : Matrix44 :=
  ![s 0, 0, 0, 0, 0, s 1, 0, 0, 0, 0, s 2, 0, 0, 0, 0, 1 <<< 12]

/-- What the product commands work on. -/
structure MultRegs where
  mtxCurrent : Fin 4 → Matrix44
  mtxTemporal : Matrix44
  mode : Fin 4
  mm4x4ind : Fin 16
  mm4x3ind : Fin 16
  mm3x3ind : Fin 16

namespace MultRegs

variable (r : MultRegs)

/-- The end of the three commands: in the position and vector mode both matrices are multiplied. -/
def multiply : MultRegs :=
  let current := Function.update r.mtxCurrent r.mode
    (matrixMultiply (r.mtxCurrent r.mode) r.mtxTemporal)
  { r with
    mtxCurrent := if r.mode = 2 then
      Function.update current 1 (matrixMultiply (current 1) r.mtxTemporal) else current
    mtxTemporal := matrixIdentity }

/-- The index behind one of a matrix with three rows. -/
def skipRow (i : ℕ) : ℕ := if (i + 1) &&& 3 = 3 then i + 2 else i + 1

/-- `gfx3d_glMultMatrix4x4`, with what it returns. -/
def glMultMatrix4x4 (v : BitVec 32) : MultRegs × Bool :=
  let r := { r with mtxTemporal := Function.update r.mtxTemporal r.mm4x4ind v }
  if h : r.mm4x4ind.val + 1 < 16 then ({ r with mm4x4ind := ⟨r.mm4x4ind + 1, h⟩ }, false)
  else ({ r with mm4x4ind := 0 }.multiply, true)

/-- `gfx3d_glMultMatrix4x3`. -/
def glMultMatrix4x3 (v : BitVec 32) : MultRegs × Bool :=
  let r := { r with mtxTemporal := Function.update r.mtxTemporal r.mm4x3ind v }
  if h : skipRow r.mm4x3ind < 16 then ({ r with mm4x3ind := ⟨skipRow r.mm4x3ind, h⟩ }, false)
  else
    -- fill in the unused matrix values
    let m : Matrix44 := Function.update (Function.update (Function.update (Function.update
      r.mtxTemporal 3 0) 7 0) 11 0) 15 (1 <<< 12)
    ({ r with mm4x3ind := 0, mtxTemporal := m }.multiply, true)

/-- `gfx3d_glMultMatrix3x3`. -/
def glMultMatrix3x3 (v : BitVec 32) : MultRegs × Bool :=
  let r := { r with mtxTemporal := Function.update r.mtxTemporal r.mm3x3ind v }
  if h : skipRow r.mm3x3ind < 12 then
    ({ r with mm3x3ind := ⟨skipRow r.mm3x3ind, by omega⟩ }, false)
  else
    let m : Matrix44 := Function.update (Function.update (Function.update (Function.update
      r.mtxTemporal 3 0) 7 0) 11 0) 15 (1 <<< 12)
    let m : Matrix44 := Function.update (Function.update (Function.update m 12 0) 13 0) 14 0
    ({ r with mm3x3ind := 0, mtxTemporal := m }.multiply, true)

/-- A command with all its parameters. -/
def withParams (command : MultRegs → BitVec 32 → MultRegs × Bool) {n : ℕ} (p : Fin n → BitVec 32) :
    MultRegs := Fin.foldl n (fun r i => (command r (p i)).1) r

end MultRegs

/-- The matrices of the parameters of `MTX_MULT_4x3` and of `MTX_MULT_3x3`, completed. -/
def completed4x3 (p : Fin 12 → BitVec 32) : Matrix44 :=
  ![p 0, p 1, p 2, 0, p 3, p 4, p 5, 0, p 6, p 7, p 8, 0, p 9, p 10, p 11, 1 <<< 12]

def completed3x3 (p : Fin 9 → BitVec 32) : Matrix44 :=
  ![p 0, p 1, p 2, 0, p 3, p 4, p 5, 0, p 6, p 7, p 8, 0, 0, 0, 0, 1 <<< 12]

section Kernels

variable (a b c d : BitVec 32) (m : Matrix44)

theorem fx32Mul_zero : fx32Mul a 0#32 = 0#64 := BitVec.mul_zero

/-- A product with one is exact. -/
theorem fx32Mul_one : fx32Mul a 4096#32 = fx32Shiftup a :=
  (BitVec.shiftLeft_eq_mul_twoPow _ 12).symm

theorem fx32Shiftdown_shiftup : fx32Shiftdown (fx32Shiftup a) = a := by
  ext i hi
  rw [fx32Shiftdown, fx32Shiftup, BitVec.getElem_setWidth, BitVec.getLsbD_sshiftRight,
    if_pos (by omega), BitVec.getLsbD_shiftLeft, BitVec.getLsbD_signExtend]
  simp [hi, show i < 64 by omega, show 12 + i < 64 by omega]

theorem matrixGetMultipliedIndex_eq (i : Fin 16) (r : Matrix44) :
    matrixGetMultipliedIndex i m r = matrixMultiply m r i := by
  fin_cases i <;>
    exact congrArg (fun x => (BitVec.sshiftRight x 12).setWidth 32) (BitVec.add_assoc ..).symm

theorem matrixScale_eq (s : Fin 3 → BitVec 32) :
    matrixScale m s = matrixMultiply m (scaleMatrix s) := by
  funext i
  fin_cases i <;>
    simp [matrixScale, matrixMultiply, scaleMatrix, fx32Mul_zero, fx32Mul_one, fx32Shiftdown_shiftup]

theorem matrixTranslate_eq (t : Fin 3 → BitVec 32) :
    matrixTranslate m t = matrixMultiply m (translationMatrix t) := by
  have hrotate (x y z w : BitVec 64) : x + y + z + w = y + z + w + x := by
    rw [BitVec.add_comm (y + z + w), ← BitVec.add_assoc, ← BitVec.add_assoc]
  funext i
  fin_cases i <;>
    simp [matrixTranslate, matrixMultiply, translationMatrix, fx32Mul_zero, fx32Mul_one,
      fx32Shiftdown_shiftup]
  -- the column of the translation
  all_goals exact congrArg fx32Shiftdown (hrotate ..)

end Kernels

namespace MultRegs

variable {r : MultRegs}

/-- The parameters of `MTX_MULT_4x4` that were received so far, over what was there. -/
def filled4x4 {n : ℕ} (p : Fin n → BitVec 32) (m : Matrix44) : Matrix44 := fun i =>
  if h : i.val < n then p ⟨i, h⟩ else m i

theorem withParams_succ (command : MultRegs → BitVec 32 → MultRegs × Bool) {n : ℕ}
    (p : Fin (n + 1) → BitVec 32) : r.withParams command p =
      (command (r.withParams command fun i => p i.castSucc) (p (Fin.last n))).1 :=
  Fin.foldl_succ_last ..

theorem update_filled4x4 {n : ℕ} (hn : n < 16) (p : Fin (n + 1) → BitVec 32) (m : Matrix44) :
    Function.update (filled4x4 (fun i => p i.castSucc) m) ⟨n, hn⟩ (p (Fin.last n)) =
      filled4x4 p m := by
  funext i
  rcases Nat.lt_trichotomy i.val n with h | h | h
  · rw [Function.update_of_ne (Fin.ne_of_val_ne h.ne), filled4x4, filled4x4, dif_pos h,
      dif_pos (by omega)]
    rfl
  · obtain rfl : i = ⟨n, hn⟩ := Fin.ext h
    rw [Function.update_self, filled4x4, dif_pos (Nat.lt_succ_self n)]
    rfl
  · rw [Function.update_of_ne (Fin.ne_of_val_ne h.ne'), filled4x4, filled4x4, dif_neg (by omega),
      dif_neg (by omega)]

theorem withParams_glMultMatrix4x4_of_lt (h : r.mm4x4ind = 0) {n : ℕ} (hn : n < 16)
    (p : Fin n → BitVec 32) : r.withParams glMultMatrix4x4 p =
      { r with mtxTemporal := filled4x4 p r.mtxTemporal, mm4x4ind := ⟨n, hn⟩ } := by
  induction n with
  | zero =>
    have hfill : filled4x4 p r.mtxTemporal = r.mtxTemporal :=
      funext fun i => dif_neg (Nat.not_lt_zero _)
    rw [hfill]
    obtain ⟨current, temporal, mode, i4, i43, i33⟩ := r
    subst h
    exact Fin.foldl_zero ..
  | succ n ih =>
    rw [withParams_succ, ih (Nat.lt_of_succ_lt hn), glMultMatrix4x4]
    dsimp only
    rw [dif_pos hn, update_filled4x4]

/-- `MTX_MULT_4x4` multiplies by the matrix of its parameters. -/
theorem withParams_glMultMatrix4x4 (h : r.mm4x4ind = 0) (p : Matrix44) :
    r.withParams glMultMatrix4x4 p = { r with mtxTemporal := p }.multiply := by
  have hfill : filled4x4 p r.mtxTemporal = p := funext fun i => dif_pos i.isLt
  rw [withParams_succ, withParams_glMultMatrix4x4_of_lt h (by decide), glMultMatrix4x4]
  dsimp only
  rw [dif_neg (by decide), update_filled4x4, hfill, ← h]

/-- The parameters of a command whose matrix has three rows. -/
def filledRows {n : ℕ} (p : Fin n → BitVec 32) (m : Matrix44) : Matrix44 := fun i =>
  if h : i.val % 4 ≠ 3 ∧ 3 * (i.val / 4) + i.val % 4 < n then p ⟨3 * (i.val / 4) + i.val % 4, h.2⟩
  else m i

theorem filledRows_zero (p : Fin 0 → BitVec 32) (m : Matrix44) : filledRows p m = m :=
  funext fun _ => dif_neg fun h => Nat.not_lt_zero _ h.2

theorem update_filledRows {n : ℕ} (hn : n + n / 3 < 16) (p : Fin (n + 1) → BitVec 32)
    (m : Matrix44) :
    Function.update (filledRows (fun i => p i.castSucc) m) ⟨n + n / 3, hn⟩ (p (Fin.last n)) =
      filledRows p m := by
  funext i
  by_cases hi : i.val = n + n / 3
  · obtain rfl : i = ⟨n + n / 3, hn⟩ := Fin.ext hi
    have hrow : (n + n / 3) % 4 ≠ 3 ∧ 3 * ((n + n / 3) / 4) + (n + n / 3) % 4 < n + 1 := by omega
    rw [Function.update_self, filledRows, dif_pos hrow]
    refine congrArg p (Fin.ext ?_)
    change n = 3 * ((n + n / 3) / 4) + (n + n / 3) % 4
    omega
  · rw [Function.update_of_ne (Fin.ne_of_val_ne hi), filledRows, filledRows]
    by_cases hrow : i.val % 4 ≠ 3 ∧ 3 * (i.val / 4) + i.val % 4 < n
    · rw [dif_pos hrow, dif_pos ⟨hrow.1, hrow.2.trans (Nat.lt_succ_self n)⟩]
      rfl
    · rw [dif_neg hrow, dif_neg (by omega)]

theorem skipRow_rowIndex {n : ℕ} (hn : n < 12) : skipRow (n + n / 3) = n + 1 + (n + 1) / 3 := by
  revert n
  decide

theorem withParams_glMultMatrix4x3_of_lt (h : r.mm4x3ind = 0) {n : ℕ} (hn : n < 12)
    (p : Fin n → BitVec 32) : r.withParams glMultMatrix4x3 p =
      { r with mtxTemporal := filledRows p r.mtxTemporal, mm4x3ind := ⟨n + n / 3, by omega⟩ } := by
  induction n with
  | zero =>
    rw [filledRows_zero]
    obtain ⟨current, temporal, mode, i4, i43, i33⟩ := r
    subst h
    exact Fin.foldl_zero ..
  | succ n ih =>
    have hskip := skipRow_rowIndex (Nat.lt_of_succ_lt hn)
    rw [withParams_succ, ih (Nat.lt_of_succ_lt hn), glMultMatrix4x3]
    dsimp only
    rw [dif_pos (by rw [hskip]; omega), update_filledRows]
    simp only [hskip]

theorem withParams_glMultMatrix3x3_of_lt (h : r.mm3x3ind = 0) {n : ℕ} (hn : n < 9)
    (p : Fin n → BitVec 32) : r.withParams glMultMatrix3x3 p =
      { r with mtxTemporal := filledRows p r.mtxTemporal, mm3x3ind := ⟨n + n / 3, by omega⟩ } := by
  induction n with
  | zero =>
    rw [filledRows_zero]
    obtain ⟨current, temporal, mode, i4, i43, i33⟩ := r
    subst h
    exact Fin.foldl_zero ..
  | succ n ih =>
    have hskip := skipRow_rowIndex (n := n) (by omega)
    rw [withParams_succ, ih (Nat.lt_of_succ_lt hn), glMultMatrix3x3]
    dsimp only
    rw [dif_pos (by rw [hskip]; omega), update_filledRows]
    simp only [hskip]

/-- `MTX_MULT_4x3` multiplies by the completed matrix, and so does `MTX_MULT_3x3`. -/
theorem withParams_glMultMatrix4x3 (h : r.mm4x3ind = 0) (p : Fin 12 → BitVec 32) :
    r.withParams glMultMatrix4x3 p = { r with mtxTemporal := completed4x3 p }.multiply := by
  have hfill : Function.update (Function.update (Function.update (Function.update
      (filledRows p r.mtxTemporal) 3 0) 7 0) 11 0) 15 (1 <<< 12) = completed4x3 p := by
    funext i
    fin_cases i <;> rfl
  rw [withParams_succ, withParams_glMultMatrix4x3_of_lt h (by decide), glMultMatrix4x3]
  dsimp only
  rw [dif_neg (by decide), update_filledRows, hfill, ← h]

theorem withParams_glMultMatrix3x3 (h : r.mm3x3ind = 0) (p : Fin 9 → BitVec 32) :
    r.withParams glMultMatrix3x3 p = { r with mtxTemporal := completed3x3 p }.multiply := by
  have hfill : Function.update (Function.update (Function.update (Function.update (Function.update
      (Function.update (Function.update (filledRows p r.mtxTemporal) 3 0) 7 0) 11 0) 15 (1 <<< 12))
      12 0) 13 0) 14 0 = completed3x3 p := by
    funext i
    fin_cases i <;> rfl
  rw [withParams_succ, withParams_glMultMatrix3x3_of_lt h (by decide), glMultMatrix3x3]
  dsimp only
  rw [dif_neg (by decide), update_filledRows, hfill, ← h]

end MultRegs

/-- The matrix commands with all their parameters; `other` stands for those that set the current
matrices or the mode. -/
inductive MatrixCommand where
  | mult4x4 (p : Fin 16 → BitVec 32)
  | mult4x3 (p : Fin 12 → BitVec 32)
  | mult3x3 (p : Fin 9 → BitVec 32)
  | other (current : Fin 4 → Matrix44) (mode : Fin 4)

namespace MultRegs

def exec (r : MultRegs) : MatrixCommand → MultRegs
  | .mult4x4 p => r.withParams glMultMatrix4x4 p
  | .mult4x3 p => r.withParams glMultMatrix4x3 p
  | .mult3x3 p => r.withParams glMultMatrix3x3 p
  | .other current mode => { r with mtxCurrent := current, mode := mode }

/-- Of `gfx3d_reset`, with any matrices. -/
def reset (current : Fin 4 → Matrix44) (temporal : Matrix44) (mode : Fin 4) : MultRegs :=
  ⟨current, temporal, mode, 0, 0, 0⟩

/-- No command waits for parameters. -/
structure Idle (r : MultRegs) : Prop where
  mm4x4 : r.mm4x4ind = 0
  mm4x3 : r.mm4x3ind = 0
  mm3x3 : r.mm3x3ind = 0

theorem Idle.exec {r : MultRegs} (h : r.Idle) (c : MatrixCommand) : (r.exec c).Idle := by
  cases c with
  | mult4x4 p =>
    rw [MultRegs.exec, withParams_glMultMatrix4x4 h.mm4x4]
    exact ⟨h.mm4x4, h.mm4x3, h.mm3x3⟩
  | mult4x3 p =>
    rw [MultRegs.exec, withParams_glMultMatrix4x3 h.mm4x3]
    exact ⟨h.mm4x4, h.mm4x3, h.mm3x3⟩
  | mult3x3 p =>
    rw [MultRegs.exec, withParams_glMultMatrix3x3 h.mm3x3]
    exact ⟨h.mm4x4, h.mm4x3, h.mm3x3⟩
  | other current mode => exact ⟨h.mm4x4, h.mm4x3, h.mm3x3⟩

theorem reset_run_idle (current : Fin 4 → Matrix44) (temporal : Matrix44) (mode : Fin 4)
    (cs : List MatrixCommand) : (Library.run exec (reset current temporal mode) cs).Idle := by
  have h₀ : (reset current temporal mode).Idle := ⟨rfl, rfl, rfl⟩
  have hstep (r : MultRegs) (c : MatrixCommand) (h : r.Idle) : (r.exec c).Idle := h.exec c
  exact Library.run_invariant hstep h₀ cs

end MultRegs

/-- The special products are the product with the matrix they stand for; those of the commands in
every state between two commands. -/
theorem kernels_agree :
    (∀ m t, matrixTranslate m t = matrixMultiply m (translationMatrix t)) ∧
      (∀ m s, matrixScale m s = matrixMultiply m (scaleMatrix s)) ∧
      (∀ i m r, matrixGetMultipliedIndex i m r = matrixMultiply m r i) ∧
      ∀ current temporal mode cs,
        let r := Library.run MultRegs.exec (MultRegs.reset current temporal mode) cs
        (∀ p, r.exec (.mult4x3 p) = r.exec (.mult4x4 (completed4x3 p))) ∧
          ∀ p, r.exec (.mult3x3 p) = r.exec (.mult4x4 (completed3x3 p)) := by
  refine ⟨matrixTranslate_eq, matrixScale_eq, fun i m r => matrixGetMultipliedIndex_eq m i r,
    fun current temporal mode cs => ?_⟩
  have h := MultRegs.reset_run_idle current temporal mode cs
  refine ⟨fun p => ?_, fun p => ?_⟩
  · exact (MultRegs.withParams_glMultMatrix4x3 h.mm4x3 p).trans
      (MultRegs.withParams_glMultMatrix4x4 h.mm4x4 _).symm
  · exact (MultRegs.withParams_glMultMatrix3x3 h.mm3x3 p).trans
      (MultRegs.withParams_glMultMatrix4x4 h.mm4x4 _).symm

end Desmume.Geometry
