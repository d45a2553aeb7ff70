import Desmume.Library.Literals
import Mathlib.Data.Fin.VecNotation
import Mathlib.Logic.Function.Basic
import Mathlib.Tactic.SplitIfs

/-! The four matrix stacks and the commands that write their slots. -/

namespace Desmume.Geometry

/-- `s32[16]`. -/
abbrev Matrix44 := Fin 16 → BitVec 32

/-- The sizes that `mtxStack` is constructed with; one slot more is allocated. -/
def mtxStackSize : Fin 4 → ℕ := ![1, 31, 31, 1]

/-- `MatrixStack`, with its type as an index. -/
structure MatrixStack (type : Fin 4) where
  position : BitVec 32
  matrix : ℕ → BitVec 32

namespace MatrixStack

variable {k : Fin 4} (st : MatrixStack k)

def slot (pos : ℕ) : Matrix44 := fun i => st.matrix (pos * 16 + i)

/-- `MatrixCopy` to a slot. -/
def copyTo (pos : ℕ) (ptr : Matrix44) : MatrixStack k :=
  { st with matrix := fun a =>
      if pos * 16 ≤ a ∧ a < pos * 16 + 16 then ptr (Fin.ofNat 16 (a - pos * 16)) else st.matrix a }

/-- `MatrixStackSetStackPosition`, with the stack error it raises. -/
def setStackPosition (pos : BitVec 32) : MatrixStack k × Bool :=
  let position := st.position + pos
  ({ st with position := position &&& BitVec.ofNat 32 (mtxStackSize k) },
    position.toInt < 0 || (mtxStackSize k : ℤ) < position.toInt)

/-- Where a push goes. -/
def pushSlot : ℕ := if k = 0 ∨ k = 3 then 0 else st.position.toNat

def pushMatrix (ptr : Matrix44) : MatrixStack k × Bool :=
  (st.copyTo st.pushSlot ptr).setStackPosition 1

/-- `MatrixStackLoadMatrix`; no result when its assertion fails. -/
def loadMatrix (pos : ℕ) (ptr : Matrix44) : Option (MatrixStack k) :=
  if pos < 31 then some (st.copyTo pos ptr) else none

end MatrixStack

/-- The registers of the matrix commands; `se` is the stack error of GXSTAT. -/
structure MatrixRegs where
  mode : Fin 4
  current : Fin 4 → Matrix44
  stack : (k : Fin 4) → MatrixStack k
  se : Bool

namespace MatrixRegs

variable (r : MatrixRegs)

/-- Position mode works on the position and the vector stack. -/
def stackMode : Fin 4 := if r.mode = 1 then 2 else r.mode

def push (k : Fin 4) : MatrixRegs :=
  let p := (r.stack k).pushMatrix (r.current k)
  { r with stack := Function.update r.stack k p.1, se := r.se || p.2 }

/-- `gfx3d_glPushMatrix`. -/
def glPushMatrix : MatrixRegs :=
  let s := r.push r.stackMode
  if r.stackMode = 2 then s.push 1 else s

def load (k : Fin 4) (pos : ℕ) : Option MatrixRegs :=
  ((r.stack k).loadMatrix pos (r.current k)).map fun st =>
    { r with stack := Function.update r.stack k st }

/-- `gfx3d_glStoreMatrix`. -/
def glStoreMatrix (v : BitVec 32) : Option MatrixRegs := do
  let v := if r.stackMode = 0 ∨ r.stackMode = 3 then 0 else v
  let v := (v &&& 31).toNat
  let s ← { r with se := r.se || v = 31 }.load r.stackMode v
  if r.stackMode = 2 then s.load 1 v else return s

/-- Every position lies within its stack. -/
def InRange : Prop := ∀ k, (r.stack k).position.toNat ≤ mtxStackSize k

end MatrixRegs

/-- Some push or store writes the slot. -/
def Writable (k : Fin 4) (j : ℕ) : Prop :=
  ∃ r s : MatrixRegs, r.InRange ∧ (r.glPushMatrix = s ∨ ∃ v, r.glStoreMatrix v = some s) ∧
    (s.stack k).slot j ≠ (r.stack k).slot j

/-- How many slots of the stacks the commands use. -/
def stackDepth : Fin 4 → ℕ := ![1, 32, 32, 1]

theorem slot_copyTo {k : Fin 4} (st : MatrixStack k) (pos j : ℕ) (ptr : Matrix44) :
    (st.copyTo pos ptr).slot j = if j = pos then ptr else st.slot j := by
  funext i
  have hi := i.isLt
  simp only [MatrixStack.slot, MatrixStack.copyTo]
  by_cases hj : j = pos
  · rw [if_pos hj, if_pos (by omega), hj, Nat.add_sub_cancel_left]
    exact congrArg ptr (Fin.ext (Nat.mod_eq_of_lt hi))
  · rw [if_neg hj, if_neg (by omega)]
    rfl

theorem slot_push (r : MatrixRegs) (k l : Fin 4) (j : ℕ) :
    ((r.push k).stack l).slot j =
      if l = k ∧ j = (r.stack k).pushSlot then r.current k else (r.stack l).slot j := by
  by_cases hl : l = k
  · subst hl
    have hstack : (r.push l).stack l = ((r.stack l).pushMatrix (r.current l)).1 :=
      Function.update_self ..
    rw [hstack]
    have hcopy := slot_copyTo (r.stack l) (r.stack l).pushSlot j (r.current l)
    simp only [true_and]
    exact hcopy
  · rw [if_neg (fun h => hl h.1)]
    exact congrArg (fun st : MatrixStack l => st.slot j) (Function.update_of_ne hl ..)

theorem slot_load {r s : MatrixRegs} {k : Fin 4} {pos : ℕ} (h : r.load k pos = some s) (l : Fin 4)
    (j : ℕ) : pos < 31 ∧ ((s.stack l).slot j =
      if l = k ∧ j = pos then r.current k else (r.stack l).slot j) := by
  obtain ⟨st, hst, rfl⟩ := Option.map_eq_some_iff.mp h
  unfold MatrixStack.loadMatrix at hst
  split_ifs at hst with hpos
  obtain rfl := Option.some.inj hst
  refine ⟨hpos, ?_⟩
  by_cases hl : l = k
  · subst hl
    simp only [Function.update_self, slot_copyTo, true_and]
  · rw [if_neg (fun h => hl h.1)]
    exact congrArg (fun st : MatrixStack l => st.slot j) (Function.update_of_ne hl ..)

theorem stack_push_of_ne (r : MatrixRegs) {k l : Fin 4} (h : l ≠ k) :
    (r.push k).stack l = r.stack l := Function.update_of_ne h ..

/-- The stacks that have one slot and those that have 32. -/
theorem stackDepth_cases (k : Fin 4) : (k = 0 ∨ k = 3) ∧ stackDepth k = 1 ∨
    ¬ (k = 0 ∨ k = 3) ∧ stackDepth k = 32 ∧ mtxStackSize k = 31 := by
  revert k
  decide

theorem pushSlot_lt {r : MatrixRegs} (h : r.InRange) (k : Fin 4) :
    (r.stack k).pushSlot < stackDepth k := by
  have hk := h k
  rcases stackDepth_cases k with ⟨hone, hdepth⟩ | ⟨hdeep, hdepth, hsize⟩
  · rw [MatrixStack.pushSlot, if_pos hone, hdepth]
    exact Nat.one_pos
  · rw [MatrixStack.pushSlot, if_neg hdeep]
    omega

theorem slot_glPushMatrix_of_ne (r : MatrixRegs) {k : Fin 4} {j : ℕ}
    (h : j ≠ (r.stack k).pushSlot) : (r.glPushMatrix.stack k).slot j = (r.stack k).slot j := by
  unfold MatrixRegs.glPushMatrix
  split_ifs with hmode
  · rw [slot_push, if_neg, slot_push, if_neg]
    · rintro ⟨rfl, hj⟩
      exact h hj
    · rintro ⟨rfl, hj⟩
      rw [stack_push_of_ne r (by rw [hmode]; decide)] at hj
      exact h hj
  · rw [slot_push, if_neg]
    rintro ⟨rfl, hj⟩
    exact h hj

theorem lt_of_slot_glStoreMatrix_ne {r s : MatrixRegs} {v : BitVec 32}
    (hs : r.glStoreMatrix v = some s) {k : Fin 4} {j : ℕ}
    (h : (s.stack k).slot j ≠ (r.stack k).slot j) : j < stackDepth k := by
  obtain ⟨t, ht, hs⟩ := Option.bind_eq_some_iff.mp hs
  generalize hpos : ((if r.stackMode = 0 ∨ r.stackMode = 3 then 0 else v) &&& 31).toNat = pos
    at ht hs
  obtain ⟨hlt, hslot⟩ := slot_load ht k j
  have hfirst : (t.stack k).slot j ≠ (r.stack k).slot j → j < stackDepth k := fun hne => by
    rw [hslot] at hne
    obtain ⟨rfl, rfl⟩ := not_not.mp fun hn => hne (if_neg hn)
    rcases stackDepth_cases r.stackMode with ⟨hone, hdepth⟩ | ⟨-, hdepth, -⟩
    · rw [if_pos hone] at hpos
      rw [hdepth, ← hpos]
      decide
    · omega
  split_ifs at hs with hmode
  · have hsecond := (slot_load hs k j).2
    by_cases hk : k = 1 ∧ j = pos
    · rw [hk.1, hk.2]
      exact Nat.lt_succ_of_lt hlt
    · rw [if_neg hk] at hsecond
      exact hfirst (hsecond ▸ h)
  · obtain rfl := Option.some.inj hs
    exact hfirst h

/-- Zero stacks with a position, and a matrix to push. -/
def pushReady (mode : Fin 4) (j : ℕ) : MatrixRegs where
  mode := mode
  current := fun _ _ => 1
  stack := fun k => ⟨if k = 0 ∨ k = 3 then 0 else BitVec.ofNat 32 j, fun _ => 0⟩
  se := false

theorem pushReady_inRange (mode : Fin 4) {j : ℕ} (h : j < 32) : (pushReady mode j).InRange := by
  intro k
  rcases stackDepth_cases k with ⟨hone, -⟩ | ⟨hdeep, -, hsize⟩
  · simp only [pushReady, if_pos hone]
    exact Nat.zero_le _
  · simp only [pushReady, if_neg hdeep, hsize, BitVec.toNat_ofNat]
    omega

theorem pushReady_pushSlot (mode : Fin 4) {k : Fin 4} {j : ℕ} (h : j < stackDepth k) :
    ((pushReady mode j).stack k).pushSlot = j := by
  rcases stackDepth_cases k with ⟨hone, hdepth⟩ | ⟨hdeep, hdepth, -⟩
  · rw [MatrixStack.pushSlot, if_pos hone]
    omega
  · rw [MatrixStack.pushSlot, if_neg hdeep]
    simp only [pushReady, if_neg hdeep, BitVec.toNat_ofNat]
    omega

theorem slot_glPushMatrix_pushReady {k : Fin 4} {j : ℕ} (h : j < stackDepth k) :
    ((pushReady (if k = 1 then 2 else k) j).glPushMatrix.stack k).slot j = fun _ => 1 := by
  generalize hr : pushReady (if k = 1 then 2 else k) j = r
  have hslot : (r.stack k).pushSlot = j := hr ▸ pushReady_pushSlot _ h
  have hcurrent : r.current = fun _ _ => 1 := hr ▸ rfl
  have hmode : r.stackMode = if k = 1 then 2 else k := by
    have hpair : ∀ k : Fin 4, (if (if k = 1 then 2 else k) = 1 then 2
        else (if k = 1 then 2 else k : Fin 4)) = if k = 1 then 2 else k := by decide
    rw [← hr]
    exact hpair k
  unfold MatrixRegs.glPushMatrix
  rw [hmode]
  by_cases hk : k = 1
  · subst hk
    rw [if_pos rfl, if_pos rfl, slot_push, stack_push_of_ne r (by decide), if_pos ⟨rfl, hslot.symm⟩]
    exact congrFun hcurrent 1
  · rw [if_neg hk]
    split_ifs with htwo
    · rw [slot_push, if_neg (fun h => hk h.1), slot_push, if_pos ⟨rfl, hslot.symm⟩]
      exact congrFun hcurrent k
    · rw [slot_push, if_pos ⟨rfl, hslot.symm⟩]
      exact congrFun hcurrent k

/-- Pushes and stores write slots below the depth of the stack, and each of these. -/
theorem writable_iff (k : Fin 4) (j : ℕ) : Writable k j ↔ j < stackDepth k := by
  constructor
  · rintro ⟨r, s, hr, rfl | ⟨v, hs⟩, hne⟩
    · by_contra hge
      refine hne (slot_glPushMatrix_of_ne r fun hj => hge ?_)
      rw [hj]
      exact pushSlot_lt hr k
    · exact lt_of_slot_glStoreMatrix_ne hs hne
  · intro h
    have hdepth : stackDepth k ≤ 32 := by
      rcases stackDepth_cases k with ⟨-, hd⟩ | ⟨-, hd, -⟩ <;> omega
    refine ⟨pushReady (if k = 1 then 2 else k) j, _, pushReady_inRange _ (by omega), .inl rfl, ?_⟩
    rw [slot_glPushMatrix_pushReady h]
    intro heq
    have hentry : (1 : BitVec 32) = 0 := congrFun heq 0
    cases hentry

end Desmume.Geometry
