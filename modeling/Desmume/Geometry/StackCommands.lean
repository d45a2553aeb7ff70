import Desmume.Geometry.MatrixStack
import Desmume.Library.PartialRun

/-! Runs of the matrix stack commands: every position stays in its stack and the position and the
vector stack move together. An index of 31 fails the assertion of the stack. A slot of a deep stack is
not written again before 32 further pushes, so a balanced pop finds its matrix. -/

namespace Desmume.Geometry
open Library

/-- The entries that `MatrixStackSetMaxSize` allocates. -/
def allocatedWords (k : Fin 4) : ℕ := (mtxStackSize k + 1) * 16 * 4

/-- `MatrixStackGetPos`; no result when its assertion fails. -/
def MatrixStack.getPos {k : Fin 4} (st : MatrixStack k) (pos : ℕ) : Option Matrix44 :=
  if pos < 31 then some (st.slot pos) else none

namespace MatrixRegs

variable (r : MatrixRegs)

/-- `MatrixStackPopMatrix`. -/
def pop (k : Fin 4) (size : BitVec 32) : MatrixRegs :=
  let p := (r.stack k).setStackPosition (-size)
  { r with
    stack := Function.update r.stack k p.1
    se := r.se || p.2
    current := Function.update r.current k (p.1.slot p.1.pushSlot) }

/-- The offset of a pop; projection mode ignores the parameter. -/
def popSize (i : BitVec 32) : BitVec 32 := if r.mode = 0 then 1 else i

/-- `gfx3d_glPopMatrix`. -/
def glPopMatrix (i : BitVec 32) : MatrixRegs :=
  let s := r.pop r.stackMode (r.popSize i)
  if r.stackMode = 2 then s.pop 1 (r.popSize i) else s

def restore (k : Fin 4) (pos : ℕ) : Option MatrixRegs :=
  ((r.stack k).getPos pos).map fun m => { r with current := Function.update r.current k m }

/-- The slot of a store or restore. -/
def slotIndex (v : BitVec 32) : ℕ :=
  ((if r.stackMode = 0 ∨ r.stackMode = 3 then 0 else v) &&& 31).toNat

/-- `gfx3d_glRestoreMatrix`. -/
def glRestoreMatrix (v : BitVec 32) : Option MatrixRegs := do
  let v := r.slotIndex v
  -- the error is raised before the assertion of the index
  let s ← { r with se := r.se || v = 31 }.restore r.stackMode v
  if r.stackMode = 2 then s.restore 1 v else return s

/-- Of `TGXSTAT::write32` what it does to the stacks. -/
def gxstatWriteStack (val : BitVec 32) : MatrixRegs :=
  -- bit 15 resets the error and the projection stack
  if val.getLsbD 15 then
    { r with stack := Function.update r.stack 0 { r.stack 0 with position := 0 }, se := false }
  else r

end MatrixRegs

/-- The commands of the stacks; `current` stands for those that only set a current matrix. -/
inductive MatrixOp where
  | mode (v : BitVec 32)
  | push
  | pop (i : BitVec 32)
  | store (v : BitVec 32)
  | restore (v : BitVec 32)
  | gxstat (val : BitVec 32)
  | current (k : Fin 4) (m : Matrix44)

def matrixStep (r : MatrixRegs) : MatrixOp → Option MatrixRegs
  | .mode v => some { r with mode := (v.setWidth 2).toFin }
  | .push => some r.glPushMatrix
  | .pop i => some (r.glPopMatrix i)
  | .store v => r.glStoreMatrix v
  | .restore v => r.glRestoreMatrix v
  | .gxstat val => some (r.gxstatWriteStack val)
  | .current k m => some { r with current := Function.update r.current k m }

/-- `gfx3d_reset`, with any contents of the matrices. -/
def resetStacks (r : MatrixRegs) : MatrixRegs :=
  { r with mode := 0, stack := fun k => { r.stack k with position := 0 } }

/-- The stacks a command works on. -/
def usedStacks (r : MatrixRegs) : List (Fin 4) := if r.stackMode = 2 then [2, 1] else [r.stackMode]

/-- The slots a command reads or writes. -/
def slotAccesses (r : MatrixRegs) : MatrixOp → List (Fin 4 × ℕ)
  | .push => (usedStacks r).map fun k => (k, (r.stack k).pushSlot)
  | .pop i => (usedStacks r).map fun k =>
    (k, ((r.stack k).setStackPosition (-r.popSize i)).1.pushSlot)
  | .store v | .restore v => (usedStacks r).map fun k => (k, r.slotIndex v)
  | _ => []

def SlotsAllocated (r : MatrixRegs) (op : MatrixOp) : Prop :=
  ∀ p ∈ slotAccesses r op, p.2 * 16 + 16 ≤ allocatedWords p.1

/-- The index 31 of the position modes is not used. -/
def Admitted (r : MatrixRegs) : MatrixOp → Prop
  | .store v | .restore v => r.stackMode = 2 → v &&& 31#32 ≠ 31#32
  | _ => True

theorem MatrixRegs.stackMode_ne_one (r : MatrixRegs) : r.stackMode ≠ 1 := by
  rw [stackMode]
  split_ifs with h
  · decide
  · exact h

theorem MatrixRegs.stackMode_cases (r : MatrixRegs) :
    (r.stackMode = 0 ∨ r.stackMode = 3) ∧ r.stackMode ≠ 2 ∨
      ¬ (r.stackMode = 0 ∨ r.stackMode = 3) ∧ r.stackMode = 2 := by
  have hne := r.stackMode_ne_one
  generalize r.stackMode = k at hne
  revert k
  decide

section UsedStacks

variable {r : MatrixRegs} {l : Fin 4} {α : Type*} (a b : α)

theorem ite_usedStacks_two (h : r.stackMode = 2) :
    (if l ∈ usedStacks r then a else b) = if l = 1 then a else if l = 2 then a else b := by
  rw [usedStacks, if_pos h]
  by_cases h1 : l = 1
  · simp [h1]
  · by_cases h2 : l = 2 <;> simp [h1, h2]

theorem ite_usedStacks_one (h : r.stackMode ≠ 2) :
    (if l ∈ usedStacks r then a else b) = if l = r.stackMode then a else b := by
  rw [usedStacks, if_neg h]
  exact if_congr List.mem_singleton rfl rfl

end UsedStacks

/-! What a command does to each stack and each current matrix. -/

section Spec

variable (r : MatrixRegs) (l : Fin 4)

theorem stack_push (k : Fin 4) : (r.push k).stack l =
    if l = k then ((r.stack l).pushMatrix (r.current l)).1 else r.stack l := by
  by_cases hl : l = k
  · subst hl
    rw [if_pos rfl]
    exact Function.update_self ..
  · rw [if_neg hl]
    exact Function.update_of_ne hl ..

theorem stack_glPushMatrix : r.glPushMatrix.stack l =
    if l ∈ usedStacks r then ((r.stack l).pushMatrix (r.current l)).1 else r.stack l := by
  rw [MatrixRegs.glPushMatrix]
  by_cases hmode : r.stackMode = 2
  · rw [if_pos hmode, ite_usedStacks_two _ _ hmode, stack_push, stack_push, hmode]
    by_cases hl : l = 1
    · subst hl
      rfl
    · rw [if_neg hl, if_neg hl]
  · rw [if_neg hmode, ite_usedStacks_one _ _ hmode, stack_push]

theorem stack_pop (k : Fin 4) (size : BitVec 32) : (r.pop k size).stack l =
    if l = k then ((r.stack l).setStackPosition (-size)).1 else r.stack l := by
  by_cases hl : l = k
  · subst hl
    rw [if_pos rfl]
    exact Function.update_self ..
  · rw [if_neg hl]
    exact Function.update_of_ne hl ..

theorem current_pop (k : Fin 4) (size : BitVec 32) : (r.pop k size).current l =
    if l = k then ((r.pop k size).stack l).slot ((r.pop k size).stack l).pushSlot
    else r.current l := by
  by_cases hl : l = k
  · subst hl
    rw [if_pos rfl, stack_pop, if_pos rfl]
    exact Function.update_self ..
  · rw [if_neg hl]
    exact Function.update_of_ne hl ..

theorem stack_glPopMatrix (i : BitVec 32) : (r.glPopMatrix i).stack l =
    if l ∈ usedStacks r then ((r.stack l).setStackPosition (-r.popSize i)).1 else r.stack l := by
  rw [MatrixRegs.glPopMatrix]
  by_cases hmode : r.stackMode = 2
  · rw [if_pos hmode, ite_usedStacks_two _ _ hmode, stack_pop, stack_pop, hmode]
    by_cases hl : l = 1
    · subst hl
      rfl
    · rw [if_neg hl, if_neg hl]
  · rw [if_neg hmode, ite_usedStacks_one _ _ hmode, stack_pop]

theorem current_glPopMatrix (i : BitVec 32) : (r.glPopMatrix i).current l =
    if l ∈ usedStacks r then
      ((r.glPopMatrix i).stack l).slot ((r.glPopMatrix i).stack l).pushSlot
    else r.current l := by
  rw [MatrixRegs.glPopMatrix]
  by_cases hmode : r.stackMode = 2
  · rw [if_pos hmode, ite_usedStacks_two _ _ hmode, hmode, current_pop]
    by_cases hl : l = 1
    · rw [if_pos hl, if_pos hl]
    · rw [if_neg hl, if_neg hl, current_pop, stack_pop _ _ 1, if_neg hl]
  · rw [if_neg hmode, ite_usedStacks_one _ _ hmode, current_pop]

theorem load_eq (k : Fin 4) {pos : ℕ} (h : pos < 31) : r.load k pos =
    some { r with stack := Function.update r.stack k ((r.stack k).copyTo pos (r.current k)) } := by
  rw [MatrixRegs.load, MatrixStack.loadMatrix, if_pos h]
  rfl

theorem load_eq_none (k : Fin 4) {pos : ℕ} (h : ¬ pos < 31) : r.load k pos = none := by
  rw [MatrixRegs.load, MatrixStack.loadMatrix, if_neg h]
  rfl

theorem glStoreMatrix_eq (v : BitVec 32) : r.glStoreMatrix v =
    ({ r with se := r.se || r.slotIndex v = 31 }.load r.stackMode (r.slotIndex v)).bind fun s =>
      if r.stackMode = 2 then s.load 1 (r.slotIndex v) else some s := rfl

theorem glStoreMatrix_eq_none {v : BitVec 32} (h : ¬ r.slotIndex v < 31) :
    r.glStoreMatrix v = none := by
  rw [glStoreMatrix_eq, load_eq_none _ _ h]
  rfl

theorem stack_glStoreMatrix {v : BitVec 32} (h : r.slotIndex v < 31) :
    ∃ s, r.glStoreMatrix v = some s ∧ ∀ l, s.stack l =
      if l ∈ usedStacks r then (r.stack l).copyTo (r.slotIndex v) (r.current l) else r.stack l := by
  rw [glStoreMatrix_eq, load_eq _ _ h, Option.bind_some]
  by_cases hmode : r.stackMode = 2
  · rw [if_pos hmode, load_eq _ _ h]
    refine ⟨_, rfl, fun l => ?_⟩
    rw [ite_usedStacks_two _ _ hmode, hmode]
    by_cases h1 : l = 1
    · subst h1
      rfl
    · rw [if_neg h1]
      refine (Function.update_of_ne h1 ..).trans ?_
      by_cases h2 : l = 2
      · subst h2
        rfl
      · rw [if_neg h2]
        exact Function.update_of_ne h2 ..
  · rw [if_neg hmode]
    refine ⟨_, rfl, fun l => ?_⟩
    rw [ite_usedStacks_one _ _ hmode]
    by_cases hl : l = r.stackMode
    · subst hl
      rw [if_pos rfl]
      exact Function.update_self ..
    · rw [if_neg hl]
      exact Function.update_of_ne hl ..

theorem restore_eq (k : Fin 4) {pos : ℕ} (h : pos < 31) : r.restore k pos =
    some { r with current := Function.update r.current k ((r.stack k).slot pos) } := by
  rw [MatrixRegs.restore, MatrixStack.getPos, if_pos h]
  rfl

theorem restore_eq_none (k : Fin 4) {pos : ℕ} (h : ¬ pos < 31) : r.restore k pos = none := by
  rw [MatrixRegs.restore, MatrixStack.getPos, if_neg h]
  rfl

theorem glRestoreMatrix_eq (v : BitVec 32) : r.glRestoreMatrix v =
    ({ r with se := r.se || r.slotIndex v = 31 }.restore r.stackMode (r.slotIndex v)).bind fun s =>
      if r.stackMode = 2 then s.restore 1 (r.slotIndex v) else some s := rfl

theorem glRestoreMatrix_eq_none {v : BitVec 32} (h : ¬ r.slotIndex v < 31) :
    r.glRestoreMatrix v = none := by
  rw [glRestoreMatrix_eq, restore_eq_none _ _ h]
  rfl

theorem stack_glRestoreMatrix {v : BitVec 32} (h : r.slotIndex v < 31) :
    ∃ s, r.glRestoreMatrix v = some s ∧ s.stack = r.stack := by
  rw [glRestoreMatrix_eq, restore_eq _ _ h, Option.bind_some]
  split_ifs
  · rw [restore_eq _ _ h]
    exact ⟨_, rfl, rfl⟩
  · exact ⟨_, rfl, rfl⟩

theorem stack_gxstatWriteStack {l : Fin 4} (hl : l ≠ 0) (val : BitVec 32) :
    (r.gxstatWriteStack val).stack l = r.stack l := by
  rw [MatrixRegs.gxstatWriteStack]
  split_ifs
  · exact Function.update_of_ne hl ..
  · rfl

end Spec

theorem mtxStackSize_le (k : Fin 4) : mtxStackSize k ≤ 31 := by
  revert k
  decide

theorem setStackPosition_le {k : Fin 4} (st : MatrixStack k) (pos : BitVec 32) :
    (st.setStackPosition pos).1.position.toNat ≤ mtxStackSize k := by
  have hsize := mtxStackSize_le k
  change (_ &&& BitVec.ofNat 32 (mtxStackSize k)).toNat ≤ _
  rw [BitVec.toNat_and, BitVec.toNat_ofNat, Nat.mod_eq_of_lt (by omega)]
  exact Nat.and_le_right

/-- Every position is in its stack, and the two stacks of the position modes agree. -/
structure StacksOk (r : MatrixRegs) : Prop where
  inRange : r.InRange
  lockstep : (r.stack 1).position = (r.stack 2).position

section Invariant

variable {r s : MatrixRegs}

/-- The stacks of a command move by the same offset, the others do not move. -/
theorem StacksOk.move (h : StacksOk r) (x : BitVec 32) (hmove : ∀ l, (s.stack l).position =
    if l ∈ usedStacks r then ((r.stack l).setStackPosition x).1.position
    else (r.stack l).position) : StacksOk s := by
  refine ⟨fun l => ?_, ?_⟩
  · rw [hmove]
    split_ifs
    · exact setStackPosition_le ..
    · exact h.inRange l
  · rw [hmove, hmove]
    by_cases hmode : r.stackMode = 2
    · rw [ite_usedStacks_two _ _ hmode, ite_usedStacks_two _ _ hmode]
      change ((r.stack 1).position + x) &&& _ = ((r.stack 2).position + x) &&& _
      rw [h.lockstep]
      rfl
    · rw [ite_usedStacks_one _ _ hmode, ite_usedStacks_one _ _ hmode,
        if_neg r.stackMode_ne_one.symm, if_neg (Ne.symm hmode)]
      exact h.lockstep

theorem StacksOk.keep (h : StacksOk r) (hkeep : ∀ l, (s.stack l).position = (r.stack l).position) :
    StacksOk s := by
  refine ⟨fun l => ?_, ?_⟩
  · rw [hkeep]
    exact h.inRange l
  · rw [hkeep, hkeep]
    exact h.lockstep

theorem StacksOk.gxstat (h : StacksOk r) (val : BitVec 32) : StacksOk (r.gxstatWriteStack val) := by
  refine ⟨fun l => ?_, ?_⟩
  · by_cases hl : l = 0
    · subst hl
      rw [MatrixRegs.gxstatWriteStack]
      split_ifs
      · exact Nat.zero_le _
      · exact h.inRange 0
    · rw [stack_gxstatWriteStack r hl]
      exact h.inRange l
  · rw [stack_gxstatWriteStack r (by decide), stack_gxstatWriteStack r (by decide)]
    exact h.lockstep

theorem resetStacks_ok (r : MatrixRegs) : StacksOk (resetStacks r) :=
  ⟨fun _ => Nat.zero_le _, rfl⟩

theorem slotIndex_le (v : BitVec 32) : r.slotIndex v ≤ 31 := by
  rw [MatrixRegs.slotIndex, BitVec.toNat_and]
  exact Nat.and_le_right

theorem slotIndex_lt_iff {v : BitVec 32} :
    r.slotIndex v < 31 ↔ (r.stackMode = 2 → v &&& 31#32 ≠ 31#32) := by
  have hle := slotIndex_le (r := r) v
  rw [MatrixRegs.slotIndex] at hle ⊢
  rcases r.stackMode_cases with ⟨hone, hne⟩ | ⟨hone, htwo⟩
  · rw [if_pos hone]
    exact iff_of_true (by decide : 0 < 31) fun h => absurd h hne
  · rw [if_neg hone] at hle ⊢
    refine ⟨fun hlt _ heq => ?_, fun h => lt_of_le_of_ne hle fun heq => h htwo ?_⟩
    · exact absurd (congrArg BitVec.toNat heq) hlt.ne
    · exact BitVec.eq_of_toNat_eq heq

/-- Every slot of a command belongs to its stack. -/
theorem slotsAllocated (h : r.InRange) (op : MatrixOp) : SlotsAllocated r op := by
  have hfit {k : Fin 4} {j : ℕ} (hj : j ≤ mtxStackSize k) : j * 16 + 16 ≤ allocatedWords k := by
    rw [allocatedWords]
    omega
  have hslot {k : Fin 4} {st : MatrixStack k} (hst : st.position.toNat ≤ mtxStackSize k) :
      st.pushSlot ≤ mtxStackSize k := by
    rw [MatrixStack.pushSlot]
    split_ifs
    · exact Nat.zero_le _
    · exact hst
  have hindex (v : BitVec 32) : ∀ p ∈ (usedStacks r).map fun k => (k, r.slotIndex v),
      p.2 * 16 + 16 ≤ allocatedWords p.1 := by
    intro p hp
    obtain ⟨k, hk, rfl⟩ := List.mem_map.mp hp
    refine hfit ?_
    rcases r.stackMode_cases with ⟨hone, -⟩ | ⟨-, htwo⟩
    · -- the stacks of one slot ignore the index
      rw [MatrixRegs.slotIndex, if_pos hone]
      exact Nat.zero_le _
    · rw [usedStacks, if_pos htwo] at hk
      have hdeep : mtxStackSize k = 31 := by
        rcases List.mem_pair.mp hk with rfl | rfl <;> rfl
      rw [hdeep]
      exact slotIndex_le v
  cases op with
  | push =>
    intro p hp
    obtain ⟨k, -, rfl⟩ := List.mem_map.mp hp
    exact hfit (hslot (h k))
  | pop i =>
    intro p hp
    obtain ⟨k, -, rfl⟩ := List.mem_map.mp hp
    exact hfit (hslot (setStackPosition_le ..))
  | store v => exact hindex v
  | restore v => exact hindex v
  | mode | gxstat | current => exact fun p hp => absurd hp List.not_mem_nil

theorem matrixStep_spec (h : StacksOk r) (op : MatrixOp) :
    StepSpec StacksOk (Admitted r op) (matrixStep r op) := by
  cases op with
  | mode v => exact .of_some rfl trivial (h.keep fun _ => rfl)
  | push =>
    refine .of_some rfl trivial (h.move 1 fun l => ?_)
    rw [stack_glPushMatrix]
    split_ifs <;> rfl
  | pop i =>
    refine .of_some rfl trivial (h.move (-r.popSize i) fun l => ?_)
    rw [stack_glPopMatrix]
    split_ifs <;> rfl
  | store v =>
    by_cases hv : r.slotIndex v < 31
    · obtain ⟨s, hs, hstack⟩ := stack_glStoreMatrix r hv
      refine .of_some hs (slotIndex_lt_iff.mp hv) (h.keep fun l => ?_)
      rw [hstack]
      split_ifs <;> rfl
    · exact .of_none (glStoreMatrix_eq_none r hv) fun ha => hv (slotIndex_lt_iff.mpr ha)
  | restore v =>
    by_cases hv : r.slotIndex v < 31
    · obtain ⟨s, hs, hstack⟩ := stack_glRestoreMatrix r hv
      refine .of_some hs (slotIndex_lt_iff.mp hv) (h.keep fun l => ?_)
      rw [hstack]
    · exact .of_none (glRestoreMatrix_eq_none r hv) fun ha => hv (slotIndex_lt_iff.mpr ha)
  | gxstat val => exact .of_some rfl trivial (h.gxstat val)
  | current k m => exact .of_some rfl trivial (h.keep fun _ => rfl)

end Invariant

/-! ### Balanced pushes and pops -/

/-- How many pairs may be open. -/
def maxNesting : ℕ := 31

/-- The open pushes of the position modes after a command; there is no store between them. -/
def nestDepth (r : MatrixRegs) (depth : ℕ) (op : MatrixOp) : Option ℕ :=
  -- the other modes push and pop other stacks
  if r.stackMode ≠ 2 then some depth
  else
    match op with
    | .push => if depth < maxNesting then some (depth + 1) else none
    | .pop i => if i = 1 ∧ 1 < depth then some (depth - 1) else none
    | .store _ => none
    | _ => some depth

def nestStep (s : MatrixRegs × ℕ) (op : MatrixOp) : Option (MatrixRegs × ℕ) := do
  let depth ← nestDepth s.1 s.2 op
  let r ← matrixStep s.1 op
  some (r, depth)

/-- Each pop undoes its push: whatever balanced commands stand between them. -/
def PopRestores (r : MatrixRegs) : Prop :=
  ∀ body t, r.stackMode = 2 → runM nestStep (r.glPushMatrix, 1) body = some (t, 1) →
    t.stackMode = 2 → ∀ k : Fin 4, k = 1 ∨ k = 2 →
      (t.glPopMatrix 1).current k = r.current k ∧
      ((t.glPopMatrix 1).stack k).position = (r.stack k).position

section Deep

variable {k : Fin 4} (hk : k = 1 ∨ k = 2)
include hk

theorem mtxStackSize_deep : mtxStackSize k = 31 := by
  rcases hk with rfl | rfl <;> rfl

theorem pushSlot_deep (st : MatrixStack k) : st.pushSlot = st.position.toNat := by
  rcases hk with rfl | rfl <;> rfl

theorem mem_usedStacks_deep {r : MatrixRegs} : k ∈ usedStacks r ↔ r.stackMode = 2 := by
  rw [usedStacks]
  split_ifs with h
  · rcases hk with rfl | rfl <;> simp [h]
  · refine iff_of_false ?_ h
    rw [List.mem_singleton]
    rintro rfl
    exact hk.elim r.stackMode_ne_one h

theorem setStackPosition_deep (st : MatrixStack k) (x : BitVec 32) :
    (st.setStackPosition x).1.position.toNat = (st.position.toNat + x.toNat) % 32 := by
  change ((st.position + x) &&& BitVec.ofNat 32 (mtxStackSize k)).toNat = _
  rw [mtxStackSize_deep hk, BitVec.toNat_and, BitVec.toNat_add]
  refine (Nat.and_two_pow_sub_one_eq_mod _ 5).trans ?_
  exact Nat.mod_mod_of_dvd _ (by decide)

theorem setStackPosition_neg_one (st : MatrixStack k) {n : ℕ} (h : st.position.toNat = n % 32)
    (hn : 1 ≤ n) : (st.setStackPosition (-1)).1.position.toNat = (n - 1) % 32 := by
  have hone : (-1 : BitVec 32).toNat = 2 ^ 32 - 1 := rfl
  rw [setStackPosition_deep hk, h, hone]
  omega

end Deep

/-- With `depth` pushes open since `r` the matrices of `r` are still in their slots. -/
structure Saved (r t : MatrixRegs) (depth : ℕ) : Prop where
  pos : 1 ≤ depth
  le : depth ≤ maxNesting
  position : ∀ k : Fin 4, k = 1 ∨ k = 2 →
    (t.stack k).position.toNat = ((r.stack k).position.toNat + depth) % 32
  slot : ∀ k : Fin 4, k = 1 ∨ k = 2 →
    (t.stack k).slot (r.stack k).position.toNat = r.current k

section Nesting

variable {r t : MatrixRegs} {depth : ℕ}

theorem popSize_of_two (h : t.stackMode = 2) (i : BitVec 32) : t.popSize i = i := by
  refine if_neg fun hmode => ?_
  rw [MatrixRegs.stackMode, hmode] at h
  exact absurd h (by decide)

theorem Saved.push_self (h : r.stackMode = 2) : Saved r r.glPushMatrix 1 := by
  refine ⟨le_rfl, (by decide : 1 ≤ 31), fun k hk => ?_, fun k hk => ?_⟩
  · rw [stack_glPushMatrix, if_pos ((mem_usedStacks_deep hk).mpr h)]
    exact setStackPosition_deep hk ..
  · rw [stack_glPushMatrix, if_pos ((mem_usedStacks_deep hk).mpr h), ← pushSlot_deep hk]
    have hcopy := slot_copyTo (r.stack k) (r.stack k).pushSlot (r.stack k).pushSlot (r.current k)
    rw [if_pos rfl] at hcopy
    exact hcopy

theorem Saved.push (hs : Saved r t depth) (hr : r.InRange) (hmode : t.stackMode = 2)
    (hlt : depth < maxNesting) : Saved r t.glPushMatrix (depth + 1) := by
  refine ⟨Nat.le_add_left .., hlt, fun k hk => ?_, fun k hk => ?_⟩
  · rw [stack_glPushMatrix, if_pos ((mem_usedStacks_deep hk).mpr hmode)]
    have hpos := setStackPosition_deep hk ((t.stack k).copyTo (t.stack k).pushSlot (t.current k)) 1
    refine hpos.trans ?_
    change ((t.stack k).position.toNat + 1) % 32 = _
    rw [hs.position k hk, Nat.mod_add_mod, Nat.add_assoc]
  · -- the push goes to another slot, as less than 32 are open
    have hne : (r.stack k).position.toNat ≠ (t.stack k).pushSlot := by
      rw [pushSlot_deep hk, hs.position k hk]
      have hle := hr k
      have hpos := hs.pos
      rw [mtxStackSize_deep hk] at hle
      rw [maxNesting] at hlt
      omega
    rw [slot_glPushMatrix_of_ne t hne]
    exact hs.slot k hk

theorem Saved.pop (hs : Saved r t depth) (hmode : t.stackMode = 2) (hlt : 1 < depth) :
    Saved r (t.glPopMatrix 1) (depth - 1) := by
  have hle := hs.le
  refine ⟨by omega, by omega, fun k hk => ?_, fun k hk => ?_⟩
  · rw [stack_glPopMatrix, if_pos ((mem_usedStacks_deep hk).mpr hmode), popSize_of_two hmode,
      setStackPosition_neg_one hk _ (hs.position k hk) (by omega), Nat.add_sub_assoc (by omega)]
  · rw [stack_glPopMatrix, if_pos ((mem_usedStacks_deep hk).mpr hmode)]
    exact hs.slot k hk

theorem Saved.keep {s : MatrixRegs} (hs : Saved r t depth)
    (hkeep : ∀ k : Fin 4, k = 1 ∨ k = 2 → s.stack k = t.stack k) : Saved r s depth := by
  refine ⟨hs.pos, hs.le, fun k hk => ?_, fun k hk => ?_⟩
  · rw [hkeep k hk]
    exact hs.position k hk
  · rw [hkeep k hk]
    exact hs.slot k hk

/-- A command that opens and closes no pair of the position modes leaves their stacks. -/
theorem matrixStep_keep {s : MatrixRegs} {op : MatrixOp} (hs : matrixStep t op = some s)
    (hop : t.stackMode ≠ 2 ∨ op ≠ .push ∧ (∀ i, op ≠ .pop i) ∧ ∀ v, op ≠ .store v) {k : Fin 4}
    (hk : k = 1 ∨ k = 2) : s.stack k = t.stack k := by
  have hunused (h : t.stackMode ≠ 2) : k ∉ usedStacks t := mt (mem_usedStacks_deep hk).mp h
  cases op with
  | mode v => rw [← Option.some.inj hs]
  | push =>
    have hmode := hop.resolve_right fun h => h.1 rfl
    rw [← Option.some.inj hs, stack_glPushMatrix, if_neg (hunused hmode)]
  | pop i =>
    have hmode := hop.resolve_right fun h => h.2.1 i rfl
    rw [← Option.some.inj hs, stack_glPopMatrix, if_neg (hunused hmode)]
  | store v =>
    have hmode := hop.resolve_right fun h => h.2.2 v rfl
    have hv : t.slotIndex v < 31 := slotIndex_lt_iff.mpr fun h => absurd h hmode
    obtain ⟨s', hs', hstack⟩ := stack_glStoreMatrix t hv
    rw [Option.some.inj (hs.symm.trans hs'), hstack, if_neg (hunused hmode)]
  | restore v =>
    by_cases hv : t.slotIndex v < 31
    · obtain ⟨s', hs', hstack⟩ := stack_glRestoreMatrix t hv
      rw [Option.some.inj (hs.symm.trans hs'), hstack]
    · exact nomatch (glRestoreMatrix_eq_none t hv).symm.trans hs
  | gxstat val =>
    rw [← Option.some.inj hs]
    refine stack_gxstatWriteStack t ?_ val
    rcases hk with rfl | rfl <;> decide
  | current l m => rw [← Option.some.inj hs]

theorem nestStep_saved {s : MatrixRegs × ℕ} {op : MatrixOp} (hr : r.InRange)
    (hs : Saved r t depth) (hstep : nestStep (t, depth) op = some s) : Saved r s.1 s.2 := by
  obtain ⟨depth', hdepth, hstep⟩ := Option.bind_eq_some_iff.mp hstep
  obtain ⟨t', ht, hstep⟩ := Option.bind_eq_some_iff.mp hstep
  obtain rfl := Option.some.inj hstep
  simp only [nestDepth] at hdepth ht
  by_cases hmode : t.stackMode = 2
  · rw [if_neg (not_not.mpr hmode)] at hdepth
    have hkeep (hop : op ≠ .push ∧ (∀ i, op ≠ .pop i) ∧ ∀ v, op ≠ .store v) : Saved r t' depth :=
      hs.keep fun k hk => matrixStep_keep ht (Or.inr hop) hk
    cases op with
    | push =>
      simp only at hdepth
      split_ifs at hdepth with hlt
      rw [← Option.some.inj hdepth, ← Option.some.inj ht]
      exact hs.push hr hmode hlt
    | pop i =>
      simp only at hdepth
      split_ifs at hdepth with hlt
      rw [← Option.some.inj hdepth, ← Option.some.inj ht, hlt.1]
      exact hs.pop hmode hlt.2
    | store v => exact nomatch hdepth
    | mode | restore | gxstat | current =>
      rw [← Option.some.inj hdepth]
      exact hkeep ⟨nofun, nofun, nofun⟩
  · rw [if_pos hmode] at hdepth
    rw [← Option.some.inj hdepth]
    exact hs.keep fun k hk => matrixStep_keep ht (Or.inl hmode) hk

theorem runM_nestStep_saved {s₀ s : MatrixRegs × ℕ} {body : List MatrixOp} (hr : r.InRange)
    (hs : Saved r s₀.1 s₀.2) (hrun : runM nestStep s₀ body = some s) : Saved r s.1 s.2 :=
  runM_invariant (fun _ _ _ hs hstep => nestStep_saved hr hs hstep) hs hrun

theorem popRestores (hr : r.InRange) : PopRestores r := by
  intro body t hmode hrun ht k hk
  have hsaved : Saved r t 1 := runM_nestStep_saved hr (Saved.push_self hmode) hrun
  have hused := (mem_usedStacks_deep hk).mpr ht
  have hle := hr k
  rw [mtxStackSize_deep hk] at hle
  have hposition : ((t.glPopMatrix 1).stack k).position.toNat = (r.stack k).position.toNat := by
    rw [stack_glPopMatrix, if_pos hused, popSize_of_two ht,
      setStackPosition_neg_one hk _ (hsaved.position k hk) (Nat.le_add_left ..),
      Nat.add_sub_cancel]
    exact Nat.mod_eq_of_lt (by omega)
  refine ⟨?_, BitVec.eq_of_toNat_eq hposition⟩
  rw [current_glPopMatrix, if_pos hused, pushSlot_deep hk, hposition, stack_glPopMatrix,
    if_pos hused]
  exact hsaved.slot k hk

end Nesting

/-- From the reset a run of the stack commands keeps every rule of the stacks exactly if no store
or restore of the position modes has the index 31. -/
theorem matrixRun_iff (r : MatrixRegs) (ops : List MatrixOp) :
    ((∃ s, runM matrixStep (resetStacks r) ops = some s ∧ StacksOk s ∧ PopRestores s) ∧
        AtEachM matrixStep SlotsAllocated (resetStacks r) ops) ↔
      AtEachM matrixStep Admitted (resetStacks r) ops := by
  have hinv (s : MatrixRegs) (op) (s') (h : StacksOk s) (hs' : matrixStep s op = some s') :
      StacksOk s' := (matrixStep_spec h op).keeps s' hs'
  have hresult : (∃ s, runM matrixStep (resetStacks r) ops = some s) ↔
      AtEachM matrixStep Admitted (resetStacks r) ops :=
    runM_isSome_iff (fun s op h => matrixStep_spec h op) (resetStacks_ok r)
  rw [← hresult]
  constructor
  · rintro ⟨⟨s, hs, -⟩, -⟩
    exact ⟨s, hs⟩
  · rintro ⟨s, hs⟩
    have hok := runM_invariant hinv (resetStacks_ok r) hs
    refine ⟨⟨s, hs, hok, popRestores hok.inRange⟩, ?_⟩
    exact atEachM_of_invariant (fun s op h => slotsAllocated h.inRange op) hinv (resetStacks_ok r)
      ops

/-- The index 31 of the position mode fails the assertion. -/
theorem matrixRun_store_31 :
    ¬ ∀ (r : MatrixRegs) (ops : List MatrixOp),
      ∃ s, runM matrixStep (resetStacks r) ops = some s := by
  intro hall
  obtain ⟨s, hs⟩ := hall ⟨0, fun _ _ => 0, fun _ => ⟨0, fun _ => 0⟩, false⟩ [.mode 1, .store 31]
  exact nomatch hs

end Desmume.Geometry
