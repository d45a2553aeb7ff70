import Desmume.Arm.BlockLoad
import Desmume.Arm.RegisterBanks

/-! The block loads with the S bit and `R15` in the list. Half of the eight handlers copy
`SPSR` into `CPSR` before they switch banks, so that the switch saves the registers of the
mode they leave into the bank of the mode they enter. -/

namespace Desmume.Arm

open Desmume.Library

/-! ### The registers a block load leaves -/

def blockAddress (f : LdmForm) (i base : Word) (r : Fin 16) : Word :=
  f.slot (countBefore i r f.order) base

/-- The value of the base after write-back. -/
def blockEnd (f : LdmForm) (i base : Word) : Word := f.advance (f.order.countP (listed i)) base

/-- What a block load leaves in the registers of the mode it runs in. -/
def loadedReg (f : LdmForm) (writeBack : Bool) (mem : Word → Word) (i : Word) (cpu : ArmCpu) :
    Reg → Word
  | .r n =>
    let base := cpu.R (regPos i 16)
    if listed i n.castSucc then mem (blockAddress f i base n.castSucc)
    else if writeBack ∧ regPos i 16 = n.castSucc then blockEnd f i base
    else cpu.R n.castSucc
  | .spsr => cpu.SPSR.val

/-- The word a block load reads for `R15`. -/
def loadedPc (f : LdmForm) (mem : Word → Word) (i : Word) (cpu : ArmCpu) : Word :=
  mem (blockAddress f i (cpu.R (regPos i 16)) 15)

theorem LdmForm.mem_lines (f : LdmForm) (r : Fin 16) : r ∈ f.lines ↔ r ≠ 15 := by
  revert r
  cases f <;> decide

theorem opLs_fst (f : LdmForm) (mem : Word → Word) (i : Word) (cpu : ArmCpu) (start : Word) :
    (opLs f mem i cpu start).1 = cpu.withR fun r =>
      if r ≠ 15 ∧ listed i r then mem (f.slot (countBefore i r f.lines) start) else cpu.R r := by
  rw [opLs, opL_foldl_frame]
  congr 1
  funext r
  have hnodup : f.lines.Nodup := by
    cases f <;> decide
  by_cases hr : r = 15
  · rw [if_neg (fun h => h.1 hr), opL_foldl_of_notMem (fun h => (f.mem_lines r).mp h hr)]
  · rw [opL_foldl_R hnodup ((f.mem_lines r).mpr hr)]
    simp only [ne_eq, hr, not_false_eq_true, true_and]

theorem opLs_snd (f : LdmForm) (mem : Word → Word) (i : Word) (cpu : ArmCpu) (start : Word) :
    (opLs f mem i cpu start).2 = f.advance (f.lines.countP (listed i)) start :=
  opL_foldl_start f mem i _ (cpu, start)

theorem countBefore_append {i : Word} {r : Fin 16} {rs : List (Fin 16)} (h : r ∈ rs)
    (qs : List (Fin 16)) : countBefore i r (rs ++ qs) = countBefore i r rs := by
  induction rs with
  | nil => cases h
  | cons q rs ih =>
    by_cases hq : q = r
    · rw [countBefore, countBefore, List.cons_append, List.takeWhile_cons_of_neg (by simpa using hq),
        List.takeWhile_cons_of_neg (by simpa using hq)]
    · have hrest := ih (List.mem_of_ne_of_mem (Ne.symm hq) h)
      rw [countBefore, countBefore] at hrest ⊢
      rw [List.cons_append, List.takeWhile_cons_of_pos (by simpa using hq),
        List.takeWhile_cons_of_pos (by simpa using hq), List.countP_cons, List.countP_cons, hrest]

theorem countBefore_cons_pc {i : Word} (hpc : listed i 15) {r : Fin 16} (h : r ≠ 15)
    (qs : List (Fin 16)) : countBefore i r (15 :: qs) = 1 + countBefore i r qs := by
  rw [countBefore, List.takeWhile_cons_of_pos (by simpa using Ne.symm h), List.countP_cons,
    if_pos hpc, Nat.add_comm]
  rfl

/-- `start` when a handler comes to its lines: the descending ones have read `R15` before. -/
def LdmForm.linesStart (f : LdmForm) (base : Word) : Word :=
  match f with
  | .ia | .ib => base
  | .da | .db => f.advance 1 base

theorem slot_lines {i : Word} (hpc : listed i 15) (f : LdmForm) (base : Word) {r : Fin 16}
    (hr : r ≠ 15) : f.slot (countBefore i r f.lines) (f.linesStart base) = blockAddress f i base r := by
  have hmem := (f.mem_lines r).mpr hr
  rw [blockAddress]
  cases f with
  | ia | ib =>
    rw [LdmForm.order, countBefore_append hmem]
    rfl
  | da | db =>
    rw [LdmForm.order, countBefore_cons_pc hpc hr, LdmForm.linesStart, LdmForm.slot_advance]

/-- Where the lines leave `start`, and what that says of the base and of the word of `R15`. -/
theorem start_after_lines {i : Word} (hpc : listed i 15) (f : LdmForm) (base : Word) :
    let start := f.advance (f.lines.countP (listed i)) (f.linesStart base)
    match f with
    | .ia => blockEnd f i base = start + 4 ∧ blockAddress f i base 15 = start
    | .ib => blockEnd f i base = start + 4 ∧ blockAddress f i base 15 = start + 4
    | .da => blockEnd f i base = start ∧ blockAddress f i base 15 = base
    | .db => blockEnd f i base = start ∧ blockAddress f i base 15 = base - 4 := by
  have hup : ∀ rs : List (Fin 16), (15 : Fin 16) ∉ rs →
      countBefore i 15 (rs ++ [15]) = rs.countP (listed i) := by
    intro rs hrs
    rw [countBefore, List.takeWhile_append_of_pos]
    · simp
    · intro r hr
      simpa using fun h : r = 15 => hrs (h ▸ hr)
  have hfirst : ∀ rs : List (Fin 16), countBefore i 15 (15 :: rs) = 0 := by
    intro rs
    rw [countBefore, List.takeWhile_cons_of_neg (by simp), List.countP_nil]
  have hend : ∀ k, f.advance (k + 1) base = f.advance 1 (f.advance k base) := by
    intro k
    rw [LdmForm.advance_advance]
  have hlines : (15 : Fin 16) ∉ f.lines := fun h => (f.mem_lines 15).mp h rfl
  rw [blockEnd, blockAddress]
  cases f with
  | ia =>
    rw [LdmForm.order, List.countP_append, List.countP_singleton, if_pos hpc, hup _ hlines, hend]
    exact ⟨rfl, rfl⟩
  | ib =>
    rw [LdmForm.order, List.countP_append, List.countP_singleton, if_pos hpc, hup _ hlines, hend,
      LdmForm.slot, if_pos (by rfl), hend]
    exact ⟨rfl, rfl⟩
  | da | db =>
    rw [LdmForm.order, List.countP_cons, if_pos hpc, hfirst, LdmForm.slot_zero, LdmForm.linesStart,
      LdmForm.advance_advance, Nat.add_comm]
    exact ⟨rfl, rfl⟩

/-- The processor once the whole list is loaded and the base written back, in its old mode. -/
def loaded (f : LdmForm) (writeBack : Bool) (mem : Word → Word) (i : Word) (cpu : ArmCpu) : ArmCpu :=
  cpu.withR fun r =>
    if h : r.val < 15 then loadedReg f writeBack mem i cpu (.r ⟨r, h⟩)
    else pcMask (loadedPc f mem i cpu)

/-- The handlers that copy `SPSR` before they switch banks. -/
def copiesEarly : LdmForm → Bool → Bool
  | .ia, _ => false
  | .ib, writeBack => writeBack
  | .da, writeBack => !writeBack
  | .db, _ => true

theorem withR_eq_loaded {f : LdmForm} {writeBack : Bool} {mem : Word → Word} {i : Word}
    {cpu : ArmCpu} {R : Fin 16 → Word}
    (hR : ∀ r, r ≠ 15 → R r =
      if listed i r then mem (blockAddress f i (cpu.R (regPos i 16)) r)
      else if writeBack ∧ regPos i 16 = r then blockEnd f i (cpu.R (regPos i 16)) else cpu.R r)
    (hpc : R 15 = pcMask (loadedPc f mem i cpu)) :
    cpu.withR R = loaded f writeBack mem i cpu := by
  rw [loaded]
  congr 1
  funext r
  by_cases h : r.val < 15
  · rw [dif_pos h, hR r (fun h15 => absurd h (h15 ▸ by decide))]
    rfl
  · rw [dif_neg h, ← hpc]
    congr 1
    apply Fin.ext
    change r.val = 15
    omega

theorem restoreSPSR_jump (cpu : ArmCpu) : cpu.restoreSPSR.jump = cpu.restoreSPSR.setNext (cpu.R 15) := by
  rw [ArmCpu.jump, ArmCpu.restoreSPSR]
  exact congrArg _ (switchMode_R15 cpu _)

theorem setNext_restoreSPSR (cpu : ArmCpu) (v : Word) :
    (cpu.setNext v).restoreSPSR = cpu.restoreSPSR.setNext v := by
  rw [ArmCpu.restoreSPSR, switchMode_setNext]
  rfl

/-- The registers after the lines of a handler, when they are gone through from `start`. -/
def linesR (f : LdmForm) (mem : Word → Word) (i start : Word) (R : Fin 16 → Word) : Fin 16 → Word :=
  fun r => if r ≠ 15 ∧ listed i r then mem (f.slot (countBefore i r f.lines) start) else R r

theorem opLs_eq (f : LdmForm) (mem : Word → Word) (i : Word) (cpu : ArmCpu) (start : Word) :
    opLs f mem i cpu start =
      (cpu.withR (linesR f mem i start cpu.R), f.advance (f.lines.countP (listed i)) start) :=
  Prod.ext (opLs_fst f mem i cpu start) (opLs_snd f mem i cpu start)

theorem linesR_of_ne {f : LdmForm} {i : Word} (hpc : listed i 15) (mem : Word → Word) (base : Word)
    (R : Fin 16 → Word) {r : Fin 16} (hr : r ≠ 15) :
    linesR f mem i (f.linesStart base) R r =
      if listed i r then mem (blockAddress f i base r) else R r := by
  rw [linesR, slot_lines hpc f base hr]
  simp only [ne_eq, hr, not_false_eq_true, true_and]

theorem linesR_pc (f : LdmForm) (mem : Word → Word) (i start : Word) (R : Fin 16 → Word) :
    linesR f mem i start R 15 = R 15 := if_neg fun h => h.1 rfl

section Handlers

variable {mem : Word → Word} {i : Word} {cpu : ArmCpu}

theorem loaded_ascending {f : LdmForm} (hup : f = .ia ∨ f = .ib) (hpc : listed i 15) :
    (cpu.withR (linesR f mem i (cpu.R (regPos i 16)) cpu.R)).setR 15 (pcMask (loadedPc f mem i cpu)) =
      loaded f false mem i cpu := by
  have hstart : cpu.R (regPos i 16) = f.linesStart (cpu.R (regPos i 16)) := by
    rcases hup with rfl | rfl <;> rfl
  rw [ArmCpu.setR_withR]
  apply withR_eq_loaded
  · intro r hr
    rw [Function.update_of_ne hr, hstart, linesR_of_ne hpc mem _ _ hr, ← hstart]
    simp only [Bool.false_eq_true, false_and, if_false]
  · exact Function.update_self _ _ _

theorem loaded_ascending_writeBack {f : LdmForm} (hup : f = .ia ∨ f = .ib) (hpc : listed i 15)
    (hbase : ¬ listed i (regPos i 16)) :
    (writeBase i (blockEnd f i (cpu.R (regPos i 16)))
      (cpu.withR (linesR f mem i (cpu.R (regPos i 16)) cpu.R))).setR 15
        (pcMask (loadedPc f mem i cpu)) = loaded f true mem i cpu := by
  have hstart : cpu.R (regPos i 16) = f.linesStart (cpu.R (regPos i 16)) := by
    rcases hup with rfl | rfl <;> rfl
  rw [writeBase, if_neg hbase, ArmCpu.setR_withR, ArmCpu.setR_withR]
  apply withR_eq_loaded
  · intro r hr
    rw [Function.update_of_ne hr, Function.update_apply, hstart, linesR_of_ne hpc mem _ _ hr,
      ← hstart]
    by_cases hr : r = regPos i 16
    · rw [if_pos hr, hr, if_neg hbase, if_pos ⟨rfl, rfl⟩]
    · have hother : ¬ (true = true ∧ regPos i 16 = r) := fun h => hr h.2.symm
      rw [if_neg hr, if_neg hother]
  · exact Function.update_self _ _ _

theorem loaded_descending {f : LdmForm} (hdown : f = .da ∨ f = .db) (hpc : listed i 15) :
    cpu.withR (linesR f mem i (cpu.R (regPos i 16) - 4)
      (Function.update cpu.R 15 (pcMask (loadedPc f mem i cpu)))) = loaded f false mem i cpu := by
  have hstart : cpu.R (regPos i 16) - 4 = f.linesStart (cpu.R (regPos i 16)) := by
    rcases hdown with rfl | rfl <;> rfl
  apply withR_eq_loaded
  · intro r hr
    rw [hstart, linesR_of_ne hpc mem _ _ hr, Function.update_of_ne hr]
    simp only [Bool.false_eq_true, false_and, if_false]
  · rw [linesR_pc, Function.update_self]

theorem loaded_descending_writeBack {f : LdmForm} (hdown : f = .da ∨ f = .db) (hpc : listed i 15)
    (hbase : ¬ listed i (regPos i 16)) :
    writeBase i (blockEnd f i (cpu.R (regPos i 16)))
      (cpu.withR (linesR f mem i (cpu.R (regPos i 16) - 4)
        (Function.update cpu.R 15 (pcMask (loadedPc f mem i cpu))))) = loaded f true mem i cpu := by
  have hstart : cpu.R (regPos i 16) - 4 = f.linesStart (cpu.R (regPos i 16)) := by
    rcases hdown with rfl | rfl <;> rfl
  have hne : regPos i 16 ≠ 15 := fun h => hbase (h ▸ hpc)
  rw [writeBase, if_neg hbase, ArmCpu.setR_withR]
  apply withR_eq_loaded
  · intro r hr
    rw [Function.update_apply, hstart, linesR_of_ne hpc mem _ _ hr, Function.update_of_ne hr]
    by_cases hr : r = regPos i 16
    · rw [if_pos hr, hr, if_neg hbase, if_pos ⟨rfl, rfl⟩]
    · have hother : ¬ (true = true ∧ regPos i 16 = r) := fun h => hr h.2.symm
      rw [if_neg hr, if_neg hother]
  · rw [Function.update_of_ne (Ne.symm hne), linesR_pc, Function.update_self]

/-- The descending handlers set `R15` and `next_instruction` before they load the rest. -/
theorem lines_after_jump (f : LdmForm) (start v : Word) :
    ((cpu.setR 15 v).jump).withR (linesR f mem i start ((cpu.setR 15 v).jump).R) =
      (cpu.withR (linesR f mem i start (Function.update cpu.R 15 v))).setNext v := by
  have hjump : (cpu.setR 15 v).jump = (cpu.setR 15 v).setNext v :=
    congrArg (cpu.setR 15 v).setNext (cpu.setR_R_self 15 v)
  rw [hjump]
  rfl

theorem lines_after_copySPSR (f : LdmForm) (start v : Word) :
    ((cpu.setR 15 v).copySPSR.jump).withR
        (linesR f mem i start ((cpu.setR 15 v).copySPSR.jump).R) =
      ((cpu.withR (linesR f mem i start (Function.update cpu.R 15 v))).copySPSR).setNext v := by
  have hjump : (cpu.setR 15 v).copySPSR.jump = (cpu.setR 15 v).copySPSR.setNext v :=
    congrArg (cpu.setR 15 v).copySPSR.setNext (cpu.setR_R_self 15 v)
  rw [hjump]
  rfl

theorem writeBase_setNext (start v : Word) :
    writeBase i start (cpu.setNext v) = (writeBase i start cpu).setNext v := by
  rw [writeBase, writeBase]
  split <;> rfl

theorem writeBase_copySPSR (start : Word) :
    writeBase i start cpu.copySPSR = (writeBase i start cpu).copySPSR := by
  rw [writeBase, writeBase]
  split <;> rfl

end Handlers

/-- Every handler loads the list, and then returns with `CPSR` copied early or not. -/
theorem ldm2_eq {f : LdmForm} {writeBack : Bool} {mem : Word → Word} {i : Word} {cpu : ArmCpu}
    (hpc : listed i 15) (hbase : ¬ listed i (regPos i 16)) :
    ldm2 f writeBack mem i cpu =
      ((if copiesEarly f writeBack then (loaded f writeBack mem i cpu).copySPSR
        else loaded f writeBack mem i cpu).restoreSPSR).setNext (pcMask (loadedPc f mem i cpu)) := by
  have hlast : (loaded f writeBack mem i cpu).R 15 = pcMask (loadedPc f mem i cpu) := rfl
  have hstart := start_after_lines hpc f (cpu.R (regPos i 16))
  cases f with
  | ia =>
    have haddr : mem (LdmForm.ia.advance (LdmForm.ia.lines.countP (listed i)) (cpu.R (regPos i 16))) =
        loadedPc .ia mem i cpu := congrArg mem hstart.2.symm
    have hend : LdmForm.ia.advance (LdmForm.ia.lines.countP (listed i)) (cpu.R (regPos i 16)) + 4 =
        blockEnd .ia i (cpu.R (regPos i 16)) := hstart.1.symm
    cases writeBack with
    | false =>
      rw [ldm2, ldmia2, if_pos hpc, opLs_eq]
      simp only
      rw [haddr, loaded_ascending (.inl rfl) hpc, restoreSPSR_jump]
      rfl
    | true =>
      rw [ldm2, ldmia2W, if_pos hpc, opLs_eq]
      simp only
      rw [haddr, hend, loaded_ascending_writeBack (.inl rfl) hpc hbase, restoreSPSR_jump]
      rfl
  | ib =>
    have hend : LdmForm.ib.advance (LdmForm.ib.lines.countP (listed i)) (cpu.R (regPos i 16)) + 4 =
        blockEnd .ib i (cpu.R (regPos i 16)) := hstart.1.symm
    have haddr : mem (blockEnd .ib i (cpu.R (regPos i 16))) = loadedPc .ib mem i cpu :=
      congrArg mem (hstart.1.trans hstart.2.symm)
    cases writeBack with
    | false =>
      rw [ldm2, ldmib2, if_pos hpc, opLs_eq]
      simp only
      rw [hend, haddr, loaded_ascending (.inr rfl) hpc, restoreSPSR_jump]
      rfl
    | true =>
      rw [ldm2, ldmib2W, if_pos hpc, opLs_eq]
      simp only
      rw [hend, haddr, loaded_ascending_writeBack (.inr rfl) hpc hbase, ArmCpu.jump,
        setNext_restoreSPSR]
      rfl
  | da =>
    have haddr : mem (cpu.R (regPos i 16)) = loadedPc .da mem i cpu := congrArg mem hstart.2.symm
    have hend : LdmForm.da.advance (LdmForm.da.lines.countP (listed i)) (cpu.R (regPos i 16) - 4) =
        blockEnd .da i (cpu.R (regPos i 16)) := hstart.1.symm
    cases writeBack with
    | false =>
      rw [ldm2, ldmda2, if_pos hpc]
      simp only
      rw [haddr, opLs_eq]
      simp only
      rw [lines_after_copySPSR, loaded_descending (.inl rfl) hpc, setNext_restoreSPSR]
      rfl
    | true =>
      rw [ldm2, ldmda2W, if_pos hpc]
      simp only
      rw [haddr, opLs_eq]
      simp only
      rw [lines_after_jump, hend, writeBase_setNext, loaded_descending_writeBack (.inl rfl) hpc hbase,
        setNext_restoreSPSR]
      rfl
  | db =>
    have haddr : mem (cpu.R (regPos i 16) - 4) = loadedPc .db mem i cpu := congrArg mem hstart.2.symm
    have hend : LdmForm.db.advance (LdmForm.db.lines.countP (listed i)) (cpu.R (regPos i 16) - 4) =
        blockEnd .db i (cpu.R (regPos i 16)) := hstart.1.symm
    cases writeBack with
    | false =>
      rw [ldm2, ldmdb2, if_pos hpc]
      simp only
      rw [haddr, opLs_eq]
      simp only
      rw [lines_after_copySPSR, loaded_descending (.inr rfl) hpc, setNext_restoreSPSR]
      rfl
    | true =>
      rw [ldm2, ldmdb2W, if_pos hpc]
      simp only
      rw [haddr, opLs_eq]
      simp only
      rw [lines_after_copySPSR, hend, writeBase_setNext, writeBase_copySPSR,
        loaded_descending_writeBack (.inr rfl) hpc hbase, setNext_restoreSPSR]
      rfl

/-! ### The law of an exception return -/

/-- A return from mode `m` by a block load restores `CPSR`, the banks of every other mode and,
out of them, the registers of the mode it returns to. -/
structure ReturnsFromException (f : LdmForm) (writeBack : Bool) (mem : Word → Word) (i : Word)
    (m : Mode) (before after : ArmCpu) : Prop where
  cpsr : after.CPSR = before.SPSR
  pc : after.R 15 = pcMask (loadedPc f mem i before) ∧ after.next_instruction = after.R 15
  visible : ∀ target, before.SPSR.mode = target.code → ∀ n c, 8 ≤ n.val →
    owner target (.r n) = some c → after.read (.r n) =
      if owner m (.r n) = some c then loadedReg f writeBack mem i before (.r n) else before.cell m c
  banks : ∀ target, before.SPSR.mode = target.code → ∀ c, (∀ reg, owner m reg ≠ some c) →
    after.cell target c = before.cell m c

theorem loaded_read (f : LdmForm) (writeBack : Bool) (mem : Word → Word) (i : Word) (cpu : ArmCpu)
    (reg : Reg) : (loaded f writeBack mem i cpu).read reg = loadedReg f writeBack mem i cpu reg := by
  cases reg with
  | r n => exact dif_pos n.isLt
  | spsr => rfl

/-- A cell after the loads, seen from mode `m`. -/
theorem loaded_cell (f : LdmForm) (writeBack : Bool) (mem : Word → Word) (i : Word) (cpu : ArmCpu)
    (m : Mode) (c : Cell) :
    (loaded f writeBack mem i cpu).cell m c =
      if owner m c.reg = some c then loadedReg f writeBack mem i cpu c.reg else cpu.copy c := by
  by_cases h : owner m c.reg = some c
  · rw [if_pos h, ← ArmCpu.read_eq_cell _ h, loaded_read]
  · rw [if_neg h, ArmCpu.cell]
    cases hactive : activeReg m c with
    | none => rfl
    | some reg =>
      have howner := owner_eq_some_iff.mpr hactive
      exact absurd (reg_of_owner howner ▸ howner) h

/-- A cell that mode `m` does not own is kept in its saved copy. -/
theorem cell_of_not_owner {m : Mode} {c : Cell} (h : ∀ reg, owner m reg ≠ some c) (cpu : ArmCpu) :
    cpu.cell m c = cpu.copy c := by
  rw [ArmCpu.cell]
  cases hactive : activeReg m c with
  | none => rfl
  | some reg => exact absurd (owner_eq_some_iff.mpr hactive) (h reg)

theorem not_owner_of_reg {m : Mode} {c : Cell} (h : owner m c.reg ≠ some c) (reg : Reg) :
    owner m reg ≠ some c := fun howner => h (reg_of_owner howner ▸ howner)

/-- The handlers return from the exception, except that those which copy `SPSR` early need
every register with a cell of its own in the restored mode to hold already, once the list is
loaded, what that cell holds. -/
theorem ldm2_returns_iff (f : LdmForm) (writeBack : Bool) (mem : Word → Word) (i : Word)
    (cpu : ArmCpu) (m : Mode) (hm : cpu.CPSR.mode = m.code) (hpc : listed i 15)
    (hbase : ¬ listed i (regPos i 16)) :
    ReturnsFromException f writeBack mem i m cpu (ldm2 f writeBack mem i cpu) ↔
      copiesEarly f writeBack = false ∨
        ∀ target, cpu.SPSR.mode = target.code → ∀ reg c, owner target reg = some c →
          owner m reg ≠ some c → loadedReg f writeBack mem i cpu reg = cpu.cell m c := by
  rw [ldm2_eq hpc hbase]
  have hafter : ∀ X : ArmCpu, X.R 15 = pcMask (loadedPc f mem i cpu) →
      (X.restoreSPSR.setNext (pcMask (loadedPc f mem i cpu))).R 15 =
        pcMask (loadedPc f mem i cpu) := by
    intro X hX
    exact (switchMode_R15 X _).trans hX
  cases hearly : copiesEarly f writeBack with
  | false =>
    refine iff_of_true ?_ (.inl rfl)
    have hcell : ∀ target, cpu.SPSR.mode = target.code → ∀ c,
        ((loaded f writeBack mem i cpu).restoreSPSR.setNext (pcMask (loadedPc f mem i cpu))).cell
          target c = if owner m c.reg = some c then loadedReg f writeBack mem i cpu c.reg
            else cpu.copy c := by
      intro target htarget c
      rw [← loaded_cell]
      exact restoreSPSR_cell (loaded f writeBack mem i cpu) hm htarget c
    rw [if_neg Bool.false_ne_true]
    constructor
    · rfl
    · exact ⟨hafter _ rfl, (hafter _ rfl).symm⟩
    · intro target htarget n c _ hc
      rw [ArmCpu.read_eq_cell _ hc, hcell target htarget, ← reg_of_owner hc]
      split_ifs with howner
      · rfl
      · exact (cell_of_not_owner (not_owner_of_reg (reg_of_owner hc ▸ howner)) cpu).symm
    · intro target htarget c hc
      rw [hcell target htarget, if_neg (hc _), cell_of_not_owner hc]
  | true =>
    have hcell : ∀ target, cpu.SPSR.mode = target.code → ∀ c,
        ((loaded f writeBack mem i cpu).copySPSR.restoreSPSR.setNext
          (pcMask (loadedPc f mem i cpu))).cell target c =
            if owner target c.reg = some c then loadedReg f writeBack mem i cpu c.reg
            else cpu.copy c := by
      intro target htarget c
      rw [← loaded_cell]
      exact restoreSPSR_cell (loaded f writeBack mem i cpu).copySPSR htarget htarget c
    rw [if_pos rfl, or_iff_right (by simp)]
    constructor
    · intro h target htarget reg c hc hm
      have hnot : ∀ r, owner m r ≠ some c := not_owner_of_reg (reg_of_owner hc ▸ hm)
      have hbank := h.banks target htarget c hnot
      rw [hcell target htarget, ← reg_of_owner hc, if_pos hc] at hbank
      exact hbank
    · intro h
      constructor
      · rfl
      · exact ⟨hafter _ rfl, (hafter _ rfl).symm⟩
      · intro target htarget n c _ hc
        rw [ArmCpu.read_eq_cell _ hc, hcell target htarget, ← reg_of_owner hc, if_pos hc]
        split_ifs with howner
        · rfl
        · exact h target htarget _ c hc howner
      · intro target htarget c hc
        rw [hcell target htarget]
        split_ifs with howner
        · exact h target htarget _ c howner (hc _)
        · exact (cell_of_not_owner hc cpu).symm

/-- IRQ mode with a stack pointer of its own, about to return to user mode. -/
def inIrq : ArmCpu :=
  run bankStep (init .arm9 0 0) [.switch .irq, .write (.r 13) 1, .write .spsr 0x10]

theorem ldmib2_returns_inIrq :
    ReturnsFromException .ib false (fun _ => 0) 0xE9D08000 .irq inIrq
      (ldm2 .ib false (fun _ => 0) 0xE9D08000 inIrq) :=
  (ldm2_returns_iff .ib false (fun _ => 0) 0xE9D08000 inIrq .irq (by decide) (by decide)
    (by decide)).mpr (.inl rfl)

/-- `LDMDB R0, {PC}^` leaves the user mode stack pointer at the value IRQ mode had. -/
theorem ldmdb2_keeps_irq_stack :
    ¬ ∀ (f : LdmForm) (writeBack : Bool) (mem : Word → Word) (i : Word) (cpu : ArmCpu) (m : Mode),
      cpu.CPSR.mode = m.code → m.exc? ≠ none → listed i 15 → ¬ listed i (regPos i 16) →
        ReturnsFromException f writeBack mem i m cpu (ldm2 f writeBack mem i cpu) := by
  intro h
  have hreturn := h .db false (fun _ => 0) 0xE9508000 inIrq .irq (by decide) (by decide)
    (by decide) (by decide)
  have hstack := hreturn.visible .usr (by decide) 13 (.sp none) (by decide) (by decide)
  revert hstack
  decide

end Desmume.Arm
