import Desmume.Arm.DataProcessing
import Desmume.Arm.RegisterBanks

/-! Interrupt and software-interrupt entry, and the instructions that return from them. -/

namespace Desmume.Arm

open Desmume.Library

/-- What every entry does: the registers of the exception mode become active, its `R14` and
`SPSR` record where to return, and ARM state begins with interrupts off. -/
def enterException (cpu : ArmCpu) (mode : Mode) (lr : Word) : ArmCpu :=
  let tmp := cpu.CPSR
  let cpu := ((switchMode cpu (mode.code.setWidth 8)).setR 14 lr).setSPSR tmp
  cpu.setCPSR { cpu.CPSR with T := false, I := true }

/-- `cpu->waitIRQ = 0`. -/
def ArmCpu.wake (cpu : ArmCpu) : ArmCpu := { cpu with waitIRQ := false }

/-- `armcpu_irqException`, which prefetches the first instruction of the vector. -/
def irqException (cpu : ArmCpu) (fetched : Word) : ArmCpu :=
  let cpu := enterException cpu .irq (cpu.instruct_adr + 4)
  let cpu := cpu.setNext (cpu.intVector + 0x18)
  prefetch cpu.wake fetched

/-- The vector path of `OP_SWI` and `OP_SWI_THUMB`. -/
def swiVector (cpu : ArmCpu) : ArmCpu :=
  let cpu := enterException cpu .svc cpu.next_instruction
  (cpu.setR 15 (cpu.intVector + 0x08)).jump

/-- The vectors of the other processor are not those of the built-in BIOS calls. -/
def bypassBuiltinSWI (cpu : ArmCpu) : Bool :=
  (cpu.intVector == 0x00000000 && cpu.proc_ID == .arm9) ||
    (cpu.intVector == 0xFFFF0000 && cpu.proc_ID == .arm7)

/-- The built-in calls, `swi_tab`, are a parameter: the vector path does not use them. -/
def swi (swi_tab : Option (BitVec 5 → ArmCpu → ArmCpu)) (swinum : BitVec 8) (cpu : ArmCpu) :
    ArmCpu :=
  if swinum = 0xFC then cpu
  else
    match swi_tab with
    | some tab => if !bypassBuiltinSWI cpu then tab (swinum.setWidth 5) cpu else swiVector cpu
    | none => swiVector cpu

/-- `OP_SWI`. -/
def opSWI (swi_tab : Option (BitVec 5 → ArmCpu → ArmCpu)) (i : Word) (cpu : ArmCpu) : ArmCpu :=
  swi swi_tab (i.extractLsb' 16 8) cpu

/-- `OP_SWI_THUMB`. -/
def opSWI_THUMB (swi_tab : Option (BitVec 5 → ArmCpu → ArmCpu)) (i : Word) (cpu : ArmCpu) :
    ArmCpu :=
  swi swi_tab (i.extractLsb' 0 8) cpu

/-- `SUBS PC, R14, #4`. -/
def subsPc : ArmCpu → ArmCpu := dataProcessing 0xE25EF004

/-- `MOVS PC, R14`. -/
def movsPc : ArmCpu → ArmCpu := dataProcessing 0xE1B0F00E

/-- The address an instruction is fetched from in the state that `T` selects. -/
def fetchAddress (T : Bool) (adr : Word) : Word := adr &&& if T then 0xFFFFFFFE else 0xFFFFFFFC

theorem fetchAddress_toNat (T : Bool) (adr : Word) :
    (fetchAddress T adr).toNat = adr.toNat - adr.toNat % if T then 2 else 4 := by
  have hbits : fetchAddress T adr =
      if T then (adr >>> 1) <<< 1 else (adr >>> 2) <<< 2 := by
    apply BitVec.eq_of_getLsbD_eq
    intro k hk
    rw [fetchAddress]
    cases T <;> interval_cases k <;> simp
  have hadr := adr.isLt
  rw [hbits]
  cases T <;>
    simp only [Bool.false_eq_true, if_false, if_true, BitVec.toNat_shiftLeft,
      BitVec.toNat_ushiftRight, Nat.shiftLeft_eq, Nat.shiftRight_eq_div_pow] <;> omega

theorem fetchAddress_eq_self {T : Bool} {adr : Word}
    (h : adr.toNat % (if T then 2 else 4) = 0) : fetchAddress T adr = adr := by
  apply BitVec.eq_of_toNat_eq
  rw [fetchAddress_toNat, h, Nat.sub_zero]

/-- The prefetch leaves both addresses aligned for the state the processor is in. -/
theorem prefetch_aligned (cpu : ArmCpu) (fetched : Word) :
    fetchAddress (prefetch cpu fetched).CPSR.T (prefetch cpu fetched).instruct_adr =
        (prefetch cpu fetched).instruct_adr ∧
      fetchAddress (prefetch cpu fetched).CPSR.T (prefetch cpu fetched).next_instruction =
        (prefetch cpu fetched).next_instruction := by
  have hcur := fetchAddress_toNat cpu.CPSR.T cpu.next_instruction
  have hnext := cpu.next_instruction.isLt
  cases hT : cpu.CPSR.T with
  | false =>
    have hprefetch : prefetch cpu fetched =
        { cpu.setR 15 (fetchAddress false cpu.next_instruction + 8) with
          instruct_adr := fetchAddress false cpu.next_instruction
          next_instruction := fetchAddress false cpu.next_instruction + 4
          instruction := fetched } := if_pos hT
    rw [hprefetch]
    rw [hT] at hcur
    simp only [Bool.false_eq_true, if_false] at hcur
    constructor
    · apply fetchAddress_eq_self
      simp only [ArmCpu.setR, ArmCpu.withR, hT, Bool.false_eq_true, if_false]
      omega
    · apply fetchAddress_eq_self
      simp only [ArmCpu.setR, ArmCpu.withR, hT, Bool.false_eq_true, if_false, BitVec.toNat_add]
      change (_ + 4) % 2 ^ 32 % 4 = 0
      omega
  | true =>
    have hprefetch : prefetch cpu fetched =
        { cpu.setR 15 (fetchAddress true cpu.next_instruction + 4) with
          instruct_adr := fetchAddress true cpu.next_instruction
          next_instruction := fetchAddress true cpu.next_instruction + 2
          instruction := fetched } := if_neg (by rw [hT]; decide)
    rw [hprefetch]
    rw [hT] at hcur
    simp only [if_true] at hcur
    constructor
    · apply fetchAddress_eq_self
      simp only [ArmCpu.setR, ArmCpu.withR, hT, if_true]
      omega
    · apply fetchAddress_eq_self
      simp only [ArmCpu.setR, ArmCpu.withR, hT, if_true, BitVec.toNat_add]
      change (_ + 2) % 2 ^ 32 % 2 = 0
      omega

namespace ArmCpu

theorem cell_setSPSR (cpu : ArmCpu) (s : StatusReg) (m : Mode) (c : Cell) :
    (cpu.setSPSR s).cell m c = if owner m .spsr = some c then s.val else cpu.cell m c := by
  simp only [owner_eq_some_iff, cell]
  cases activeReg m c with
  | none => rfl
  | some reg =>
    cases reg with
    | r n => rfl
    | spsr => rfl

theorem cell_setCPSR (cpu : ArmCpu) (s : StatusReg) (m : Mode) (c : Cell) :
    (cpu.setCPSR s).cell m c = cpu.cell m c := rfl

/-- The cells do not see `R15`. -/
theorem cell_setR15 (cpu : ArmCpu) (v : Word) (m : Mode) (c : Cell) :
    (cpu.setR 15 v).cell m c = cpu.cell m c := by
  simp only [cell]
  cases activeReg m c with
  | none => rfl
  | some reg =>
    cases reg with
    | r n => exact cpu.setR_R_of_ne (Fin.castSucc_lt_last n).ne v
    | spsr => rfl

theorem cell_prefetch (cpu : ArmCpu) (fetched : Word) (m : Mode) (c : Cell) :
    (prefetch cpu fetched).cell m c = cpu.cell m c := by
  rw [prefetch]
  split_ifs
  · exact cpu.cell_setR15 _ m c
  · exact cpu.cell_setR15 _ m c

/-- The end of a handler with the S bit returns to the state `SPSR` describes. -/
theorem returnToSPSR_spec (cpu : ArmCpu) {e m : Mode} (he : cpu.CPSR.mode = e.code)
    (hm : cpu.SPSR.mode = m.code) :
    cpu.returnToSPSR.CPSR = cpu.SPSR ∧
      cpu.returnToSPSR.next_instruction = fetchAddress cpu.SPSR.T (cpu.R 15) ∧
      ∀ c, cpu.returnToSPSR.cell m c = cpu.cell e c := by
  have hpc : cpu.restoreSPSR.R 15 = cpu.R 15 := switchMode_R15 cpu _
  have hmask : ∀ T : Bool, (0xFFFFFFFC ||| if T then (2 : Word) else 0) =
      if T then 0xFFFFFFFE else 0xFFFFFFFC := by
    decide
  refine ⟨rfl, ?_, ?_⟩
  · change (cpu.restoreSPSR.setR 15 _).R 15 = _
    rw [setR_R_self, hpc, hmask]
    rfl
  · intro c
    rw [← restoreSPSR_cell cpu he hm c]
    exact cpu.restoreSPSR.cell_setR15 _ m c

end ArmCpu

section Entry

variable {cpu : ArmCpu} {m e : Mode} (hm : cpu.CPSR.mode = m.code) (lr : Word)

include hm in
/-- An entry changes the two cells that record where to return. -/
theorem enterException_cell {c : Cell} (hlr : owner e (.r 14) ≠ some c)
    (hspsr : owner e .spsr ≠ some c) : (enterException cpu e lr).cell e c = cpu.cell m c := by
  have hentry : enterException cpu e lr =
      (((switchMode cpu (e.code.setWidth 8)).write lr (.r 14)).setSPSR cpu.CPSR).setCPSR
        (enterException cpu e lr).CPSR := rfl
  rw [hentry, ArmCpu.cell_setCPSR, ArmCpu.cell_setSPSR, if_neg hspsr, ArmCpu.cell_write, if_neg hlr,
    switchMode_cell hm]

theorem enterException_mode : (enterException cpu e lr).CPSR.mode = e.code := by
  change (switchMode cpu (e.code.setWidth 8)).CPSR.mode = e.code
  rw [switchMode_CPSR]

theorem enterException_R :
    (enterException cpu e lr).R = ((switchMode cpu (e.code.setWidth 8)).setR 14 lr).R := rfl

theorem enterException_lr : (enterException cpu e lr).R 14 = lr := by
  rw [enterException_R, ArmCpu.setR_R_self]

end Entry

theorem subsPc_eq (cpu : ArmCpu) : subsPc cpu = (cpu.setR 15 (cpu.R 14 - 4)).returnToSPSR := by
  have hS : (0xE25EF004 : Word).getLsbD 20 = true := by decide
  have hop : opcodeOf 0xE25EF004 = .sub := by decide
  have hform : operandForm 0xE25EF004 = .immValue := by decide
  have hvalue : immValue 0xE25EF004 = 4 := by decide
  have hd : regPos 0xE25EF004 12 = 15 := by decide
  have hn : regPos 0xE25EF004 16 = 14 := by decide
  rw [subsPc, dataProcessing, if_pos hS, hop, hform]
  simp only [handlerS, shiftOp, hvalue, opSUBS]
  rw [opArithmeticS_pc hd, ArmCpu.rn, hn]

theorem movsPc_eq (cpu : ArmCpu) : movsPc cpu = (cpu.setR 15 (cpu.R 14)).returnToSPSR := by
  have hS : (0xE1B0F00E : Word).getLsbD 20 = true := by decide
  have hop : opcodeOf 0xE1B0F00E = .mov := by decide
  have hform : operandForm 0xE1B0F00E = .lslImm := by decide
  have hshift : shiftImm 0xE1B0F00E = 0 := by decide
  have hvalue : sShiftOp .lslImm 0xE1B0F00E cpu = (cpu.rm 0xE1B0F00E, cpu.CPSR.C) := by
    rw [sShiftOp, sLslImm]
    exact if_pos hshift
  have hm : regPos 0xE1B0F00E 0 = 14 := by decide
  have hd : regPos 0xE1B0F00E 12 = 15 := by decide
  rw [movsPc, dataProcessing, if_pos hS, hop, hform]
  simp only [handlerS, hvalue]
  rw [moveBias_eq (fun _ => by rw [hm]; decide), opMOVS, opLogicalS_pc hd, ArmCpu.rm, hm]

theorem exists_owner (m : Mode) (n : Fin 15) : ∃ c, owner m (.r n) = some c := by
  simp only [owner]
  split_ifs <;> exact ⟨_, rfl⟩

/-- After a return from exception mode `e` the interrupted program of mode `m` goes on at
`next` with its status and every register it owns; the exception keeps two registers, which
are the program's own if it ran in that mode. -/
structure Resumes (m : Mode) (e : ExcMode) (next : Word) (before after : ArmCpu) : Prop where
  cpsr : after.CPSR = before.CPSR
  next : after.next_instruction = fetchAddress before.CPSR.T next
  registers : ∀ n : Fin 15, (n = 14 → m.exc? ≠ some e) →
    after.R n.castSucc = before.R n.castSucc
  banks : ∀ c, c ≠ .lr (some e) → c ≠ .spsr e → after.cell m c = before.cell m c

/-- The two cells an exception keeps. -/
theorem owner_kept {mode : Mode} {e : ExcMode} (he : mode.exc? = some e) {c : Cell}
    (hlr : c ≠ .lr (some e)) (hspsr : c ≠ .spsr e) :
    owner mode (.r 14) ≠ some c ∧ owner mode .spsr ≠ some c := by
  constructor
  · intro h
    have := owner_eq_some_iff.mpr (show activeReg mode (.lr (some e)) = some (.r 14) from if_pos he)
    rw [h] at this
    exact hlr (Option.some.inj this)
  · intro h
    rw [owner, he] at h
    exact hspsr (Option.some.inj h).symm

theorem Resumes.of_cells {m : Mode} {e : ExcMode} {next : Word} {before after : ArmCpu}
    (hcpsr : after.CPSR = before.CPSR)
    (hnext : after.next_instruction = fetchAddress before.CPSR.T next)
    (hcells : ∀ c, c ≠ .lr (some e) → c ≠ .spsr e → after.cell m c = before.cell m c) :
    Resumes m e next before after := by
  refine ⟨hcpsr, hnext, ?_, hcells⟩
  intro n hn
  obtain ⟨c, hc⟩ := exists_owner m n
  have hreg := reg_of_owner hc
  have hcell := hcells c
  rw [← ArmCpu.read_eq_cell after hc, ← ArmCpu.read_eq_cell before hc] at hcell
  apply hcell
  · rintro rfl
    obtain rfl : n = 14 := Reg.r.inj hreg
    have hactive := owner_eq_some_iff.mp hc
    rw [activeReg] at hactive
    split_ifs at hactive with hm
    exact hn rfl hm
  · rintro rfl
    cases hreg

/-- An entry to mode `mode` that leaves `R15` and the program counters aside, followed by a
return to `adr`. -/
theorem resumes_of_entry {cpu entered : ArmCpu} {m : Mode} (mode : Mode) {e : ExcMode}
    (hm : cpu.CPSR.mode = m.code) (he : mode.exc? = some e) (lr : Word) {adr : Word}
    (hmode : entered.CPSR.mode = mode.code) (hspsr : entered.SPSR = cpu.CPSR)
    (hcell : ∀ c, entered.cell mode c = (enterException cpu mode lr).cell mode c) :
    Resumes m e adr cpu (entered.setR 15 adr).returnToSPSR := by
  have hreturn := (entered.setR 15 adr).returnToSPSR_spec (m := m) hmode (by rw [← hm, ← hspsr]; rfl)
  obtain ⟨hcpsr, hnext, hcells⟩ := hreturn
  apply Resumes.of_cells
  · exact hcpsr.trans hspsr
  · rw [hnext, ArmCpu.setR_R_self]
    exact congrArg (fun s : StatusReg => fetchAddress s.T adr) hspsr
  · intro c hlr hspsr
    obtain ⟨h14, hs⟩ := owner_kept he hlr hspsr
    rw [hcells, ArmCpu.cell_setR15, hcell, enterException_cell hm lr h14 hs]

section Frames

variable (cpu : ArmCpu) (v : Word)

theorem prefetch_CPSR : (prefetch cpu v).CPSR = cpu.CPSR := by
  rw [prefetch]
  split_ifs <;> rfl

theorem prefetch_SPSR : (prefetch cpu v).SPSR = cpu.SPSR := by
  rw [prefetch]
  split_ifs <;> rfl

theorem prefetch_lr : (prefetch cpu v).R 14 = cpu.R 14 := by
  rw [prefetch]
  split_ifs
  · exact cpu.setR_R_of_ne (show (14 : Fin 16) ≠ 15 by decide)
      ((cpu.next_instruction &&& 0xFFFFFFFC) + 8)
  · exact cpu.setR_R_of_ne (show (14 : Fin 16) ≠ 15 by decide)
      ((cpu.next_instruction &&& 0xFFFFFFFE) + 4)

theorem wake_setNext_R : (cpu.setNext v).wake.R = cpu.R := rfl

theorem wake_setNext_CPSR : (cpu.setNext v).wake.CPSR = cpu.CPSR := rfl

theorem wake_setNext_SPSR : (cpu.setNext v).wake.SPSR = cpu.SPSR := rfl

theorem cell_wake_setNext (m : Mode) (c : Cell) :
    (cpu.setNext v).wake.cell m c = cpu.cell m c := rfl

theorem jump_setR_lr : (cpu.setR 15 v).jump.R 14 = cpu.R 14 :=
  cpu.setR_R_of_ne (show (14 : Fin 16) ≠ 15 by decide) v

theorem jump_setR_CPSR : (cpu.setR 15 v).jump.CPSR = cpu.CPSR := rfl

theorem jump_setR_SPSR : (cpu.setR 15 v).jump.SPSR = cpu.SPSR := rfl

theorem cell_jump_setR (m : Mode) (c : Cell) : (cpu.setR 15 v).jump.cell m c = cpu.cell m c :=
  cpu.cell_setR15 v m c

theorem enterException_SPSR (e : Mode) (lr : Word) : (enterException cpu e lr).SPSR = cpu.CPSR := rfl

end Frames

theorem irq_resumes {cpu : ArmCpu} {m : Mode} (hm : cpu.CPSR.mode = m.code) (fetched : Word) :
    Resumes m .irq cpu.instruct_adr cpu (subsPc (irqException cpu fetched)) := by
  have hlr : (irqException cpu fetched).R 14 = cpu.instruct_adr + 4 := by
    rw [irqException, prefetch_lr, wake_setNext_R, enterException_lr]
  rw [subsPc_eq, hlr, BitVec.add_sub_cancel]
  apply resumes_of_entry .irq hm rfl (cpu.instruct_adr + 4)
  · rw [irqException, prefetch_CPSR, wake_setNext_CPSR, enterException_mode]
  · rw [irqException, prefetch_SPSR, wake_setNext_SPSR, enterException_SPSR]
  · intro c
    rw [irqException, ArmCpu.cell_prefetch, cell_wake_setNext]

theorem swi_resumes {cpu : ArmCpu} {m : Mode} (hm : cpu.CPSR.mode = m.code) (fetched : Word) :
    Resumes m .svc cpu.next_instruction cpu (movsPc (prefetch (swiVector cpu) fetched)) := by
  have hlr : (prefetch (swiVector cpu) fetched).R 14 = cpu.next_instruction := by
    rw [prefetch_lr, swiVector, jump_setR_lr, enterException_lr]
  rw [movsPc_eq, hlr]
  apply resumes_of_entry .svc hm rfl cpu.next_instruction
  · rw [prefetch_CPSR, swiVector, jump_setR_CPSR, enterException_mode]
  · rw [prefetch_SPSR, swiVector, jump_setR_SPSR, enterException_SPSR]
  · intro c
    rw [ArmCpu.cell_prefetch, swiVector, cell_jump_setR]

theorem swi_vector {swi_tab : Option (BitVec 5 → ArmCpu → ArmCpu)} {cpu : ArmCpu}
    (hpath : swi_tab = none ∨ bypassBuiltinSWI cpu) {swinum : BitVec 8} (hnum : swinum ≠ 0xFC) :
    swi swi_tab swinum cpu = swiVector cpu := by
  unfold swi
  rw [if_neg hnum]
  cases swi_tab with
  | none => rfl
  | some tab =>
    have hbypass : bypassBuiltinSWI cpu = true := by
      rcases hpath with h | h
      · cases h
      · exact h
    simp only [hbypass, Bool.not_true, Bool.false_eq_true, if_false]

/-- Interrupt entry followed by `SUBS PC, R14, #4`, and a software interrupt that takes the
vector followed by `MOVS PC, R14`, resume the program. What they resume at is where the
prefetch had arrived. -/
theorem entry_then_return (cpu : ArmCpu) (m : Mode) (hm : cpu.CPSR.mode = m.code)
    (fetched : Word) :
    Resumes m .irq cpu.instruct_adr cpu (subsPc (irqException cpu fetched)) ∧
      (∀ swi_tab, (swi_tab = none ∨ bypassBuiltinSWI cpu) → ∀ i : Word,
        (i.extractLsb' 16 8 ≠ 0xFC → Resumes m .svc cpu.next_instruction cpu
          (movsPc (prefetch (opSWI swi_tab i cpu) fetched))) ∧
        (i.extractLsb' 0 8 ≠ 0xFC → Resumes m .svc cpu.next_instruction cpu
          (movsPc (prefetch (opSWI_THUMB swi_tab i cpu) fetched)))) ∧
      ∀ earlier word, cpu = prefetch earlier word →
        fetchAddress cpu.CPSR.T cpu.instruct_adr = cpu.instruct_adr ∧
          fetchAddress cpu.CPSR.T cpu.next_instruction = cpu.next_instruction := by
  refine ⟨irq_resumes hm fetched, ?_, ?_⟩
  · intro swi_tab hpath i
    constructor
    · intro hnum
      rw [opSWI, swi_vector hpath hnum]
      exact swi_resumes hm fetched
    · intro hnum
      rw [opSWI_THUMB, swi_vector hpath hnum]
      exact swi_resumes hm fetched
  · rintro earlier word rfl
    exact prefetch_aligned earlier word

theorem entry_then_return_init :
    Resumes .sys .irq (init .arm9 0 0).instruct_adr (init .arm9 0 0)
      (subsPc (irqException (init .arm9 0 0) 0)) :=
  (entry_then_return (init .arm9 0 0) .sys rfl 0).1

/-- Supervisor mode, with a return address of its own. -/
def inSvc : ArmCpu := run bankStep (init .arm9 0 0) [.switch .svc, .write (.r 14) 1]

/-- A software interrupt taken in supervisor mode overwrites that mode's return address. -/
theorem swi_in_svc_loses_lr :
    ¬ ∀ (cpu : ArmCpu) (m : Mode), cpu.CPSR.mode = m.code → m ≠ .irq → ∀ fetched (n : Fin 15),
      (movsPc (prefetch (opSWI none 0xEF000000 cpu) fetched)).R n.castSucc = cpu.R n.castSucc := by
  intro h
  have hlr := h inSvc .svc (by decide) (by decide) 0 14
  rw [movsPc_eq] at hlr
  revert hlr
  decide

end Desmume.Arm
