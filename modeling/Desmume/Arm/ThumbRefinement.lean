import Desmume.Arm.ThumbMemory
import Mathlib.Data.List.TakeWhile

/-! Every THUMB handler against the ARM handler of the instruction it abbreviates. -/

namespace Desmume.Arm

variable {μ : Type*}

/-- Equal registers `R0` to `R14`, condition flags and memory. -/
structure Agree (s t : Machine μ) : Prop where
  R : ∀ r, r ≠ 15 → s.cpu.R r = t.cpu.R r
  N : s.cpu.CPSR.N = t.cpu.CPSR.N
  Z : s.cpu.CPSR.Z = t.cpu.CPSR.Z
  C : s.cpu.CPSR.C = t.cpu.CPSR.C
  V : s.cpu.CPSR.V = t.cpu.CPSR.V
  mem : s.mem = t.mem

namespace Agree

theorem refl (s : Machine μ) : Agree s s := ⟨fun _ _ => rfl, rfl, rfl, rfl, rfl, rfl⟩

end Agree

namespace Thumb

/-! ### The refinement -/

/-- An instruction whose destination is `R15`. -/
def Op.WritesPc (op : Op) (i : Word) : Prop :=
  match op with
  | .ADD_SPE | .MOV_SPE => regHi i = 15
  | .POP_PC => True
  | _ => False

/-- A block transfer whose base register is in its register list. -/
def Op.BaseListed (op : Op) (i : Word) : Prop :=
  match op with
  | .STMIA_THUMB | .LDMIA_THUMB => listed i (regNum i 8) = true
  | _ => False

/-- The state the ARM instruction is executed in: as an operand of the two forms relative to
the program counter `R15` is a word address. -/
def Op.armState (op : Op) (s : Machine μ) : Machine μ :=
  match op with
  | .LDR_PCREL | .ADD_2PC => { s with cpu := s.cpu.setR 15 (s.cpu.R 15 &&& 0xFFFFFFFC) }
  | _ => s

/-- The THUMB handler leaves what the handler of the abbreviated ARM instruction leaves. -/
def Refines (bus : Bus μ) (op : Op) (i : Word) (s : Machine μ) : Prop :=
  ∃ f, armInstruction bus (op.armWord i) = some f ∧
    Agree (execute bus op i s) (f (op.armState s))

/-- The word that `LDR Rd, [SP, #imm]` reads does not change when it is rotated by its
address. -/
def RotationUnseen (bus : Bus μ) (i : Word) (s : Machine μ) : Prop :=
  rotateUnaligned (adrSp i s) (bus.READ32 (adrSp i s) s.mem).1 = (bus.READ32 (adrSp i s) s.mem).1

/-- The table sends a shift by zero to a handler of its own. -/
theorem entry_shift : ∀ k < 0x340, k % 32 = 0 →
    entry k ≠ some .LSL ∧ entry k ≠ some .LSR ∧ entry k ≠ some .ASR := by
  decide +kernel

theorem entry_branch {k : ℕ} (h : 0x340 ≤ k) : entry k = none := by
  have hall : table.takeWhile (·.1 ≤ k) = table := by
    apply List.takeWhile_eq_self_iff.mpr
    intro e he
    apply decide_eq_true
    have : ∀ e ∈ table, e.1 ≤ 0x340 := by decide
    exact (this e he).trans h
  rw [entry, hall]
  rfl

theorem imm5_ne_zero {i : Word} {op : Op} (h : op? i = some op)
    (hop : op = .LSL ∨ op = .LSR ∨ op = .ASR) : (imm5Field i).toNat ≠ 0 := by
  intro hzero
  have hmod : (i >>> 6).toNat % 32 = 0 := by
    rw [← hzero, imm5Field, BitVec.extractLsb'_toNat, BitVec.toNat_ushiftRight]
  have hlt : (i >>> 6).toNat < 0x340 := by
    by_contra hge
    rw [op?, entry_branch (Nat.not_lt.mp hge)] at h
    cases h
  obtain ⟨hl, hr, ha⟩ := entry_shift _ hlt hmod
  rcases hop with rfl | rfl | rfl
  · exact hl h
  · exact hr h
  · exact ha h

section Refinement

variable {bus : Bus μ} {i : Word} {s : Machine μ} {op : Op}

theorem refines_of_eq {f : Machine μ → Machine μ} (h : armInstruction bus (op.armWord i) = some f)
    (hf : f (op.armState s) = execute bus op i s) : Refines bus op i s := by
  refine ⟨f, h, ?_⟩
  rw [hf]
  exact Agree.refl _

/-- The handlers that work on the processor alone. -/
theorem refines_of_cpu {g : ArmCpu → ArmCpu} {c : ArmCpu}
    (h : armInstruction bus (op.armWord i) = some fun s => { s with cpu := g s.cpu })
    (hs : op.armState s = s) (hg : g s.cpu = c) (hop : execute bus op i s = { s with cpu := c }) :
    Refines bus op i s := by
  apply refines_of_eq h
  rw [hs, hop, hg]

theorem refines_of_dpShift {o : Opcode} {S : Bool} {rd rn rm : BitVec 4} {type : ShiftType}
    {imm : BitVec 5} {c : ArmCpu} (hword : op.armWord i = dpShift o S rd rn rm type imm)
    (htest : o.isTest = true → S = true) (hs : op.armState s = s)
    (hc : (if S then handlerS o type.immForm (op.armWord i) s.cpu
      else handler o type.immForm (op.armWord i) s.cpu) = c)
    (hop : execute bus op i s = { s with cpu := c }) : Refines bus op i s := by
  rw [hword] at hc
  refine refines_of_cpu (g := fun cpu =>
    if S then handlerS o type.immForm (dpShift o S rd rn rm type imm) cpu
    else handler o type.immForm (dpShift o S rd rn rm type imm) cpu) ?_ hs hc hop
  rw [hword]
  exact armInstruction_dpShift o S rd rn rm type bus imm htest

theorem refines_of_dpRegShift {rd rm rs : BitVec 4} {type : ShiftType} {c : ArmCpu}
    (hword : op.armWord i = dpRegShift .mov true rd 0 rm type rs) (hs : op.armState s = s)
    (hc : handlerS .mov type.regForm (op.armWord i) s.cpu = c)
    (hop : execute bus op i s = { s with cpu := c }) : Refines bus op i s := by
  rw [hword] at hc
  refine refines_of_cpu ?_ hs hc hop
  rw [hword]
  exact armInstruction_dpRegShift .mov true rd 0 rm type bus rs nofun

theorem refines_of_dpImm {o : Opcode} {S : Bool} {rd rn rot : BitVec 4} {imm : BitVec 8}
    {c : ArmCpu} (hword : op.armWord i = dpImm o S rd rn rot imm)
    (htest : o.isTest = true → S = true) (hs : op.armState s = s)
    (hc : (if S then handlerS o .immValue (op.armWord i) s.cpu
      else handler o .immValue (op.armWord i) s.cpu) = c)
    (hop : execute bus op i s = { s with cpu := c }) : Refines bus op i s := by
  rw [hword] at hc
  refine refines_of_cpu (g := fun cpu =>
    if S then handlerS o .immValue (dpImm o S rd rn rot imm) cpu
    else handler o .immValue (dpImm o S rd rn rot imm) cpu) ?_ hs hc hop
  rw [hword]
  exact armInstruction_dpImm o S rd rn bus rot imm htest

/-- The loads and stores of one datum and the block transfers, but for those relative to `SP`
and `PC`. -/
theorem refines_of_memory {f : Machine μ → Machine μ}
    (h : armInstruction bus (op.armWord i) = some f) (hs : op.armState s = s)
    (hf : f s = execute bus op i s) : Refines bus op i s :=
  refines_of_eq h (by rw [hs, hf])

end Refinement

/-- The program counter is not compared. -/
theorem agree_setR_pc (cpu : ArmCpu) (pc : Word) (n : Fin 16) (v : Word) (mem : μ) :
    Agree ⟨cpu.setR n v, mem⟩ ⟨(cpu.setR 15 pc).setR n v, mem⟩ := by
  refine ⟨?_, rfl, rfl, rfl, rfl, rfl⟩
  intro r hr
  by_cases hn : r = n
  · subst hn
    rw [ArmCpu.setR_R_self, ArmCpu.setR_R_self]
  · rw [ArmCpu.setR_R_of_ne _ hn, ArmCpu.setR_R_of_ne _ hn, ArmCpu.setR_R_of_ne _ hr]

theorem rotateUnaligned_of_aligned {adr : Word} (h : adr &&& 3 = 0) (x : Word) :
    rotateUnaligned adr x = x := by
  rw [rotateUnaligned, h]
  exact ror_zero x

theorem wordAddress_aligned (x y : Word) : ((x &&& 0xFFFFFFFC) + y <<< 2) &&& 3 = 0 := by
  have hx : x &&& 0xFFFFFFFC = (x >>> 2) <<< 2 := by
    apply BitVec.eq_of_getLsbD_eq
    intro k hk
    interval_cases k <;> simp
  rw [hx, ← BitVec.shiftLeft_add_distrib]
  generalize x >>> 2 + y = z
  apply BitVec.eq_of_getLsbD_eq
  intro k hk
  interval_cases k <;> simp

section Main

variable (bus : Bus μ) (i : Word) (s : Machine μ)

theorem add2Pc_refines : Refines bus .ADD_2PC i s := by
  refine ⟨_, armInstruction_dpImm .add false _ _ bus _ _ nofun, ?_⟩
  have harm : handler .add .immValue (Op.ADD_2PC.armWord i)
      (s.cpu.setR 15 (s.cpu.R 15 &&& 0xFFFFFFFC)) =
      (s.cpu.setR 15 (s.cpu.R 15 &&& 0xFFFFFFFC)).setR (regNum i 8)
        ((s.cpu.R 15 &&& 0xFFFFFFFC) + imm8 i <<< 2) := by
    simp only [Op.armWord, handler, shiftOp, immValue_scaled, Arm.opADD, ← imm8_eq]
    rw [dpImm, opPlain_word _ _ _ (reg_lo_ne i 8), rn_word, reg_lo]
    rfl
  change Agree _ ⟨handler .add .immValue (Op.ADD_2PC.armWord i)
    (s.cpu.setR 15 (s.cpu.R 15 &&& 0xFFFFFFFC)), s.mem⟩
  rw [harm]
  exact agree_setR_pc s.cpu _ _ _ s.mem

theorem ldrPcRel_refines : Refines bus .LDR_PCREL i s := by
  have haligned := wordAddress_aligned (s.cpu.R 15) (imm8 i)
  have harm : opLDR_P_IMM_OFF bus (Op.LDR_PCREL.armWord i) (Op.LDR_PCREL.armState s) =
      (Op.LDR_PCREL.armState s).load bus.READ32 id (regNum i 8)
        ((s.cpu.R 15 &&& 0xFFFFFFFC) + imm8 i <<< 2) := by
    simp only [Op.armWord, opLDR_P_IMM_OFF, adrImm12_memImm, ← offsetSp_eq]
    rw [memImm, opLDR_word _ _ _ _ _ _ (reg_lo_ne i 8), reg_lo]
    exact congrArg (fun extend => (Op.LDR_PCREL.armState s).load bus.READ32 extend (regNum i 8)
      ((s.cpu.R 15 &&& 0xFFFFFFFC) + imm8 i <<< 2)) (funext (rotateUnaligned_of_aligned haligned))
  refine ⟨_, armInstruction_memImm bus _ _ false true _, ?_⟩
  change Agree _ (opLDR_P_IMM_OFF bus (Op.LDR_PCREL.armWord i) (Op.LDR_PCREL.armState s))
  rw [harm]
  exact agree_setR_pc s.cpu _ _ _ _

/-- The load relative to `SP` refines the ARM load just where the rotation of the ARM load is
not seen. -/
theorem ldrSpRel_refines_iff : Refines bus .LDR_SPREL i s ↔ RotationUnseen bus i s := by
  have hword : armInstruction bus (Op.LDR_SPREL.armWord i) =
      some (opLDR_P_IMM_OFF bus (Op.LDR_SPREL.armWord i)) := armInstruction_memImm bus _ _ _ _ _
  have harm : opLDR_P_IMM_OFF bus (Op.LDR_SPREL.armWord i) s =
      s.load bus.READ32 (rotateUnaligned (adrSp i s)) (regNum i 8) (adrSp i s) := ldrSpRel_arm bus i s
  constructor
  · rintro ⟨f, hf, hagree⟩
    rw [hword] at hf
    cases hf
    have hR : _ = (opLDR_P_IMM_OFF bus (Op.LDR_SPREL.armWord i) s).cpu.R (regNum i 8) :=
      hagree.R (regNum i 8) (regNum_ne_pc i 8)
    rw [harm] at hR
    exact (ArmCpu.setR_R_self _ _ _).symm.trans (hR.symm.trans (ArmCpu.setR_R_self _ _ _))
  · intro h
    refine ⟨_, hword, ?_⟩
    change Agree _ (opLDR_P_IMM_OFF bus (Op.LDR_SPREL.armWord i) s)
    rw [harm, Machine.load, h]
    exact Agree.refl _

theorem refines {op : Op} (h : op? i = some op) (hpc : ¬ op.WritesPc i) (hbase : ¬ op.BaseListed i)
    (hsp : op ≠ .LDR_SPREL) : Refines bus op i s := by
  cases op with
  | LSL_0 => exact refines_of_dpShift rfl nofun rfl (lsl0_eq i s.cpu) rfl
  | LSL => exact refines_of_dpShift rfl nofun rfl (lsl_eq i s.cpu (imm5_ne_zero h (.inl rfl))) rfl
  | LSR_0 => exact refines_of_dpShift rfl nofun rfl (lsr0_eq i s.cpu) rfl
  | LSR =>
    exact refines_of_dpShift rfl nofun rfl (lsr_eq i s.cpu (imm5_ne_zero h (.inr (.inl rfl)))) rfl
  | ASR_0 => exact refines_of_dpShift rfl nofun rfl (asr0_eq i s.cpu) rfl
  | ASR =>
    exact refines_of_dpShift rfl nofun rfl (asr_eq i s.cpu (imm5_ne_zero h (.inr (.inr rfl)))) rfl
  | ADD_REG => exact refines_of_dpShift rfl nofun rfl (addReg_eq i s.cpu) rfl
  | SUB_REG => exact refines_of_dpShift rfl nofun rfl (subReg_eq i s.cpu) rfl
  | ADD_IMM3 => exact refines_of_dpImm rfl nofun rfl (addImm3_eq i s.cpu) rfl
  | SUB_IMM3 => exact refines_of_dpImm rfl nofun rfl (subImm3_eq i s.cpu) rfl
  | MOV_IMM8 => exact refines_of_dpImm rfl nofun rfl (movImm8_eq i s.cpu) rfl
  | CMP_IMM8 => exact refines_of_dpImm rfl (fun _ => rfl) rfl (cmpImm8_eq i s.cpu) rfl
  | ADD_IMM8 => exact refines_of_dpImm rfl nofun rfl (addImm8_eq i s.cpu) rfl
  | SUB_IMM8 => exact refines_of_dpImm rfl nofun rfl (subImm8_eq i s.cpu) rfl
  | AND => exact refines_of_dpShift rfl nofun rfl (and_eq i s.cpu) rfl
  | EOR => exact refines_of_dpShift rfl nofun rfl (eor_eq i s.cpu) rfl
  | LSL_REG => exact refines_of_dpRegShift rfl rfl (lslReg_eq i s.cpu) rfl
  | LSR_REG => exact refines_of_dpRegShift rfl rfl (lsrReg_eq i s.cpu) rfl
  | ASR_REG => exact refines_of_dpRegShift rfl rfl (asrReg_eq i s.cpu) rfl
  | ADC_REG => exact refines_of_dpShift rfl nofun rfl (adc_eq i s.cpu) rfl
  | SBC_REG => exact refines_of_dpShift rfl nofun rfl (sbc_eq i s.cpu) rfl
  | ROR_REG => exact refines_of_dpRegShift rfl rfl (rorReg_eq i s.cpu) rfl
  | TST => exact refines_of_dpShift rfl (fun _ => rfl) rfl (tst_eq i s.cpu) rfl
  | NEG => exact refines_of_dpImm rfl nofun rfl (neg_eq i s.cpu) rfl
  | CMP => exact refines_of_dpShift rfl (fun _ => rfl) rfl (cmp_eq i s.cpu) rfl
  | CMN => exact refines_of_dpShift rfl (fun _ => rfl) rfl (cmn_eq i s.cpu) rfl
  | ORR => exact refines_of_dpShift rfl nofun rfl (orr_eq i s.cpu) rfl
  | MUL_REG => exact refines_of_cpu (armInstruction_muls bus _ _ _) rfl (mulReg_eq i s.cpu) rfl
  | BIC => exact refines_of_dpShift rfl nofun rfl (bic_eq i s.cpu) rfl
  | MVN => exact refines_of_dpShift rfl nofun rfl (mvn_eq i s.cpu) rfl
  | ADD_SPE => exact refines_of_dpShift rfl nofun rfl (addSpe_eq i s.cpu hpc) rfl
  | CMP_SPE => exact refines_of_dpShift rfl (fun _ => rfl) rfl (cmpSpe_eq i s.cpu) rfl
  | MOV_SPE => exact refines_of_dpShift rfl nofun rfl (movSpe_eq i s.cpu hpc) rfl
  | LDR_PCREL => exact ldrPcRel_refines bus i s
  | STR_REG_OFF =>
    exact refines_of_memory (armInstruction_memReg bus _ _ _ _ _) rfl (strReg_eq bus i s)
  | STRH_REG_OFF =>
    exact refines_of_memory (armInstruction_halfReg bus _ _ _).1 rfl (strhReg_eq bus i s)
  | STRB_REG_OFF =>
    exact refines_of_memory (armInstruction_memReg bus _ _ _ _ _) rfl (strbReg_eq bus i s)
  | LDRSB_REG_OFF =>
    exact refines_of_memory (armInstruction_halfReg bus _ _ _).2.2.1 rfl (ldrsbReg_eq bus i s)
  | LDR_REG_OFF =>
    exact refines_of_memory (armInstruction_memReg bus _ _ _ _ _) rfl (ldrReg_eq bus i s)
  | LDRH_REG_OFF =>
    exact refines_of_memory (armInstruction_halfReg bus _ _ _).2.1 rfl (ldrhReg_eq bus i s)
  | LDRB_REG_OFF =>
    exact refines_of_memory (armInstruction_memReg bus _ _ _ _ _) rfl (ldrbReg_eq bus i s)
  | LDRSH_REG_OFF =>
    exact refines_of_memory (armInstruction_halfReg bus _ _ _).2.2.2 rfl (ldrshReg_eq bus i s)
  | STR_IMM_OFF =>
    exact refines_of_memory (armInstruction_memImm bus _ _ _ _ _) rfl (strImm_eq bus i s)
  | LDR_IMM_OFF =>
    exact refines_of_memory (armInstruction_memImm bus _ _ _ _ _) rfl (ldrImm_eq bus i s)
  | STRB_IMM_OFF =>
    exact refines_of_memory (armInstruction_memImm bus _ _ _ _ _) rfl (strbImm_eq bus i s)
  | LDRB_IMM_OFF =>
    exact refines_of_memory (armInstruction_memImm bus _ _ _ _ _) rfl (ldrbImm_eq bus i s)
  | STRH_IMM_OFF =>
    exact refines_of_memory (armInstruction_halfImm bus _ _ _ _ _) rfl (strhImm_eq bus i s)
  | LDRH_IMM_OFF =>
    exact refines_of_memory (armInstruction_halfImm bus _ _ _ _ _) rfl (ldrhImm_eq bus i s)
  | STR_SPREL =>
    exact refines_of_memory (armInstruction_memImm bus _ _ _ _ _) rfl (strSpRel_eq bus i s)
  | LDR_SPREL => exact absurd rfl hsp
  | ADD_2PC => exact add2Pc_refines bus i s
  | ADD_2SP => exact refines_of_dpImm rfl nofun rfl (add2Sp_eq i s.cpu) rfl
  | ADJUST_P_SP => exact refines_of_dpImm rfl nofun rfl (adjustPSp_eq i s.cpu) rfl
  | ADJUST_M_SP => exact refines_of_dpImm rfl nofun rfl (adjustMSp_eq i s.cpu) rfl
  | PUSH => exact refines_of_memory (armInstruction_block bus _ _).1 rfl (push_eq bus i s)
  | PUSH_LR => exact refines_of_memory (armInstruction_block bus _ _).1 rfl (pushLr_eq bus i s)
  | POP => exact refines_of_memory (armInstruction_block bus _ _).2.2 rfl (pop_eq bus i s)
  | POP_PC => exact absurd trivial hpc
  | STMIA_THUMB =>
    exact refines_of_memory (armInstruction_block bus _ _).2.1 rfl (stmia_eq bus i s)
  | LDMIA_THUMB =>
    exact refines_of_memory (armInstruction_block bus _ _).2.2 rfl
      (ldmia_eq bus i s (eq_false_of_ne_true hbase))

/-- THUMB refines ARM but for the load relative to `SP`, which does not rotate a word at an
unaligned address as the ARM load does. -/
theorem thumb_refines_iff {op : Op} (h : op? i = some op) (hpc : ¬ op.WritesPc i)
    (hbase : ¬ op.BaseListed i) :
    Refines bus op i s ↔ (op = .LDR_SPREL → RotationUnseen bus i s) := by
  constructor
  · rintro hrefines rfl
    exact (ldrSpRel_refines_iff bus i s).mp hrefines
  · intro hrotation
    by_cases hsp : op = .LDR_SPREL
    · subst hsp
      exact (ldrSpRel_refines_iff bus i s).mpr (hrotation rfl)
    · exact refines bus i s h hpc hbase hsp

end Main

/-- Memory byte by byte, without devices. -/
def ram : Bus (Word → BitVec 8) where
  read08 a m := (m a, m)
  read16 a m := (m (a + 1) ++ m a, m)
  read32 a m := (m (a + 3) ++ m (a + 2) ++ m (a + 1) ++ m a, m)
  write08 a v m := Function.update m a v
  write16 a v m :=
    Function.update (Function.update m a (v.extractLsb' 0 8)) (a + 1) (v.extractLsb' 8 8)
  write32 a v m :=
    Function.update (Function.update (Function.update (Function.update m a (v.extractLsb' 0 8))
      (a + 1) (v.extractLsb' 8 8)) (a + 2) (v.extractLsb' 16 8)) (a + 3) (v.extractLsb' 24 8)

/-- A stack pointer one byte above a word. -/
def unalignedStack : Machine (Word → BitVec 8) :=
  ⟨(init .arm9 0x02000001 0).setR 13 0x02000101, fun a => a.extractLsb' 0 8⟩

/-- `PUSH {R0, LR}`. -/
theorem push_refines : Refines ram .PUSH_LR 0xB501 unalignedStack :=
  (thumb_refines_iff ram 0xB501 unalignedStack (by decide) id id).mpr nofun

/-- `LDR R0, [SP]`. -/
theorem ldrSpRel_not_refines :
    ¬ ∀ (bus : Bus (Word → BitVec 8)) (i : Word) (s : Machine (Word → BitVec 8)) (op : Op),
      op? i = some op → ¬ op.WritesPc i → ¬ op.BaseListed i → Refines bus op i s := by
  intro h
  have hrefines := h ram 0x9800 unalignedStack .LDR_SPREL (by decide) nofun nofun
  have hrotation := (ldrSpRel_refines_iff ram 0x9800 unalignedStack).mp hrefines
  revert hrotation
  rw [RotationUnseen]
  decide

end Thumb

end Desmume.Arm
