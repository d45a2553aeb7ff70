import Desmume.Arm.CpuDefs
import Desmume.Library.BankedFile
import Mathlib.Data.Fintype.Basic
import Mathlib.Tactic.FinCases

/-! The saved copies of the processor implement a banked register file: a mode switch moves
no value from one cell to another, wherever the processor keeps the cell at the time. -/

namespace Desmume.Arm

open Desmume.Library

/-- The modes that have registers of their own. -/
inductive ExcMode where
  | fiq
  | irq
  | svc
  | abt
  | und
deriving DecidableEq, Repr

def Mode.exc? : Mode → Option ExcMode
  | .usr | .sys => none
  | .fiq => some .fiq
  | .irq => some .irq
  | .svc => some .svc
  | .abt => some .abt
  | .und => some .und

/-- A register as an instruction names it: `R[0..14]` or `SPSR`. -/
inductive Reg where
  | r (n : Fin 15)
  | spsr
deriving DecidableEq, Repr

/-- A physical register. `none` stands for the stack of user and system mode. -/
inductive Cell where
  | shared (n : Fin 13)
  | fast (k : Fin 5)
  | sp (bank : Option ExcMode)
  | lr (bank : Option ExcMode)
  | spsr (e : ExcMode)
deriving DecidableEq, Repr

/-- The architecture's register banks. -/
def owner (m : Mode) : Reg → Option Cell
  | .r n =>
    if h : n.val < 13 then
      if m = .fiq ∧ 8 ≤ n.val then some (.fast (Fin.ofNat 5 (n - 8))) else some (.shared ⟨n, h⟩)
    else if n = 13 then some (.sp m.exc?) else some (.lr m.exc?)
  | .spsr => m.exc?.map .spsr

namespace ArmCpu

def fastCopy (cpu : ArmCpu) : Fin 5 → Word
  | 0 => cpu.R8_fiq
  | 1 => cpu.R9_fiq
  | 2 => cpu.R10_fiq
  | 3 => cpu.R11_fiq
  | 4 => cpu.R12_fiq

def spCopy (cpu : ArmCpu) : Option ExcMode → Word
  | none => cpu.R13_usr
  | some .fiq => cpu.R13_fiq
  | some .irq => cpu.R13_irq
  | some .svc => cpu.R13_svc
  | some .abt => cpu.R13_abt
  | some .und => cpu.R13_und

def lrCopy (cpu : ArmCpu) : Option ExcMode → Word
  | none => cpu.R14_usr
  | some .fiq => cpu.R14_fiq
  | some .irq => cpu.R14_irq
  | some .svc => cpu.R14_svc
  | some .abt => cpu.R14_abt
  | some .und => cpu.R14_und

def spsrCopy (cpu : ArmCpu) : ExcMode → StatusReg
  | .fiq => cpu.SPSR_fiq
  | .irq => cpu.SPSR_irq
  | .svc => cpu.SPSR_svc
  | .abt => cpu.SPSR_abt
  | .und => cpu.SPSR_und

def read (cpu : ArmCpu) : Reg → Word
  | .r n => cpu.R n.castSucc
  | .spsr => cpu.SPSR.val

def write (cpu : ArmCpu) (v : Word) : Reg → ArmCpu
  | .r n => cpu.setR n.castSucc v
  | .spsr => cpu.setSPSR (.ofVal v)

/-- The saved copy of a cell that is not active. The FIQ copies hold the shared `R8` to `R12`
while FIQ mode is active. -/
def copy (cpu : ArmCpu) : Cell → Word
  | .shared n => cpu.fastCopy (Fin.ofNat 5 (n - 8))
  | .fast k => cpu.fastCopy k
  | .sp bank => cpu.spCopy bank
  | .lr bank => cpu.lrCopy bank
  | .spsr e => (cpu.spsrCopy e).val

end ArmCpu

/-- The active register that holds a cell, if mode `m` owns it. -/
def activeReg (m : Mode) : Cell → Option Reg
  | .shared n => if m = .fiq ∧ 8 ≤ n.val then none else some (.r (n.castLE (by decide)))
  | .fast k => if m = .fiq then some (.r (Fin.ofNat 15 (k + 8))) else none
  | .sp bank => if m.exc? = bank then some (.r 13) else none
  | .lr bank => if m.exc? = bank then some (.r 14) else none
  | .spsr e => if m.exc? = some e then some .spsr else none

/-- What a cell holds while the processor is in mode `m`. -/
def ArmCpu.cell (cpu : ArmCpu) (m : Mode) (c : Cell) : Word :=
  match activeReg m c with
  | some reg => cpu.read reg
  | none => cpu.copy c

/-- The register of mode `m` that names the cell is the one that holds it. -/
theorem owner_eq_some_iff {m : Mode} {reg : Reg} {c : Cell} :
    owner m reg = some c ↔ activeReg m c = some reg := by
  constructor
  · intro h
    cases reg with
    | r n =>
      simp only [owner] at h
      split_ifs at h with hlow hfast hsp
      · cases h
        rw [activeReg, if_pos hfast.1, Option.some.injEq, Reg.r.injEq, Fin.ext_iff]
        simp only [Fin.ofNat]
        omega
      · cases h
        rw [activeReg, if_neg hfast]
        rfl
      · cases h
        rw [activeReg, if_pos rfl, hsp]
      · cases h
        rw [activeReg, if_pos rfl, Option.some.injEq, Reg.r.injEq, Fin.ext_iff]
        rw [Fin.ext_iff] at hsp
        change ¬ n.val = 13 at hsp
        change 14 = n.val
        omega
    | spsr =>
      rw [owner, Option.map_eq_some_iff] at h
      obtain ⟨e, he, rfl⟩ := h
      rw [activeReg, if_pos he]
  · intro h
    cases c with
    | shared k =>
      rw [activeReg] at h
      split_ifs at h with hfast
      cases h
      simp only [owner, Fin.val_castLE]
      rw [dif_pos k.isLt, if_neg hfast]
    | fast k =>
      rw [activeReg] at h
      split_ifs at h with hfiq
      cases h
      have hk : (Fin.ofNat 15 (k.val + 8)).val = k.val + 8 := by
        simp only [Fin.ofNat]
        omega
      simp only [owner]
      rw [dif_pos (by omega), if_pos ⟨hfiq, by omega⟩, hk, Nat.add_sub_cancel]
      congr 2
      exact Fin.ofNat_val_eq_self k
    | sp bank =>
      rw [activeReg] at h
      split_ifs at h with hbank
      cases h
      rw [← hbank]
      rfl
    | lr bank =>
      rw [activeReg] at h
      split_ifs at h with hbank
      cases h
      rw [← hbank]
      rfl
    | spsr e =>
      rw [activeReg] at h
      split_ifs at h with he
      cases h
      rw [owner, he]
      rfl

/-- The one register that names a cell, in whatever mode. -/
def Cell.reg : Cell → Reg
  | .shared n => .r (n.castLE (by decide))
  | .fast k => .r (Fin.ofNat 15 (k + 8))
  | .sp _ => .r 13
  | .lr _ => .r 14
  | .spsr _ => .spsr

theorem reg_of_owner {m : Mode} {reg : Reg} {c : Cell} (h : owner m reg = some c) : reg = c.reg := by
  have hactive := owner_eq_some_iff.mp h
  cases c <;> simp only [activeReg] at hactive <;> split_ifs at hactive <;>
    exact (Option.some.inj hactive).symm

namespace ArmCpu

/-- A register of the active mode is read where its cell is kept. -/
theorem read_eq_cell (cpu : ArmCpu) {m : Mode} {reg : Reg} {c : Cell} (h : owner m reg = some c) :
    cpu.read reg = cpu.cell m c := by
  rw [cell, owner_eq_some_iff.mp h]

theorem read_write (cpu : ArmCpu) (v : Word) (reg other : Reg) :
    (cpu.write v reg).read other = if reg = other then v else cpu.read other := by
  cases reg with
  | r n =>
    cases other with
    | r k =>
      simp only [read, write, setR, withR, Function.update_apply, Fin.castSucc_inj, Reg.r.injEq, eq_comm]
    | spsr => rfl
  | spsr =>
    cases other with
    | r k => rfl
    | spsr => exact StatusReg.val_ofVal v

theorem copy_write (cpu : ArmCpu) (v : Word) (reg : Reg) (c : Cell) :
    (cpu.write v reg).copy c = cpu.copy c := by
  cases reg <;> rfl

/-- A write changes the cell its mode gives the register, and no other. -/
theorem cell_write (cpu : ArmCpu) (v : Word) (m : Mode) (reg : Reg) (c : Cell) :
    (cpu.write v reg).cell m c = if owner m reg = some c then v else cpu.cell m c := by
  simp only [owner_eq_some_iff, cell]
  cases activeReg m c with
  | none => simp only [copy_write, reduceCtorEq, ↓reduceIte]
  | some other =>
    simp only [read_write, Option.some.injEq, @eq_comm _ other reg]

/-- What a cell holds between the two `switch`es, where no mode is active. -/
def parked (cpu : ArmCpu) : Cell → Word
  | .shared n => cpu.R (n.castLE (by decide))
  | c => cpu.copy c

theorem parked_saveBank (cpu : ArmCpu) (m : Mode) (c : Cell) :
    (cpu.saveBank (some m)).parked c = cpu.cell m c := by
  cases c with
  | shared n =>
    by_cases hfast : m = .fiq ∧ 8 ≤ n.val
    · obtain ⟨rfl, hn⟩ := hfast
      rw [cell, activeReg, if_pos ⟨rfl, hn⟩]
      fin_cases n <;> first | rfl | simp at hn
    · rw [cell, activeReg, if_neg hfast]
      fin_cases n <;> cases m <;> first | rfl | simp at hfast
  | fast k => fin_cases k <;> cases m <;> rfl
  | sp bank =>
    cases bank with
    | none => cases m <;> rfl
    | some e => cases e <;> cases m <;> rfl
  | lr bank =>
    cases bank with
    | none => cases m <;> rfl
    | some e => cases e <;> cases m <;> rfl
  | spsr e => cases e <;> cases m <;> rfl

theorem cell_loadBank (cpu : ArmCpu) (m : Mode) (c : Cell) :
    (cpu.loadBank (some m)).cell m c = cpu.parked c := by
  cases c with
  | shared n => fin_cases n <;> cases m <;> rfl
  | fast k => fin_cases k <;> cases m <;> rfl
  | sp bank =>
    cases bank with
    | none => cases m <;> rfl
    | some e => cases e <;> cases m <;> rfl
  | lr bank =>
    cases bank with
    | none => cases m <;> rfl
    | some e => cases e <;> cases m <;> rfl
  | spsr e => cases e <;> cases m <;> rfl

@[simp] theorem saveBank_CPSR (cpu : ArmCpu) (m : Option Mode) :
    (cpu.saveBank m).CPSR = cpu.CPSR := by
  rcases m with _ | m
  · rfl
  · cases m <;> rfl

@[simp] theorem loadBank_CPSR (cpu : ArmCpu) (m : Option Mode) :
    (cpu.loadBank m).CPSR = cpu.CPSR := by
  rcases m with _ | m
  · rfl
  · cases m <;> rfl

end ArmCpu

/-- The argument a caller passes for the mode bits of a status register. -/
theorem modeBits_setWidth (b : BitVec 5) :
    (b.setWidth 8 &&& 0x1F).setWidth 5 = b ∧ (b.setWidth 8).toNat = b.toNat := by
  have hb := b.isLt
  constructor
  · apply BitVec.eq_of_toNat_eq
    rw [BitVec.toNat_setWidth, BitVec.toNat_and, BitVec.toNat_setWidth]
    change (b.toNat % 2 ^ 8 &&& 2 ^ 5 - 1) % 2 ^ 5 = b.toNat
    rw [Nat.and_two_pow_sub_one_eq_mod]
    omega
  · rw [BitVec.toNat_setWidth]
    omega

theorem switchMode_CPSR (cpu : ArmCpu) (b : BitVec 5) :
    (switchMode cpu (b.setWidth 8)).CPSR = { cpu.CPSR with mode := b } := by
  simp only [switchMode, ArmCpu.setMode, ArmCpu.loadBank_CPSR, ArmCpu.saveBank_CPSR,
    (modeBits_setWidth b).1]

/-- A mode switch leaves every cell as it was. -/
theorem switchMode_cell {cpu : ArmCpu} {m : Mode} (h : cpu.CPSR.mode = m.code) (target : Mode)
    (c : Cell) : (switchMode cpu (target.code.setWidth 8)).cell target c = cpu.cell m c := by
  have hload := ArmCpu.cell_loadBank (cpu.saveBank (some m)) target c
  rw [ArmCpu.parked_saveBank] at hload
  rw [switchMode, h, (modeBits_setWidth target.code).2, Mode.ofNat?_code, Mode.ofNat?_code]
  exact hload

theorem switchMode_R15 (cpu : ArmCpu) (b : BitVec 8) : (switchMode cpu b).R 15 = cpu.R 15 := by
  have hsave : ∀ m, (cpu.saveBank m).R 15 = cpu.R 15 := by
    rintro (_ | m)
    · rfl
    · cases m <;> rfl
  have hload : ∀ (c : ArmCpu) m, (c.loadBank m).R 15 = c.R 15 := by
    rintro c (_ | m)
    · rfl
    · cases m <;> rfl
  exact (hload _ _).trans (hsave _)

theorem switchMode_setNext (cpu : ArmCpu) (v : Word) (b : BitVec 8) :
    switchMode (cpu.setNext v) b = (switchMode cpu b).setNext v := by
  have hsave : ∀ m, (cpu.setNext v).saveBank m = (cpu.saveBank m).setNext v := by
    rintro (_ | m)
    · rfl
    · cases m <;> rfl
  have hload : ∀ (c : ArmCpu) m, (c.setNext v).loadBank m = (c.loadBank m).setNext v := by
    rintro c (_ | m)
    · rfl
    · cases m <;> rfl
  rw [switchMode, hsave, hload]
  rfl

/-- The cells after `restoreSPSR`, in the mode it returns to, are those of the mode the
processor believes to be in when it gets there. -/
theorem restoreSPSR_cell (cpu : ArmCpu) {m target : Mode} (hm : cpu.CPSR.mode = m.code)
    (htarget : cpu.SPSR.mode = target.code) (c : Cell) :
    cpu.restoreSPSR.cell target c = cpu.cell m c := by
  rw [← switchMode_cell hm target c, ArmCpu.restoreSPSR, htarget]
  rfl

/-! ### Runs of mode switches and register writes -/

def bankStep (cpu : ArmCpu) : BankOp Mode Reg Word → ArmCpu
  | .switch m => switchMode cpu (m.code.setWidth 8)
  | .write reg v => cpu.write v reg

/-- The processor, in the mode of the file, holds the cells of the file. -/
structure Represents (cpu : ArmCpu) (f : BankedFile Mode Cell Word) : Prop where
  mode : cpu.CPSR.mode = f.mode.code
  cell : ∀ c, cpu.cell f.mode c = f.cell c

theorem Represents.step {cpu : ArmCpu} {f : BankedFile Mode Cell Word} (h : Represents cpu f)
    (op : BankOp Mode Reg Word) : Represents (bankStep cpu op) (BankedFile.step owner f op) := by
  cases op with
  | switch m =>
    constructor
    · rw [bankStep, switchMode_CPSR]
      rfl
    · intro c
      rw [bankStep, BankedFile.step, switchMode_cell h.mode]
      exact h.cell c
  | write reg v =>
    rw [bankStep, BankedFile.step]
    constructor
    · rw [BankedFile.setCell_mode, ← h.mode]
      cases reg <;> rfl
    · intro c
      rw [BankedFile.setCell_mode, BankedFile.setCell_cell, ArmCpu.cell_write, h.cell]

theorem Represents.run {cpu : ArmCpu} {f : BankedFile Mode Cell Word} (h : Represents cpu f)
    (ops : List (BankOp Mode Reg Word)) :
    Represents (run bankStep cpu ops) (run (BankedFile.step owner) f ops) := by
  induction ops generalizing cpu f with
  | nil => exact h
  | cons op ops ih => exact ih (h.step op)

/-- After any run of mode switches and register writes, a register of the active mode holds
the last value written to its cell, in whatever mode that was, and before any such write what
the cell held at the start. -/
theorem read_after_run (cpu : ArmCpu) (m : Mode) (hm : cpu.CPSR.mode = m.code)
    (ops : List (BankOp Mode Reg Word)) :
    (run bankStep cpu ops).CPSR.mode = (BankedFile.modeAfter m ops).code ∧
      ∀ reg c, owner (BankedFile.modeAfter m ops) reg = some c →
        (run bankStep cpu ops).read reg =
          (BankedFile.lastWrite owner c m ops).getD (cpu.cell m c) := by
  have hrun : Represents (run bankStep cpu ops) _ :=
    Represents.run (f := ⟨m, cpu.cell m⟩) ⟨hm, fun _ => rfl⟩ ops
  have hmode := BankedFile.run_mode owner (⟨m, cpu.cell m⟩ : BankedFile Mode Cell Word) ops
  constructor
  · rw [hrun.mode, hmode]
  · intro reg c hc
    rw [ArmCpu.read_eq_cell _ hc, ← hmode, hrun.cell, BankedFile.run_cell]

/-- IRQ mode finds its own stack pointer after user and supervisor mode have set theirs. -/
theorem read_after_nested_switches :
    (run bankStep (init .arm9 0 0) [.switch .irq, .write (.r 13) 1, .switch .svc,
      .write (.r 13) 2, .switch .usr, .write (.r 13) 3, .switch .irq]).read (.r 13) = 1 :=
  ((read_after_run (init .arm9 0 0) .sys rfl _).2 (.r 13) (.sp (some .irq)) rfl).trans rfl

end Desmume.Arm
