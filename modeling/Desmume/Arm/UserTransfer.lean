import Desmume.Arm.ExceptionReturn
import Desmume.Arm.LoadStore

/-! The block transfers of the user registers. They run in system mode, and all but one of those with
write-back still are in it when they write the base. -/

namespace Desmume.Arm

variable {μ : Type}

section Stores

variable (bus : Bus μ) (i : Word)

/-- A line of a store loop: `WRITE32(start, R[b])`, where `start` moves before or after it. -/
def opS (f : LdmForm) (b : Fin 16) (t : Transfer μ) : Transfer μ :=
  let next := f.advance 1 t.1
  (next, t.2.store bus.WRITE32 (t.2.cpu.R b) (if f.isBefore then next else t.1))

def Machine.switchTo (mode : BitVec 5) (s : Machine μ) : Machine μ :=
  { s with cpu := switchMode s.cpu (mode.setWidth 8) }

def Machine.setR (n : Fin 16) (v : Word) (s : Machine μ) : Machine μ :=
  { s with cpu := s.cpu.setR n v }

/-- The block stores of user registers, around what becomes of the base. -/
def storeUser (f : LdmForm) (base : Word → Machine μ → Machine μ) (s : Machine μ) : Machine μ :=
  if s.cpu.CPSR.mode = Mode.usr.code then s
  else
    let start := s.cpu.R (regPos i 16)
    let oldmode := s.cpu.CPSR.mode
    let (start, s) := transfer i (opS bus f) f.order (start, s.switchTo Mode.sys.code)
    (base start s).switchTo oldmode

/-- `OP_STMIA2`. -/
def stmia2 : Machine μ → Machine μ := storeUser bus i .ia fun _ s => s

/-- `OP_STMIB2`. -/
def stmib2 : Machine μ → Machine μ := storeUser bus i .ib fun _ s => s

/-- `OP_STMDA2`. -/
def stmda2 : Machine μ → Machine μ := storeUser bus i .da fun _ s => s

/-- `OP_STMDB2`. -/
def stmdb2 : Machine μ → Machine μ := storeUser bus i .db fun _ s => s

/-- `OP_STMIA2_W`. -/
def stmia2W : Machine μ → Machine μ := storeUser bus i .ia (Machine.setR (regPos i 16))

/-- `OP_STMIB2_W`, the one that writes the base behind the second switch. -/
def stmib2W (s : Machine μ) : Machine μ :=
  if s.cpu.CPSR.mode = Mode.usr.code then s
  else
    let start := s.cpu.R (regPos i 16)
    let oldmode := s.cpu.CPSR.mode
    let (start, s) := transfer i (opS bus .ib) LdmForm.ib.order (start, s.switchTo Mode.sys.code)
    (s.switchTo oldmode).setR (regPos i 16) start

/-- `OP_STMDA2_W`. -/
def stmda2W : Machine μ → Machine μ := storeUser bus i .da (Machine.setR (regPos i 16))

/-- `OP_STMDB2_W`. -/
def stmdb2W : Machine μ → Machine μ := storeUser bus i .db (Machine.setR (regPos i 16))

/-- The handler of each addressing mode, with and without write-back. -/
def stm2 : LdmForm → Bool → Machine μ → Machine μ
  | .ia, false => stmia2 bus i
  | .ib, false => stmib2 bus i
  | .da, false => stmda2 bus i
  | .db, false => stmdb2 bus i
  | .ia, true => stmia2W bus i
  | .ib, true => stmib2W bus i
  | .da, true => stmda2W bus i
  | .db, true => stmdb2W bus i

end Stores

/-! ### What the transfers are for -/

def ExcMode.mode : ExcMode → Mode
  | .fiq => .fiq
  | .irq => .irq
  | .svc => .svc
  | .abt => .abt
  | .und => .und

/-- The cell of a register, apart from `R15`, which all modes share. -/
def cellOf (m : Mode) (r : Fin 16) : Option Cell :=
  if h : r.val < 15 then owner m (.r ⟨r, h⟩) else none

/-- The mode has a register of its own there. -/
def Banked (m : Mode) (r : Fin 16) : Prop := cellOf m r ≠ cellOf .sys r

instance (m : Mode) (r : Fin 16) : Decidable (Banked m r) := inferInstanceAs (Decidable (_ ≠ _))

/-- What the register holds that user mode names so. -/
def userR (cpu : ArmCpu) (m : Mode) (r : Fin 16) : Word :=
  match cellOf .sys r with
  | some c => cpu.cell m c
  | none => cpu.R 15

/-- The fields that no block transfer of user registers is about. -/
structure SameControl (cpu cpu' : ArmCpu) : Prop where
  proc_ID : cpu'.proc_ID = cpu.proc_ID
  instruction : cpu'.instruction = cpu.instruction
  instruct_adr : cpu'.instruct_adr = cpu.instruct_adr
  next_instruction : cpu'.next_instruction = cpu.next_instruction
  CPSR : cpu'.CPSR = cpu.CPSR
  intVector : cpu'.intVector = cpu.intVector
  waitIRQ : cpu'.waitIRQ = cpu.waitIRQ

/-- A processor before and behind a transfer in mode `m`: nothing has changed but the registers of user
mode in `loads`, and the base if it is written back. -/
structure Transferred (f : LdmForm) (writeBack : Bool) (i : Word) (m : Mode)
    (loads : Fin 16 → Option Word) (cpu cpu' : ArmCpu) : Prop where
  control : SameControl cpu cpu'
  loaded : ∀ r c v, cellOf .sys r = some c → loads r = some v → cpu'.cell m c = v
  others : ∀ c, (∀ r, cellOf .sys r = some c → loads r = none) → cpu'.cell m c =
    if writeBack ∧ cellOf m (regPos i 16) = some c then blockEnd f i (cpu.R (regPos i 16))
    else cpu.cell m c
  pc : cpu'.R 15 =
    if writeBack ∧ regPos i 16 = 15 then blockEnd f i (cpu.R (regPos i 16)) else cpu.R 15

/-- In a mode, whatever the registers and the memory, a block store stores the user registers of its
list and leaves the rest, but for the base of the mode. -/
def StoresUser (f : LdmForm) (writeBack : Bool) (i : Word) (m : Mode) : Prop :=
  ∀ {μ : Type} (bus : Bus μ) (s : Machine μ), s.cpu.CPSR.mode = m.code →
    Transferred f writeBack i m (fun _ => none) s.cpu (stm2 bus i f writeBack s).cpu ∧
      (stm2 bus i f writeBack s).mem = (f.order.filter (listed i)).foldl
        (fun mem r => bus.WRITE32 (blockAddress f i (s.cpu.R (regPos i 16)) r) (userR s.cpu m r) mem)
        s.mem

/-- In a mode, whatever the registers and the memory, a block load without `R15` loads the user
registers of its list and leaves the rest, but for the base of the mode. A base in the list is not
written back. -/
def LoadsUser (f : LdmForm) (writeBack : Bool) (i : Word) (m : Mode) : Prop :=
  listed i 15 = false → ∀ (mem : Word → Word) (cpu : ArmCpu), cpu.CPSR.mode = m.code →
    Transferred f (writeBack && !listed i (regPos i 16)) i m
      (fun r => if listed i r then some (mem (blockAddress f i (cpu.R (regPos i 16)) r)) else none) cpu
      (ldm2 f writeBack mem i cpu)

/-! ### The way to system mode and back -/

section Switches

variable {cpu cpu' : ArmCpu} {m : Mode} {c : Cell} {r : Fin 16} {v : Word}

theorem owner_of_cellOf (h : cellOf m r = some c) :
    ∃ hr : r.val < 15, owner m (.r ⟨r, hr⟩) = some c := by
  rw [cellOf] at h
  split_ifs at h with hr
  exact ⟨hr, h⟩

theorem read_eq_cellOf (h : cellOf m r = some c) : cpu.R r = cpu.cell m c := by
  obtain ⟨hr, howner⟩ := owner_of_cellOf h
  exact cpu.read_eq_cell howner

theorem cellOf_sys_eq_none (h : cellOf .sys r = none) : r = 15 := by
  revert h
  revert r
  decide

theorem cell_setR : (cpu.setR r v).cell m c = if cellOf m r = some c then v else cpu.cell m c := by
  by_cases hr : r.val < 15
  · rw [cellOf, dif_pos hr]
    exact cpu.cell_write v m (.r ⟨r, hr⟩) c
  · rw [cellOf, dif_neg hr, if_neg (by simp), ArmCpu.cell, ArmCpu.cell]
    cases hactive : activeReg m c with
    | none => rfl
    | some reg =>
      cases reg with
      | r n =>
        have hne : n.castSucc ≠ r := by
          intro heq
          exact hr (heq ▸ n.isLt)
        exact cpu.setR_R_of_ne hne v
      | spsr => rfl

theorem cell_withR_of_notMem (g : Fin 16 → Word) (h : ∀ r, cellOf m r ≠ some c) :
    (cpu.withR g).cell m c = cpu.cell m c := by
  rw [ArmCpu.cell, ArmCpu.cell]
  cases hactive : activeReg m c with
  | none => rfl
  | some reg =>
    cases reg with
    | r n =>
      have howner := owner_eq_some_iff.2 hactive
      refine absurd ?_ (h n.castSucc)
      rw [cellOf, dif_pos (show n.castSucc.val < 15 from n.isLt)]
      exact howner
    | spsr => rfl

theorem switchMode_control (cpu : ArmCpu) (b : BitVec 5) :
    SameControl { cpu with CPSR := { cpu.CPSR with mode := b } } (switchMode cpu (b.setWidth 8)) := by
  have hsave : ∀ k, SameControl cpu (cpu.saveBank k) := by
    rintro (_ | k)
    · exact ⟨rfl, rfl, rfl, rfl, rfl, rfl, rfl⟩
    · cases k <;> exact ⟨rfl, rfl, rfl, rfl, rfl, rfl, rfl⟩
  have hload : ∀ (c : ArmCpu) k, SameControl c (c.loadBank k) := by
    rintro c (_ | k)
    · exact ⟨rfl, rfl, rfl, rfl, rfl, rfl, rfl⟩
    · cases k <;> exact ⟨rfl, rfl, rfl, rfl, rfl, rfl, rfl⟩
  obtain ⟨h₁, h₂, h₃, h₄, -, h₆, h₇⟩ := hsave (Mode.ofNat? cpu.CPSR.mode.toNat)
  obtain ⟨k₁, k₂, k₃, k₄, -, k₆, k₇⟩ :=
    hload (cpu.saveBank (Mode.ofNat? cpu.CPSR.mode.toNat)) (Mode.ofNat? (b.setWidth 8).toNat)
  exact ⟨k₁.trans h₁, k₂.trans h₂, k₃.trans h₃, k₄.trans h₄, switchMode_CPSR cpu b, k₆.trans h₆,
    k₇.trans h₇⟩

/-- The processor in system mode. -/
def ArmCpu.inSystem (cpu : ArmCpu) : ArmCpu := switchMode cpu (Mode.sys.code.setWidth 8)

theorem inSystem_mode (cpu : ArmCpu) : cpu.inSystem.CPSR.mode = Mode.sys.code := by
  rw [ArmCpu.inSystem, switchMode_CPSR]

theorem inSystem_R (h : cpu.CPSR.mode = m.code) (r : Fin 16) : cpu.inSystem.R r = userR cpu m r := by
  rw [userR]
  cases hcell : cellOf .sys r with
  | none =>
    rw [cellOf_sys_eq_none hcell]
    exact switchMode_R15 ..
  | some c =>
    rw [read_eq_cellOf hcell]
    exact switchMode_cell h .sys c

/-- Back from system mode, where nothing but registers has changed. -/
theorem back_from_system (h : cpu.CPSR.mode = m.code) (g : Fin 16 → Word) :
    SameControl cpu (switchMode (cpu.inSystem.withR g) (m.code.setWidth 8)) ∧
      (∀ c, (switchMode (cpu.inSystem.withR g) (m.code.setWidth 8)).cell m c =
        (cpu.inSystem.withR g).cell .sys c) ∧
      (switchMode (cpu.inSystem.withR g) (m.code.setWidth 8)).R 15 = g 15 := by
  have hmode : (cpu.inSystem.withR g).CPSR.mode = Mode.sys.code := inSystem_mode cpu
  refine ⟨?_, fun c => switchMode_cell hmode m c, switchMode_R15 ..⟩
  obtain ⟨h₁, h₂, h₃, h₄, h₅, h₆, h₇⟩ := switchMode_control cpu Mode.sys.code
  obtain ⟨k₁, k₂, k₃, k₄, k₅, k₆, k₇⟩ := switchMode_control (cpu.inSystem.withR g) m.code
  refine ⟨k₁.trans h₁, k₂.trans h₂, k₃.trans h₃, k₄.trans h₄, k₅.trans ?_, k₆.trans h₆, k₇.trans h₇⟩
  change { cpu.inSystem.CPSR with mode := m.code } = cpu.CPSR
  rw [← h, ArmCpu.inSystem, h₅]

end Switches

/-! ### Stores -/

section StoreLoop

variable {bus : Bus μ} {i : Word} {f : LdmForm} {s : Machine μ} {m : Mode}

/-- The words of a store loop. -/
theorem transfer_opS {rs : List (Fin 16)} (hrs : rs.Nodup) (start : Word) (s : Machine μ) :
    transfer i (opS bus f) rs (start, s) = (f.advance (rs.countP (listed i)) start,
      { s with
        mem := (rs.filter (listed i)).foldl
          (fun mem r => bus.WRITE32 (f.slot (countBefore i r rs) start) (s.cpu.R r) mem) s.mem }) := by
  induction rs generalizing start s with
  | nil =>
    rw [transfer, List.foldl_nil, List.countP_nil, List.filter_nil, List.foldl_nil]
    cases f <;> simp [LdmForm.advance]
  | cons q rs ih =>
    rw [List.nodup_cons] at hrs
    have hne : ∀ r ∈ rs.filter (listed i), r ≠ q := by
      rintro r hr rfl
      exact hrs.1 (List.mem_of_mem_filter hr)
    have hbefore : ∀ r, r ≠ q → countBefore i r (q :: rs) =
        (if listed i q then 1 else 0) + countBefore i r rs := by
      intro r hr
      rw [countBefore, List.takeWhile_cons_of_pos (by simpa using hr.symm), List.countP_cons,
        Nat.add_comm]
      rfl
    by_cases hq : listed i q
    · have hfirst : countBefore i q (q :: rs) = 0 := by
        rw [countBefore, List.takeWhile_cons_of_neg (by simp), List.countP_nil]
      rw [transfer, List.foldl_cons, if_pos hq, opS, ← transfer, ih hrs.2, List.countP_cons, if_pos hq,
        List.filter_cons_of_pos hq, List.foldl_cons, hfirst, LdmForm.slot_zero,
        LdmForm.advance_advance, Nat.add_comm 1]
      congr 2
      refine List.foldl_ext _ _ _ fun mem r hr => ?_
      rw [hbefore r (hne r hr), if_pos hq, LdmForm.slot_advance]
      rfl
    · rw [transfer, List.foldl_cons, if_neg hq, ← transfer, ih hrs.2, List.countP_cons, if_neg hq,
        List.filter_cons_of_neg hq]
      congr 2
      refine List.foldl_ext _ _ _ fun mem r hr => ?_
      rw [hbefore r (hne r hr), if_neg hq, Nat.zero_add]

theorem LdmForm.order_nodup (f : LdmForm) : f.order.Nodup := by
  cases f <;> decide

theorem storeLoop_eq (h : s.cpu.CPSR.mode = m.code) :
    transfer i (opS bus f) f.order (s.cpu.R (regPos i 16), s.switchTo Mode.sys.code) =
      (blockEnd f i (s.cpu.R (regPos i 16)), ⟨s.cpu.inSystem, (f.order.filter (listed i)).foldl
        (fun mem r => bus.WRITE32 (blockAddress f i (s.cpu.R (regPos i 16)) r) (userR s.cpu m r) mem)
        s.mem⟩) := by
  rw [transfer_opS f.order_nodup, Machine.switchTo, ← ArmCpu.inSystem]
  simp only [inSystem_R h]
  rfl

theorem not_usr {b : BitVec 5} (h : b = m.code) (hm : m ≠ .usr) : b ≠ Mode.usr.code := by
  rw [h]
  cases m <;> first | exact absurd rfl hm | decide

theorem storeUser_eq (h : s.cpu.CPSR.mode = m.code) (hm : m ≠ .usr)
    (base : Word → Machine μ → Machine μ) :
    storeUser bus i f base s =
      (base (blockEnd f i (s.cpu.R (regPos i 16))) ⟨s.cpu.inSystem, (f.order.filter (listed i)).foldl
        (fun mem r => bus.WRITE32 (blockAddress f i (s.cpu.R (regPos i 16)) r) (userR s.cpu m r) mem)
        s.mem⟩).switchTo m.code := by
  rw [storeUser, if_neg (not_usr h hm)]
  simp only [storeLoop_eq h, h]

end StoreLoop

section Results

variable {cpu : ArmCpu} {m : Mode} {f : LdmForm} {i : Word}

/-- Nothing is written back. -/
theorem transferred_back (h : cpu.CPSR.mode = m.code) :
    Transferred f false i m (fun _ => none) cpu (switchMode cpu.inSystem (m.code.setWidth 8)) := by
  obtain ⟨hcontrol, hcell, hpc⟩ := back_from_system h cpu.inSystem.R
  refine ⟨hcontrol, nofun, fun c _ => ?_, ?_⟩
  · rw [if_neg (by simp)]
    exact (hcell c).trans (switchMode_cell h .sys c)
  · rw [if_neg (by simp)]
    exact hpc.trans (switchMode_R15 ..)

/-- What becomes of the cells when the base is written in system mode. -/
theorem cell_base_inSystem (h : cpu.CPSR.mode = m.code) (g : Fin 16 → Word) (r : Fin 16) (v : Word)
    (c : Cell) : (switchMode ((cpu.inSystem.withR g).setR r v) (m.code.setWidth 8)).cell m c =
      if cellOf .sys r = some c then v else (cpu.inSystem.withR g).cell .sys c := by
  have hcell := (back_from_system h (Function.update g r v)).2.1 c
  rw [← ArmCpu.setR_withR, cell_setR] at hcell
  exact hcell

theorem pc_setR (cpu : ArmCpu) (r : Fin 16) (v : Word) :
    (cpu.setR r v).R 15 = if r = 15 then v else cpu.R 15 := by
  rw [ArmCpu.setR_R, Function.update_apply]
  simp only [eq_comm]

/-- The base is written in system mode, and is the same there. -/
theorem transferred_base_inSystem (h : cpu.CPSR.mode = m.code) (hbase : ¬ Banked m (regPos i 16)) :
    Transferred f true i m (fun _ => none) cpu (switchMode
      (cpu.inSystem.setR (regPos i 16) (blockEnd f i (cpu.R (regPos i 16)))) (m.code.setWidth 8)) := by
  have hcontrol := (back_from_system h (Function.update cpu.inSystem.R (regPos i 16)
    (blockEnd f i (cpu.R (regPos i 16))))).1
  refine ⟨hcontrol, nofun, fun c _ => ?_, ?_⟩
  · have hcell := cell_base_inSystem h cpu.inSystem.R (regPos i 16)
      (blockEnd f i (cpu.R (regPos i 16))) c
    rw [← not_not.1 hbase] at hcell
    refine hcell.trans (if_congr (by simp) rfl ?_)
    exact switchMode_cell h .sys c
  · rw [switchMode_R15, pc_setR]
    refine if_congr (by simp) rfl ?_
    exact switchMode_R15 ..

/-- The base is written behind the second switch. -/
theorem transferred_base_late (h : cpu.CPSR.mode = m.code) :
    Transferred f true i m (fun _ => none) cpu ((switchMode cpu.inSystem (m.code.setWidth 8)).setR
      (regPos i 16) (blockEnd f i (cpu.R (regPos i 16)))) := by
  obtain ⟨hcontrol, hcell, hpc⟩ := back_from_system h cpu.inSystem.R
  refine ⟨⟨hcontrol.1, hcontrol.2, hcontrol.3, hcontrol.4, hcontrol.5, hcontrol.6, hcontrol.7⟩, nofun,
    fun c _ => ?_, ?_⟩
  · rw [cell_setR]
    refine if_congr (by simp) rfl ?_
    exact (hcell c).trans (switchMode_cell h .sys c)
  · rw [pc_setR]
    refine if_congr (by simp) rfl ?_
    exact hpc.trans (switchMode_R15 ..)

end Results

/-! ### Loads -/

section Loads

variable {cpu : ArmCpu} {m : Mode} {f : LdmForm} {i : Word} {mem : Word → Word}

theorem ldm2_of_not_pc (hpc : listed i 15 = false) (writeBack : Bool) :
    ldm2 f writeBack mem i cpu = loadUser f writeBack mem i cpu := by
  cases f <;> cases writeBack <;>
    simp only [ldm2, ldmia2, ldmib2, ldmda2, ldmdb2, ldmia2W, ldmib2W, ldmda2W, ldmdb2W, hpc,
      Bool.false_eq_true, ↓reduceIte]

/-- Without `R15` the lines are all of the transfer. -/
theorem slot_lines_of_not_pc (hpc : listed i 15 = false) (base : Word) {r : Fin 16} (hr : r ≠ 15) :
    f.slot (countBefore i r f.lines) base = blockAddress f i base r := by
  have hmem := (f.mem_lines r).2 hr
  rw [blockAddress]
  cases f with
  | ia | ib => rw [LdmForm.order, countBefore_append hmem]
  | da | db =>
    have hskip : countBefore i r (15 :: LdmForm.da.lines) = countBefore i r LdmForm.da.lines := by
      rw [countBefore, List.takeWhile_cons_of_pos (by simpa using hr.symm), List.countP_cons_of_neg
        (by simp [hpc])]
      rfl
    rw [LdmForm.order]
    exact congrArg (fun k => LdmForm.slot _ k base) hskip.symm

theorem end_lines_of_not_pc (hpc : listed i 15 = false) (base : Word) :
    f.advance (f.lines.countP (listed i)) base = blockEnd f i base := by
  have hnone : List.countP (listed i) [15] = 0 := by
    rw [List.countP_singleton, hpc]
    rfl
  rw [blockEnd]
  cases f with
  | ia | ib => rw [LdmForm.order, List.countP_append, hnone, Nat.add_zero]
  | da | db => rw [LdmForm.order, List.countP_cons_of_neg (by simp [hpc])]

/-- The registers that a load leaves in system mode. -/
def loadedR (f : LdmForm) (mem : Word → Word) (i : Word) (cpu : ArmCpu) (r : Fin 16) : Word :=
  if listed i r then mem (blockAddress f i (cpu.R (regPos i 16)) r) else cpu.inSystem.R r

theorem loadUser_eq (h : cpu.CPSR.mode = m.code) (hm : m ≠ .usr ∧ m ≠ .sys) (hpc : listed i 15 = false)
    (writeBack : Bool) : loadUser f writeBack mem i cpu = switchMode
      (if writeBack && !listed i (regPos i 16) then
        (cpu.inSystem.withR (loadedR f mem i cpu)).setR (regPos i 16)
          (blockEnd f i (cpu.R (regPos i 16)))
      else cpu.inSystem.withR (loadedR f mem i cpu)) (m.code.setWidth 8) := by
  have huser : cpu.inUserMode = false := by
    rw [ArmCpu.inUserMode, h]
    cases m <;> first | exact absurd rfl hm.1 | exact absurd rfl hm.2 | decide
  have hloaded : (opLs f mem i cpu.inSystem (cpu.R (regPos i 16))).1 =
      cpu.inSystem.withR (loadedR f mem i cpu) := by
    rw [opLs_fst]
    congr 1
    funext r
    rw [loadedR]
    by_cases hr : r = 15
    · rw [if_neg (fun hand => hand.1 hr), hr, hpc]
      rfl
    · rw [slot_lines_of_not_pc hpc _ hr]
      refine if_congr ?_ rfl rfl
      exact and_iff_right hr
  rw [loadUser, if_neg (by rw [huser]; exact Bool.false_ne_true), ← ArmCpu.inSystem]
  simp only [hloaded, opLs_snd, end_lines_of_not_pc hpc, h]

/-- The words that go to user registers. -/
def loads (f : LdmForm) (mem : Word → Word) (i : Word) (cpu : ArmCpu) (r : Fin 16) : Option Word :=
  if listed i r then some (mem (blockAddress f i (cpu.R (regPos i 16)) r)) else none

theorem cellOf_sys_inj {r r' : Fin 16} {c : Cell} (h : cellOf .sys r = some c)
    (h' : cellOf .sys r' = some c) : r = r' := by
  have hall : ∀ r r' : Fin 16, cellOf .sys r = cellOf .sys r' → cellOf .sys r = none ∨ r = r' := by
    decide
  rcases hall r r' (h.trans h'.symm) with hnone | heq
  · rw [h] at hnone
    exact absurd hnone (by simp)
  · exact heq

theorem cell_loaded {r : Fin 16} {c : Cell} {v : Word} (hr : cellOf .sys r = some c)
    (hv : loads f mem i cpu r = some v) :
    (cpu.inSystem.withR (loadedR f mem i cpu)).cell .sys c = v := by
  rw [← read_eq_cellOf hr]
  change loadedR f mem i cpu r = v
  rw [loads] at hv
  rw [loadedR]
  split_ifs at hv ⊢ with hlist
  exact Option.some.inj hv

theorem cell_not_loaded (h : cpu.CPSR.mode = m.code) {c : Cell}
    (hc : ∀ r, cellOf .sys r = some c → loads f mem i cpu r = none) :
    (cpu.inSystem.withR (loadedR f mem i cpu)).cell .sys c = cpu.cell m c := by
  rw [← switchMode_cell h .sys c, ← ArmCpu.inSystem]
  by_cases howned : ∃ r, cellOf .sys r = some c
  · obtain ⟨r, hr⟩ := howned
    have hnone := hc r hr
    rw [← read_eq_cellOf hr, ← read_eq_cellOf hr]
    change loadedR f mem i cpu r = _
    rw [loads] at hnone
    rw [loadedR]
    split_ifs at hnone ⊢ with hlist
    rfl
  · exact cell_withR_of_notMem _ fun r hr => howned ⟨r, hr⟩

theorem loadedR_pc (hpc : listed i 15 = false) : loadedR f mem i cpu 15 = cpu.R 15 := by
  rw [loadedR, hpc]
  exact switchMode_R15 ..

theorem transferred_loads (h : cpu.CPSR.mode = m.code) (hpc : listed i 15 = false) :
    Transferred f false i m (loads f mem i cpu) cpu
      (switchMode (cpu.inSystem.withR (loadedR f mem i cpu)) (m.code.setWidth 8)) := by
  obtain ⟨hcontrol, hcell, hR⟩ := back_from_system h (loadedR f mem i cpu)
  refine ⟨hcontrol, fun r c v hr hv => (hcell c).trans (cell_loaded hr hv), fun c hc => ?_, ?_⟩
  · rw [if_neg (by simp)]
    exact (hcell c).trans (cell_not_loaded h hc)
  · rw [if_neg (by simp), hR, loadedR_pc hpc]

theorem transferred_loads_base (h : cpu.CPSR.mode = m.code) (hpc : listed i 15 = false)
    (hlist : listed i (regPos i 16) = false) (hbase : ¬ Banked m (regPos i 16)) :
    Transferred f true i m (loads f mem i cpu) cpu (switchMode
      ((cpu.inSystem.withR (loadedR f mem i cpu)).setR (regPos i 16)
        (blockEnd f i (cpu.R (regPos i 16)))) (m.code.setWidth 8)) := by
  have hcontrol := (back_from_system h (Function.update (loadedR f mem i cpu) (regPos i 16)
    (blockEnd f i (cpu.R (regPos i 16))))).1
  have hcell := cell_base_inSystem h (loadedR f mem i cpu) (regPos i 16)
    (blockEnd f i (cpu.R (regPos i 16)))
  refine ⟨hcontrol, fun r c v hr hv => ?_, fun c hc => ?_, ?_⟩
  · have hne : cellOf .sys (regPos i 16) ≠ some c := by
      intro hsame
      rw [cellOf_sys_inj hr hsame, loads, hlist] at hv
      exact absurd hv (by simp)
    rw [hcell, if_neg hne]
    exact cell_loaded hr hv
  · rw [hcell, ← not_not.1 hbase, cell_not_loaded h hc]
    exact if_congr (by simp) rfl rfl
  · rw [switchMode_R15, pc_setR]
    exact if_congr (by simp) rfl (loadedR_pc hpc)

end Loads

/-! ### Where the base is banked -/

section Banked

variable {m : Mode} {r : Fin 16}

/-- A base of zero, where user mode has a one. -/
def bankedBase (m : Mode) (r : Fin 16) : ArmCpu :=
  (switchMode ((init .arm9 0 0).setR r 1) (m.code.setWidth 8)).setR r 0

theorem bankedBase_mode (m : Mode) (r : Fin 16) : (bankedBase m r).CPSR.mode = m.code := by
  rw [bankedBase]
  change (switchMode ((init .arm9 0 0).setR r 1) (m.code.setWidth 8)).CPSR.mode = m.code
  rw [switchMode_CPSR]

theorem bankedBase_base (m : Mode) (r : Fin 16) : (bankedBase m r).R r = 0 := ArmCpu.setR_R_self ..

theorem bankedBase_cell (hbank : Banked m r) :
    ∃ c, cellOf .sys r = some c ∧ cellOf m r ≠ some c ∧ (bankedBase m r).cell m c = 1 := by
  cases hcell : cellOf .sys r with
  | none =>
    obtain rfl := cellOf_sys_eq_none hcell
    exact absurd rfl hbank
  | some c =>
    have hne : cellOf m r ≠ some c := hcell ▸ hbank
    have hmode : ((init .arm9 0 0).setR r 1).CPSR.mode = Mode.sys.code := rfl
    refine ⟨c, rfl, hne, ?_⟩
    rw [bankedBase, cell_setR, if_neg hne, switchMode_cell hmode, cell_setR, if_pos hcell]

theorem blockEnd_zero_ne_one (f : LdmForm) (i : Word) : blockEnd f i 0 ≠ 1 := by
  rw [blockEnd]
  generalize hk : List.countP (listed i) f.order = k
  intro h
  cases f <;> simp only [LdmForm.advance] at h <;> generalize BitVec.ofNat 32 k = x at h <;> bv_omega

/-- The base that is written in system mode is the one of user mode. -/
theorem not_transferred_of_banked {f : LdmForm} {i : Word} {loads : Fin 16 → Option Word} {cpu' : ArmCpu}
    (hbank : Banked m (regPos i 16)) (hloads : loads (regPos i 16) = none)
    (hcell : ∀ c, cellOf .sys (regPos i 16) = some c → cpu'.cell m c = blockEnd f i 0) :
    ¬ Transferred f true i m loads (bankedBase m (regPos i 16)) cpu' := by
  intro h
  obtain ⟨c, hsys, hm, hone⟩ := bankedBase_cell hbank
  have hothers := h.others c fun r hr => cellOf_sys_inj hsys hr ▸ hloads
  rw [if_neg (fun hand => hm hand.2), hone, hcell c hsys] at hothers
  exact blockEnd_zero_ne_one f i hothers

end Banked

theorem ExcMode.mode_ne (e : ExcMode) : e.mode ≠ .usr ∧ e.mode ≠ .sys := by
  cases e <;> decide

theorem stm2_eq (bus : Bus μ) (f : LdmForm) (i : Word) : stm2 bus i f false = storeUser bus i f fun _ s => s := by
  cases f <;> rfl

theorem stm2_writeBack_eq (bus : Bus μ) {f : LdmForm} (hf : f ≠ .ib) (i : Word) :
    stm2 bus i f true = storeUser bus i f (Machine.setR (regPos i 16)) := by
  cases f <;> first | rfl | exact absurd rfl hf

theorem stmib2W_eq (bus : Bus μ) {i : Word} {s : Machine μ} {m : Mode} (h : s.cpu.CPSR.mode = m.code)
    (hm : m ≠ .usr) : stmib2W bus i s = (storeUser bus i .ib (fun _ s => s) s).setR (regPos i 16)
      (blockEnd .ib i (s.cpu.R (regPos i 16))) := by
  rw [storeUser_eq h hm, stmib2W, if_neg (not_usr h hm)]
  simp only [storeLoop_eq h, h]

/-- The stores of user registers keep to the rules of the mode, except that all but `STMIB2_W` miss a
base that is banked. -/
theorem storesUser_iff (e : ExcMode) (f : LdmForm) (writeBack : Bool) (i : Word) :
    StoresUser f writeBack i e.mode ↔
      (writeBack = true → f = .ib ∨ ¬ Banked e.mode (regPos i 16)) := by
  have husr := e.mode_ne.1
  cases writeBack with
  | false =>
    refine iff_of_true (fun {μ} bus s h => ?_) nofun
    rw [stm2_eq, storeUser_eq h husr]
    exact ⟨transferred_back h, rfl⟩
  | true =>
    by_cases hib : f = .ib
    · subst hib
      refine iff_of_true (fun {μ} bus s h => ?_) fun _ => .inl rfl
      change Transferred _ _ _ _ _ _ (stmib2W bus i s).cpu ∧ (stmib2W bus i s).mem = _
      rw [stmib2W_eq bus h husr, storeUser_eq h husr]
      exact ⟨transferred_base_late h, rfl⟩
    · constructor
      · intro h _
        refine .inr fun hbank => ?_
        have hresult := (h (μ := Unit) ⟨fun _ m => (0, m), fun _ m => (0, m), fun _ m => (0, m),
          fun _ _ m => m, fun _ _ m => m, fun _ _ m => m⟩ ⟨bankedBase e.mode (regPos i 16), ()⟩
          (bankedBase_mode ..)).1
        rw [stm2_writeBack_eq _ hib, storeUser_eq (bankedBase_mode ..) husr, bankedBase_base] at hresult
        refine not_transferred_of_banked hbank rfl (fun c hc => ?_) hresult
        have hcell := cell_base_inSystem (bankedBase_mode e.mode (regPos i 16))
          (bankedBase e.mode (regPos i 16)).inSystem.R (regPos i 16) (blockEnd f i 0) c
        rw [if_pos hc] at hcell
        exact hcell
      · intro hcond μ bus s h
        rw [stm2_writeBack_eq _ hib, storeUser_eq h husr]
        exact ⟨transferred_base_inSystem h ((hcond rfl).resolve_left hib), rfl⟩

theorem loadsUser_iff (e : ExcMode) (f : LdmForm) (writeBack : Bool) (i : Word) :
    LoadsUser f writeBack i e.mode ↔
      (listed i 15 = false → writeBack = true →
        listed i (regPos i 16) = true ∨ ¬ Banked e.mode (regPos i 16)) := by
  constructor
  · intro h hpc hwrite
    subst hwrite
    by_contra hcond
    rw [not_or, not_not] at hcond
    obtain ⟨hlist, hbank⟩ := hcond
    have hlist' : listed i (regPos i 16) = false := Bool.eq_false_iff.2 hlist
    have hresult := h hpc (fun _ => 0) (bankedBase e.mode (regPos i 16)) (bankedBase_mode ..)
    rw [ldm2_of_not_pc hpc, loadUser_eq (bankedBase_mode ..) e.mode_ne hpc, hlist', bankedBase_base]
      at hresult
    refine not_transferred_of_banked hbank (by rw [hlist']; rfl) (fun c hc => ?_) hresult
    have hcell := cell_base_inSystem (bankedBase_mode e.mode (regPos i 16))
      (loadedR f (fun _ => 0) i (bankedBase e.mode (regPos i 16))) (regPos i 16) (blockEnd f i 0) c
    rw [if_pos hc] at hcell
    exact hcell
  · intro hcond hpc mem cpu h
    rw [ldm2_of_not_pc hpc, loadUser_eq h e.mode_ne hpc]
    cases hwrite : writeBack && !listed i (regPos i 16) with
    | false => exact transferred_loads h hpc
    | true =>
      rw [Bool.and_eq_true, Bool.not_eq_true'] at hwrite
      have hbase := (hcond hpc hwrite.1).resolve_left (by rw [hwrite.2]; exact Bool.false_ne_true)
      exact transferred_loads_base h hpc hwrite.2 hbase

/-- Which of the sixteen handlers keep to the rules of a mode, for which instructions. -/
theorem userTransfer_iff (e : ExcMode) (f : LdmForm) (writeBack : Bool) (i : Word) :
    (StoresUser f writeBack i e.mode ↔
        (writeBack = true → f = .ib ∨ ¬ Banked e.mode (regPos i 16))) ∧
      (LoadsUser f writeBack i e.mode ↔
        (listed i 15 = false → writeBack = true →
          listed i (regPos i 16) = true ∨ ¬ Banked e.mode (regPos i 16))) :=
  ⟨storesUser_iff e f writeBack i, loadsUser_iff e f writeBack i⟩

/-- `STMIA R13!, {R0}^` in supervisor mode. -/
theorem stmia2W_misses_base : ¬ StoresUser .ia true 0xE8ED0001 .svc := by
  intro h
  have hcond := (storesUser_iff .svc .ia true 0xE8ED0001).1 h rfl
  revert hcond
  decide

end Desmume.Arm
