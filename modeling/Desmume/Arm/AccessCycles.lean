import Desmume.Arm.MeteredHandlers

/-! The cycles that the handlers of loads and stores return against those of the addresses that they
access. -/

namespace Desmume.Arm
open Library Memory Timing

variable {μ : Type}

/-! ### Steps of a handler -/

/-- Between two states of a handler: the accesses that happened and those that were charged. -/
structure Spends (s s' : Machine (Metered μ)) (happened charged : List MemAccess) : Prop where
  proc_ID : s'.cpu.proc_ID = s.cpu.proc_ID
  ledger : Ledger.Moves (Meter.pay s.cpu.proc_ID) s.mem.ledger s'.mem.ledger happened charged

/-- What happened has been charged. -/
def Settled (s s' : Machine (Metered μ)) : Prop := ∃ accesses, Spends s s' accesses accesses

section Steps

variable {s s' s'' : Machine (Metered μ)} {happened charged happened' charged' : List MemAccess}

theorem Spends.refl (s : Machine (Metered μ)) : Spends s s [] [] := ⟨rfl, Ledger.Moves.refl _⟩

theorem Spends.trans (h : Spends s s' happened charged) (h' : Spends s' s'' happened' charged') :
    Spends s s'' (happened ++ happened') (charged ++ charged') := by
  obtain ⟨hproc, hledger⟩ := h'
  rw [h.proc_ID] at hproc hledger
  exact ⟨hproc, h.ledger.trans hledger⟩

theorem Settled.refl (s : Machine (Metered μ)) : Settled s s := ⟨[], Spends.refl s⟩

theorem Settled.trans (h : Settled s s') (h' : Settled s' s'') : Settled s s'' := by
  obtain ⟨accesses, hspends⟩ := h
  obtain ⟨accesses', hspends'⟩ := h'
  exact ⟨accesses ++ accesses', hspends.trans hspends'⟩

/-- A step of the processor alone. -/
theorem spends_onCpu {f : ArmCpu → ArmCpu} (hf : (f s.cpu).proc_ID = s.cpu.proc_ID) :
    Spends s (s.onCpu f) [] [] := ⟨hf, Ledger.Moves.refl _⟩

theorem spends_setR (n : Fin 16) (v : Word) : Spends s (s.onCpu fun cpu => cpu.setR n v) [] [] :=
  spends_onCpu (f := fun cpu => cpu.setR n v) rfl

theorem settled_onCpu {f : ArmCpu → ArmCpu} (hf : (f s.cpu).proc_ID = s.cpu.proc_ID) :
    Settled s (s.onCpu f) := ⟨[], spends_onCpu hf⟩

theorem Meter.pay_align (proc : Proc) (m : Meter) (size : Width) (dir : AccessDirection) (adr : Word) :
    m.pay proc ⟨size, dir, align size adr⟩ = m.pay proc ⟨size, dir, adr⟩ := by
  simp only [Meter.pay, memAccessCycles, align_align]

theorem spends_charge (size : Width) (dir : AccessDirection) (adr : Word) :
    Spends s (s.charge size dir adr) [] [⟨size, dir, align size adr⟩] := by
  refine ⟨rfl, (List.append_nil _).symm, ?_⟩
  rw [List.foldl_cons, Meter.pay_align]
  rfl

/-- A read of the bus enters the aligned address. -/
def Enters {w : ℕ} (size : Width) (read : Word → Metered μ → BitVec w × Metered μ) : Prop :=
  ∀ adr m, (read adr m).2.ledger = m.ledger.record ⟨size, .read, align size adr⟩

variable (bus : Bus μ)

theorem enters_READ8 : Enters .w8 bus.metered.READ8 := by
  intro adr m
  rw [Timing.align, show ~~~(BitVec.ofNat 32 Width.w8.bytes - 1) = BitVec.allOnes 32 from rfl,
    BitVec.and_allOnes]
  rfl

theorem enters_READ16 : Enters .w16 bus.metered.READ16 := fun _ _ => rfl

theorem enters_READ32 : Enters .w32 bus.metered.READ32 := fun _ _ => rfl

/-- A write to the bus enters the aligned address. -/
def EntersWrite {w : ℕ} (size : Width) (write : Word → BitVec w → Metered μ → Metered μ) : Prop :=
  ∀ adr v m, (write adr v m).ledger = m.ledger.record ⟨size, .write, align size adr⟩

theorem enters_WRITE8 : EntersWrite .w8 bus.metered.WRITE8 := by
  intro adr v m
  rw [Timing.align, show ~~~(BitVec.ofNat 32 Width.w8.bytes - 1) = BitVec.allOnes 32 from rfl,
    BitVec.and_allOnes]
  rfl

theorem enters_WRITE16 : EntersWrite .w16 bus.metered.WRITE16 := fun _ _ _ => rfl

theorem enters_WRITE32 : EntersWrite .w32 bus.metered.WRITE32 := fun _ _ _ => rfl

variable {bus} {w : ℕ} {size : Width}

/-- A word that is read and a processor that is changed by it. -/
theorem spends_read {read : Word → Metered μ → BitVec w × Metered μ} (h : Enters size read) (adr : Word)
    {cpu : ArmCpu} (hcpu : cpu.proc_ID = s.cpu.proc_ID) :
    Spends s ⟨cpu, (read adr s.mem).2⟩ [⟨size, .read, align size adr⟩] [] := by
  refine ⟨hcpu, ?_⟩
  change Ledger.Moves _ _ (read adr s.mem).2.ledger _ _
  rw [h adr s.mem]
  exact Ledger.moves_record _ _

theorem spends_load {read : Word → Metered μ → BitVec w × Metered μ} (h : Enters size read)
    (extend : BitVec w → Word) (n : Fin 16) (adr : Word) :
    Spends s (s.load read extend n adr) [⟨size, .read, align size adr⟩] [] := spends_read h adr rfl

theorem spends_store {write : Word → BitVec w → Metered μ → Metered μ} (h : EntersWrite size write)
    (v : BitVec w) (adr : Word) :
    Spends s (s.store write v adr) [⟨size, .write, align size adr⟩] [] := by
  refine ⟨rfl, ?_⟩
  change Ledger.Moves _ _ (write adr v s.mem).ledger _ _
  rw [h adr v s.mem]
  exact Ledger.moves_record _ _

end Steps

/-! ### What leaves the processor number alone -/

theorem proc_ID_switchMode (cpu : ArmCpu) (mode : BitVec 8) :
    (switchMode cpu mode).proc_ID = cpu.proc_ID := by
  have hsave : ∀ m, (cpu.saveBank m).proc_ID = cpu.proc_ID := by
    intro m
    rcases m with _ | m
    · rfl
    · cases m <;> rfl
  have hload : ∀ (cpu : ArmCpu) m, (cpu.loadBank m).proc_ID = cpu.proc_ID := by
    intro cpu m
    rcases m with _ | m
    · rfl
    · cases m <;> rfl
  exact (hload _ _).trans (hsave _)

theorem proc_ID_restoreSPSR (cpu : ArmCpu) : cpu.restoreSPSR.proc_ID = cpu.proc_ID :=
  proc_ID_switchMode cpu _

theorem proc_ID_loadPc (cpu : ArmCpu) : (loadPc cpu).proc_ID = cpu.proc_ID := by
  rw [loadPc]
  split_ifs <;> rfl

theorem proc_ID_branchTo (tmp : Word) (cpu : ArmCpu) : (branchTo tmp cpu).proc_ID = cpu.proc_ID :=
  proc_ID_loadPc _

theorem proc_ID_writeBase (i start : Word) (cpu : ArmCpu) :
    (writeBase i start cpu).proc_ID = cpu.proc_ID := by
  rw [writeBase]
  split_ifs <;> rfl

theorem proc_ID_writeBaseAbove (i start : Word) (cpu : ArmCpu) :
    (writeBaseAbove i start cpu).proc_ID = cpu.proc_ID := by
  rw [writeBaseAbove]
  split_ifs <;> rfl

/-! ### Transfers of one datum -/

section Single

variable (bus : Bus μ) (i : Word) (s : Machine (Metered μ)) {w : ℕ} {size : Width}

theorem spends_beforeLoad (index : Indexing) (moved : Word) :
    Spends s (index.beforeLoad i moved s) [] [] := by
  cases index with
  | off => exact Spends.refl s
  | preind | postind => exact spends_setR _ _

theorem spends_beforeStore (index : Indexing) (moved : Word) :
    Spends s (index.beforeStore i moved s) [] [] := by
  cases index with
  | preind => exact spends_setR _ _
  | off | postind => exact Spends.refl s

theorem spends_afterStore (index : Indexing) (moved : Word) :
    Spends s (index.afterStore i moved s) [] [] := by
  cases index with
  | postind => exact spends_setR _ _
  | off | preind => exact Spends.refl s

theorem settled_loadForm {read : Word → Metered μ → BitVec w × Metered μ} (h : Enters size read)
    (extend : BitVec w → Word) (sign : OffsetSign) (off : Word) (index : Indexing) :
    Settled s (loadForm i s read extend size sign off index).2 :=
  ⟨_, ((spends_beforeLoad i s index _).trans (spends_load h extend _ _)).trans (spends_charge ..)⟩

theorem settled_storeForm {write : Word → BitVec w → Metered μ → Metered μ} (h : EntersWrite size write)
    (narrow : Word → BitVec w) (sign : OffsetSign) (off : Word) (index : Indexing) :
    Settled s (storeForm i s write narrow size sign off index).2 :=
  ⟨_, (((spends_beforeStore i s index _).trans (spends_store h _ _)).trans
    (spends_afterStore i _ index _)).trans (spends_charge ..)⟩

theorem spends_opLDR (adr : Word) :
    Spends s (opLDR bus.metered i adr s) [⟨.w32, .read, align .w32 adr⟩] [] := by
  have hload := spends_load (s := s) (enters_READ32 bus) (rotateUnaligned adr) (regPos i 12) adr
  rw [opLDR]
  split_ifs
  · exact hload.trans (spends_onCpu (proc_ID_loadPc _))
  · exact hload

theorem settled_LDR (a : Addressing WordOffset) : Settled s (LDR bus.metered i s a).2 :=
  ⟨_, ((spends_beforeLoad i s a.index _).trans (spends_opLDR bus i _ _)).trans (spends_charge ..)⟩

theorem settled_LDREX : Settled s (LDREX bus.metered i s).2 :=
  ⟨_, (spends_load (enters_READ32 bus) _ _ _).trans (spends_charge ..)⟩

theorem settled_STREX : Settled s (STREX bus.metered i s).2 :=
  ⟨_, ((spends_store (enters_WRITE32 bus) _ _).trans (spends_setR _ _)).trans (spends_charge ..)⟩

theorem settled_SWP : Settled s (SWP bus.metered i s).2 := by
  have hread := spends_read (s := s) (enters_READ32 bus) (s.cpu.rn i) rfl
  have hwrite := hread.trans (spends_store (enters_WRITE32 bus) (s.cpu.rm i) (s.cpu.rn i))
  exact ⟨_, ((hwrite.trans (spends_setR _ _)).trans (spends_charge ..)).trans (spends_charge ..)⟩

theorem settled_SWPB : Settled s (SWPB bus.metered i s).2 := by
  have hread := spends_read (s := s) (enters_READ8 bus) (s.cpu.rn i) rfl
  have hwrite := hread.trans (spends_store (enters_WRITE8 bus) ((s.cpu.rm i).setWidth 8) (s.cpu.rn i))
  exact ⟨_, ((hwrite.trans (spends_setR _ _)).trans (spends_charge ..)).trans (spends_charge ..)⟩

theorem settled_storeDouble (addr : Word) : Settled s (storeDouble bus.metered i addr s) := by
  have hstores := (spends_store (s := s) (enters_WRITE32 bus) (s.cpu.R (regPos i 12)) addr).trans
    (spends_store (enters_WRITE32 bus) (s.cpu.R (regPos i 12 + 1)) (addr + 4))
  exact ⟨_, (hstores.trans (spends_charge ..)).trans (spends_charge ..)⟩

theorem settled_loadDouble (addr : Word) : Settled s (loadDouble bus.metered i addr s) := by
  have hloads := (spends_load (s := s) (enters_READ32 bus) id (regPos i 12) addr).trans
    (spends_load (enters_READ32 bus) id (regPos i 12 + 1) (addr + 4))
  exact ⟨_, (hloads.trans (spends_charge ..)).trans (spends_charge ..)⟩

theorem settled_LDRD_STRD_POST_INDEX : Settled s (LDRD_STRD_POST_INDEX bus.metered i s).2 := by
  have hbase : Settled s (s.onCpu fun cpu => cpu.setR (regPos i 16) (doubleMoved i (s.cpu.rn i) cpu)) :=
    settled_onCpu rfl
  rw [LDRD_STRD_POST_INDEX]
  dsimp only
  split_ifs
  · exact hbase.trans (settled_storeDouble ..)
  · exact hbase.trans (settled_loadDouble ..)
  · exact hbase

theorem settled_LDRD_STRD_OFFSET_PRE_INDEX :
    Settled s (LDRD_STRD_OFFSET_PRE_INDEX bus.metered i s).2 := by
  rw [LDRD_STRD_OFFSET_PRE_INDEX]
  dsimp only
  split_ifs
  · exact (settled_storeDouble ..).trans (settled_onCpu rfl)
  · exact settled_storeDouble ..
  · exact (settled_onCpu rfl).trans (settled_loadDouble ..)
  · exact settled_loadDouble ..
  · exact Settled.refl s

end Single

/-! ### Block transfers -/

section Blocks

variable (bus : Bus μ) (i : Word) (s : Machine (Metered μ))

theorem settled_transfer {line : Fin 16 → Transfer (Metered μ) → Transfer (Metered μ)}
    (h : ∀ r t, Settled t.2 (line r t).2) (rs : List (Fin 16)) (t : Transfer (Metered μ)) :
    Settled t.2 (transfer i line rs t).2 := by
  induction rs generalizing t with
  | nil => exact Settled.refl _
  | cons r rs ih =>
    rw [transfer, List.foldl_cons]
    split_ifs
    · exact (h r t).trans (ih _)
    · exact ih t

theorem settled_loadLines (f : LdmForm) (start : Word) :
    Settled s (loadLines bus.metered i f start s).2 :=
  settled_transfer i (fun _ _ => ⟨_, (spends_load (enters_READ32 bus) _ _ _).trans (spends_charge ..)⟩)
    f.lines (start, s)

theorem settled_storeLines (f : LdmForm) (start : Word) :
    Settled s (storeLines bus.metered i f start s).2 :=
  settled_transfer i (fun _ _ => ⟨_, (spends_store (enters_WRITE32 bus) _ _).trans (spends_charge ..)⟩)
    f.order (start, s)

theorem spends_loadPcWord (adr charged : Word) {f : Word → ArmCpu → ArmCpu}
    (hf : ∀ tmp cpu, (f tmp cpu).proc_ID = cpu.proc_ID) :
    Spends s (loadPcWord bus.metered adr charged f s) [⟨.w32, .read, align .w32 adr⟩]
      [⟨.w32, .read, align .w32 charged⟩] :=
  (spends_read (enters_READ32 bus) adr (hf _ _)).trans (spends_charge ..)

theorem settled_loadPcWord (adr : Word) {f : Word → ArmCpu → ArmCpu}
    (hf : ∀ tmp cpu, (f tmp cpu).proc_ID = cpu.proc_ID) :
    Settled s (loadPcWord bus.metered adr adr f s) := ⟨_, spends_loadPcWord bus s adr adr hf⟩

theorem settled_switchTo (mode : BitVec 5) : Settled s (s.switchTo mode) :=
  settled_onCpu (f := fun cpu => switchMode cpu (mode.setWidth 8)) (proc_ID_switchMode _ _)

theorem settled_setR (n : Fin 16) (v : Word) : Settled s (s.setR n v) := ⟨[], spends_setR n v⟩

theorem settled_LDM (f : LdmForm) : Settled s ((ArmMemOp.LDM f).execute bus.metered i s).2 := by
  have hpc := fun s adr => settled_loadPcWord bus s adr proc_ID_branchTo
  cases f with
  | ia | ib =>
    simp only [ArmMemOp.execute, LDMIA, LDMIB]
    split_ifs
    · exact (settled_loadLines ..).trans (hpc _ _)
    · exact settled_loadLines ..
  | da | db =>
    simp only [ArmMemOp.execute, LDMDA, LDMDB]
    split_ifs
    · exact (hpc _ _).trans (settled_loadLines ..)
    · exact settled_loadLines ..

theorem settled_LDM_W (f : LdmForm) : Settled s ((ArmMemOp.LDM_W f).execute bus.metered i s).2 := by
  have hpc := fun s adr => settled_loadPcWord bus s adr proc_ID_branchTo
  have hbase := fun (s : Machine (Metered μ)) start =>
    settled_onCpu (s := s) (proc_ID_writeBaseAbove i start _)
  cases f with
  | ia | ib =>
    simp only [ArmMemOp.execute, LDMIA_W, LDMIB_W]
    split_ifs
    · exact ((settled_loadLines ..).trans (hpc _ _)).trans (hbase _ _)
    · exact (settled_loadLines ..).trans (hbase _ _)
  | da | db =>
    simp only [ArmMemOp.execute, LDMDA_W, LDMDB_W]
    split_ifs
    · exact ((hpc _ _).trans (settled_loadLines ..)).trans (hbase _ _)
    · exact (settled_loadLines ..).trans (hbase _ _)

theorem settled_writeBase (start : Word) : Settled s (s.onCpu (writeBase i start)) :=
  settled_onCpu (proc_ID_writeBase i start _)

theorem settled_restoreSPSR : Settled s (s.onCpu ArmCpu.restoreSPSR) :=
  settled_onCpu (proc_ID_restoreSPSR _)

theorem settled_LDM2_USER (f : LdmForm) (writeBack : Bool) :
    Settled s (LDM2_USER bus.metered i s f writeBack).2 := by
  have hlines : ∀ start, Settled s (loadLines bus.metered i f start (s.switchTo Mode.sys.code)).2 :=
    fun _ => (settled_switchTo ..).trans (settled_loadLines ..)
  rw [LDM2_USER]
  dsimp only
  split_ifs
  · exact Settled.refl s
  · exact ((hlines _).trans (settled_writeBase ..)).trans (settled_switchTo ..)
  · exact (hlines _).trans (settled_switchTo ..)

/-- `R15` as the last word, with the status register. -/
theorem settled_returnLast (adr : Word) : Settled s (loadPcWord bus.metered adr adr
    (fun tmp cpu => (cpu.setR 15 (pcMask tmp)).restoreSPSR.jump) s) :=
  settled_loadPcWord bus s adr fun tmp cpu => proc_ID_restoreSPSR (cpu.setR 15 (pcMask tmp))

/-- `R15` as the first word. -/
theorem settled_returnFirst (adr : Word) : Settled s (loadPcWord bus.metered adr adr
    (fun tmp cpu => (cpu.setR 15 (pcMask tmp)).copySPSR.jump) s) :=
  settled_loadPcWord bus s adr fun _ _ => rfl

theorem settled_LDM2 (f : LdmForm) : Settled s ((ArmMemOp.LDM2 f).execute bus.metered i s).2 := by
  cases f with
  | ia | ib =>
    simp only [ArmMemOp.execute, LDMIA2, LDMIB2]
    split_ifs
    · exact (settled_loadLines ..).trans (settled_returnLast ..)
    · exact settled_LDM2_USER ..
  | da | db =>
    simp only [ArmMemOp.execute, LDMDA2, LDMDB2]
    split_ifs
    · refine Settled.trans ?_ (settled_restoreSPSR _)
      exact (settled_returnFirst bus s _).trans (settled_loadLines ..)
    · exact settled_LDM2_USER ..

theorem settled_writeBase_restoreSPSR (start : Word) :
    Settled s (s.onCpu fun cpu => (writeBase i start cpu).restoreSPSR) := by
  apply settled_onCpu
  rw [proc_ID_restoreSPSR, proc_ID_writeBase]

/-- The block loads with the S bit and write-back, but for `R15` in a list that goes up from the word
behind the base. -/
theorem settled_LDM2_W (f : LdmForm) (h : f = .ib → listed i 15 = false) :
    Settled s ((ArmMemOp.LDM2_W f).execute bus.metered i s).2 := by
  cases f with
  | ia =>
    simp only [ArmMemOp.execute, LDMIA2_W]
    split_ifs
    · exact ((settled_loadLines ..).trans (settled_writeBase ..)).trans (settled_returnLast ..)
    · exact settled_LDM2_USER ..
  | ib =>
    simp only [ArmMemOp.execute, LDMIB2_W, h rfl, Bool.false_eq_true, ↓reduceIte]
    exact settled_LDM2_USER ..
  | da =>
    simp only [ArmMemOp.execute, LDMDA2_W]
    split_ifs
    · refine Settled.trans ?_ (settled_writeBase_restoreSPSR i _ _)
      refine Settled.trans ?_ (settled_loadLines ..)
      exact settled_loadPcWord bus s _ fun _ _ => rfl
    · exact settled_LDM2_USER ..
  | db =>
    simp only [ArmMemOp.execute, LDMDB2_W]
    split_ifs
    · refine Settled.trans ?_ (settled_writeBase_restoreSPSR i _ _)
      exact (settled_returnFirst bus s _).trans (settled_loadLines ..)
    · exact settled_LDM2_USER ..

theorem settled_STM_W (f : LdmForm) : Settled s (STM_W bus.metered i s f).2 :=
  (settled_storeLines ..).trans (settled_setR ..)

theorem settled_STM2_USER (f : LdmForm) {base : Word → Machine (Metered μ) → Machine (Metered μ)}
    (h : ∀ start s, Settled s (base start s)) : Settled s (STM2_USER bus.metered i s f base).2 := by
  rw [STM2_USER]
  dsimp only
  split_ifs
  · exact Settled.refl s
  · exact (((settled_switchTo ..).trans (settled_storeLines ..)).trans (h _ _)).trans
      (settled_switchTo ..)

theorem settled_STM2 (f : LdmForm) : Settled s (STM2 bus.metered i s f).2 := by
  rw [STM2]
  exact settled_STM2_USER bus i s f fun _ s => Settled.refl s

theorem settled_STM2_W (f : LdmForm) : Settled s (STM2_W bus.metered i s f).2 := by
  cases f with
  | ib =>
    rw [STM2_W, STMIB2_W]
    dsimp only
    split_ifs
    · exact Settled.refl s
    · exact (((settled_switchTo ..).trans (settled_storeLines ..)).trans (settled_switchTo ..)).trans
        (settled_setR ..)
  | ia | da | db =>
    rw [STM2_W]
    · exact settled_STM2_USER bus i s _ fun _ s => settled_setR s (regPos i 16) _
    · exact LdmForm.noConfusion

end Blocks

end Desmume.Arm
