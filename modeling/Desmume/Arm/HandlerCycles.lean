import Desmume.Arm.AccessCycles

/-! Which handlers of loads and stores charge the addresses that they access. -/

namespace Desmume.Arm
open Library Memory Timing

variable {μ : Type}

namespace Thumb

section Handlers

variable (bus : Bus μ) (i : Word) (s : Machine (Metered μ))

theorem settled_chargedLine_push (r : Fin 16) (t : Transfer (Metered μ)) :
    Settled t.2 (chargedLine .write (pushReg bus.metered) r t).2 :=
  ⟨_, (spends_store (enters_WRITE32 bus) _ _).trans (spends_charge ..)⟩

theorem settled_chargedLine_load (r : Fin 16) (t : Transfer (Metered μ)) :
    Settled t.2 (chargedLine .read (loadUp bus.metered) r t).2 :=
  ⟨_, (spends_load (enters_READ32 bus) _ _ _).trans (spends_charge ..)⟩

theorem settled_chargedLine_store (r : Fin 16) (t : Transfer (Metered μ)) :
    Settled t.2 (chargedLine .write (storeUp bus.metered) r t).2 :=
  ⟨_, (spends_store (enters_WRITE32 bus) _ _).trans (spends_charge ..)⟩

theorem settled_PUSH : Settled s (PUSH bus.metered i s).2 := by
  refine Settled.trans ?_ (settled_setR ..)
  exact settled_transfer i (settled_chargedLine_push bus) down (_, s)

theorem settled_PUSH_LR : Settled s (PUSH_LR bus.metered i s).2 := by
  refine Settled.trans ?_ (settled_setR ..)
  refine Settled.trans ?_ (settled_transfer i (settled_chargedLine_push bus) down _)
  exact settled_chargedLine_push bus 14 (s.cpu.R 13 - 4, s)

theorem settled_POP : Settled s (POP bus.metered i s).2 := by
  refine Settled.trans ?_ (settled_setR ..)
  exact settled_transfer i (settled_chargedLine_load bus) up (_, s)

theorem settled_POP_PC : Settled s (POP_PC bus.metered i s).2 := by
  refine Settled.trans ?_ (settled_setR ..)
  refine Settled.trans ?_ (settled_loadPcWord bus _ _ fun v cpu => ?_)
  · exact settled_transfer i (settled_chargedLine_load bus) up (_, s)
  · dsimp only
    split_ifs <;> rfl

theorem settled_STMIA_THUMB : Settled s (STMIA_THUMB bus.metered i s).2 := by
  refine Settled.trans ?_ (settled_setR ..)
  exact settled_transfer i (settled_chargedLine_store bus) up (_, s)

theorem settled_LDMIA_THUMB : Settled s (LDMIA_THUMB bus.metered i s).2 := by
  have hlines := settled_transfer i (settled_chargedLine_load bus) up (s.cpu.lo i 8, s)
  rw [LDMIA_THUMB]
  dsimp only
  split_ifs
  · exact hlines
  · exact hlines.trans (settled_setR ..)

end Handlers

end Thumb

/-! ### All handlers -/

inductive MemOp where
  | arm (op : ArmMemOp)
  | thumb (op : Thumb.MemOp)
  deriving DecidableEq

namespace MemOp

def execute (bus : Bus (Metered μ)) (i : Word) (s : Machine (Metered μ)) :
    MemOp → ℕ × Machine (Metered μ)
  | arm op => op.execute bus i s
  | thumb op => op.execute bus i s

/-- The handler, started with nothing in the ledger. -/
def run (bus : Bus μ) (t : DataTiming) (i : Word) (s : Machine μ) (op : MemOp) :
    ℕ × Machine (Metered μ) :=
  op.execute bus.metered i (s.meter t)

/-- What the handler returns. -/
def cycles (bus : Bus μ) (t : DataTiming) (i : Word) (s : Machine μ) (op : MemOp) : ℕ :=
  aluMemCycles s.cpu.proc_ID (op.run bus t i s).1 (op.run bus t i s).2.mem.ledger.balance.c

/-- What went over the bus. -/
def accesses (bus : Bus μ) (t : DataTiming) (i : Word) (s : Machine μ) (op : MemOp) :
    List MemAccess :=
  (op.run bus t i s).2.mem.ledger.entries

/-- What the handler would return if it charged what went over the bus. -/
def accessCycles (bus : Bus μ) (t : DataTiming) (i : Word) (s : Machine μ) (op : MemOp) : ℕ :=
  aluMemCycles s.cpu.proc_ID (op.run bus t i s).1
    ((op.accesses bus t i s).foldl (Meter.pay s.cpu.proc_ID) ⟨t, 0⟩).c

/-- In every state the cycles that are returned are those of the accesses. -/
def ChargesAccesses (op : MemOp) (i : Word) : Prop :=
  ∀ (μ : Type) (bus : Bus μ) (t : DataTiming) (s : Machine μ),
    op.cycles bus t i s = op.accessCycles bus t i s

/-- Handlers that charge some other address: `OP_LDR_IMM_OFF` and `OP_LDR_REG_OFF` of THUMB state, and
`OP_LDMIB2_W` with `R15` in its list. -/
def ChargesElsewhere (i : Word) : MemOp → Prop
  | thumb .LDR_IMM_OFF | thumb .LDR_REG_OFF => True
  | arm (.LDM2_W .ib) => listed i 15 = true
  | _ => False

section Settled

variable (bus : Bus μ) (i : Word) (s : Machine (Metered μ))

theorem settled_arm (op : ArmMemOp) (h : ¬ ChargesElsewhere i (arm op)) :
    Settled s (op.execute bus.metered i s).2 := by
  cases op with
  | LDR a => exact settled_LDR bus i s a
  | LDRB a => exact settled_loadForm i s (enters_READ8 bus) ..
  | STR a => exact settled_storeForm i s (enters_WRITE32 bus) ..
  | STRB a => exact settled_storeForm i s (enters_WRITE8 bus) ..
  | LDRH a | LDRSH a => exact settled_loadForm i s (enters_READ16 bus) ..
  | LDRSB a => exact settled_loadForm i s (enters_READ8 bus) ..
  | STRH a => exact settled_storeForm i s (enters_WRITE16 bus) ..
  | LDREX => exact settled_LDREX bus i s
  | STREX => exact settled_STREX bus i s
  | SWP => exact settled_SWP bus i s
  | SWPB => exact settled_SWPB bus i s
  | LDRD_STRD_POST_INDEX => exact settled_LDRD_STRD_POST_INDEX bus i s
  | LDRD_STRD_OFFSET_PRE_INDEX => exact settled_LDRD_STRD_OFFSET_PRE_INDEX bus i s
  | LDM f => exact settled_LDM bus i s f
  | LDM_W f => exact settled_LDM_W bus i s f
  | LDM2 f => exact settled_LDM2 bus i s f
  | LDM2_W f =>
    refine settled_LDM2_W bus i s f fun hf => ?_
    subst hf
    exact Bool.eq_false_iff.2 h
  | STM f => exact settled_storeLines bus i s f _
  | STM_W f => exact settled_STM_W bus i s f
  | STM2 f => exact settled_STM2 bus i s f
  | STM2_W f => exact settled_STM2_W bus i s f

theorem settled_thumb (op : Thumb.MemOp) (h : ¬ ChargesElsewhere i (thumb op)) :
    Settled s (op.execute bus.metered i s).2 := by
  cases op with
  | STRB_IMM_OFF | STRB_REG_OFF =>
    exact ⟨_, (spends_store (enters_WRITE8 bus) _ _).trans (spends_charge ..)⟩
  | LDRB_IMM_OFF | LDRB_REG_OFF | LDRSB_REG_OFF =>
    exact ⟨_, (spends_load (enters_READ8 bus) _ _ _).trans (spends_charge ..)⟩
  | STRH_IMM_OFF | STRH_REG_OFF =>
    exact ⟨_, (spends_store (enters_WRITE16 bus) _ _).trans (spends_charge ..)⟩
  | LDRH_IMM_OFF | LDRH_REG_OFF | LDRSH_REG_OFF =>
    exact ⟨_, (spends_load (enters_READ16 bus) _ _ _).trans (spends_charge ..)⟩
  | STR_IMM_OFF | STR_REG_OFF | STR_SPREL =>
    exact ⟨_, (spends_store (enters_WRITE32 bus) _ _).trans (spends_charge ..)⟩
  | LDR_SPREL | LDR_PCREL =>
    exact ⟨_, (spends_load (enters_READ32 bus) _ _ _).trans (spends_charge ..)⟩
  | LDR_IMM_OFF | LDR_REG_OFF => exact absurd trivial h
  | PUSH => exact Thumb.settled_PUSH bus i s
  | PUSH_LR => exact Thumb.settled_PUSH_LR bus i s
  | POP => exact Thumb.settled_POP bus i s
  | POP_PC => exact Thumb.settled_POP_PC bus i s
  | STMIA_THUMB => exact Thumb.settled_STMIA_THUMB bus i s
  | LDMIA_THUMB => exact Thumb.settled_LDMIA_THUMB bus i s

end Settled

/-! ### The handlers that charge elsewhere -/

/-- The word that a handler charges is the one that it accesses. -/
def ChargesWord (i : Word) (s : Machine μ) : MemOp → Prop
  | thumb .LDR_IMM_OFF =>
    let adr := s.cpu.lo i 3 + ((i >>> 4) &&& 0x7C)
    align .w32 ((adr &&& 3) * 8) = align .w32 adr
  | thumb .LDR_REG_OFF => align .w32 ((Thumb.adrReg i s &&& 3) * 8) = align .w32 (Thumb.adrReg i s)
  | arm (.LDM2_W .ib) => listed i 15 = false
  | _ => True

section Elsewhere

variable (bus : Bus μ) (i : Word)

theorem spends_LDR_IMM_OFF (s : Machine (Metered μ)) :
    Spends s (Thumb.LDR_IMM_OFF bus.metered i s).2
      [⟨.w32, .read, align .w32 (s.cpu.lo i 3 + ((i >>> 4) &&& 0x7C))⟩]
      [⟨.w32, .read, align .w32 (((s.cpu.lo i 3 + ((i >>> 4) &&& 0x7C)) &&& 3) * 8)⟩] :=
  (spends_load (enters_READ32 bus) _ _ _).trans (spends_charge ..)

theorem spends_LDR_REG_OFF (s : Machine (Metered μ)) :
    Spends s (Thumb.LDR_REG_OFF bus.metered i s).2
      [⟨.w32, .read, align .w32 (Thumb.adrReg i s)⟩]
      [⟨.w32, .read, align .w32 ((Thumb.adrReg i s &&& 3) * 8)⟩] :=
  (spends_load (enters_READ32 bus) _ _ _).trans (spends_charge ..)

/-- The lines of `OP_LDMIB2_W` in front of `R15`. -/
def ibLines (s : Machine (Metered μ)) : Transfer (Metered μ) :=
  loadLines bus.metered i .ib (s.cpu.rn i) s

theorem spends_LDMIB2_W (h : listed i 15 = true) (s : Machine (Metered μ)) {acc : List MemAccess}
    (hlines : Spends s (ibLines bus i s).2 acc acc) :
    Spends s (LDMIB2_W bus.metered i s).2
      (acc ++ [⟨.w32, .read, align .w32 ((ibLines bus i s).1 + 4)⟩])
      (acc ++ [⟨.w32, .read, align .w32 (ibLines bus i s).1⟩]) := by
  have hbase := hlines.trans (spends_onCpu (proc_ID_writeBase i ((ibLines bus i s).1 + 4) _))
  rw [List.append_nil] at hbase
  rw [LDMIB2_W, if_pos h]
  exact hbase.trans (spends_loadPcWord bus _ _ _ fun tmp cpu =>
    proc_ID_restoreSPSR ((cpu.setR 15 (pcMask tmp)).copySPSR.jump))

end Elsewhere

theorem pay_eq_iff (proc : Proc) (m : Meter) (a b : Word) :
    m.pay proc ⟨.w32, .read, align .w32 a⟩ = m.pay proc ⟨.w32, .read, align .w32 b⟩ ↔
      align .w32 a = align .w32 b := by
  constructor
  · intro h
    have hlast := congrArg (fun m : Meter => m.timing.lastAddress proc) h
    simp only [Meter.pay, lastAddress_memAccessCycles, align_align] at hlast
    exact hlast
  · intro h
    rw [h]

theorem align_w32 (adr : Word) : align .w32 adr = (adr >>> 2) <<< 2 := by
  apply BitVec.eq_of_getLsbD_eq
  intro k hk
  rw [Timing.align, show ~~~(BitVec.ofNat 32 Width.w32.bytes - 1) = (0xFFFFFFFC : Word) from rfl]
  interval_cases k <;> simp

/-- A word is not the one behind it. -/
theorem align_add_four_ne (adr : Word) : align .w32 adr ≠ align .w32 (adr + 4) := by
  rw [align_w32, align_w32]
  bv_omega

section Run

variable (bus : Bus μ) (t : DataTiming) (i : Word) (s : Machine μ)

/-- What the handler has charged, in timing and in cycles, is what went over the bus. -/
def RunSettles (op : MemOp) : Prop :=
  Ledger.Settles (Meter.pay s.cpu.proc_ID) ⟨[], ⟨t, 0⟩⟩ (op.run bus t i s).2.mem.ledger

theorem runSettles_of_settled {op : MemOp}
    (h : ∀ s, Settled s (op.execute bus.metered i s).2) : op.RunSettles bus t i s := by
  obtain ⟨accesses, hspends⟩ := h (s.meter t)
  exact ⟨accesses, hspends.ledger⟩

/-- A last access that is charged at another word, or not. -/
theorem runSettles_iff_of_spends (op : MemOp) (acc : List MemAccess) {a b : Word}
    (h : Spends (s.meter t) (op.run bus t i s).2 (acc ++ [⟨.w32, .read, align .w32 a⟩])
      (acc ++ [⟨.w32, .read, align .w32 b⟩])) :
    op.RunSettles bus t i s ↔ align .w32 b = align .w32 a := by
  refine (Ledger.settles_iff h.ledger).trans ?_
  rw [List.foldl_append, List.foldl_append]
  exact pay_eq_iff _ _ b a

/-- The ledger of a handler in a state is settled exactly if it charges the word that it accesses. -/
theorem runSettles_iff (op : MemOp) : op.RunSettles bus t i s ↔ op.ChargesWord i s := by
  by_cases helse : op.ChargesElsewhere i
  · cases op with
    | arm op =>
      obtain rfl : op = .LDM2_W .ib := by
        cases op with
        | LDM2_W f => cases f <;> first | rfl | exact helse.elim
        | _ => exact helse.elim
      have hlist : listed i 15 = true := helse
      obtain ⟨acc, hacc⟩ := settled_loadLines bus i (s.meter t) .ib ((s.meter t).cpu.rn i)
      have hspends := spends_LDMIB2_W bus i hlist (s.meter t) hacc
      refine (runSettles_iff_of_spends bus t i s (.arm (.LDM2_W .ib)) acc hspends).trans ?_
      refine iff_of_false (align_add_four_ne _) ?_
      rw [ChargesWord, hlist]
      nofun
    | thumb op =>
      cases op with
      | LDR_IMM_OFF => exact runSettles_iff_of_spends bus t i s _ [] (spends_LDR_IMM_OFF bus i _)
      | LDR_REG_OFF => exact runSettles_iff_of_spends bus t i s _ [] (spends_LDR_REG_OFF bus i _)
      | _ => exact helse.elim
  · have hsettles : op.RunSettles bus t i s := by
      apply runSettles_of_settled
      intro s
      cases op with
      | arm op => exact settled_arm bus i s op helse
      | thumb op => exact settled_thumb bus i s op helse
    refine iff_of_true hsettles ?_
    cases op with
    | arm op =>
      cases op with
      | LDM2_W f =>
        cases f with
        | ib => exact Bool.eq_false_iff.2 helse
        | _ => trivial
      | _ => trivial
    | thumb op =>
      cases op with
      | LDR_IMM_OFF | LDR_REG_OFF => exact absurd trivial helse
      | _ => trivial

theorem cycles_eq_of_runSettles {op : MemOp} (h : op.RunSettles bus t i s) :
    op.cycles bus t i s = op.accessCycles bus t i s := by
  obtain ⟨accesses, hmoves⟩ := h
  rw [cycles, accessCycles, MemOp.accesses, hmoves.entries, hmoves.balance]
  rfl

end Run

/-! ### States in which the two costs differ -/

/-- An ARM7 with the same word in every register. -/
def filled (v : Word) : Machine Unit := ⟨(init .arm7 0 0).withR fun _ => v, ()⟩

/-- A bus on which every word is zero. -/
def zeros : Bus Unit where
  read08 _ m := (0, m)
  read16 _ m := (0, m)
  read32 _ m := (0, m)
  write08 _ _ m := m
  write16 _ _ m := m
  write32 _ _ m := m

/-- Advanced timing, with the last access at `last`. -/
def timingAt (last : Word) : DataTiming := ⟨true, 0x027C0000, CacheController.reset, fun _ => last⟩

section Differ

variable {t : DataTiming} {i : Word} {s : Machine Unit}

/-- The last access and the last charge are those of the words `a` and `b`. -/
theorem cycles_ne_of_spends {op : MemOp} (acc : List MemAccess) {a b : Word}
    (hproc : s.cpu.proc_ID = .arm7)
    (h : Spends (s.meter t) (op.run zeros t i s).2
      (acc ++ [⟨.w32, .read, align .w32 a⟩]) (acc ++ [⟨.w32, .read, align .w32 b⟩]))
    (hne : ∀ m : Meter, m = acc.foldl (Meter.pay .arm7) ⟨t, 0⟩ →
      (m.pay .arm7 ⟨.w32, .read, b⟩).c ≠ (m.pay .arm7 ⟨.w32, .read, a⟩).c) :
    op.cycles zeros t i s ≠ op.accessCycles zeros t i s := by
  intro heq
  have hledger := h.ledger
  rw [show (s.meter t).cpu.proc_ID = .arm7 from hproc] at hledger
  have hbalance : (op.run zeros t i s).2.mem.ledger.balance =
      (acc ++ [(⟨.w32, .read, align .w32 b⟩ : MemAccess)]).foldl (Meter.pay .arm7) ⟨t, 0⟩ :=
    hledger.balance
  have hentries : op.accesses zeros t i s = acc ++ [⟨.w32, .read, align .w32 a⟩] := hledger.entries
  rw [cycles, accessCycles, hbalance, hentries, hproc, List.foldl_append, List.foldl_append] at heq
  have hc := Nat.add_left_cancel (heq : _ + _ = _ + _)
  refine hne _ rfl ?_
  rw [← Meter.pay_align .arm7 _ .w32 .read b, ← Meter.pay_align .arm7 _ .w32 .read a]
  exact hc

theorem pay_arm7 {m : Meter} (h : m.timing.advanced_timing = true) (adr : Word) :
    (m.pay .arm7 ⟨.w32, .read, adr⟩).c = m.c + (mmuWait .arm7 .w32 (align .w32 adr >>> 24).toNat +
      if align .w32 adr = m.timing.lastAddress .arm7 + 4 then 0 else 1) := by
  rw [Meter.pay, memAccessCycles_arm7 h]
  rfl

theorem thumbLoad_cycles_ne {op : MemOp} (hproc : s.cpu.proc_ID = .arm7)
    (h : Spends (s.meter (timingAt 0x03FFFFFC)) (op.run zeros (timingAt 0x03FFFFFC) i s).2
      [⟨.w32, .read, Timing.align .w32 0x04000000⟩]
      [⟨.w32, .read, Timing.align .w32 ((0x04000000 &&& 3) * 8)⟩]) :
    ¬ ChargesAccesses op i := by
  intro hcharges
  refine cycles_ne_of_spends [] hproc h ?_ (hcharges Unit zeros _ _)
  rintro m rfl
  rw [pay_arm7 rfl, pay_arm7 rfl]
  decide

/-- `k` words have been read up from `base`, and the last address that was charged is `start`. -/
structure Walking (base : Word) (k : ℕ) (u : Transfer (Metered Unit)) : Prop where
  proc_ID : u.2.cpu.proc_ID = .arm7
  advanced_timing : u.2.mem.ledger.balance.timing.advanced_timing = true
  lastAddress : u.2.mem.ledger.balance.timing.lastAddress .arm7 = align .w32 u.1
  start : u.1 = base + BitVec.ofNat 32 (4 * k)

theorem walking_line {base : Word} {k : ℕ} {u : Transfer (Metered Unit)} (h : Walking base k u)
    (r : Fin 16) : Walking base (k + 1) (loadLine zeros.metered .ib r u) := by
  have hbalance : (loadLine zeros.metered .ib r u).2.mem.ledger.balance =
      u.2.mem.ledger.balance.pay .arm7 ⟨.w32, .read, u.1 + 4⟩ := by
    rw [← h.proc_ID]
    rfl
  constructor
  · exact h.proc_ID
  · rw [hbalance, Meter.pay, memAccessCycles_arm7 h.advanced_timing]
    exact h.advanced_timing
  · rw [hbalance]
    exact lastAddress_memAccessCycles ..
  · change u.1 + 4 = _
    rw [h.start, Nat.mul_succ, BitVec.ofNat_add, BitVec.add_assoc]
    rfl

theorem walking_lines {base : Word} (rs : List (Fin 16)) {k : ℕ} {u : Transfer (Metered Unit)}
    (h : Walking base k u) :
    Walking base (k + rs.countP (listed i)) (transfer i (loadLine zeros.metered .ib) rs u) := by
  induction rs generalizing k u with
  | nil => exact h
  | cons r rs ih =>
    rw [transfer, List.foldl_cons, List.countP_cons]
    split_ifs
    · rw [Nat.add_comm _ 1, ← Nat.add_assoc]
      exact ih (walking_line h r)
    · exact ih h

/-- The words of a list behind `0x04000000`. -/
theorem ioWord_wait : ∀ k : Fin 16, mmuWait .arm7 .w32
    (align .w32 (0x04000000 + BitVec.ofNat 32 (4 * k)) >>> 24).toNat = 1 ∧
    mmuWait .arm7 .w32 (align .w32 (0x04000000 + BitVec.ofNat 32 (4 * k) + 4) >>> 24).toNat = 1 := by
  decide

theorem align_add_four (adr : Word) : align .w32 (adr + 4) = align .w32 adr + 4 := by
  rw [align_w32, align_w32]
  bv_omega

/-- Behind the lines the word at `start` costs a wait that the next one does not. -/
theorem ibLines_pay_ne {s : Machine (Metered Unit)} (h : Walking 0x04000000 0 (s.cpu.rn i, s)) :
    ((ibLines zeros i s).2.mem.ledger.balance.pay .arm7 ⟨.w32, .read, (ibLines zeros i s).1⟩).c ≠
      ((ibLines zeros i s).2.mem.ledger.balance.pay .arm7
        ⟨.w32, .read, (ibLines zeros i s).1 + 4⟩).c := by
  have hwalk : Walking 0x04000000 _ (ibLines zeros i s) := walking_lines LdmForm.ib.lines h
  have hcount : 0 + LdmForm.ib.lines.countP (listed i) < 16 := by
    rw [Nat.zero_add]
    exact Nat.lt_succ_of_le List.countP_le_length
  obtain ⟨hwait, hwait'⟩ := ioWord_wait ⟨_, hcount⟩
  rw [← hwalk.start] at hwait hwait'
  rw [pay_arm7 hwalk.advanced_timing, pay_arm7 hwalk.advanced_timing, hwait, hwait',
    hwalk.lastAddress, align_add_four, if_pos rfl, if_neg (by bv_omega)]
  exact (Nat.lt_succ_self _).ne'

theorem blockLoad_cycles_ne (hproc : s.cpu.proc_ID = .arm7) (hbase : s.cpu.rn i = 0x04000000)
    (h : listed i 15 = true) : ¬ ChargesAccesses (.arm (.LDM2_W .ib)) i := by
  intro hcharges
  obtain ⟨acc, hacc⟩ : Settled (s.meter (timingAt 0x04000000))
      (ibLines zeros i (s.meter (timingAt 0x04000000))).2 := settled_loadLines ..
  have hspends := spends_LDMIB2_W zeros i h (s.meter (timingAt 0x04000000)) hacc
  have hbalance := hacc.ledger.balance
  rw [show (s.meter (timingAt 0x04000000)).cpu.proc_ID = .arm7 from hproc] at hbalance
  refine cycles_ne_of_spends acc hproc hspends ?_ (hcharges Unit zeros _ _)
  rintro m hm
  obtain rfl := hbalance.trans hm.symm
  have hstart : Walking 0x04000000 0
      ((s.meter (timingAt 0x04000000)).cpu.rn i, s.meter (timingAt 0x04000000)) :=
    ⟨hproc, rfl, (congrArg (Timing.align .w32) hbase).symm, hbase⟩
  exact ibLines_pay_ne hstart

end Differ

theorem chargesAccesses_iff (op : MemOp) (i : Word) :
    ChargesAccesses op i ↔ ¬ op.ChargesElsewhere i := by
  constructor
  · intro hcharges helse
    cases op with
    | arm op =>
      cases op with
      | LDM2_W f =>
        cases f with
        | ib => exact blockLoad_cycles_ne (s := filled 0x04000000) rfl rfl helse hcharges
        | _ => exact helse
      | _ => exact helse
    | thumb op =>
      cases op with
      | LDR_IMM_OFF =>
        have hspends := spends_LDR_IMM_OFF zeros i
          ((filled (0x04000000 - ((i >>> 4) &&& 0x7C))).meter (timingAt 0x03FFFFFC))
        have hadr : ((filled (0x04000000 - ((i >>> 4) &&& 0x7C))).meter
            (timingAt 0x03FFFFFC)).cpu.lo i 3 + ((i >>> 4) &&& 0x7C) = 0x04000000 :=
          BitVec.sub_add_cancel _ _
        rw [hadr] at hspends
        exact thumbLoad_cycles_ne rfl hspends hcharges
      | LDR_REG_OFF =>
        have hspends := spends_LDR_REG_OFF zeros i
          ((filled 0x02000000).meter (timingAt 0x03FFFFFC))
        have hadr : Thumb.adrReg i ((filled 0x02000000).meter (timingAt 0x03FFFFFC)) = 0x04000000 := by
          change (0x02000000 : Word) + 0x02000000 = 0x04000000
          decide
        rw [hadr] at hspends
        exact thumbLoad_cycles_ne rfl hspends hcharges
      | _ => exact helse
  · intro helse μ bus t s
    apply cycles_eq_of_runSettles
    apply runSettles_of_settled
    intro s
    cases op with
    | arm op => exact settled_arm bus i s op helse
    | thumb op => exact settled_thumb bus i s op helse

/-- In a state the handler charges the word that it accesses or not; in every state it returns the
cycles of its accesses exactly if it is none of three. -/
theorem charges_iff (op : MemOp) (i : Word) :
    (∀ (μ : Type) (bus : Bus μ) (t : DataTiming) (s : Machine μ),
        op.RunSettles bus t i s ↔ op.ChargesWord i s) ∧
      (ChargesAccesses op i ↔ ¬ op.ChargesElsewhere i) :=
  ⟨fun _ bus t s => runSettles_iff bus t i s op, chargesAccesses_iff op i⟩

/-- `LDR R0, [R1]` of either state, on an ARM9 that has just read the word before. -/
theorem thumbLoad_charged_apart :
    ∃ (t : DataTiming) (s : Machine Unit),
      t = timingAt 0x03FFFFFC ∧ s = ⟨(init .arm9 0 0).setR 1 0x04000000, ()⟩ ∧
      (thumb .LDR_IMM_OFF).accesses zeros t 0x6808 s = [⟨.w32, .read, 0x04000000⟩] ∧
      (arm (.LDR ⟨.P, .IMM_OFF, .off⟩)).accesses zeros t 0xE5910000 s =
        [⟨.w32, .read, 0x04000000⟩] ∧
      (thumb .LDR_IMM_OFF).cycles zeros t 0x6808 s = 7 ∧
      (arm (.LDR ⟨.P, .IMM_OFF, .off⟩)).cycles zeros t 0xE5910000 s = 3 ∧
      (thumb .LDR_IMM_OFF).accessCycles zeros t 0x6808 s = 3 := by
  refine ⟨_, _, rfl, rfl, ?_⟩
  decide +kernel

end MemOp

end Desmume.Arm
