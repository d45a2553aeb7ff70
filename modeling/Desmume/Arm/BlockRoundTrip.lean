import Desmume.Arm.MeteredHandlers
import Desmume.Arm.ThumbMemory
import Desmume.Library.Scatter
import Desmume.Library.WordParts

/-! Block stores with write-back and the block loads that take their words up again, in the opposite
order and from the other side of the base. -/

namespace Desmume.Arm
open Library

variable {μ : Type}

/-! ### The handlers -/

section Handlers

variable (bus : Bus μ) (i : Word)

/-- `OP_L_IA`, `OP_L_IB`, `OP_L_DA` and `OP_L_DB`. -/
def opLine (f : LdmForm) (reg : Fin 16) (t : Transfer μ) : Transfer μ :=
  (f.advance 1 t.1, t.2.load bus.READ32 id reg (f.lineAdr t.1))

/-- `tmp = READ32(adr)`, and what it makes of `R[15]`, `T` and `next_instruction`. -/
def loadPcLine (adr : Word) (s : Machine μ) : Machine μ :=
  let (tmp, mem) := bus.READ32 adr s.mem
  ⟨branchTo tmp s.cpu, mem⟩

/-- `OP_STMIB_W`. -/
def opSTMIB_W (s : Machine μ) : Machine μ :=
  let (start, s) := transfer i (opS bus .ib) LdmForm.ib.order (s.cpu.R (regPos i 16), s)
  s.setR (regPos i 16) start

/-- `OP_STMDA_W`. -/
def opSTMDA_W (s : Machine μ) : Machine μ :=
  let (start, s) := transfer i (opS bus .da) LdmForm.da.order (s.cpu.R (regPos i 16), s)
  s.setR (regPos i 16) start

/-- `OP_LDMIB_W`. -/
def opLDMIB_W (s : Machine μ) : Machine μ :=
  let (start, s) := transfer i (opLine bus .ib) ascending (s.cpu.R (regPos i 16), s)
  let (start, s) :=
    if listed i 15 then (start + 4, loadPcLine bus (start + 4) s) else (start, s)
  { s with cpu := writeBaseAbove i start s.cpu }

/-- `OP_LDMDA_W`. -/
def opLDMDA_W (s : Machine μ) : Machine μ :=
  let start := s.cpu.R (regPos i 16)
  let (start, s) := if listed i 15 then (start - 4, loadPcLine bus start s) else (start, s)
  let (start, s) := transfer i (opLine bus .da) descending (start, s)
  { s with cpu := writeBaseAbove i start s.cpu }

/-- `OP_LDMDB_W`. -/
def opLDMDB_W (s : Machine μ) : Machine μ :=
  let start := s.cpu.R (regPos i 16)
  let (start, s) := if listed i 15 then (start - 4, loadPcLine bus (start - 4) s) else (start, s)
  let (start, s) := transfer i (opLine bus .db) descending (start, s)
  { s with cpu := writeBaseAbove i start s.cpu }

/-- The stores with write-back. -/
def opSTM_W : LdmForm → Machine μ → Machine μ
  | .ia => opSTMIA_W bus i
  | .ib => opSTMIB_W bus i
  | .da => opSTMDA_W bus i
  | .db => opSTMDB_W bus i

/-- The loads with write-back. -/
def opLDM_W : LdmForm → Machine μ → Machine μ
  | .ia => opLDMIA_W bus i
  | .ib => opLDMIB_W bus i
  | .da => opLDMDA_W bus i
  | .db => opLDMDB_W bus i

end Handlers

/-! ### Memory as words -/

/-- The words of a memory, by the address in words. -/
abbrev WordArray := ℕ → Word

/-- The bus of a memory that is nothing but its words. -/
def wordBus : Bus WordArray where
  read08 adr m := ((m (adr.toNat / 4) >>> (8 * (adr.toNat % 4))).setWidth 8, m)
  read16 adr m := ((m (adr.toNat / 4) >>> (8 * (adr.toNat % 4))).setWidth 16, m)
  read32 adr m := (m (adr.toNat / 4), m)
  write08 adr v m :=
    Function.update m (adr.toNat / 4) (patch (m (adr.toNat / 4)) (8 * (adr.toNat % 4)) v)
  write16 adr v m :=
    Function.update m (adr.toNat / 4) (patch (m (adr.toNat / 4)) (8 * (adr.toNat % 4)) v)
  write32 adr v m := Function.update m (adr.toNat / 4) v

/-- The word that an address falls into. -/
def wordAt (m : WordArray) (adr : Word) : Word := m (adr.toNat / 4)

theorem masked_div_four (adr : Word) : (adr &&& 0xFFFFFFFC).toNat / 4 = adr.toNat / 4 := by
  have hlt := adr.isLt
  have hmask : (0xFFFFFFFC : Word).toNat / 2 ^ 2 = 2 ^ 30 - 1 := rfl
  change (adr &&& 0xFFFFFFFC).toNat / 2 ^ 2 = adr.toNat / 2 ^ 2
  rw [BitVec.toNat_and, Nat.and_div_two_pow, hmask, Nat.and_two_pow_sub_one_eq_mod]
  omega

theorem wordBus_READ32 (adr : Word) (m : WordArray) : wordBus.READ32 adr m = (wordAt m adr, m) := by
  rw [Bus.READ32, wordAt, ← masked_div_four]
  rfl

theorem wordBus_WRITE32 (adr v : Word) (m : WordArray) :
    wordBus.WRITE32 adr v m = Function.update m (adr.toNat / 4) v := by
  rw [Bus.WRITE32, ← masked_div_four adr]
  rfl

/-! ### What the handlers leave -/

section Effects

variable {f : LdmForm} {i : Word} {s : Machine WordArray}

theorem opLine_ia (bus : Bus μ) : opLine bus .ia = loadUp bus := rfl

theorem opSTM_W_eq (bus : Bus μ) (f : LdmForm) (i : Word) (s : Machine μ) :
    opSTM_W bus i f s =
      (transfer i (opS bus f) f.order (s.cpu.R (regPos i 16), s)).2.setR (regPos i 16)
        (transfer i (opS bus f) f.order (s.cpu.R (regPos i 16), s)).1 := by
  cases f <;> rfl

/-- The words that a store leaves at their places. -/
theorem opSTM_W_wordBus (f : LdmForm) (i : Word) (s : Machine WordArray) :
    opSTM_W wordBus i f s =
      ⟨s.cpu.setR (regPos i 16) (blockEnd f i (s.cpu.R (regPos i 16))),
        scatter (fun r => (blockAddress f i (s.cpu.R (regPos i 16)) r).toNat / 4) s.cpu.R
          (f.order.filter (listed i)) s.mem⟩ := by
  rw [opSTM_W_eq, transfer_opS f.order_nodup, Machine.setR, scatter, blockEnd]
  simp only [wordBus_WRITE32]
  rfl

theorem transfer_opLine (f : LdmForm) (i : Word) (rs : List (Fin 16)) (start : Word)
    (s : Machine WordArray) :
    transfer i (opLine wordBus f) rs (start, s) =
      ((rs.foldl (opL f (wordAt s.mem) i) (s.cpu, start)).2,
        ⟨(rs.foldl (opL f (wordAt s.mem) i) (s.cpu, start)).1, s.mem⟩) := by
  induction rs generalizing start s with
  | nil => rfl
  | cons r rs ih =>
    rw [transfer, List.foldl_cons, ← transfer, List.foldl_cons, opL]
    by_cases hr : listed i r = true
    · rw [if_pos hr, if_pos hr, opLine, Machine.load, wordBus_READ32, ih]
      rfl
    · rw [if_neg hr, if_neg hr]
      exact ih start s

/-- Without `R15` all four loads are their lines and the write-back. -/
theorem opLDM_W_eq (bus : Bus μ) (f : LdmForm) {i : Word} (hpc : listed i 15 = false)
    (s : Machine μ) :
    opLDM_W bus i f s =
      { (transfer i (opLine bus f) f.lines (s.cpu.R (regPos i 16), s)).2 with
        cpu := writeBaseAbove i (transfer i (opLine bus f) f.lines (s.cpu.R (regPos i 16), s)).1
          (transfer i (opLine bus f) f.lines (s.cpu.R (regPos i 16), s)).2.cpu } := by
  have hnone : ¬ listed i 15 = true := by
    rw [hpc]
    exact Bool.false_ne_true
  cases f with
  | ia =>
    rw [opLDM_W, opLDMIA_W, loadListedPc, if_neg hnone, ← opLine_ia, writeBaseAbove]
    split_ifs <;> rfl
  | ib =>
    rw [opLDM_W, opLDMIB_W]
    simp only [if_neg hnone]
    rfl
  | da =>
    rw [opLDM_W, opLDMDA_W]
    simp only [if_neg hnone]
    rfl
  | db =>
    rw [opLDM_W, opLDMDB_W]
    simp only [if_neg hnone]
    rfl

/-- What a load leaves in the registers. -/
theorem opLDM_W_wordBus (f : LdmForm) (hpc : listed i 15 = false)
    (hbase : listed i (regPos i 16) = false) (s : Machine WordArray) :
    opLDM_W wordBus i f s =
      ⟨(s.cpu.withR fun r =>
          if listed i r then wordAt s.mem (blockAddress f i (s.cpu.R (regPos i 16)) r)
          else s.cpu.R r).setR (regPos i 16) (blockEnd f i (s.cpu.R (regPos i 16))), s.mem⟩ := by
  have hnone : ¬ listed i (regPos i 16) = true := by
    rw [hbase]
    exact Bool.false_ne_true
  have hstart : (opLs f (wordAt s.mem) i s.cpu (s.cpu.R (regPos i 16))).2 =
      blockEnd f i (s.cpu.R (regPos i 16)) := by
    rw [opLs_snd, end_lines_of_not_pc hpc]
  have hregs : (opLs f (wordAt s.mem) i s.cpu (s.cpu.R (regPos i 16))).1 =
      s.cpu.withR fun r => if listed i r then wordAt s.mem (blockAddress f i (s.cpu.R (regPos i 16)) r)
        else s.cpu.R r := by
    rw [opLs_fst]
    congr 1
    funext r
    by_cases hr : r = 15
    · rw [if_neg fun h => h.1 hr, hr, hpc]
      rfl
    · rw [slot_lines_of_not_pc hpc _ hr]
      exact if_congr (and_iff_right hr) rfl rfl
  rw [opLDM_W_eq wordBus f hpc, transfer_opLine, writeBaseAbove, if_neg hnone, ← opLs, hstart, hregs]

end Effects

/-! ### The way back -/

/-- The addressing mode that goes back over the same words. -/
def LdmForm.opposite : LdmForm → LdmForm
  | .ia => .db
  | .ib => .da
  | .da => .ib
  | .db => .ia

/-- `n` words and the moved base stay within the address space. -/
def LdmForm.NoWrap (f : LdmForm) (n : ℕ) (base : Word) : Prop :=
  match f with
  | .ia | .ib => base.toNat + 4 * n < 2 ^ 32
  | .da | .db => 4 * n ≤ base.toNat

/-- The addresses between a base and the base after the transfer: a mode that moves `start` first
leaves out the word at the first one, and the others the word at the last one. -/
def LdmForm.Spans (f : LdmForm) (base last adr : ℕ) : Prop :=
  match f with
  | .ia => base ≤ adr ∧ adr < last
  | .ib => base < adr ∧ adr ≤ last
  | .da => last < adr ∧ adr ≤ base
  | .db => last ≤ adr ∧ adr < base

section WayBack

variable {f : LdmForm} {i j : Word} {base : Word} {r : Fin 16} {n k : ℕ}

theorem order_opposite (f : LdmForm) : f.opposite.order = f.order.reverse := by
  cases f <;> rfl

theorem advance_opposite (f : LdmForm) (n : ℕ) (base : Word) :
    f.opposite.advance n (f.advance n base) = base := by
  cases f <;> simp only [LdmForm.opposite, LdmForm.advance, BitVec.add_sub_cancel,
    BitVec.sub_add_cancel]

/-- From the far end the words lie in the opposite order. -/
theorem slot_opposite {k k' : ℕ} (hn : k + k' + 1 = n) (base : Word) :
    f.opposite.slot k' (f.advance n base) = f.slot k base := by
  have hcast : BitVec.ofNat 32 n = BitVec.ofNat 32 k + BitVec.ofNat 32 k' + 1 := by
    rw [← hn, BitVec.ofNat_add, BitVec.ofNat_add]
    rfl
  have hsucc : ∀ k, BitVec.ofNat 32 (k + 1) = BitVec.ofNat 32 k + 1 := fun k => BitVec.ofNat_add k 1
  cases f <;> simp only [LdmForm.opposite, LdmForm.slot, LdmForm.advance, LdmForm.isBefore,
    Bool.false_eq_true, if_true, if_false, hcast, hsucc] <;> ring

theorem mem_order (f : LdmForm) (r : Fin 16) : r ∈ f.order := by
  revert r
  cases f <;> decide

theorem blockEnd_opposite (hlist : listed j = listed i) (f : LdmForm) (base : Word) :
    blockEnd f.opposite j (blockEnd f i base) = base := by
  rw [blockEnd, blockEnd, hlist, order_opposite, List.countP_reverse, advance_opposite]

theorem blockAddress_opposite (hlist : listed j = listed i) (hr : listed i r = true) (base : Word) :
    blockAddress f.opposite j (blockEnd f i base) r = blockAddress f i base r := by
  have hcount := before_reverse hr f.order_nodup (mem_order f r)
  rw [blockAddress, blockAddress, blockEnd, countBefore, hlist, order_opposite]
  exact slot_opposite hcount base

theorem slot_toNat (hwrap : f.NoWrap n base) (hk : k < n) :
    (f.slot k base).toNat = match f with
      | .ia => base.toNat + 4 * k
      | .ib => base.toNat + 4 * (k + 1)
      | .da => base.toNat - 4 * k
      | .db => base.toNat - 4 * (k + 1) := by
  have hbase := base.isLt
  cases f <;> simp only [LdmForm.NoWrap] at hwrap <;>
    simp only [LdmForm.slot, LdmForm.advance, LdmForm.isBefore, Bool.false_eq_true, if_true,
      if_false] <;> bv_omega

theorem advance_toNat (hwrap : f.NoWrap n base) :
    (f.advance n base).toNat = match f with
      | .ia | .ib => base.toNat + 4 * n
      | .da | .db => base.toNat - 4 * n := by
  have hbase := base.isLt
  cases f <;> simp only [LdmForm.NoWrap] at hwrap <;> simp only [LdmForm.advance] <;> bv_omega

/-- The words of a transfer lie at word addresses of their own between the two bases. -/
theorem blockAddress_spans (hwrap : f.NoWrap (f.order.countP (listed i)) base)
    (haligned : 4 ∣ base.toNat) (hr : listed i r = true) :
    4 ∣ (blockAddress f i base r).toNat ∧
      f.Spans base.toNat (blockEnd f i base).toNat (blockAddress f i base r).toNat := by
  have hk : countBefore i r f.order < f.order.countP (listed i) := before_lt hr (mem_order f r)
  rw [blockAddress, blockEnd, slot_toNat hwrap hk, advance_toNat hwrap]
  cases f <;> simp only [LdmForm.NoWrap] at hwrap <;> simp only [LdmForm.Spans] <;> omega

theorem blockAddress_injective (hwrap : f.NoWrap (f.order.countP (listed i)) base)
    (haligned : 4 ∣ base.toNat) {q : Fin 16} (hr : listed i r = true) (hq : listed i q = true)
    (h : (blockAddress f i base r).toNat / 4 = (blockAddress f i base q).toNat / 4) : r = q := by
  have hk : countBefore i r f.order < f.order.countP (listed i) := before_lt hr (mem_order f r)
  have hk' : countBefore i q f.order < f.order.countP (listed i) := before_lt hq (mem_order f q)
  apply before_injective hr hq (mem_order f r) (mem_order f q)
  change countBefore i r f.order = countBefore i q f.order
  rw [blockAddress, blockAddress, slot_toNat hwrap hk, slot_toNat hwrap hk'] at h
  cases f <;> simp only [LdmForm.NoWrap] at hwrap <;> simp only at h <;> omega

end WayBack

/-! ### The pairs -/

/-- A store, a load, and what they save of the registers. -/
structure Restores (store load : Machine WordArray → Machine WordArray) (names : Fin 16 → Bool)
    (base : Fin 16) (f : LdmForm) (s : Machine WordArray) : Prop where
  registers : ∀ R : Fin 16 → Word, (∀ r, names r = false → R r = (store s).cpu.R r) →
    load ⟨(store s).cpu.withR R, (store s).mem⟩ = ⟨s.cpu, (store s).mem⟩
  memory : ∀ w, (store s).mem w ≠ s.mem w →
    f.Spans (s.cpu.R base).toNat ((store s).cpu.R base).toNat (4 * w)

theorem restores_block {f : LdmForm} {i j : Word} {s : Machine WordArray}
    (hlist : listed j = listed i) (hsame : regPos j 16 = regPos i 16)
    (hbase : listed i (regPos i 16) = false) (hpc : listed i 15 = false)
    (haligned : 4 ∣ (s.cpu.R (regPos i 16)).toNat)
    (hwrap : f.NoWrap (f.order.countP (listed i)) (s.cpu.R (regPos i 16))) :
    Restores (opSTM_W wordBus i f) (opLDM_W wordBus j f.opposite) (listed i) (regPos i 16) f s := by
  have hstore := opSTM_W_wordBus f i s
  constructor
  · intro R hR
    have hRbase : R (regPos i 16) = blockEnd f i (s.cpu.R (regPos i 16)) := by
      rw [hR _ hbase, hstore, ArmCpu.setR_R_self]
    rw [opLDM_W_wordBus f.opposite (hlist ▸ hpc) (by rw [hlist, hsame]; exact hbase)]
    congr 1
    have hback : ∀ r, Function.update (fun r => if listed j r then
        wordAt (opSTM_W wordBus i f s).mem (blockAddress f.opposite j (R (regPos j 16)) r) else R r)
        (regPos j 16) (blockEnd f.opposite j (R (regPos j 16))) r = s.cpu.R r := by
      intro r
      rw [hsame, hRbase, blockEnd_opposite hlist, hlist]
      by_cases hr : r = regPos i 16
      · rw [hr, Function.update_self]
      · rw [Function.update_of_ne hr]
        by_cases hlisted : listed i r = true
        · -- the word that was stored for it
          rw [if_pos hlisted, blockAddress_opposite hlist hlisted, hstore]
          refine scatter_of_mem (fun q hq q' hq' hkey => ?_)
            (List.mem_filter.mpr ⟨mem_order f r, hlisted⟩) s.mem
          exact blockAddress_injective hwrap haligned (List.of_mem_filter hq)
            (List.of_mem_filter hq') hkey
        · rw [if_neg hlisted, hR r (by simpa using hlisted), hstore, ArmCpu.setR_R_of_ne _ hr]
    calc _ = s.cpu.withR (Function.update (fun r => if listed j r then
            wordAt (opSTM_W wordBus i f s).mem (blockAddress f.opposite j (R (regPos j 16)) r)
            else R r) (regPos j 16) (blockEnd f.opposite j (R (regPos j 16)))) := by
          rw [hstore]
          rfl
      _ = s.cpu.withR s.cpu.R := congrArg s.cpu.withR (funext hback)
      _ = s.cpu := rfl
  · intro w hw
    rw [hstore] at hw
    obtain ⟨r, hr, hkey⟩ := exists_of_scatter_ne hw
    have hlisted := List.of_mem_filter hr
    obtain ⟨hword, hspans⟩ := blockAddress_spans hwrap haligned hlisted
    have hadr : 4 * w = (blockAddress f i (s.cpu.R (regPos i 16)) r).toNat := by
      rw [← hkey]
      exact Nat.mul_div_cancel' hword
    rw [hstore, hadr, ArmCpu.setR_R_self]
    exact hspans

/-- A store with write-back and the load that undoes it. -/
inductive BlockPair where
  | arm (f : LdmForm)
  | thumb
deriving DecidableEq, Repr

namespace BlockPair

/-- The addressing mode of the store. -/
def form : BlockPair → LdmForm
  | .arm f => f
  | .thumb => .db

def store (p : BlockPair) (i : Word) : Machine WordArray → Machine WordArray :=
  match p with
  | .arm f => opSTM_W wordBus i f
  | .thumb => Thumb.opPUSH wordBus i

def load (p : BlockPair) (j : Word) : Machine WordArray → Machine WordArray :=
  match p with
  | .arm f => opLDM_W wordBus j f.opposite
  | .thumb => Thumb.opPOP wordBus j

def base (p : BlockPair) (i : Word) : Fin 16 :=
  match p with
  | .arm _ => regPos i 16
  | .thumb => 13

/-- The registers that the list of an instruction names. -/
def names (p : BlockPair) (i : Word) (r : Fin 16) : Bool :=
  match p with
  | .arm _ => listed i r
  | .thumb => decide (r.val < 8) && listed i r

/-- The two instructions have the same list, without the base and `R15`, and the same base, and the
words fit in below or above it. -/
structure Fits (p : BlockPair) (i j : Word) (s : Machine WordArray) : Prop where
  list : p.names j = p.names i
  base : p.base j = p.base i
  noBase : p.names i (p.base i) = false
  noPc : p.names i 15 = false
  aligned : 4 ∣ (s.cpu.R (p.base i)).toNat
  noWrap : p.form.NoWrap (p.form.order.countP (p.names i)) (s.cpu.R (p.base i))

end BlockPair

theorem names_thumb (i : Word) (P U load : Bool) :
    listed (block P U load 13 (0#8 ++ Thumb.imm8Field i)) = BlockPair.thumb.names i := by
  funext r
  rw [BlockPair.names]
  by_cases hr : r.val < 8
  · rw [Thumb.listed_low hr, decide_eq_true hr, Bool.true_and]
  · rw [Thumb.listed_high (Nat.not_lt.mp hr), decide_eq_false hr, BitVec.getLsbD_zero, Bool.false_and]

theorem restores_registers (p : BlockPair) (i j : Word) (s : Machine WordArray)
    (h : p.Fits i j s) :
    Restores (p.store i) (p.load j) (p.names i) (p.base i) p.form s := by
  cases p with
  | arm f => exact restores_block h.list h.base h.noBase h.noPc h.aligned h.noWrap
  | thumb =>
    -- the two are the ARM instructions on `R13` with a list of low registers
    have hpush := names_thumb i true false false
    have hpop := (names_thumb j false true true).trans h.list
    have hstore : BlockPair.thumb.store i =
        opSTM_W wordBus (block true false false 13 (0#8 ++ Thumb.imm8Field i)) .db :=
      funext fun s => (Thumb.push_eq wordBus i s).symm
    have hload : BlockPair.thumb.load j =
        opLDM_W wordBus (block false true true 13 (0#8 ++ Thumb.imm8Field j)) .ia :=
      funext fun s => (Thumb.pop_eq wordBus j s).symm
    have hbase : ∀ P U load list, regPos (block P U load 13 list) 16 = 13 :=
      fun _ _ _ _ => regPos_block _ _ _ _ _
    have hsaved := restores_block (f := .db)
      (i := block true false false 13 (0#8 ++ Thumb.imm8Field i))
      (j := block false true true 13 (0#8 ++ Thumb.imm8Field j)) (s := s)
      (hpop.trans hpush.symm) (by rw [hbase, hbase]) (by rw [hpush, hbase]; exact h.noBase)
      (by rw [hpush]; exact h.noPc) (by rw [hbase]; exact h.aligned)
      (by rw [hpush, hbase]; exact h.noWrap)
    rw [hstore, hload, ← hpush]
    rw [hbase] at hsaved
    exact hsaved

/-- `STMDB R13!, {R0, R1}` and `LDMIA R13!, {R0, R1}`. -/
theorem restores_stmdb :
    Restores ((BlockPair.arm .db).store 0xE92D0003) ((BlockPair.arm .db).load 0xE8BD0003)
      ((BlockPair.arm .db).names 0xE92D0003) 13 .db
      ⟨(init .arm9 0 0).setR 13 0x1000, fun _ => 0⟩ :=
  restores_registers (.arm .db) 0xE92D0003 0xE8BD0003 _
    { list := by decide
      base := by decide
      noBase := by decide
      noPc := by decide
      aligned := by decide
      noWrap := by
        change (4 * _ : ℕ) ≤ _
        decide }

end Desmume.Arm
