import Desmume.Bios.SwiMemory
import Mathlib.Data.Option.Basic
import Mathlib.Tactic.FinCases

/-! What a BIOS call on one processor sees of the other one. -/

namespace Desmume.Bios
open Library

variable {μ α : Type}

/-- The other processor of `p` replaced. -/
def Nds.setRemote (p : Proc) (c : Armcpu) (s : Nds μ) : Nds μ :=
  { s with cpu := Function.update s.cpu p.remote c }

@[simp] theorem Nds.setRemote_cpu (p : Proc) (c : Armcpu) (s : Nds μ) :
    (s.setRemote p c).cpu p = s.cpu p := by
  rw [Nds.setRemote]
  exact Function.update_of_ne (Proc.ne_remote p) c s.cpu

@[simp] theorem Nds.setRemote_cpu_remote (p : Proc) (c : Armcpu) (s : Nds μ) :
    (s.setRemote p c).cpu p.remote = c := by
  rw [Nds.setRemote]
  exact Function.update_self p.remote c s.cpu

@[simp] theorem Nds.setRemote_hw (p : Proc) (c : Armcpu) (s : Nds μ) :
    (s.setRemote p c).hw = s.hw := rfl

@[simp] theorem Nds.setRemote_self (p : Proc) (s : Nds μ) :
    s.setRemote p (s.cpu p.remote) = s := by
  rw [Nds.setRemote, Function.update_eq_self]

variable (p : Proc) (c : Armcpu)

instance unseen_access (f : Armcpu × μ → α × Armcpu × μ) :
    Unseen (Nds.setRemote p c) (access p f) := by
  constructor
  intro s
  have hcomm (c' : Armcpu) : Function.update (Function.update s.cpu p.remote c) p c' =
      Function.update (Function.update s.cpu p c') p.remote c :=
    Function.update_comm (Proc.remote_ne p) c c' s.cpu
  rw [access, access, Nds.setRemote_cpu, Nds.setRemote_hw, Option.map_some]
  exact congrArg some (Prod.ext rfl (congrArg (Nds.mk · _) (hcomm _)))

section Rules

variable {p c} (bus : Bus μ)

instance unseen_fromOption (o : Option α) :
    Unseen (Nds.setRemote p c) (fromOption o : Call μ α) := by
  cases o with
  | none => exact unseen_failure
  | some a => exact unseen_pure a

instance unseen_getCpu : Unseen (Nds.setRemote p c) (getCpu p : Call μ Armcpu) :=
  unseen_access p c _
instance unseen_setCpu (c' : Armcpu) : Unseen (Nds.setRemote p c) (setCpu p c' : Call μ Unit) :=
  unseen_access p c _
instance unseen_getR (i : Fin 16) : Unseen (Nds.setRemote p c) (getR p i : Call μ (BitVec 32)) :=
  unseen_access p c _
instance unseen_setR (i : Fin 16) (val : BitVec 32) :
    Unseen (Nds.setRemote p c) (setR p i val : Call μ Unit) := unseen_access p c _
instance unseen_getHw (f : μ → α) : Unseen (Nds.setRemote p c) (getHw p f) := unseen_access p c _
instance unseen_mmuRead08 (addr : BitVec 32) :
    Unseen (Nds.setRemote p c) (mmuRead08 bus p addr) := unseen_access p c _
instance unseen_mmuRead16 (addr : BitVec 32) :
    Unseen (Nds.setRemote p c) (mmuRead16 bus p addr) := unseen_access p c _
instance unseen_mmuRead32 (addr : BitVec 32) :
    Unseen (Nds.setRemote p c) (mmuRead32 bus p addr) := unseen_access p c _
instance unseen_mmuWrite08 (addr : BitVec 32) (val : BitVec 8) :
    Unseen (Nds.setRemote p c) (mmuWrite08 bus p addr val) := unseen_access p c _
instance unseen_mmuWrite16 (addr : BitVec 32) (val : BitVec 16) :
    Unseen (Nds.setRemote p c) (mmuWrite16 bus p addr val) := unseen_access p c _
instance unseen_mmuWrite32 (addr val : BitVec 32) :
    Unseen (Nds.setRemote p c) (mmuWrite32 bus p addr val) := unseen_access p c _

end Rules

section Short

variable {p c} (bus : Bus μ)

instance unseen_biosNop : Unseen (Nds.setRemote p c) (biosNop : Call μ _) := unseen_pure _
instance unseen_softReset : Unseen (Nds.setRemote p c) (softReset : Call μ _) := unseen_pure _

instance unseen_waitByLoop : Unseen (Nds.setRemote p c) (waitByLoop bus p) := by
  unfold waitByLoop
  infer_instance

instance unseen_wait4IRQ : Unseen (Nds.setRemote p c) (wait4IRQ p : Call μ _) := by
  unfold wait4IRQ
  infer_instance

instance unseen_intrWaitEnd (intrFlagAdr intr intrFlag : BitVec 32) :
    Unseen (Nds.setRemote p c) (intrWaitEnd bus p intrFlagAdr intr intrFlag) := by
  unfold intrWaitEnd
  infer_instance

instance unseen_intrWaitARM : Unseen (Nds.setRemote p c) (intrWaitARM bus p) := by
  unfold intrWaitARM
  dsimp only
  infer_instance

instance unseen_divide : Unseen (Nds.setRemote p c) (divide p : Call μ _) := by
  unfold divide
  infer_instance

instance unseen_waitVBlankARM : Unseen (Nds.setRemote p c) (waitVBlankARM bus p) := by
  unfold waitVBlankARM
  infer_instance

instance unseen_sleep : Unseen (Nds.setRemote p c) (sleep bus p) := by
  unfold sleep
  infer_instance

instance unseen_customHalt : Unseen (Nds.setRemote p c) (customHalt bus p) := by
  unfold customHalt
  infer_instance

instance unseen_customPost : Unseen (Nds.setRemote p c) (customPost bus p) := by
  unfold customPost
  infer_instance

instance unseen_isDebugger : Unseen (Nds.setRemote p c) (isDebugger bus p) := by
  unfold isDebugger
  infer_instance

instance unseen_biosSqrtArm9 : Unseen (Nds.setRemote .arm9 c) (biosSqrtArm9 : Call μ _) := by
  unfold biosSqrtArm9
  infer_instance

instance unseen_getTab {w : ℕ} (tab : List (BitVec w)) :
    Unseen (Nds.setRemote .arm7 c) (getTab tab : Call μ _) := by
  unfold getTab
  refine Unseen.bind fun i => ?_
  cases tab[i.toNat]? with
  | none => exact unseen_pure _
  | some x => infer_instance

instance unseen_getSineTab : Unseen (Nds.setRemote .arm7 c) (getSineTab : Call μ _) :=
  unseen_getTab getsinetbl
instance unseen_getPitchTab : Unseen (Nds.setRemote .arm7 c) (getPitchTab : Call μ _) :=
  unseen_getTab getpitchtbl
instance unseen_getVolumeTab : Unseen (Nds.setRemote .arm7 c) (getVolumeTab : Call μ _) :=
  unseen_getTab getvoltbl

instance unseen_soundBias : Unseen (Nds.setRemote .arm7 c) (soundBias bus) := by
  unfold soundBias
  infer_instance

instance unseen_getBootProcs : Unseen (Nds.setRemote .arm7 c) (getBootProcs : Call μ _) := by
  unfold getBootProcs
  infer_instance

end Short

section Memory

variable {p c} (bus : Bus μ) {w : ℕ} (read : BitVec 32 → Call μ (BitVec w))
  (write : BitVec 32 → BitVec w → Call μ Unit)
  [hread : ∀ addr, Unseen (Nds.setRemote p c) (read addr)]
  [hwrite : ∀ addr val, Unseen (Nds.setRemote p c) (write addr val)]

instance unseen_copyUnits (size : BitVec 32) (cnt : ℕ) (src dst : BitVec 32) :
    Unseen (Nds.setRemote p c) (copyUnits read write size cnt src dst) := by
  induction cnt generalizing src dst with
  | zero => exact unseen_pure _
  | succ cnt ih =>
    unfold copyUnits
    infer_instance

instance unseen_fillUnits (size : BitVec 32) (val : BitVec w) (cnt : ℕ) (dst : BitVec 32) :
    Unseen (Nds.setRemote p c) (fillUnits write size val cnt dst) := by
  induction cnt generalizing dst with
  | zero => exact unseen_pure _
  | succ cnt ih =>
    unfold fillUnits
    infer_instance

instance unseen_copyOrFill (size mask src dst cnt : BitVec 32) :
    Unseen (Nds.setRemote p c) (copyOrFill read write size mask src dst cnt) := by
  unfold copyOrFill
  infer_instance

instance unseen_sumUnits (size : BitVec 32) (n : ℕ) (data : BitVec w) (source dest : BitVec 32) :
    Unseen (Nds.setRemote p c) (sumUnits read write size n data source dest) := by
  induction n generalizing data source dest with
  | zero => exact unseen_pure _
  | succ n ih =>
    unfold sumUnits
    infer_instance

instance unseen_diffUnFilter (size : BitVec 32) :
    Unseen (Nds.setRemote p c) (diffUnFilter bus p read write size) := by
  unfold diffUnFilter
  infer_instance

instance unseen_copy : Unseen (Nds.setRemote p c) (copy bus p) := by
  unfold copy
  infer_instance

instance unseen_fastCopy : Unseen (Nds.setRemote p c) (fastCopy bus p) := by
  unfold fastCopy
  infer_instance

instance unseen_diff8bitUnFilterWram : Unseen (Nds.setRemote p c) (diff8bitUnFilterWram bus p) := by
  unfold diff8bitUnFilterWram
  infer_instance

instance unseen_diff16bitUnFilter : Unseen (Nds.setRemote p c) (diff16bitUnFilter bus p) := by
  unfold diff16bitUnFilter
  infer_instance

instance unseen_crcHalfwords (n : ℕ) (datap : BitVec 32) (crc currVal : BitVec 16) :
    Unseen (Nds.setRemote p c) (crcHalfwords bus p n datap crc currVal) := by
  induction n generalizing datap crc currVal with
  | zero => exact unseen_pure _
  | succ n ih =>
    unfold crcHalfwords
    infer_instance

instance unseen_getCRC16 : Unseen (Nds.setRemote p c) (getCRC16 bus p) := by
  unfold getCRC16
  infer_instance

end Memory

section Decompression

variable {p c} (bus : Bus μ) (put : UnComp → BitVec 8 → Call μ (BitVec 32 ⊕ UnComp))
  [hput : ∀ u val, Unseen (Nds.setRemote p c) (put u val)]

instance unseen_putWram (u : UnComp) (val : BitVec 8) :
    Unseen (Nds.setRemote p c) (putWram bus p u val) := by
  unfold putWram
  infer_instance

instance unseen_putVram (u : UnComp) (val : BitVec 8) :
    Unseen (Nds.setRemote p c) (putVram bus p u val) := by
  unfold putVram
  infer_instance

instance unseen_putSource (u : UnComp) : Unseen (Nds.setRemote p c) (putSource bus p put u) := by
  unfold putSource
  infer_instance

instance unseen_putWindow (x : BitVec 32 × UnComp) :
    Unseen (Nds.setRemote p c) (putWindow bus p put x) := by
  unfold putWindow
  refine Unseen.bind fun val => Unseen.bind fun r => ?_
  cases r <;> exact unseen_pure _

instance unseen_lz77Item (x : BitVec 8 × UnComp) :
    Unseen (Nds.setRemote p c) (lz77Item bus p put x) := by
  obtain ⟨d, u⟩ := x
  unfold lz77Item
  refine Unseen.ite ?_ ?_
  · refine Unseen.bind fun high => Unseen.bind fun low => Unseen.bind fun r => ?_
    cases r <;> exact unseen_pure _
  · refine Unseen.bind fun r => ?_
    cases r <;> exact unseen_pure _

instance unseen_lz77Block (u : UnComp) : Unseen (Nds.setRemote p c) (lz77Block bus p put u) := by
  unfold lz77Block
  refine Unseen.bind fun d => Unseen.ite ?_ (unseen_rounds _ _ _)
  refine Unseen.bind fun r => ?_
  cases r <;> exact unseen_pure _

instance unseen_rlBlock (u : UnComp) : Unseen (Nds.setRemote p c) (rlBlock bus p put u) := by
  unfold rlBlock
  infer_instance

instance unseen_unComp (block : UnComp → Call μ (BitVec 32 ⊕ UnComp))
    [hblock : ∀ u, Unseen (Nds.setRemote p c) (block u)] (fuel : ℕ) :
    Unseen (Nds.setRemote p c) (unComp bus p block fuel) := by
  unfold unComp
  refine Unseen.bind fun source => Unseen.bind fun dest =>
    Unseen.bind fun header => Unseen.ite (unseen_pure _) ?_
  refine Unseen.bind fun r => ?_
  cases r <;> exact unseen_pure _

instance unseen_lz77UnCompVram (fuel : ℕ) :
    Unseen (Nds.setRemote p c) (lz77UnCompVram bus p fuel) := by
  unfold lz77UnCompVram
  infer_instance

instance unseen_lz77UnCompWram (fuel : ℕ) :
    Unseen (Nds.setRemote p c) (lz77UnCompWram bus p fuel) := by
  unfold lz77UnCompWram
  infer_instance

instance unseen_rlUnCompVram (fuel : ℕ) :
    Unseen (Nds.setRemote p c) (rlUnCompVram bus p fuel) := by
  unfold rlUnCompVram
  infer_instance

instance unseen_rlUnCompWram (fuel : ℕ) :
    Unseen (Nds.setRemote p c) (rlUnCompWram bus p fuel) := by
  unfold rlUnCompWram
  infer_instance

end Decompression

section Trees

variable {p c} (bus : Bus μ)

instance unseen_putByte (val : BitVec 32) (h : Huffman) :
    Unseen (Nds.setRemote p c) (putByte bus p val h) := by
  unfold putByte
  infer_instance

instance unseen_putSymbol8 (h : Huffman) : Unseen (Nds.setRemote p c) (putSymbol8 bus p h) := by
  unfold putSymbol8
  infer_instance

instance unseen_putSymbol4 (h : Huffman) : Unseen (Nds.setRemote p c) (putSymbol4 bus p h) := by
  unfold putSymbol4
  infer_instance

instance unseen_huffmanBit (symbol : Huffman → Call μ Huffman)
    [hsymbol : ∀ h, Unseen (Nds.setRemote p c) (symbol h)] (treeStart : BitVec 32)
    (rootNode : BitVec 8) (h : Huffman) :
    Unseen (Nds.setRemote p c) (huffmanBit bus p symbol treeStart rootNode h) := by
  unfold huffmanBit
  infer_instance

instance unseen_unCompHuffman (fuel : ℕ) :
    Unseen (Nds.setRemote p c) (unCompHuffman bus p fuel) := by
  unfold unCompHuffman
  refine Unseen.bind fun source => Unseen.bind fun dest => Unseen.bind fun header =>
    Unseen.ite (unseen_pure _) ?_
  refine Unseen.bind fun treeSize => Unseen.bind fun data => Unseen.bind fun rootNode => ?_
  have hsymbol : ∀ h, Unseen (Nds.setRemote p c)
      ((if header &&& 0x0F = 8 then putSymbol8 bus p else putSymbol4 bus p) h) := by
    intro h
    split <;> infer_instance
  refine Unseen.bind fun r => ?_
  cases r <;> exact unseen_pure _

instance unseen_unpackUnit (bits dataSize : ℕ) (base : BitVec 32) (addBase : Bool)
    (x : BitVec 8 × Unpack) :
    Unseen (Nds.setRemote p c) (unpackUnit bus p bits dataSize base addBase x) := by
  obtain ⟨b, u⟩ := x
  unfold unpackUnit
  infer_instance

instance unseen_unpackByte (bits dataSize : ℕ) (base : BitVec 32) (addBase : Bool) (u : Unpack) :
    Unseen (Nds.setRemote p c) (unpackByte bus p bits dataSize base addBase u) := by
  unfold unpackByte
  refine Unseen.bind fun b => Unseen.bind fun r => ?_
  cases r <;> exact unseen_pure _

instance unseen_bitUnPack : Unseen (Nds.setRemote p c) (bitUnPack bus p) := by
  unfold bitUnPack
  refine Unseen.bind fun source => Unseen.bind fun dest => Unseen.bind fun header =>
    Unseen.bind fun len => Unseen.bind fun bits => Unseen.ite (unseen_pure _) ?_
  refine Unseen.bind fun dataSize => Unseen.ite (unseen_pure _) ?_
  refine Unseen.bind fun base => Unseen.bind fun r => ?_
  cases r <;> exact unseen_pure _

end Trees

section Tables

variable (bus : Bus μ) (fuel : ℕ) (c : Armcpu)

theorem unseen_of_mem_arm9 :
    ∀ f ∈ armSwiTab bus fuel .arm9, Unseen (Nds.setRemote .arm9 c) f := by
  simp only [armSwiTab, List.forall_mem_cons]
  and_intros
  all_goals first
    | infer_instance
    | exact fun f hf => absurd hf List.not_mem_nil

/-- The calls of the ARM7 but for the one at `0x0D`. -/
theorem unseen_of_mem_arm7 :
    ∀ f ∈ (armSwiTab bus fuel .arm7).eraseIdx 0x0D, Unseen (Nds.setRemote .arm7 c) f := by
  simp only [armSwiTab, List.eraseIdx_cons_succ, List.eraseIdx_cons_zero, List.forall_mem_cons]
  and_intros
  all_goals first
    | infer_instance
    | exact fun f hf => absurd hf List.not_mem_nil

theorem unseen_swi {p : Proc} {n : Fin 32} (h : p = .arm7 → n ≠ 0x0D) :
    Unseen (Nds.setRemote p c) (swi bus fuel p n) := by
  have hlen : n.val < (armSwiTab bus fuel p).length := by
    rw [length_armSwiTab]
    exact n.isLt
  have hget : swi bus fuel p n = (armSwiTab bus fuel p)[n.val] := by
    rw [swi, List.getD_eq_getElem?_getD, List.getElem?_eq_getElem hlen, Option.getD_some]
  rw [hget]
  cases p with
  | arm9 => exact unseen_of_mem_arm9 bus fuel c _ (List.getElem_mem hlen)
  | arm7 =>
    apply unseen_of_mem_arm7 bus fuel c
    rw [List.mem_eraseIdx_iff_getElem]
    exact ⟨n.val, hlen, fun heq => h rfl (Fin.ext heq), rfl⟩

end Tables

section TwoRuns

/-- The two states differ in the other processor of `p` only. -/
def SameFor (p : Proc) (s t : Nds μ) : Prop := s.cpu p = t.cpu p ∧ s.hw = t.hw

/-- Two runs of a call of `p` end alike for `p` and leave the other processor alone. -/
def RunsAlike (p : Proc) (f : Call μ α) (s t : Nds μ) : Prop :=
  Option.Rel (fun x y => x.1 = y.1 ∧ SameFor p x.2 y.2 ∧ x.2.cpu p.remote = s.cpu p.remote ∧
    y.2.cpu p.remote = t.cpu p.remote) (f s) (f t)

variable {p : Proc} {s t : Nds μ}

theorem SameFor.eq_setRemote (h : SameFor p s t) : t = s.setRemote p (t.cpu p.remote) := by
  obtain ⟨cpu, hw⟩ := t
  have hcpu : cpu = Function.update s.cpu p.remote (cpu p.remote) := by
    funext q
    rcases Proc.eq_or_eq_remote p q with rfl | rfl
    · rw [Function.update_of_ne (Proc.ne_remote q)]
      exact h.1.symm
    · rw [Function.update_self]
  have hhw : s.hw = hw := h.2
  rw [Nds.setRemote, ← hhw]
  exact congrArg (Nds.mk · s.hw) hcpu

theorem runsAlike_of_unseen {f : Call μ α} (hf : ∀ c, Unseen (Nds.setRemote p c) f)
    (h : SameFor p s t) : RunsAlike p f s t := by
  have hkeeps : ∀ r, f s = some r → r.2.cpu p.remote = s.cpu p.remote := fun r hr =>
    @Unseen.keeps _ _ _ (fun s : Nds μ => s.cpu p.remote) (Nds.setRemote p) _
      (Nds.setRemote_cpu_remote p) (Nds.setRemote_self p) hf _ _ hr
  have hrun := (hf (t.cpu p.remote)).run s
  rw [← h.eq_setRemote] at hrun
  rw [RunsAlike, hrun]
  cases hs : f s with
  | none => exact Option.Rel.none
  | some r =>
    refine Option.Rel.some ⟨rfl, ⟨?_, rfl⟩, hkeeps r hs, ?_⟩
    · exact (Nds.setRemote_cpu p _ r.2).symm
    · exact Nds.setRemote_cpu_remote p _ r.2

theorem biosSqrtArm7_run (s : Nds μ) :
    biosSqrtArm7 s = some (1,
      { s with
        cpu := Function.update s.cpu .arm7
          { s.cpu .arm7 with
            R := Function.update (s.cpu .arm7).R 0 (sqrtWord ((s.cpu .arm9).R 0)) } }) := by
  have hsame : Function.update s.cpu .arm9 (s.cpu .arm9) = s.cpu := Function.update_eq_self _ _
  have hrun : (biosSqrtArm7 : Call μ (BitVec 32)) s = some (1,
      { s with
        cpu := Function.update (Function.update s.cpu .arm9 (s.cpu .arm9)) .arm7
          { Function.update s.cpu .arm9 (s.cpu .arm9) .arm7 with
            R := Function.update (Function.update s.cpu .arm9 (s.cpu .arm9) .arm7).R 0
              (sqrtWord ((s.cpu .arm9).R 0)) } }) := rfl
  rw [hrun, hsame]

/-- The square root of the ARM7 takes its operand from the ARM9. -/
theorem runsAlike_biosSqrtArm7_iff (h : SameFor .arm7 s t) :
    RunsAlike .arm7 (biosSqrtArm7 : Call μ _) s t ↔
      sqrtWord ((s.cpu .arm9).R 0) = sqrtWord ((t.cpu .arm9).R 0) := by
  rw [RunsAlike, biosSqrtArm7_run, biosSqrtArm7_run, Option.rel_some_some]
  constructor
  · rintro ⟨-, ⟨hcpu, -⟩, -⟩
    have hreg := congrArg (fun c : Armcpu => c.R 0) hcpu
    simpa using hreg
  · intro hroot
    have hne : Proc.arm7.remote ≠ Proc.arm7 := Proc.remote_ne .arm7
    refine ⟨rfl, ⟨?_, h.2⟩, ?_, ?_⟩
    · simp only [Function.update_self, hroot, h.1]
    · dsimp only
      rw [Function.update_of_ne hne]
    · dsimp only
      rw [Function.update_of_ne hne]

/-- The calls of a processor do not depend on the other one, but for one call of the ARM7, which
does so through the root of a register of the ARM9. -/
theorem swi_runsAlike_iff (bus : Bus μ) (fuel : ℕ) (n : Fin 32) (h : SameFor p s t) :
    RunsAlike p (swi bus fuel p n) s t ↔
      (p = .arm7 → n = 0x0D →
        sqrtWord ((s.cpu .arm9).R 0) = sqrtWord ((t.cpu .arm9).R 0)) := by
  by_cases hsqrt : p = .arm7 ∧ n = 0x0D
  · obtain ⟨rfl, rfl⟩ := hsqrt
    have hroot := runsAlike_biosSqrtArm7_iff h
    exact hroot.trans ⟨fun heq _ _ => heq, fun himp => himp rfl rfl⟩
  · refine iff_of_true (runsAlike_of_unseen (fun c => ?_) h) ?_
    · exact unseen_swi bus fuel c fun hp hn => hsqrt ⟨hp, hn⟩
    · intro hp hn
      exact absurd ⟨hp, hn⟩ hsqrt

/-- A machine with this value in the first register of the ARM9, and zeros. -/
def withArm9 (x : BitVec 32) : Nds Unit where
  cpu p := ⟨fun _ => if p = .arm9 then x else 0, 0, 0, false, false, 0⟩
  hw := ()

/-- A bus that reads zeros. -/
def zeroBus : Bus Unit where
  read08 _ _ x := (0, x)
  read16 _ _ x := (0, x)
  read32 _ _ x := (0, x)
  write08 _ _ _ x := x
  write16 _ _ _ x := x
  write32 _ _ _ x := x
  cp15Ctrl _ := 0
  dtcmRegion _ := 0
  isDebugConsole _ := false

theorem swi_runsAlike_copy :
    RunsAlike .arm7 (swi zeroBus 0 .arm7 0x0B) (withArm9 0) (withArm9 16) :=
  (swi_runsAlike_iff zeroBus 0 0x0B (show SameFor .arm7 (withArm9 0) (withArm9 16) from
    ⟨rfl, rfl⟩)).mpr fun _ hn => absurd hn (by decide)

theorem biosSqrt_differs :
    SameFor .arm7 (withArm9 0) (withArm9 16) ∧
      ¬ RunsAlike .arm7 (swi zeroBus 0 .arm7 0x0D) (withArm9 0) (withArm9 16) := by
  have hsame : SameFor .arm7 (withArm9 0) (withArm9 16) := ⟨rfl, rfl⟩
  refine ⟨hsame, fun h => ?_⟩
  have hroot := (runsAlike_biosSqrtArm7_iff hsame).mp h
  have hfour : Nat.sqrt 16 = 4 := Nat.sqrt_eq 4
  have hzero : Nat.sqrt 0 = 0 := Nat.sqrt_zero
  have hvalues : sqrtWord 0 = sqrtWord 16 := hroot
  rw [sqrtWord, sqrtWord, show (0 : BitVec 32).toNat = 0 from rfl,
    show (16 : BitVec 32).toNat = 16 from rfl, hfour, hzero] at hvalues
  exact absurd hvalues (by decide)

end TwoRuns

end Desmume.Bios
