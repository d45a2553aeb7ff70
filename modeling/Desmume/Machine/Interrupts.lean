import Desmume.Arm.Exceptions
import Desmume.Library.Barrier
import Desmume.Library.PartialRun

/-! The interrupt controllers of both processors: what is asked for, what is acknowledged, who is halted
and when the main loop looks at it. Over every run no request is lost, and the loop never goes on with a
processor that an interrupt could be delivered to. -/

namespace Desmume.Machine
open Library Arm

/-- The fields of one processor and its registers of `MMU`. -/
structure IrqPort where
  cpu : ArmCpu
  haltIEandIF : Bool
  regIFBits : BitVec 32
  regIE : BitVec 32
  regIME : BitVec 32

/-- `waitIRQ` and `halt_IE_and_IF` go together. -/
def IrqPort.Paired (port : IrqPort) : Prop := port.haltIEandIF = port.cpu.waitIRQ

/-- The ports, the bits of `gxstat` that interrupt, and `sequencer.reschedule`. -/
structure Interrupts where
  port : Proc → IrqPort
  gxfifoIrq : BitVec 2
  fifoLow : Bool
  fifoEmpty : Bool
  reschedule : Bool

/-- What the registers and the flags see of the program: the writes, the instructions, the halts, the
FIFO of the geometry engine and the turns of the main loop. -/
inductive IrqAct where
  | setIF (p : Proc) (flag : BitVec 32)
  | writeIFByte (p : Proc) (addr : Fin 4) (val : BitVec 8)
  | writeIFWord (p : Proc) (high : Bool) (val : BitVec 16)
  | writeIFLong (p : Proc) (val : BitVec 32)
  | writeIEWord (p : Proc) (high : Bool) (val : BitVec 16)
  | writeIELong (p : Proc) (val : BitVec 32)
  | writeIME (p : Proc) (val : BitVec 32)
  | exec (p : Proc) (cpu : ArmCpu) (changeCPSR : Bool)
  | wait4IRQ (p : Proc)
  | gxstatWrite (val : BitVec 32)
  | fifoHandleEvents (size : ℕ)
  | execHardwareInterrupts (fetched : Proc → Word)

namespace Interrupts

variable (s : Interrupts) (p : Proc)

def setPort (port : IrqPort) : Interrupts := { s with port := Function.update s.port p port }

/-- `NDS_Reschedule`. -/
def ndsReschedule : Interrupts := { s with reschedule := true }

/-- `IRQ_MASK_ARM9_GXFIFO`. -/
def IRQ_MASK_ARM9_GXFIFO : BitVec 32 := 0x00200000

/-- `setIF`; the assertion fails for the generated bit. -/
def setIF (flag : BitVec 32) : Option Interrupts :=
  if flag &&& 0x00200000 = 0 then
    some (s.setPort p { s.port p with regIFBits := (s.port p).regIFBits ||| flag }).ndsReschedule
  else none

/-- `REG_IF_WriteByte`. -/
def regIFWriteByte (addr : ℕ) (val : BitVec 8) : Interrupts :=
  let val := if addr = 2 then if p = .arm9 then val &&& ~~~0x20 else val &&& ~~~0x00 else val
  (s.setPort p { s.port p with
    regIFBits := (s.port p).regIFBits &&& ~~~(val.setWidth 32 <<< (addr <<< 3)) }).ndsReschedule

/-- `REG_IF_WriteWord`. -/
def regIFWriteWord (addr : ℕ) (val : BitVec 16) : Interrupts :=
  (s.regIFWriteByte p addr (val.setWidth 8)).regIFWriteByte p (addr + 1) ((val >>> 8).setWidth 8)

/-- `REG_IF_WriteLong`. -/
def regIFWriteLong (val : BitVec 32) : Interrupts :=
  (((s.regIFWriteByte p 0 (val.setWidth 8)).regIFWriteByte p 1 ((val >>> 8).setWidth 8)).regIFWriteByte
    p 2 ((val >>> 16).setWidth 8)).regIFWriteByte p 3 ((val >>> 24).setWidth 8)

/-- `gen_IF`. -/
def genIF : BitVec 32 :=
  let IF := (s.port p).regIFBits
  if p = .arm9 then
    if s.gxfifoIrq = 1 then if s.fifoLow then IF ||| IRQ_MASK_ARM9_GXFIFO else IF
    else if s.gxfifoIrq = 2 then if s.fifoEmpty then IF ||| IRQ_MASK_ARM9_GXFIFO else IF
    else IF
  else IF

/-- The cases `REG_IE` and `REG_IE + 2` of the writes of words. -/
def writeIEWord (high : Bool) (val : BitVec 16) : Interrupts :=
  let regIE := (s.port p).regIE
  s.ndsReschedule.setPort p { s.port p with
    regIE :=
      if high then regIE &&& 0xFFFF ||| val.setWidth 32 <<< 16
      else regIE &&& 0xFFFF0000 ||| val.setWidth 32 }

def writeIELong (val : BitVec 32) : Interrupts :=
  s.ndsReschedule.setPort p { s.port p with regIE := val }

def writeIME (val : BitVec 32) : Interrupts :=
  s.ndsReschedule.setPort p { s.port p with regIME := val &&& 0x01 }

/-- Instructions run. They leave `waitIRQ`, and where the `I` bit changes `changeCPSR` is called. -/
def exec (cpu : ArmCpu) (changeCPSR : Bool) : Option Interrupts :=
  if cpu.waitIRQ = (s.port p).cpu.waitIRQ ∧
      (changeCPSR = true ∨ cpu.CPSR.I = (s.port p).cpu.CPSR.I) then
    some { s.setPort p { s.port p with cpu } with reschedule := s.reschedule || changeCPSR }
  else none

/-- `waitIRQ = TRUE; halt_IE_and_IF = TRUE`: in `armcpu_Wait4IRQ`, in the calls of the BIOS that wait and in
the wait of `cp15`. -/
def wait4IRQ : Interrupts :=
  s.setPort p { s.port p with cpu := { (s.port p).cpu with waitIRQ := true }, haltIEandIF := true }

/-- The bits that `TGXSTAT::write32` sets for interrupts. -/
def gxstatWrite (val : BitVec 32) : Interrupts := { s with gxfifoIrq := (val >>> 30).setWidth 2 }

/-- `GXF_FIFO_handleEvents` with so many commands in the FIFO. -/
def fifoHandleEvents (size : ℕ) : Interrupts :=
  let low := decide (size ≤ 127)
  let lowchange := s.fifoLow ^^ low
  let empty := decide (size = 0)
  let emptychange := s.fifoEmpty ^^ empty
  { s with
    fifoLow := low
    fifoEmpty := empty
    reschedule := s.reschedule || emptychange || lowchange }

/-- `execHardware_interrupts_core`. The change of mode calls `changeCPSR`. -/
def execHardwareInterruptsCore (fetched : Word) : Interrupts :=
  let masked := s.genIF p &&& (s.port p).regIE
  let woken :=
    if (s.port p).haltIEandIF ∧ masked ≠ 0 then
      s.setPort p { s.port p with
        haltIEandIF := false
        cpu := (s.port p).cpu.wake }
    else s
  if masked ≠ 0 ∧ (s.port p).regIME ≠ 0 ∧ (woken.port p).cpu.CPSR.I = false then
    (woken.setPort p
      { woken.port p with cpu := irqException (woken.port p).cpu fetched }).ndsReschedule
  else woken

/-- `execHardware_interrupts` in the loop of `NDS_exec`, up to `sequencer.reschedule = false`. -/
def execHardwareInterrupts (fetched : Proc → Word) : Interrupts :=
  let s := s.execHardwareInterruptsCore .arm9 (fetched .arm9)
  let s := s.execHardwareInterruptsCore .arm7 (fetched .arm7)
  { s with reschedule := false }

def step : IrqAct → Option Interrupts
  | .setIF p flag => s.setIF p flag
  | .writeIFByte p addr val => some (s.regIFWriteByte p addr val)
  | .writeIFWord p high val => some (s.regIFWriteWord p (if high then 2 else 0) val)
  | .writeIFLong p val => some (s.regIFWriteLong p val)
  | .writeIEWord p high val => some (s.writeIEWord p high val)
  | .writeIELong p val => some (s.writeIELong p val)
  | .writeIME p val => some (s.writeIME p val)
  | .exec p cpu changeCPSR => s.exec p cpu changeCPSR
  | .wait4IRQ p => some (s.wait4IRQ p)
  | .gxstatWrite val => some (s.gxstatWrite val)
  | .fifoHandleEvents size => some (s.fifoHandleEvents size)
  | .execHardwareInterrupts fetched => some (s.execHardwareInterrupts fetched)

/-- After the constructor of `TGXSTAT`, `MMU_Reset`, `armcpu_init` and `Sequencer::init`. -/
def initial (adr fetched : Proc → Word) : Interrupts where
  port p := ⟨Arm.init p (adr p) (fetched p), false, 0, 0, 0⟩
  gxfifoIrq := 0
  fifoLow := false
  fifoEmpty := true
  reschedule := false

/-! ### The bits of `IF` -/

section Pending

variable {s p} {s' : Interrupts} {a : IrqAct} {q : Proc} {b : ℕ}

/-- An act that asks for interrupt `b`, and one that acknowledges it. -/
def sets (p : Proc) (b : ℕ) : IrqAct → Bool
  | .setIF q flag => decide (q = p) && flag.getLsbD b
  | _ => false

def acks (p : Proc) (b : ℕ) : IrqAct → Bool
  | .writeIFByte q addr val => decide (q = p) && (val.setWidth 32 <<< (8 * addr.val)).getLsbD b
  | .writeIFWord q high val => decide (q = p) && (val.setWidth 32 <<< if high then 16 else 0).getLsbD b
  | .writeIFLong q val => decide (q = p) && val.getLsbD b
  | _ => false

/-- The generated bit is never stored. -/
def Generated (s : Interrupts) : Prop := (s.port .arm9).regIFBits.getLsbD 21 = false

@[simp] theorem setPort_port_self (port : IrqPort) : (s.setPort p port).port p = port :=
  Function.update_self ..

theorem setPort_port_of_ne (h : q ≠ p) (port : IrqPort) : (s.setPort p port).port q = s.port q :=
  Function.update_of_ne h ..

@[simp] theorem ndsReschedule_port : s.ndsReschedule.port = s.port := rfl

/-- A change of one port that does not touch `IF`. -/
theorem setPort_regIFBits {port : IrqPort} (h : port.regIFBits = (s.port p).regIFBits) :
    ((s.setPort p port).port q).regIFBits = (s.port q).regIFBits := by
  by_cases hq : q = p
  · rw [hq, setPort_port_self, h]
  · rw [setPort_port_of_ne hq]

theorem regIFWriteByte_getLsbD (hgen : s.Generated) (addr : ℕ) (val : BitVec 8) (b : ℕ) :
    ((s.regIFWriteByte p addr val).port p).regIFBits.getLsbD b =
      ((s.port p).regIFBits.getLsbD b && !(val.setWidth 32 <<< (8 * addr)).getLsbD b) := by
  have hshift : addr <<< 3 = 8 * addr := by rw [Nat.shiftLeft_eq, Nat.mul_comm]
  have hones : (~~~0x00 : BitVec 8) = BitVec.allOnes 8 := rfl
  have hmask (i : ℕ) : (~~~0x20 : BitVec 8).getLsbD i = (decide (i < 8) && decide (i ≠ 5)) := by
    by_cases hi : i < 8
    · interval_cases i <;> rfl
    · rw [BitVec.getLsbD_of_ge _ _ (not_lt.mp hi), decide_eq_false hi, Bool.false_and]
  have hval : ∀ val' : BitVec 8,
      (∀ i, 8 * addr + i = b → b ≠ 21 ∨ p ≠ .arm9 → val'.getLsbD i = val.getLsbD i) →
      ((s.port p).regIFBits &&& ~~~(val'.setWidth 32 <<< (8 * addr))).getLsbD b =
        ((s.port p).regIFBits.getLsbD b && !(val.setWidth 32 <<< (8 * addr)).getLsbD b) := by
    intro val' hsame
    by_cases hb : b < 32
    · rw [BitVec.getLsbD_and, BitVec.getLsbD_not, decide_eq_true hb, Bool.true_and]
      by_cases hgenerated : b = 21 ∧ p = .arm9
      · obtain ⟨rfl, rfl⟩ := hgenerated
        rw [hgen, Bool.false_and, Bool.false_and]
      · rw [BitVec.getLsbD_shiftLeft, BitVec.getLsbD_shiftLeft, BitVec.getLsbD_setWidth,
          BitVec.getLsbD_setWidth]
        by_cases hlow : b < 8 * addr
        · simp [hlow]
        · rw [hsame (b - 8 * addr) (by omega) (not_and_or.mp hgenerated)]
    · rw [BitVec.getLsbD_of_ge _ _ (not_lt.mp hb), BitVec.getLsbD_of_ge _ _ (not_lt.mp hb),
        Bool.false_and]
  rw [regIFWriteByte, ndsReschedule_port, setPort_port_self, hshift]
  refine hval _ fun i hi hother => ?_
  split_ifs with h2 h9
  · have hne : i ≠ 5 := by
      rintro rfl
      rcases hother with h | h
      · omega
      · exact h h9
    by_cases h8 : i < 8
    · rw [BitVec.getLsbD_and, hmask, decide_eq_true h8, decide_eq_true hne, Bool.and_true, Bool.and_true]
    · rw [BitVec.getLsbD_of_ge _ _ (not_lt.mp h8), BitVec.getLsbD_of_ge _ _ (not_lt.mp h8)]
  · rw [hones, BitVec.and_allOnes]
  · rfl

theorem Generated.regIFWriteByte (hgen : s.Generated) (p : Proc) (addr : ℕ) (val : BitVec 8) :
    (s.regIFWriteByte p addr val).Generated := by
  rw [Generated]
  by_cases hp : p = .arm9
  · subst hp
    rw [regIFWriteByte_getLsbD hgen, hgen, Bool.false_and]
  · rw [Interrupts.regIFWriteByte, ndsReschedule_port, setPort_port_of_ne (Ne.symm hp)]
    exact hgen

/-- The writes of words and of the whole register are those of their bytes. -/
theorem regIFWriteWord_getLsbD (hgen : s.Generated) (high : Bool) (val : BitVec 16) (b : ℕ) :
    ((s.regIFWriteWord p (if high then 2 else 0) val).port p).regIFBits.getLsbD b =
      ((s.port p).regIFBits.getLsbD b && !(val.setWidth 32 <<< if high then 16 else 0).getLsbD b) := by
  have hnext := hgen.regIFWriteByte p (if high then 2 else 0) (val.setWidth 8)
  rw [regIFWriteWord, regIFWriteByte_getLsbD hnext, regIFWriteByte_getLsbD hgen, Bool.and_assoc,
    ← Bool.not_or]
  congr 2
  by_cases hb : b < 32
  · cases high <;> interval_cases b <;> simp
  · rw [BitVec.getLsbD_of_ge _ _ (not_lt.mp hb), BitVec.getLsbD_of_ge _ _ (not_lt.mp hb),
      BitVec.getLsbD_of_ge _ _ (not_lt.mp hb), Bool.false_or]

theorem regIFWriteLong_getLsbD (hgen : s.Generated) (val : BitVec 32) (b : ℕ) :
    ((s.regIFWriteLong p val).port p).regIFBits.getLsbD b =
      ((s.port p).regIFBits.getLsbD b && !val.getLsbD b) := by
  have h₀ := hgen.regIFWriteByte p 0 (val.setWidth 8)
  have h₁ := h₀.regIFWriteByte p 1 ((val >>> 8).setWidth 8)
  have h₂ := h₁.regIFWriteByte p 2 ((val >>> 16).setWidth 8)
  rw [regIFWriteLong, regIFWriteByte_getLsbD h₂, regIFWriteByte_getLsbD h₁, regIFWriteByte_getLsbD h₀,
    regIFWriteByte_getLsbD hgen, Bool.and_assoc, Bool.and_assoc, Bool.and_assoc, ← Bool.not_or,
    ← Bool.not_or, ← Bool.not_or]
  congr 2
  by_cases hb : b < 32
  · interval_cases b <;> simp
  · simp [BitVec.getLsbD_of_ge _ _ (not_lt.mp hb)]

theorem regIFWriteByte_port_of_ne (h : p ≠ q) (addr : ℕ) (val : BitVec 8) :
    (s.regIFWriteByte q addr val).port p = s.port p := by
  rw [regIFWriteByte, ndsReschedule_port, setPort_port_of_ne h]

/-- The main loop would deliver an interrupt to the processor. -/
def Deliverable (s : Interrupts) (p : Proc) : Prop :=
  s.genIF p &&& (s.port p).regIE ≠ 0 ∧ (s.port p).regIME ≠ 0 ∧ (s.port p).cpu.CPSR.I = false

/-- What a turn of the main loop does for one processor. -/
structure Served (s : Interrupts) (p : Proc) (s' : Interrupts) : Prop where
  gxfifoIrq : s'.gxfifoIrq = s.gxfifoIrq
  fifoLow : s'.fifoLow = s.fifoLow
  fifoEmpty : s'.fifoEmpty = s.fifoEmpty
  others : ∀ q, q ≠ p → s'.port q = s.port q
  regIFBits : (s'.port p).regIFBits = (s.port p).regIFBits
  regIE : (s'.port p).regIE = (s.port p).regIE
  idle : ¬ s'.Deliverable p
  paired : (s.port p).Paired → (s'.port p).Paired
  woken : (s.port p).Paired → s'.genIF p &&& (s'.port p).regIE ≠ 0 → (s'.port p).cpu.waitIRQ = false

theorem irqException_I (cpu : ArmCpu) (fetched : Word) : (irqException cpu fetched).CPSR.I = true := by
  rw [irqException, prefetch_CPSR, wake_setNext_CPSR]
  rfl

theorem irqException_waitIRQ (cpu : ArmCpu) (fetched : Word) :
    (irqException cpu fetched).waitIRQ = false := by
  rw [irqException, prefetch]
  split <;> rfl

/-- `gen_IF` sees the stored bits and the flags of the FIFO. -/
theorem genIF_congr (hIF : (s'.port p).regIFBits = (s.port p).regIFBits)
    (hirq : s'.gxfifoIrq = s.gxfifoIrq) (hlow : s'.fifoLow = s.fifoLow)
    (hempty : s'.fifoEmpty = s.fifoEmpty) : s'.genIF p = s.genIF p := by
  rw [genIF, genIF, hIF, hirq, hlow, hempty]

theorem served_core (s : Interrupts) (p : Proc) (fetched : Word) :
    s.Served p (s.execHardwareInterruptsCore p fetched) := by
  -- A result that differs in the processor and its halt only.
  have hserved {s' : Interrupts} (cpu : ArmCpu) (halt : Bool)
      (hport : s'.port = Function.update s.port p { s.port p with cpu, haltIEandIF := halt })
      (hirq : s'.gxfifoIrq = s.gxfifoIrq) (hlow : s'.fifoLow = s.fifoLow)
      (hempty : s'.fifoEmpty = s.fifoEmpty)
      (hidle : s.genIF p &&& (s.port p).regIE ≠ 0 → (s.port p).regIME ≠ 0 → cpu.CPSR.I = true)
      (hpaired : (s.port p).Paired → halt = cpu.waitIRQ)
      (hwoken : (s.port p).Paired → s.genIF p &&& (s.port p).regIE ≠ 0 → cpu.waitIRQ = false) :
      s.Served p s' := by
    have hself : s'.port p = { s.port p with cpu, haltIEandIF := halt } := by
      rw [hport, Function.update_self]
    have hgenIF : s'.genIF p = s.genIF p := genIF_congr (by rw [hself]) hirq hlow hempty
    refine ⟨hirq, hlow, hempty, fun q hq => by rw [hport, Function.update_of_ne hq], by rw [hself],
      by rw [hself], ?_, ?_, ?_⟩
    · rintro ⟨hmasked, hime, hI⟩
      rw [hgenIF, hself] at hmasked
      rw [hself] at hime hI
      exact Bool.noConfusion ((hidle hmasked hime).symm.trans hI)
    · rw [hself]
      exact hpaired
    · intro hp hmasked
      rw [hgenIF, hself] at hmasked
      rw [hself]
      exact hwoken hp hmasked
  rw [execHardwareInterruptsCore]
  by_cases hmasked : s.genIF p &&& (s.port p).regIE = 0
  · rw [if_neg fun h => h.1 hmasked, if_neg fun h => h.2 hmasked]
    refine hserved _ _ (Function.update_eq_self p s.port).symm rfl rfl rfl ?_ id ?_
    · exact fun h => absurd hmasked h
    · exact fun _ h => absurd hmasked h
  by_cases hhalt : (s.port p).haltIEandIF = true
  · have hwake : (s.port p).haltIEandIF = true ∧ s.genIF p &&& (s.port p).regIE ≠ 0 := ⟨hhalt, hmasked⟩
    simp only [if_pos hwake, setPort_port_self]
    split_ifs with htaken
    · refine hserved (irqException (s.port p).cpu.wake fetched) false ?_ rfl rfl rfl ?_ ?_ ?_
      · exact Function.update_idem ..
      · exact fun _ _ => irqException_I ..
      · exact fun _ => (irqException_waitIRQ ..).symm
      · exact fun _ _ => irqException_waitIRQ ..
    · refine hserved (s.port p).cpu.wake false rfl rfl rfl rfl ?_ (fun _ => rfl)
        fun _ _ => rfl
      exact fun _ hime => Bool.of_not_eq_false fun hI => htaken ⟨hmasked, hime, hI⟩
  · have hasleep : ¬ ((s.port p).haltIEandIF = true ∧ s.genIF p &&& (s.port p).regIE ≠ 0) :=
      fun h => hhalt h.1
    simp only [if_neg hasleep]
    split_ifs with htaken
    · refine hserved (irqException (s.port p).cpu fetched) (s.port p).haltIEandIF
        rfl rfl rfl rfl ?_ ?_ ?_
      · exact fun _ _ => irqException_I ..
      · exact fun _ => (Bool.eq_false_iff.mpr hhalt).trans (irqException_waitIRQ ..).symm
      · exact fun _ _ => irqException_waitIRQ ..
    · refine hserved _ _ (Function.update_eq_self p s.port).symm rfl rfl rfl ?_ id ?_
      · exact fun _ hime => Bool.of_not_eq_false fun hI => htaken ⟨hmasked, hime, hI⟩
      · exact fun hp _ => hp.symm.trans (Bool.eq_false_iff.mpr hhalt)

theorem execHardwareInterrupts_regIFBits (fetched : Proc → Word) :
    ((s.execHardwareInterrupts fetched).port q).regIFBits = (s.port q).regIFBits := by
  have h9 := served_core s .arm9 (fetched .arm9)
  have h7 := served_core (s.execHardwareInterruptsCore .arm9 (fetched .arm9)) .arm7 (fetched .arm7)
  cases q with
  | arm9 => exact (congrArg IrqPort.regIFBits (h7.others .arm9 (by decide))).trans h9.regIFBits
  | arm7 => exact h7.regIFBits.trans (congrArg IrqPort.regIFBits (h9.others .arm7 (by decide)))

/-- What one step does to a bit of `IF`. -/
theorem step_regIFBits (hgen : s.Generated) (hstep : s.step a = some s') (p : Proc) (b : ℕ) :
    (s'.port p).regIFBits.getLsbD b =
      (sets p b a || ((s.port p).regIFBits.getLsbD b && !acks p b a)) := by
  have hsame (hset : sets p b a = false) (hack : acks p b a = false)
      (h : (s'.port p).regIFBits = (s.port p).regIFBits) : (s'.port p).regIFBits.getLsbD b =
        (sets p b a || ((s.port p).regIFBits.getLsbD b && !acks p b a)) := by
    rw [hset, hack, h, Bool.false_or, Bool.not_false, Bool.and_true]
  cases a with
  | setIF q flag =>
    rw [step, setIF] at hstep
    split_ifs at hstep with hflag
    obtain rfl := Option.some.inj hstep
    by_cases hq : q = p
    · subst hq
      simp [sets, acks, BitVec.getLsbD_or, Bool.or_comm]
    · exact hsame (by simp [sets, hq]) rfl (by rw [ndsReschedule_port, setPort_port_of_ne (Ne.symm hq)])
  | writeIFByte q addr val =>
    obtain rfl := Option.some.inj hstep
    by_cases hq : q = p
    · subst hq
      simp [sets, acks, regIFWriteByte_getLsbD hgen]
    · exact hsame rfl (by simp [acks, hq]) (by rw [regIFWriteByte_port_of_ne (Ne.symm hq)])
  | writeIFWord q high val =>
    obtain rfl := Option.some.inj hstep
    by_cases hq : q = p
    · subst hq
      rw [regIFWriteWord_getLsbD hgen]
      simp [sets, acks]
    · refine hsame rfl (by simp [acks, hq]) ?_
      rw [regIFWriteWord, regIFWriteByte_port_of_ne (Ne.symm hq), regIFWriteByte_port_of_ne (Ne.symm hq)]
  | writeIFLong q val =>
    obtain rfl := Option.some.inj hstep
    by_cases hq : q = p
    · subst hq
      simp [sets, acks, regIFWriteLong_getLsbD hgen]
    · refine hsame rfl (by simp [acks, hq]) ?_
      rw [regIFWriteLong, regIFWriteByte_port_of_ne (Ne.symm hq), regIFWriteByte_port_of_ne (Ne.symm hq),
        regIFWriteByte_port_of_ne (Ne.symm hq), regIFWriteByte_port_of_ne (Ne.symm hq)]
  | writeIEWord q high val =>
    obtain rfl := Option.some.inj hstep
    exact hsame rfl rfl (setPort_regIFBits rfl)
  | writeIELong q val =>
    obtain rfl := Option.some.inj hstep
    exact hsame rfl rfl (setPort_regIFBits rfl)
  | writeIME q val =>
    obtain rfl := Option.some.inj hstep
    exact hsame rfl rfl (setPort_regIFBits rfl)
  | exec q cpu changeCPSR =>
    rw [step, exec] at hstep
    split_ifs at hstep with hexec
    obtain rfl := Option.some.inj hstep
    exact hsame rfl rfl (setPort_regIFBits (s := s) rfl)
  | wait4IRQ q =>
    obtain rfl := Option.some.inj hstep
    exact hsame rfl rfl (setPort_regIFBits rfl)
  | gxstatWrite val =>
    obtain rfl := Option.some.inj hstep
    exact hsame rfl rfl rfl
  | fifoHandleEvents size =>
    obtain rfl := Option.some.inj hstep
    exact hsame rfl rfl rfl
  | execHardwareInterrupts fetched =>
    obtain rfl := Option.some.inj hstep
    refine hsame rfl rfl ?_
    exact execHardwareInterrupts_regIFBits fetched

/-- The assertion of `setIF` keeps the generated bit out. -/
theorem Generated.step (hgen : s.Generated) (hstep : s.step a = some s') : s'.Generated := by
  rw [Generated, step_regIFBits hgen hstep, hgen, Bool.false_and, Bool.or_false]
  cases a with
  | setIF q flag =>
    rw [Interrupts.step, setIF] at hstep
    split_ifs at hstep with hflag
    have hbit : (flag &&& 0x00200000).getLsbD 21 = false := by rw [hflag]; rfl
    rw [BitVec.getLsbD_and] at hbit
    have hmask : (0x00200000 : BitVec 32).getLsbD 21 = true := rfl
    rw [hmask, Bool.and_true] at hbit
    rw [sets, hbit, Bool.and_false]
  | _ => rfl

/-- The condition that `gen_IF` turns into a bit. -/
def GxFifoAsks (s : Interrupts) : Prop :=
  s.gxfifoIrq = 1 ∧ s.fifoLow = true ∨ s.gxfifoIrq = 2 ∧ s.fifoEmpty = true

theorem genIF_getLsbD (p : Proc) {b : ℕ} :
    (s.genIF p).getLsbD b = true ↔
      (s.port p).regIFBits.getLsbD b = true ∨ p = .arm9 ∧ b = 21 ∧ s.GxFifoAsks := by
  have hmask : IRQ_MASK_ARM9_GXFIFO.getLsbD b = decide (b = 21) := by
    by_cases hb : b < 32
    · interval_cases b <;> rfl
    · rw [BitVec.getLsbD_of_ge _ _ (not_lt.mp hb)]
      simp
      omega
  rw [genIF, GxFifoAsks]
  by_cases hp : p = .arm9
  · simp only [if_pos hp]
    split_ifs with h1 hlow h2 hempty <;> simp_all [BitVec.getLsbD_or]
  · simp [hp]

end Pending

/-! ### The main loop -/

section Prompt

variable {s p} {s' : Interrupts} {a : IrqAct} {q : Proc}

/-- An interrupt whose bit is stored would be delivered. -/
def StoredDeliverable (s : Interrupts) (p : Proc) : Prop :=
  (s.port p).regIFBits &&& (s.port p).regIE ≠ 0 ∧ (s.port p).regIME ≠ 0 ∧
    (s.port p).cpu.CPSR.I = false

/-- What decides on the delivery, but for the FIFO. -/
structure SameView (s s' : Interrupts) : Prop where
  regIFBits : ∀ p, (s'.port p).regIFBits = (s.port p).regIFBits
  regIE : ∀ p, (s'.port p).regIE = (s.port p).regIE
  regIME : ∀ p, (s'.port p).regIME = (s.port p).regIME
  I : ∀ p, (s'.port p).cpu.CPSR.I = (s.port p).cpu.CPSR.I

def isGxstatWrite : IrqAct → Bool
  | .gxstatWrite _ => true
  | _ => false

theorem StoredDeliverable.deliverable (h : s.StoredDeliverable p) : s.Deliverable p := by
  refine ⟨fun hzero => h.1 (BitVec.eq_of_getLsbD_eq fun b _ => ?_), h.2⟩
  have hbit : (s.genIF p &&& (s.port p).regIE).getLsbD b = false := by
    rw [hzero]
    exact BitVec.getLsbD_zero
  refine Eq.trans ?_ BitVec.getLsbD_zero.symm
  rw [BitVec.getLsbD_and, Bool.and_eq_false_iff]
  rw [BitVec.getLsbD_and, Bool.and_eq_false_iff] at hbit
  refine hbit.imp_left fun hno => Bool.eq_false_iff.mpr fun hIF => ?_
  exact Bool.noConfusion (hno.symm.trans ((genIF_getLsbD p).mpr (Or.inl hIF)))

theorem SameView.stored (h : SameView s s') : s'.StoredDeliverable p ↔ s.StoredDeliverable p := by
  rw [StoredDeliverable, StoredDeliverable, h.regIFBits, h.regIE, h.regIME, h.I]

theorem SameView.deliverable (h : SameView s s') (hirq : s'.gxfifoIrq = s.gxfifoIrq)
    (hlow : s'.fifoLow = s.fifoLow) (hempty : s'.fifoEmpty = s.fifoEmpty) :
    s'.Deliverable p ↔ s.Deliverable p := by
  rw [Deliverable, Deliverable, genIF_congr (h.regIFBits p) hirq hlow hempty, h.regIE, h.regIME, h.I]

theorem sameView_setPort {port : IrqPort} (hIF : port.regIFBits = (s.port p).regIFBits)
    (hIE : port.regIE = (s.port p).regIE) (hIME : port.regIME = (s.port p).regIME)
    (hI : port.cpu.CPSR.I = (s.port p).cpu.CPSR.I) : SameView s (s.setPort p port) := by
  constructor <;> intro q <;> by_cases hq : q = p
  all_goals first
    | rw [setPort_port_of_ne hq]
    | rw [hq, setPort_port_self]
      assumption

/-- What is new for the main loop in a step is announced to it: it is rescheduled, or it was the loop's
own turn, or nothing changed but what a write of `GXSTAT` changes. -/
theorem step_view (hstep : s.step a = some s') :
    s'.reschedule = true ∨ (∃ fetched, a = .execHardwareInterrupts fetched) ∨
      s'.reschedule = s.reschedule ∧ SameView s s' ∧ (isGxstatWrite a = false →
        s'.gxfifoIrq = s.gxfifoIrq ∧ s'.fifoLow = s.fifoLow ∧ s'.fifoEmpty = s.fifoEmpty) := by
  cases a with
  | setIF q flag =>
    rw [step, setIF] at hstep
    split_ifs at hstep with hflag
    obtain rfl := Option.some.inj hstep
    exact Or.inl rfl
  | writeIFByte q addr val =>
    obtain rfl := Option.some.inj hstep
    exact Or.inl rfl
  | writeIFWord q high val =>
    obtain rfl := Option.some.inj hstep
    exact Or.inl rfl
  | writeIFLong q val =>
    obtain rfl := Option.some.inj hstep
    exact Or.inl rfl
  | writeIEWord q high val =>
    obtain rfl := Option.some.inj hstep
    exact Or.inl rfl
  | writeIELong q val =>
    obtain rfl := Option.some.inj hstep
    exact Or.inl rfl
  | writeIME q val =>
    obtain rfl := Option.some.inj hstep
    exact Or.inl rfl
  | exec q cpu changeCPSR =>
    rw [step, exec] at hstep
    split_ifs at hstep with hexec
    obtain rfl := Option.some.inj hstep
    cases changeCPSR with
    | true => exact Or.inl (Bool.or_true _)
    | false =>
      have hI : cpu.CPSR.I = (s.port q).cpu.CPSR.I := hexec.2.resolve_left Bool.noConfusion
      have hview : SameView s (s.setPort q { s.port q with cpu }) := sameView_setPort rfl rfl rfl hI
      exact Or.inr (Or.inr ⟨Bool.or_false _, ⟨hview.1, hview.2, hview.3, hview.4⟩, fun _ => ⟨rfl, rfl, rfl⟩⟩)
  | wait4IRQ q =>
    obtain rfl := Option.some.inj hstep
    exact Or.inr (Or.inr ⟨rfl, sameView_setPort rfl rfl rfl rfl, fun _ => ⟨rfl, rfl, rfl⟩⟩)
  | gxstatWrite val =>
    obtain rfl := Option.some.inj hstep
    refine Or.inr (Or.inr ⟨rfl, ?_, fun h => Bool.noConfusion h⟩)
    exact ⟨fun _ => rfl, fun _ => rfl, fun _ => rfl, fun _ => rfl⟩
  | fifoHandleEvents size =>
    obtain rfl := Option.some.inj hstep
    by_cases hsame : s.fifoEmpty = decide (size = 0) ∧ s.fifoLow = decide (size ≤ 127)
    · refine Or.inr (Or.inr ⟨?_, ⟨fun _ => rfl, fun _ => rfl, fun _ => rfl, fun _ => rfl⟩, fun _ => ?_⟩)
      · simp [fifoHandleEvents, hsame.1, hsame.2]
      · exact ⟨rfl, hsame.2.symm, hsame.1.symm⟩
    · refine Or.inl ?_
      rcases not_and_or.mp hsame with h | h
      · simp [fifoHandleEvents, bne_iff_ne.mpr h]
      · simp [fifoHandleEvents, bne_iff_ne.mpr h]
  | execHardwareInterrupts fetched => exact Or.inr (Or.inl ⟨fetched, rfl⟩)

theorem setPort_paired (h : ∀ q, (s.port q).Paired) {port : IrqPort} (hport : port.Paired) :
    ∀ q, ((s.setPort p port).port q).Paired := by
  intro q
  by_cases hq : q = p
  · rw [hq, setPort_port_self]
    exact hport
  · rw [setPort_port_of_ne hq]
    exact h q

theorem regIFWriteByte_paired (h : ∀ q, (s.port q).Paired) (p : Proc) (addr : ℕ) (val : BitVec 8) :
    ∀ q, ((s.regIFWriteByte p addr val).port q).Paired := setPort_paired h (h p)

theorem prefetch_waitIRQ (cpu : ArmCpu) (fetched : Word) :
    (prefetch cpu fetched).waitIRQ = cpu.waitIRQ := by
  rw [prefetch]
  split <;> rfl

/-- A turn of the loop leaves nobody with an interrupt that could be delivered. -/
theorem execHardwareInterrupts_idle (fetched : Proc → Word) (h : ∀ q, (s.port q).Paired) (q : Proc) :
    ¬ (s.execHardwareInterrupts fetched).Deliverable q ∧
      ((s.execHardwareInterrupts fetched).port q).Paired ∧
      ((s.execHardwareInterrupts fetched).genIF q &&&
        ((s.execHardwareInterrupts fetched).port q).regIE ≠ 0 →
          ((s.execHardwareInterrupts fetched).port q).cpu.waitIRQ = false) := by
  have h9 := served_core s .arm9 (fetched .arm9)
  have h7 := served_core (s.execHardwareInterruptsCore .arm9 (fetched .arm9)) .arm7 (fetched .arm7)
  have h7port := h7.others .arm9 (by decide)
  have h7genIF := genIF_congr (congrArg IrqPort.regIFBits h7port) h7.gxfifoIrq h7.fifoLow h7.fifoEmpty
  have h9port := h9.others .arm7 (by decide)
  have hpaired9 := h9.paired (h .arm9)
  have hpaired7 : ((s.execHardwareInterruptsCore .arm9 (fetched .arm9)).port .arm7).Paired := by
    rw [h9port]
    exact h .arm7
  cases q with
  | arm9 =>
    refine ⟨?_, (congrArg IrqPort.Paired h7port).mpr hpaired9, fun hmasked => ?_⟩
    · rintro ⟨hmasked, hrest⟩
      refine h9.idle ⟨?_, ?_⟩
      · rw [← h7genIF, ← h7port]
        exact hmasked
      · rw [← h7port]
        exact hrest
    · refine (congrArg (fun port : IrqPort => port.cpu.waitIRQ) h7port).trans (h9.woken (h .arm9) ?_)
      rw [← h7genIF, ← h7port]
      exact hmasked
  | arm7 => exact ⟨h7.idle, h7.paired hpaired7, h7.woken hpaired7⟩

theorem paired_step (h : ∀ q, (s.port q).Paired) (hstep : s.step a = some s') (q : Proc) :
    (s'.port q).Paired := by
  cases a with
  | setIF p flag =>
    rw [step, setIF] at hstep
    split_ifs at hstep with hflag
    obtain rfl := Option.some.inj hstep
    refine setPort_paired h ?_ q
    exact h p
  | writeIFByte p addr val =>
    obtain rfl := Option.some.inj hstep
    refine setPort_paired h ?_ q
    exact h p
  | writeIFWord p high val =>
    obtain rfl := Option.some.inj hstep
    exact regIFWriteByte_paired (regIFWriteByte_paired h p _ _) p _ _ q
  | writeIFLong p val =>
    obtain rfl := Option.some.inj hstep
    have hhalf := regIFWriteByte_paired (regIFWriteByte_paired h p 0 (val.setWidth 8)) p 1
      ((val >>> 8).setWidth 8)
    exact regIFWriteByte_paired (regIFWriteByte_paired hhalf p _ _) p _ _ q
  | writeIEWord p high val =>
    obtain rfl := Option.some.inj hstep
    refine setPort_paired (s := s.ndsReschedule) h ?_ q
    exact h p
  | writeIELong p val =>
    obtain rfl := Option.some.inj hstep
    refine setPort_paired (s := s.ndsReschedule) h ?_ q
    exact h p
  | writeIME p val =>
    obtain rfl := Option.some.inj hstep
    refine setPort_paired (s := s.ndsReschedule) h ?_ q
    exact h p
  | exec p cpu changeCPSR =>
    rw [step, exec] at hstep
    split_ifs at hstep with hexec
    obtain rfl := Option.some.inj hstep
    refine setPort_paired h ?_ q
    exact (h p).trans hexec.1.symm
  | wait4IRQ p =>
    obtain rfl := Option.some.inj hstep
    refine setPort_paired h ?_ q
    exact rfl
  | gxstatWrite val =>
    obtain rfl := Option.some.inj hstep
    exact h q
  | fifoHandleEvents size =>
    obtain rfl := Option.some.inj hstep
    exact h q
  | execHardwareInterrupts fetched =>
    obtain rfl := Option.some.inj hstep
    exact (execHardwareInterrupts_idle fetched h q).2.1

/-- Where the loop is not rescheduled, no stored interrupt could be delivered. -/
structure Prompt (s : Interrupts) : Prop where
  paired : ∀ p, (s.port p).Paired
  stored : s.reschedule = false → ∀ p, ¬ s.StoredDeliverable p

theorem prompt_initial (adr fetched : Proc → Word) : (initial adr fetched).Prompt := by
  refine ⟨fun p => ?_, fun _ p h => h.1 (BitVec.zero_and ..)⟩
  have hinit : (Arm.init p (adr p) (fetched p)).waitIRQ = false := by
    unfold Arm.init
    exact prefetch_waitIRQ ..
  exact hinit.symm

theorem prompt_step (h : s.Prompt) (hstep : s.step a = some s') : s'.Prompt := by
  refine ⟨paired_step h.paired hstep, fun hloop p => ?_⟩
  rcases step_view hstep with hresched | ⟨fetched, rfl⟩ | ⟨hsame, hview, -⟩
  · exact absurd (hloop.symm.trans hresched) Bool.noConfusion
  · obtain rfl := Option.some.inj hstep
    exact fun hstored => (execHardwareInterrupts_idle fetched h.paired p).1 hstored.deliverable
  · rw [hview.stored]
    exact h.stored (hsame ▸ hloop) p

/-- After a turn of the loop nothing at all could be delivered until it is rescheduled, unless the program
sets another condition for the FIFO. -/
theorem quiet_run {post : List IrqAct} (hpaired : ∀ p, (s.port p).Paired)
    (h : s.reschedule = false → ∀ p, ¬ s.Deliverable p) (hpost : ∀ a ∈ post, isGxstatWrite a = false)
    (hrun : runM step s post = some s') : s'.reschedule = false → ∀ p, ¬ s'.Deliverable p := by
  induction post generalizing s with
  | nil =>
    obtain rfl := Option.some.inj hrun
    exact h
  | cons a post ih =>
    obtain ⟨s₁, hstep, hrest⟩ := runM_cons_eq_some.mp hrun
    obtain ⟨ha, hpost⟩ := List.forall_mem_cons.mp hpost
    refine ih (paired_step hpaired hstep) (fun hloop p => ?_) hpost hrest
    rcases step_view hstep with hresched | ⟨fetched, rfl⟩ | ⟨hsame, hview, hfifo⟩
    · exact absurd (hloop.symm.trans hresched) Bool.noConfusion
    · obtain rfl := Option.some.inj hstep
      exact (execHardwareInterrupts_idle fetched hpaired p).1
    · obtain ⟨hirq, hlow, hempty⟩ := hfifo ha
      rw [hview.deliverable hirq hlow hempty]
      exact h (hsame ▸ hloop) p

/-- In every run: while the loop is not rescheduled no stored interrupt could be delivered, and since its
last turn none at all, if no write of `GXSTAT` came after it; and a turn wakes every processor that is
halted with an enabled interrupt pending. -/
theorem interrupts_prompt {adr fetched : Proc → Word} {acts : List IrqAct}
    (hrun : runM step (initial adr fetched) acts = some s') :
    (s'.reschedule = false → ∀ p, ¬ s'.StoredDeliverable p) ∧
      (∀ pre fetched' post, acts = pre ++ .execHardwareInterrupts fetched' :: post →
        (∀ a ∈ post, isGxstatWrite a = false) → s'.reschedule = false → ∀ p, ¬ s'.Deliverable p) ∧
      ∀ fetched' p, let served := s'.execHardwareInterrupts fetched'
        ¬ served.Deliverable p ∧ (served.genIF p &&& (served.port p).regIE ≠ 0 →
          (served.port p).cpu.waitIRQ = false) := by
  have hprompt {t : Interrupts} {acts : List IrqAct} (h : runM step (initial adr fetched) acts = some t) :
      t.Prompt := runM_invariant (fun _ _ _ h hs => prompt_step h hs) (prompt_initial adr fetched) h
  refine ⟨(hprompt hrun).stored, fun pre fetched' post heq hpost => ?_, fun fetched' p => ?_⟩
  · subst heq
    rw [runM_append] at hrun
    obtain ⟨t, ht, hrest⟩ := Option.bind_eq_some_iff.mp hrun
    obtain ⟨t', hstep, hlast⟩ := runM_cons_eq_some.mp hrest
    obtain rfl := Option.some.inj hstep
    have hidle := execHardwareInterrupts_idle fetched' (hprompt ht).paired
    exact quiet_run (fun p => (hidle p).2.1) (fun _ p => (hidle p).1) hpost hlast
  · obtain ⟨hidle, -, hwoken⟩ := execHardwareInterrupts_idle fetched' (hprompt hrun).paired p
    exact ⟨hidle, hwoken⟩

/-- An enabled interrupt is asked for, and the loop takes it. -/
theorem interrupts_prompt_enabled :
    ∃ s', runM step (initial (fun _ => 0) (fun _ => 0))
        [.writeIELong .arm9 1, .writeIME .arm9 1, .wait4IRQ .arm9, .setIF .arm9 1] = some s' ∧
      (((s'.execHardwareInterrupts fun _ => 0).genIF .arm9 &&&
          ((s'.execHardwareInterrupts fun _ => 0).port .arm9).regIE ≠ 0 →
        ((s'.execHardwareInterrupts fun _ => 0).port .arm9).cpu.waitIRQ = false)) := by
  exact ⟨_, rfl, ((@interrupts_prompt _ (fun _ => 0) (fun _ => 0)
    [.writeIELong .arm9 1, .writeIME .arm9 1, .wait4IRQ .arm9, .setIF .arm9 1] rfl).2.2
      (fun _ => 0) .arm9).2⟩

end Prompt

end Interrupts

end Desmume.Machine
