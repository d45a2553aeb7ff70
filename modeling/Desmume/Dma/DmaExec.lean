import Desmume.Dma.DmaDefs
import Mathlib.Tactic.SplitIfs
import Mathlib.Tactic.Ring

/-! What one event does to a channel in GXFIFO mode: it copies a chunk, stops or waits. -/

namespace Desmume.Dma
open Library

/-- The fields that no event changes. -/
structure DmaSetup where
  procnum : Proc
  chan : Fin 4
  irq : Bool
  repeatMode : Bool
  startmodeBits : BitVec 3
  bitWidth : EDMABitWidth
  sar : EDMASourceUpdate
  dar : EDMADestinationUpdate

def DmaController.setup (c : DmaController) : DmaSetup :=
  ⟨c.procnum, c.chan, c.irq, c.repeatMode, c.startmodeBits, c.bitWidth, c.sar, c.dar⟩

/-- The channel is the ARM9's and its control word selects the GXFIFO mode. -/
structure GxFifoMode (c : DmaController) : Prop where
  proc : c.procnum = .arm9
  bits : c.startmodeBits = 7
  running : c.running = true → c.startmode = .gxFifo

/-- A channel about to copy a chunk. -/
def DmaController.resume (c : DmaController) : DmaController :=
  { c with dmaCheck := false, startmode := .gxFifo, triggered := true, running := true,
           paused := false }

/-- What waiting changes in a channel. -/
structure Waits (c c' : DmaController) : Prop where
  setup : c'.setup = c.setup
  enable : c'.enable = c.enable
  running : c'.running = c.running
  wordcount : c'.wordcount = c.wordcount
  saddr : c'.saddr = c.saddr
  daddr : c'.daddr = c.daddr
  startmode : c'.running = true → c'.startmode = .gxFifo

section Setup

variable {c₀ c : DmaController} (h : c.setup = c₀.setup)
include h

theorem setup_sz : c.sz = c₀.sz := by
  rw [DmaController.sz, show c.bitWidth = c₀.bitWidth from congrArg DmaSetup.bitWidth h,
    ← DmaController.sz]

theorem setup_srcInc : c.srcInc = c₀.srcInc := by
  rw [DmaController.srcInc, show c.sar = c₀.sar from congrArg DmaSetup.sar h, setup_sz h,
    ← DmaController.srcInc]

theorem setup_dstInc : c.dstInc = c₀.dstInc := by
  rw [DmaController.dstInc, show c.dar = c₀.dar from congrArg DmaSetup.dar h, setup_sz h,
    ← DmaController.dstInc]

theorem setup_gxFifoMode (h₀ : GxFifoMode c₀) (hrun : c.running = true → c.startmode = .gxFifo) :
    GxFifoMode c :=
  ⟨(congrArg DmaSetup.procnum h).trans h₀.proc, (congrArg DmaSetup.startmodeBits h).trans h₀.bits,
    hrun⟩

end Setup

theorem tryTrigger_waits {c : DmaController} (h : GxFifoMode c) (mode : EDMAMode) :
    Waits c (c.tryTrigger mode) := by
  unfold DmaController.tryTrigger
  split_ifs <;> exact ⟨rfl, rfl, rfl, rfl, rfl, rfl, h.running⟩

theorem latchStartmode_gxFifo {c : DmaController} (h : GxFifoMode c) :
    c.latchStartmode = .gxFifo := by
  rw [DmaController.latchStartmode, h.proc, h.bits]
  rfl

theorem execEnabled_gxFifo {s : DmaState} (h : GxFifoMode s.dma) (env : DmaEnv) :
    execEnabled env s =
      if s.dma.enable then
        if s.dma.triggered || env.gxFifoSize ≤ 127 then
          doCopy env { s with dma := { s.dma with
            startmode := .gxFifo, triggered := true, running := true, paused := false } }
        else { s with dma := { s.dma with startmode := .gxFifo, triggered := false } }
      else s := by
  unfold execEnabled
  rw [latchStartmode_gxFifo h]
  simp only
  split_ifs with henable htrig
  · rw [htrig]
  · rw [Bool.eq_false_of_not_eq_true htrig]
  · rfl

/-- An event stops a channel with no words left, copies a chunk, or lets the channel wait; with
room in the FIFO an enabled channel does not wait. -/
theorem exec_cases {s : DmaState} (h : GxFifoMode s.dma) (env : DmaEnv) :
    (s.dma.running = true ∧ s.dma.wordcount = 0 ∧
      exec env s = doStop { s with dma := s.dma.clearCheck }) ∨
    (s.dma.enable = true ∧ (s.dma.running = true → s.dma.wordcount ≠ 0) ∧
      exec env s = doCopy env { s with dma := s.dma.resume }) ∨
    ((s.dma.enable = true → 127 < env.gxFifoSize) ∧ (s.dma.running = true → s.dma.wordcount ≠ 0) ∧
      ∃ c, exec env s = { s with dma := c } ∧ Waits s.dma c) := by
  have hclear : GxFifoMode s.dma.clearCheck := ⟨h.proc, h.bits, h.running⟩
  have hpause : GxFifoMode s.dma.clearCheck.doPause := ⟨h.proc, h.bits, h.running⟩
  by_cases hrun : s.dma.running = true
  · by_cases hzero : s.dma.wordcount = 0
    · refine .inl ⟨hrun, hzero, ?_⟩
      have hno : ¬ (s.dma.startmode = .gxFifo ∧ s.dma.wordcount > 0) := fun hpos => by
        rw [hzero] at hpos
        exact absurd hpos.2 (by decide)
      exact (if_pos hrun).trans (if_neg hno)
    · have hpos : s.dma.startmode = .gxFifo ∧ s.dma.wordcount > 0 :=
        ⟨h.running hrun, BitVec.lt_def.mpr (Nat.pos_of_ne_zero fun hz => hzero (BitVec.eq_of_toNat_eq hz))⟩
      have hexec : exec env s = execEnabled env { s with dma := s.dma.clearCheck.doPause } :=
        (if_pos hrun).trans (if_pos hpos)
      rw [hexec, execEnabled_gxFifo hpause]
      split_ifs with henable hlow
      · exact .inr (.inl ⟨henable, fun _ => hzero, rfl⟩)
      · have hfull : ¬ env.gxFifoSize ≤ 127 := fun hle => hlow (by simp [hle])
        exact .inr (.inr ⟨fun _ => Nat.lt_of_not_le hfull, fun _ => hzero, _, rfl,
          ⟨rfl, rfl, rfl, rfl, rfl, rfl, fun _ => rfl⟩⟩)
      · exact .inr (.inr ⟨fun he => absurd he henable, fun _ => hzero, _, rfl,
          ⟨rfl, rfl, rfl, rfl, rfl, rfl, h.running⟩⟩)
  · have hexec : exec env s = execEnabled env { s with dma := s.dma.clearCheck } := if_neg hrun
    rw [hexec, execEnabled_gxFifo hclear]
    split_ifs with henable hlow
    · exact .inr (.inl ⟨henable, fun hr => absurd hr hrun, rfl⟩)
    · have hfull : ¬ env.gxFifoSize ≤ 127 := fun hle => hlow (by simp [hle])
      exact .inr (.inr ⟨fun _ => Nat.lt_of_not_le hfull, fun hr => absurd hr hrun, _, rfl,
        ⟨rfl, rfl, rfl, rfl, rfl, rfl, fun _ => rfl⟩⟩)
    · exact .inr (.inr ⟨fun he => absurd he henable, fun hr => absurd hr hrun, _, rfl,
        ⟨rfl, rfl, rfl, rfl, rfl, rfl, h.running⟩⟩)

/-! The copy of a chunk. -/

/-- The words that go in one chunk. -/
def chunkWords (w : BitVec 32) : BitVec 32 := if w = 0 ∨ 112 < w then 112 else w

theorem chunkWords_le (w : BitVec 32) : (chunkWords w).toNat ≤ 112 := by
  unfold chunkWords
  split_ifs with h
  · decide
  · have hle := (not_or.mp h).2
    rw [BitVec.lt_def] at hle
    exact Nat.le_of_not_lt hle

theorem chunkWords_pos (w : BitVec 32) : 0 < (chunkWords w).toNat := by
  unfold chunkWords
  split_ifs with h
  · decide
  · have hne := (not_or.mp h).1
    exact Nat.pos_of_ne_zero fun hz => hne (BitVec.eq_of_toNat_eq hz)

theorem chunkWords_toNat {w : BitVec 32} (h : w ≠ 0) : (chunkWords w).toNat = min w.toNat 112 := by
  unfold chunkWords
  split_ifs with hbig
  · have hlt := hbig.resolve_left h
    rw [BitVec.lt_def] at hlt
    exact (Nat.min_eq_right (Nat.le_of_lt hlt)).symm
  · have hle := (not_or.mp hbig).2
    rw [BitVec.lt_def] at hle
    exact (Nat.min_eq_left (Nat.le_of_not_lt hle)).symm

/-- The counter of the loop is signed, a chunk is small. -/
theorem chunkWords_toInt (w : BitVec 32) : (chunkWords w).toInt.toNat = (chunkWords w).toNat := by
  have hle := chunkWords_le w
  rw [BitVec.toInt_eq_toNat_of_lt (by omega), Int.toNat_natCast]

theorem copyCount_gxFifo {c : DmaController} (hproc : c.procnum = .arm9)
    (hmode : c.startmode = .gxFifo) (env : DmaEnv) : c.copyCount env = chunkWords c.wordcount := by
  unfold DmaController.copyCount chunkWords
  simp only [hproc, hmode, true_and]
  by_cases hzero : c.wordcount = 0#32
  · simp [hzero]
  · simp [hzero]

/-- Where a chunk ends. -/
def chunkEnd (srcinc : BitVec 32) (c : DmaController) : BitVec 32 × BitVec 32 :=
  (advance srcinc c.dstInc)^[(chunkWords c.wordcount).toNat] (c.saddr, c.daddr)

/-- The channel after a chunk. -/
def DmaController.afterChunk (srcinc : BitVec 32) (c : DmaController) : DmaController :=
  c.resume.doSchedule.writeBack (chunkEnd srcinc c) (chunkWords c.wordcount)

/-- The words of a chunk. -/
def chunkTransfers (srcinc : BitVec 32) (c : DmaController) : List (BitVec 32 × BitVec 32) :=
  copyWords srcinc c.dstInc (c.saddr, c.daddr) (chunkWords c.wordcount).toNat

theorem doCopy_resume {s : DmaState} (h : GxFifoMode s.dma) {srcinc : BitVec 32}
    (hsrc : s.dma.srcInc = some srcinc) (env : DmaEnv) :
    doCopy env { s with dma := s.dma.resume } =
      { s with
        dma := s.dma.afterChunk srcinc
        transfers := s.transfers ++ chunkTransfers srcinc s.dma } := by
  have hcount : s.dma.resume.copyCount env = chunkWords s.dma.wordcount :=
    copyCount_gxFifo (c := s.dma.resume) h.proc rfl env
  have hsrc' : s.dma.resume.srcInc = some srcinc := (setup_srcInc rfl).trans hsrc
  have hmode : ¬ (s.dma.resume.startmode = .memDisplay ∧ env.vCount = 191) := fun hm => by
    cases hm.1
  unfold doCopy
  simp only [hcount, if_neg hmode, hsrc', chunkWords_toInt]
  rfl

theorem exec_low {s : DmaState} (h : GxFifoMode s.dma) {srcinc : BitVec 32}
    (hsrc : s.dma.srcInc = some srcinc) (henable : s.dma.enable = true)
    (hleft : s.dma.running = true → s.dma.wordcount ≠ 0) {env : DmaEnv}
    (hlow : env.gxFifoSize ≤ 127) :
    exec env s = { s with
      dma := s.dma.afterChunk srcinc
      transfers := s.transfers ++ chunkTransfers srcinc s.dma } := by
  rcases exec_cases h env with ⟨hrun, hzero, -⟩ | ⟨-, -, hexec⟩ | ⟨hfull, -⟩
  · exact absurd hzero (hleft hrun)
  · rw [hexec, doCopy_resume h hsrc]
  · exact absurd (hfull henable) (Nat.not_lt_of_le hlow)

end Desmume.Dma
