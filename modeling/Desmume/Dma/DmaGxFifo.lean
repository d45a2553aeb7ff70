import Desmume.Dma.DmaExec
import Mathlib.Data.BitVec

/-! GXFIFO transfers of the ARM9 in chunks of at most 112 words, compared with the copy of all
their words in one go. -/

namespace Desmume.Dma
open Library

/-- How many words a copy in one go moves. -/
def fullCount (w : BitVec 32) : ℕ := if w = 0 then 0x200000 else w.toNat

/-- All words of a transfer in one go. -/
def monolithicCopy (c : DmaController) : Option (List (BitVec 32 × BitVec 32)) :=
  c.srcInc.map fun srcinc => copyWords srcinc c.dstInc (c.saddr, c.daddr) (fullCount c.wordcount)

/-- The interrupts that a transfer owes at its end. -/
def endIrqs (c : DmaController) : List (Proc × ℕ) :=
  if c.irq then [(c.procnum, irqBitDma0 + c.chan)] else []

/-- Events at which the FIFO has room. -/
def isLowExec : DmaEvent → Bool
  | .exec env => env.gxFifoSize ≤ 127
  | .trigger _ => false

/-- The words of the run so far are the first of the copy in one go, and all of them, with nothing
left to count and the interrupt raised as requested, once the channel is off. -/
structure RunsAs (c : DmaController) (whole : List (BitVec 32 × BitVec 32)) (s : DmaState) :
    Prop where
  copied : s.transfers <+: whole
  early : s.dma.enable = true → s.irqs = []
  done : s.dma.enable = false →
    s.transfers = whole ∧ s.dma.wordcount = 0 ∧ s.irqs = endIrqs c

/-- Whatever the order of events, a transfer started in `c` behaves as the copy in one go, and the
channel is off after enough events with room in the FIFO. -/
def ChunkedAsMonolithic (c : DmaController) : Prop :=
  ∃ whole, monolithicCopy c = some whole ∧ ∀ es : List DmaEvent,
    RunsAs c whole (run dmaStep ⟨c, [], []⟩ es) ∧
      (whole.length / 112 + 2 ≤ es.countP isLowExec →
        (run dmaStep ⟨c, [], []⟩ es).dma.enable = false)

/-! Chunks of a copy. -/

section Copy

variable (srcinc dstinc : BitVec 32) (p : BitVec 32 × BitVec 32)

@[simp] theorem length_copyWords (n : ℕ) : (copyWords srcinc dstinc p n).length = n :=
  List.length_iterate _ _ _

theorem copyWords_add (m n : ℕ) :
    copyWords srcinc dstinc p (m + n) =
      copyWords srcinc dstinc p m ++ copyWords srcinc dstinc ((advance srcinc dstinc)^[m] p) n :=
  List.iterate_add _ _ _ _

theorem advance_iterate (n : ℕ) :
    (advance srcinc dstinc)^[n] p = (p.1 + n * srcinc, p.2 + n * dstinc) := by
  induction n generalizing p with
  | zero => simp
  | succ n ih =>
    rw [Function.iterate_succ_apply, ih]
    simp only [advance, Nat.cast_succ]
    refine Prod.ext ?_ ?_ <;> simp only <;> ring

end Copy

/-! The transfers that go well. -/

section Run

variable {c₀ : DmaController} {srcinc : BitVec 32} {whole : List (BitVec 32 × BitVec 32)}

/-- The words copied and those left are all words. -/
structure GxActive (c₀ : DmaController) (srcinc : BitVec 32)
    (whole : List (BitVec 32 × BitVec 32)) (s : DmaState) : Prop where
  setup : s.dma.setup = c₀.setup
  enable : s.dma.enable = true
  running : s.dma.running = true → s.dma.startmode = .gxFifo
  fresh : s.dma.running = false → s.dma.wordcount ≠ 0
  irqs : s.irqs = []
  left : s.transfers ++ copyWords srcinc c₀.dstInc (s.dma.saddr, s.dma.daddr)
    s.dma.wordcount.toNat = whole
  reload : c₀.dar = .incrementReload → s.dma.wordcount.toNat ≤ 112

structure GxDone (c₀ : DmaController) (whole : List (BitVec 32 × BitVec 32)) (s : DmaState) :
    Prop where
  setup : s.dma.setup = c₀.setup
  enable : s.dma.enable = false
  running : s.dma.running = false
  transfers : s.transfers = whole
  wordcount : s.dma.wordcount = 0
  irqs : s.irqs = endIrqs c₀

def GxInv (c₀ : DmaController) (srcinc : BitVec 32) (whole : List (BitVec 32 × BitVec 32))
    (s : DmaState) : Prop := GxActive c₀ srcinc whole s ∨ GxDone c₀ whole s

theorem GxInv.runsAs {s : DmaState} (h : GxInv c₀ srcinc whole s) : RunsAs c₀ whole s := by
  rcases h with h | h
  · exact ⟨⟨_, h.left⟩, fun _ => h.irqs, fun he => absurd (h.enable.symm.trans he) (by decide)⟩
  · exact ⟨h.transfers ▸ List.prefix_rfl, fun he => absurd (h.enable.symm.trans he) (by decide),
      fun _ => ⟨h.transfers, h.wordcount, h.irqs⟩⟩

theorem GxActive.waits {s : DmaState} (h : GxActive c₀ srcinc whole s) {c : DmaController}
    (hc : Waits s.dma c) : GxActive c₀ srcinc whole { s with dma := c } where
  setup := hc.setup.trans h.setup
  enable := hc.enable.trans h.enable
  running := hc.startmode
  fresh := fun hr => hc.wordcount ▸ h.fresh (hc.running ▸ hr)
  irqs := h.irqs
  left := by simpa only [hc.saddr, hc.daddr, hc.wordcount] using h.left
  reload := fun hd => hc.wordcount ▸ h.reload hd

theorem GxDone.waits {s : DmaState} (h : GxDone c₀ whole s) {c : DmaController}
    (hc : Waits s.dma c) : GxDone c₀ whole { s with dma := c } where
  setup := hc.setup.trans h.setup
  enable := hc.enable.trans h.enable
  running := hc.running.trans h.running
  transfers := h.transfers
  wordcount := hc.wordcount.trans h.wordcount
  irqs := h.irqs

theorem GxActive.stop {s : DmaState} (h : GxActive c₀ srcinc whole s)
    (hrepeat : c₀.repeatMode = false) (hzero : s.dma.wordcount = 0) :
    GxDone c₀ whole (doStop { s with dma := s.dma.clearCheck }) where
  setup := h.setup
  enable := by
    have hoff : s.dma.repeatMode = false := (congrArg DmaSetup.repeatMode h.setup).trans hrepeat
    show (s.dma.repeatMode && s.dma.enable) = false
    rw [hoff, Bool.false_and]
  running := rfl
  transfers := by
    have hleft := h.left
    rw [hzero] at hleft
    exact (List.append_nil _).symm.trans hleft
  wordcount := hzero
  irqs := by
    have hirq : s.dma.irq = c₀.irq := congrArg DmaSetup.irq h.setup
    have hproc : s.dma.procnum = c₀.procnum := congrArg DmaSetup.procnum h.setup
    have hchan : s.dma.chan = c₀.chan := congrArg DmaSetup.chan h.setup
    rw [endIrqs, ← hirq, ← hproc, ← hchan]
    simp only [doStop, h.irqs, List.nil_append]
    rfl

theorem afterChunk_sub (srcinc : BitVec 32) {c : DmaController} (hrepeat : c.repeatMode = false) :
    (c.afterChunk srcinc).wordcount = c.wordcount - chunkWords c.wordcount := by
  show (if c.repeatMode = true then _ else _) = _
  rw [hrepeat]
  rfl

theorem afterChunk_wordcount (srcinc : BitVec 32) {c : DmaController} (hrepeat : c.repeatMode = false)
    (hw : c.wordcount ≠ 0) :
    (c.afterChunk srcinc).wordcount.toNat = c.wordcount.toNat - (chunkWords c.wordcount).toNat := by
  have hle : (chunkWords c.wordcount).toNat ≤ c.wordcount.toNat := by
    rw [chunkWords_toNat hw]
    exact Nat.min_le_left _ _
  rw [afterChunk_sub srcinc hrepeat, BitVec.toNat_sub_of_le (BitVec.le_def.mpr hle)]

theorem GxActive.chunk {s : DmaState} (h : GxActive c₀ srcinc whole s)
    (hrepeat : c₀.repeatMode = false) (hw : s.dma.wordcount ≠ 0) :
    GxActive c₀ srcinc whole { s with
      dma := s.dma.afterChunk srcinc
      transfers := s.transfers ++ chunkTransfers srcinc s.dma } := by
  have hcount := afterChunk_wordcount srcinc
    ((congrArg DmaSetup.repeatMode h.setup).trans hrepeat) hw
  have hsplit : s.dma.wordcount.toNat =
      (chunkWords s.dma.wordcount).toNat + (s.dma.afterChunk srcinc).wordcount.toNat := by
    have hmin := chunkWords_toNat hw
    omega
  refine ⟨h.setup, h.enable, fun _ => rfl, fun hr => ?_, h.irqs, ?_, fun hd => ?_⟩
  · cases hr
  · have hleft := h.left
    rw [hsplit, copyWords_add, ← List.append_assoc] at hleft
    rw [chunkTransfers, setup_dstInc h.setup, ← hleft]
    congr 1
    by_cases hd : s.dma.dar = .incrementReload
    · -- the target is not written back, but this was the last chunk
      have hlast : (s.dma.afterChunk srcinc).wordcount.toNat = 0 := by
        have hle := h.reload ((congrArg DmaSetup.dar h.setup).symm.trans hd)
        have hmin := chunkWords_toNat hw
        omega
      rw [hlast]
      rfl
    · have hend : ((s.dma.afterChunk srcinc).saddr, (s.dma.afterChunk srcinc).daddr) =
          chunkEnd srcinc s.dma :=
        Prod.ext rfl (if_neg hd)
      rw [hend, chunkEnd, setup_dstInc h.setup]
  · exact hcount ▸ (Nat.sub_le _ _).trans (h.reload hd)

/-- The chunks that are still to come, and the stop. -/
def chunksLeft (s : DmaState) : ℕ :=
  if s.dma.enable then (s.dma.wordcount.toNat + 111) / 112 + 1 else 0

theorem chunksLeft_waits {s : DmaState} {c : DmaController} (hc : Waits s.dma c) :
    chunksLeft { s with dma := c } = chunksLeft s := by
  rw [chunksLeft, chunksLeft, hc.enable, hc.wordcount]

theorem GxActive.mode {s : DmaState} (h : GxActive c₀ srcinc whole s) (h₀ : GxFifoMode c₀) :
    GxFifoMode s.dma := setup_gxFifoMode h.setup h₀ h.running

theorem GxActive.exec {s : DmaState} (h : GxActive c₀ srcinc whole s) (h₀ : GxFifoMode c₀)
    (hsrc : c₀.srcInc = some srcinc) (hrepeat : c₀.repeatMode = false) (env : DmaEnv) :
    GxInv c₀ srcinc whole (exec env s) ∧
      chunksLeft (exec env s) ≤ chunksLeft s - if isLowExec (.exec env) then 1 else 0 := by
  have hbefore : chunksLeft s = (s.dma.wordcount.toNat + 111) / 112 + 1 := if_pos h.enable
  rcases exec_cases (h.mode h₀) env with ⟨-, hzero, hexec⟩ | ⟨-, hrun, hexec⟩ | ⟨hfull, -, c, hexec, hc⟩
  · have hdone := h.stop hrepeat hzero
    rw [hexec]
    refine ⟨.inr hdone, ?_⟩
    rw [chunksLeft, hdone.enable]
    exact Nat.zero_le _
  · have hw : s.dma.wordcount ≠ 0 := by
      cases hr : s.dma.running with
      | false => exact h.fresh hr
      | true => exact hrun hr
    have hactive := h.chunk hrepeat hw
    rw [hexec, doCopy_resume (h.mode h₀) ((setup_srcInc h.setup).trans hsrc)]
    refine ⟨.inl hactive, ?_⟩
    have hcount := afterChunk_wordcount srcinc
      ((congrArg DmaSetup.repeatMode h.setup).trans hrepeat) hw
    have hmin := chunkWords_toNat hw
    have hpos := chunkWords_pos s.dma.wordcount
    rw [chunksLeft, hactive.enable, if_pos rfl, hbefore]
    simp only [hcount]
    split_ifs <;> omega
  · have hlow : isLowExec (.exec env) = false :=
      decide_eq_false (Nat.not_le_of_lt (hfull h.enable))
    rw [hexec, hlow]
    exact ⟨.inl (h.waits hc), (chunksLeft_waits hc).le⟩

theorem GxDone.exec {s : DmaState} (h : GxDone c₀ whole s) (env : DmaEnv) :
    GxDone c₀ whole (exec env s) := by
  have hexec : Dma.exec env s = { s with dma := s.dma.clearCheck } := by
    have hrun : ¬ s.dma.clearCheck.running = true := by simp [DmaController.clearCheck, h.running]
    have henable : ¬ s.dma.clearCheck.enable = true := by
      simp [DmaController.clearCheck, h.enable]
    exact (if_neg hrun).trans (if_neg henable)
  rw [hexec]
  exact ⟨h.setup, h.enable, h.running, h.transfers, h.wordcount, h.irqs⟩

theorem dmaStep_gxInv {s : DmaState} (h₀ : GxFifoMode c₀) (hsrc : c₀.srcInc = some srcinc)
    (hrepeat : c₀.repeatMode = false) (e : DmaEvent) (h : GxInv c₀ srcinc whole s) :
    GxInv c₀ srcinc whole (dmaStep s e) ∧
      chunksLeft (dmaStep s e) ≤ chunksLeft s - if isLowExec e then 1 else 0 := by
  rcases h with h | h
  · cases e with
    | exec env => exact h.exec h₀ hsrc hrepeat env
    | trigger mode =>
      have hwaits := tryTrigger_waits (h.mode h₀) mode
      exact ⟨.inl (h.waits hwaits), (chunksLeft_waits hwaits).le⟩
  · have hdone : GxDone c₀ whole (dmaStep s e) := by
      cases e with
      | exec env => exact h.exec env
      | trigger mode =>
        have hoff (hr : s.dma.running = true) : s.dma.startmode = .gxFifo :=
          absurd (hr.symm.trans h.running) (by decide)
        exact h.waits (tryTrigger_waits (setup_gxFifoMode h.setup h₀ hoff) mode)
    refine ⟨.inr hdone, ?_⟩
    rw [chunksLeft, hdone.enable]
    exact Nat.zero_le _

theorem chunkedAsMonolithic_of_words (h₀ : GxFifoMode c₀) (henable : c₀.enable = true)
    (hsrc : c₀.srcInc = some srcinc)
    (hrepeat : c₀.repeatMode = false) (hw : c₀.wordcount ≠ 0)
    (hreload : c₀.dar = .incrementReload → c₀.wordcount.toNat ≤ 112) :
    ChunkedAsMonolithic c₀ := by
  have hfull : fullCount c₀.wordcount = c₀.wordcount.toNat := if_neg hw
  refine ⟨_, by rw [monolithicCopy, hsrc, Option.map_some], fun es => ?_⟩
  have hstart : GxInv c₀ srcinc
      (copyWords srcinc c₀.dstInc (c₀.saddr, c₀.daddr) (fullCount c₀.wordcount)) ⟨c₀, [], []⟩ :=
    .inl ⟨rfl, henable, h₀.running, fun _ => hw, rfl, by rw [hfull]; rfl, hreload⟩
  have hstep (s : DmaState) (e : DmaEvent) (hs : GxInv c₀ srcinc
      (copyWords srcinc c₀.dstInc (c₀.saddr, c₀.daddr) (fullCount c₀.wordcount)) s) :=
    dmaStep_gxInv h₀ hsrc hrepeat e hs
  have hinv := run_invariant (fun s e hs => (hstep s e hs).1) hstart es
  refine ⟨hinv.runsAs, fun hcount => ?_⟩
  have hleft := run_countP_le (fun s e hs => (hstep s e hs).1) (fun s e hs => (hstep s e hs).2)
    hstart es
  by_contra hon
  rw [chunksLeft, if_pos (Bool.eq_true_of_not_eq_false hon), chunksLeft, if_pos henable] at hleft
  rw [length_copyWords, hfull] at hcount
  simp only at hleft
  omega

end Run

/-! The transfers that go wrong. -/

section Defects

variable {c₀ : DmaController} {srcinc : BitVec 32}

def lowEnv : DmaEnv := ⟨0, 0, 0⟩

theorem low_lowEnv : lowEnv.gxFifoSize ≤ 127 := by decide

/-- The channel after some events that all find the FIFO empty. -/
def lowRun (c₀ : DmaController) (k : ℕ) : DmaState :=
  run dmaStep ⟨c₀, [], []⟩ (List.replicate k (.exec lowEnv))

theorem lowRun_succ (c₀ : DmaController) (k : ℕ) :
    lowRun c₀ (k + 1) = exec lowEnv (lowRun c₀ k) := by
  rw [lowRun, List.replicate_succ', run_concat]
  rfl

theorem ne_zero_of_toNat_pos {w : BitVec 32} (h : 0 < w.toNat) : w ≠ 0 := by
  rintro rfl
  exact absurd h (by decide)

theorem not_chunkedAsMonolithic_of_on
    (h : ∀ whole, monolithicCopy c₀ = some whole →
      (lowRun c₀ (whole.length / 112 + 2)).dma.enable = true) : ¬ ChunkedAsMonolithic c₀ := by
  rintro ⟨whole, hwhole, hruns⟩
  have hlow : whole.length / 112 + 2 ≤
      (List.replicate (whole.length / 112 + 2) (DmaEvent.exec lowEnv)).countP isLowExec := by
    rw [List.countP_replicate]
    exact Nat.le_refl _
  have hoff := (hruns _).2 hlow
  rw [← lowRun, h whole hwhole] at hoff
  cases hoff

theorem monolithicCopy_eq_some {whole : List (BitVec 32 × BitVec 32)}
    (h : monolithicCopy c₀ = some whole) :
    ∃ srcinc, c₀.srcInc = some srcinc ∧
      whole = copyWords srcinc c₀.dstInc (c₀.saddr, c₀.daddr) (fullCount c₀.wordcount) := by
  obtain ⟨srcinc, hsrc, rfl⟩ := Option.map_eq_some_iff.mp h
  exact ⟨srcinc, hsrc, rfl⟩

/-- A channel that goes on in the GXFIFO mode it was programmed for. -/
structure GxOn (c₀ : DmaController) (s : DmaState) : Prop where
  setup : s.dma.setup = c₀.setup
  enable : s.dma.enable = true
  running : s.dma.running = true → s.dma.startmode = .gxFifo

theorem GxOn.mode {s : DmaState} (h : GxOn c₀ s) (h₀ : GxFifoMode c₀) : GxFifoMode s.dma :=
  setup_gxFifoMode h.setup h₀ h.running

theorem GxOn.chunk {s : DmaState} (h : GxOn c₀ s) (h₀ : GxFifoMode c₀)
    (hsrc : c₀.srcInc = some srcinc) (hleft : s.dma.running = true → s.dma.wordcount ≠ 0) :
    exec lowEnv s = { s with
      dma := s.dma.afterChunk srcinc
      transfers := s.transfers ++ chunkTransfers srcinc s.dma } :=
  exec_low (h.mode h₀) ((setup_srcInc h.setup).trans hsrc) h.enable hleft low_lowEnv

theorem GxOn.afterChunk {s : DmaState} (h : GxOn c₀ s) (ts : List (BitVec 32 × BitVec 32)) :
    GxOn c₀ { s with dma := s.dma.afterChunk srcinc, transfers := ts } :=
  ⟨h.setup, h.enable, fun _ => rfl⟩

theorem GxOn.exec_repeat {s : DmaState} (h : GxOn c₀ s) (h₀ : GxFifoMode c₀)
    (hsrc : c₀.srcInc = some srcinc) (hrepeat : c₀.repeatMode = true) :
    GxOn c₀ (exec lowEnv s) := by
  by_cases hstop : s.dma.running = true ∧ s.dma.wordcount = 0
  · rcases exec_cases (h.mode h₀) lowEnv with ⟨-, -, hexec⟩ | ⟨-, hleft, -⟩ | ⟨-, hleft, -⟩
    · have hkeep : s.dma.repeatMode = true := (congrArg DmaSetup.repeatMode h.setup).trans hrepeat
      rw [hexec]
      refine ⟨h.setup, ?_, fun hr => by cases hr⟩
      show (s.dma.repeatMode && s.dma.enable) = true
      rw [hkeep, h.enable, Bool.true_and]
    · exact absurd hstop.2 (hleft hstop.1)
    · exact absurd hstop.2 (hleft hstop.1)
  · rw [h.chunk h₀ hsrc fun hr hz => hstop ⟨hr, hz⟩]
    exact h.afterChunk _

theorem lowRun_repeat (h₀ : GxFifoMode c₀) (henable : c₀.enable = true)
    (hsrc : c₀.srcInc = some srcinc) (hrepeat : c₀.repeatMode = true) (k : ℕ) :
    GxOn c₀ (lowRun c₀ k) := by
  induction k with
  | zero => exact ⟨rfl, henable, h₀.running⟩
  | succ k ih =>
    rw [lowRun_succ]
    exact ih.exec_repeat h₀ hsrc hrepeat

theorem not_chunkedAsMonolithic_of_repeat (h₀ : GxFifoMode c₀) (henable : c₀.enable = true)
    (hrepeat : c₀.repeatMode = true) : ¬ ChunkedAsMonolithic c₀ :=
  not_chunkedAsMonolithic_of_on fun whole hwhole => by
    obtain ⟨srcinc, hsrc, -⟩ := monolithicCopy_eq_some hwhole
    exact (lowRun_repeat h₀ henable hsrc hrepeat _).enable

theorem GxOn.exec_count {s : DmaState} (h : GxOn c₀ s) (h₀ : GxFifoMode c₀)
    (hsrc : c₀.srcInc = some srcinc) (hrepeat : c₀.repeatMode = false)
    (hbig : 112 < s.dma.wordcount.toNat) :
    GxOn c₀ (exec lowEnv s) ∧
      (exec lowEnv s).dma.wordcount.toNat = s.dma.wordcount.toNat - 112 := by
  have hne : s.dma.wordcount ≠ 0 := ne_zero_of_toNat_pos (by omega)
  rw [h.chunk h₀ hsrc fun _ => hne]
  refine ⟨h.afterChunk _, ?_⟩
  have hcount := afterChunk_wordcount srcinc
    ((congrArg DmaSetup.repeatMode h.setup).trans hrepeat) hne
  rw [chunkWords_toNat hne, Nat.min_eq_right (by omega)] at hcount
  exact hcount

/-- From a count of 0 the counter wraps and runs down from 2^32. -/
theorem lowRun_zero (h₀ : GxFifoMode c₀) (henable : c₀.enable = true)
    (hrun : c₀.running = false) (hsrc : c₀.srcInc = some srcinc)
    (hrepeat : c₀.repeatMode = false) (hw : c₀.wordcount = 0) {k : ℕ}
    (hk : 112 * (k + 1) < 2 ^ 32) :
    GxOn c₀ (lowRun c₀ (k + 1)) ∧
      (lowRun c₀ (k + 1)).dma.wordcount.toNat = 2 ^ 32 - 112 * (k + 1) := by
  induction k with
  | zero =>
    have hon : GxOn c₀ ⟨c₀, [], []⟩ := ⟨rfl, henable, h₀.running⟩
    have hfirst := hon.chunk h₀ hsrc fun hr => absurd (hr.symm.trans hrun) (by decide)
    rw [show lowRun c₀ 1 = exec lowEnv ⟨c₀, [], []⟩ from rfl, hfirst]
    refine ⟨hon.afterChunk _, ?_⟩
    simp only [afterChunk_sub srcinc hrepeat, hw]
    decide
  | succ k ih =>
    obtain ⟨hon, hcount⟩ := ih (by omega)
    obtain ⟨hon', hcount'⟩ := hon.exec_count h₀ hsrc hrepeat (by omega)
    rw [lowRun_succ]
    exact ⟨hon', by omega⟩

theorem not_chunkedAsMonolithic_of_zero (h₀ : GxFifoMode c₀) (henable : c₀.enable = true)
    (hrun : c₀.running = false) (hrepeat : c₀.repeatMode = false) (hw : c₀.wordcount = 0) :
    ¬ ChunkedAsMonolithic c₀ :=
  not_chunkedAsMonolithic_of_on fun whole hwhole => by
    obtain ⟨srcinc, hsrc, rfl⟩ := monolithicCopy_eq_some hwhole
    have hk : fullCount 0 / 112 + 2 = 18725 + 1 := by decide
    rw [length_copyWords, hw, hk]
    exact (lowRun_zero h₀ henable hrun hsrc hrepeat hw (by decide)).1.enable

/-- Two chunks of a transfer that reloads its target start at the same target. -/
theorem not_chunkedAsMonolithic_of_reload (h₀ : GxFifoMode c₀) (henable : c₀.enable = true)
    (hrepeat : c₀.repeatMode = false) (hw : 112 < c₀.wordcount.toNat)
    (hdar : c₀.dar = .incrementReload) : ¬ ChunkedAsMonolithic c₀ := by
  rintro ⟨whole, hwhole, hruns⟩
  obtain ⟨srcinc, hsrc, rfl⟩ := monolithicCopy_eq_some hwhole
  have hne : c₀.wordcount ≠ 0 := ne_zero_of_toNat_pos (by omega)
  have hchunk : (chunkWords c₀.wordcount).toNat = 112 := by
    rw [chunkWords_toNat hne]
    omega
  have hleft := afterChunk_wordcount srcinc hrepeat hne
  have hne' : (c₀.afterChunk srcinc).wordcount ≠ 0 := ne_zero_of_toNat_pos (by omega)
  have hon : GxOn c₀ ⟨c₀, [], []⟩ := ⟨rfl, henable, h₀.running⟩
  have hfirst := hon.chunk h₀ hsrc fun _ => hne
  have hsecond := (hon.afterChunk (chunkTransfers srcinc c₀)).chunk h₀ hsrc fun _ => hne'
  have hcopied := (hruns [.exec lowEnv, .exec lowEnv]).1.copied
  have htransfers : (run dmaStep ⟨c₀, [], []⟩ [.exec lowEnv, .exec lowEnv]).transfers =
      chunkTransfers srcinc c₀ ++ chunkTransfers srcinc (c₀.afterChunk srcinc) := by
    show (exec lowEnv (exec lowEnv ⟨c₀, [], []⟩)).transfers = _
    rw [hfirst, List.nil_append, hsecond]
  have hfull : fullCount c₀.wordcount = 112 + (c₀.wordcount.toNat - 112) := by
    rw [fullCount, if_neg hne]
    omega
  rw [htransfers, hfull, copyWords_add, chunkTransfers, hchunk, List.prefix_append_right_inj] at hcopied
  obtain ⟨m, hm⟩ := Nat.exists_eq_succ_of_ne_zero (chunkWords_pos (c₀.afterChunk srcinc).wordcount).ne'
  obtain ⟨n, hn⟩ := Nat.exists_eq_succ_of_ne_zero (show c₀.wordcount.toNat - 112 ≠ 0 by omega)
  rw [chunkTransfers, hm, hn] at hcopied
  have htarget := congrArg Prod.snd (List.cons_prefix_cons.mp hcopied).1
  rw [advance_iterate] at htarget
  have hkept : (c₀.afterChunk srcinc).daddr = c₀.daddr := if_pos hdar
  have hinc : c₀.dstInc = c₀.sz := by rw [DmaController.dstInc, hdar]
  simp only [hkept, hinc, DmaController.sz] at htarget
  split_ifs at htarget
  · exact absurd (left_eq_add.mp htarget) (by decide)
  · exact absurd (left_eq_add.mp htarget) (by decide)

theorem not_chunkedAsMonolithic_of_invalid (hsar : c₀.sar = .invalid) :
    ¬ ChunkedAsMonolithic c₀ := by
  rintro ⟨whole, hwhole, -⟩
  obtain ⟨srcinc, hsrc, -⟩ := monolithicCopy_eq_some hwhole
  rw [DmaController.srcInc, hsar] at hsrc
  cases hsrc

end Defects

/-! Programming a transfer. -/

section Control

variable (c : DmaController) (val : BitVec 32)

/-- Of the fields of the control word only the trigger, the addresses and the check depend on the
state before. -/
theorem write32_eq : ∃ triggered saddr daddr dmaCheck, c.write32 val =
    { c.setControl val with
      triggered := triggered, saddr := saddr, daddr := daddr, dmaCheck := dmaCheck } := by
  dsimp only [DmaController.write32]
  split_ifs <;> exact ⟨_, _, _, _, rfl⟩

theorem write32_setup : (c.write32 val).setup = (c.setControl val).setup := by
  obtain ⟨_, _, _, _, h⟩ := write32_eq c val
  rw [h]
  rfl

theorem write32_wordcount : (c.write32 val).wordcount = val &&& 0x1FFFFF := by
  obtain ⟨_, _, _, _, h⟩ := write32_eq c val
  rw [h]
  rfl

theorem write32_enable : (c.write32 val).enable = val.getLsbD 31 := by
  obtain ⟨_, _, _, _, h⟩ := write32_eq c val
  rw [h]
  rfl

theorem write32_running : (c.write32 val).running = c.running := by
  obtain ⟨_, _, _, _, h⟩ := write32_eq c val
  rw [h]
  rfl

end Control

theorem srcInc_of_ne_invalid {c : DmaController} (h : c.sar ≠ .invalid) :
    ∃ srcinc, c.srcInc = some srcinc := by
  unfold DmaController.srcInc
  cases hsar : c.sar with
  | increment => exact ⟨_, rfl⟩
  | decrement => exact ⟨_, rfl⟩
  | fixed => exact ⟨_, rfl⟩
  | invalid => exact absurd hsar h

theorem edmaSourceUpdates_invalid (i : Fin 4) : edmaSourceUpdates i = .invalid ↔ i = 3 := by
  revert i
  decide

theorem edmaDestinationUpdates_reload (i : Fin 4) :
    edmaDestinationUpdates i = .incrementReload ↔ i = 3 := by
  revert i
  decide

/-- A GXFIFO transfer programmed into an idle channel of the ARM9 is the copy in one go exactly
when its count is not 0, it neither repeats nor has the invalid source mode, and it does not reload
its target or fits in one chunk. -/
theorem gxFifoDma_iff {c : DmaController} {val : BitVec 32} (hproc : c.procnum = .arm9)
    (hidle : c.running = false) (henable : val.getLsbD 31 = true)
    (hmode : val.extractLsb' 27 3 = 7) :
    ChunkedAsMonolithic (c.write32 val) ↔
      val &&& 0x1FFFFF ≠ 0 ∧ val.getLsbD 25 = false ∧ (val.extractLsb' 23 2).toFin ≠ 3 ∧
        ((val.extractLsb' 21 2).toFin = 3 → (val &&& 0x1FFFFF).toNat ≤ 112) := by
  have hsetup := write32_setup c val
  have hcount := write32_wordcount c val
  have hon := (write32_enable c val).trans henable
  have hrun := (write32_running c val).trans hidle
  have hrepeat : (c.write32 val).repeatMode = val.getLsbD 25 := congrArg DmaSetup.repeatMode hsetup
  have hsar : (c.write32 val).sar = edmaSourceUpdates (val.extractLsb' 23 2).toFin :=
    congrArg DmaSetup.sar hsetup
  have hdar : (c.write32 val).dar = edmaDestinationUpdates (val.extractLsb' 21 2).toFin :=
    congrArg DmaSetup.dar hsetup
  have hgx : GxFifoMode (c.write32 val) := by
    refine ⟨(congrArg DmaSetup.procnum hsetup).trans hproc, ?_, fun hr => ?_⟩
    · refine (congrArg DmaSetup.startmodeBits hsetup).trans ?_
      show (if c.procnum = .arm7 then _ else val.extractLsb' 27 3) = 7
      rw [hproc, hmode]
      rfl
    · exact absurd (hr.symm.trans hrun) (by decide)
  rw [← hcount]
  constructor
  · intro hgood
    have hone : (c.write32 val).repeatMode = false :=
      Bool.eq_false_of_not_eq_true fun h => not_chunkedAsMonolithic_of_repeat hgx hon h hgood
    refine ⟨fun hz => not_chunkedAsMonolithic_of_zero hgx hon hrun hone hz hgood,
      hrepeat.symm.trans hone, fun hs => ?_, fun hd => ?_⟩
    · exact not_chunkedAsMonolithic_of_invalid
        (hsar.trans ((edmaSourceUpdates_invalid _).mpr hs)) hgood
    · by_contra hbig
      exact not_chunkedAsMonolithic_of_reload hgx hon hone (Nat.lt_of_not_le hbig)
        (hdar.trans ((edmaDestinationUpdates_reload _).mpr hd)) hgood
  · rintro ⟨hw, hone, hs, hd⟩
    obtain ⟨srcinc, hsrc⟩ := srcInc_of_ne_invalid fun hinvalid =>
      hs ((edmaSourceUpdates_invalid _).mp (hsar.symm.trans hinvalid))
    exact chunkedAsMonolithic_of_words hgx hon hsrc (hrepeat.trans hone) hw fun hreload =>
      hd ((edmaDestinationUpdates_reload _).mp (hdar.symm.trans hreload))

/-- Channel 3 of the ARM9, with the FIFO as its target. -/
def idleChannel : DmaController where
  procnum := .arm9
  chan := 3
  enable := false
  irq := false
  repeatMode := false
  startmodeBits := 0
  wordcount := 0
  startmode := .immediate
  bitWidth := .bits16
  sar := .increment
  dar := .increment
  saddr := 0
  daddr := 0
  saddrUser := 0x02000000
  daddrUser := 0x04000400
  dmaCheck := false
  running := false
  paused := false
  triggered := false

/-- A display list of 200 words with an interrupt at its end. -/
theorem gxFifoDma_sample : ChunkedAsMonolithic (idleChannel.write32 0xFC4000C8) :=
  (gxFifoDma_iff rfl rfl rfl rfl).mpr ⟨by decide, rfl, by decide, by decide⟩

/-- After the first chunk of a transfer of the maximum count almost 2^32 words are left to count;
and a transfer of 113 words that reloads its target writes its last word to its first target. -/
theorem gxFifoDma_wraps :
    ((exec lowEnv ⟨idleChannel.write32 0xBC400000, [], []⟩).dma.wordcount = 0xFFFFFF90 ∧
      ¬ ChunkedAsMonolithic (idleChannel.write32 0xBC400000)) ∧
    (exec lowEnv (exec lowEnv ⟨idleChannel.write32 0xBC600071, [], []⟩)).transfers[112]? =
        some (0x020001C0, 0x04000400) ∧
      ¬ ChunkedAsMonolithic (idleChannel.write32 0xBC600071) := by
  have hzero : GxFifoMode (idleChannel.write32 0xBC400000) := ⟨rfl, rfl, by decide⟩
  have hreload : GxFifoMode (idleChannel.write32 0xBC600071) := ⟨rfl, rfl, by decide⟩
  refine ⟨⟨rfl, not_chunkedAsMonolithic_of_zero hzero rfl rfl rfl rfl⟩, by decide +kernel, ?_⟩
  exact not_chunkedAsMonolithic_of_reload hreload rfl rfl (by decide) rfl

end Desmume.Dma
