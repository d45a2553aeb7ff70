import Desmume.Dma.DmaExec
import Desmume.Library.BitFields

/-! The control register of a channel as it is read back. Events change the enable bit and the
count alone, and the count stays in its field as long as no copy takes more than it holds. -/

namespace Desmume.Dma
open Library

def EDMABitWidth.code : EDMABitWidth → BitVec 1
  | .bits16 => 0
  | .bits32 => 1

def EDMASourceUpdate.code : EDMASourceUpdate → BitVec 2
  | .increment => 0
  | .decrement => 1
  | .fixed => 2
  | .invalid => 3

def EDMADestinationUpdate.code : EDMADestinationUpdate → BitVec 2
  | .increment => 0
  | .decrement => 1
  | .fixed => 2
  | .incrementReload => 3

namespace DmaController

variable (c : DmaController)

/-- The values that `read32` puts together, in its order. -/
def controlFields : List (BitVec 32) :=
  [placed 32 (BitVec.ofBool c.enable) 31, placed 32 (BitVec.ofBool c.irq) 30,
    placed 32 c.startmodeBits 27, placed 32 c.bitWidth.code 26,
    placed 32 (BitVec.ofBool c.repeatMode) 25, placed 32 c.sar.code 23, placed 32 c.dar.code 21,
    c.wordcount]

/-- `DmaController::read32`. -/
def read32 : BitVec 32 := c.controlFields.foldl (· ||| ·) 0

/-- The channel that the constructor leaves. -/
def initial (procnum : Proc) (chan : Fin 4) : DmaController where
  procnum := procnum
  chan := chan
  enable := false
  irq := false
  repeatMode := false
  startmodeBits := 0
  wordcount := 0
  startmode := .immediate
  bitWidth := .bits16
  sar := .increment
  dar := .increment
  saddr := 0
  daddr := 0
  saddrUser := 0
  daddrUser := 0
  dmaCheck := false
  running := false
  paused := false
  triggered := false

end DmaController

/-- The calls on a channel. The address registers are written apart from the control register. -/
inductive DmaCall where
  | address (saddr daddr : BitVec 32)
  | write32 (val : BitVec 32)
  | tryTrigger (mode : EDMAMode)
  | exec (env : DmaEnv)

/-- A channel with the control word last written and the number of words it had moved then. -/
structure DmaHistory where
  state : DmaState
  written : BitVec 32
  before : ℕ

def DmaHistory.initial (procnum : Proc) (chan : Fin 4) : DmaHistory :=
  ⟨⟨.initial procnum chan, [], []⟩, 0, 0⟩

def dmaCall (h : DmaHistory) : DmaCall → DmaHistory
  | .address saddr daddr =>
    { h with state := { h.state with
        dma := { h.state.dma with saddrUser := saddr, daddrUser := daddr } } }
  | .write32 val =>
    ⟨{ h.state with dma := h.state.dma.write32 val }, val, h.state.transfers.length⟩
  | .tryTrigger mode => { h with state := dmaStep h.state (.trigger mode) }
  | .exec env => { h with state := exec env h.state }

/-- The words moved since the control word was written. -/
def DmaHistory.moved (h : DmaHistory) : ℕ := h.state.transfers.length - h.before

/-- What the moved words leave of a written count: all of it in a repeating mode, all or nothing
of it in card mode. -/
def CountLeft (h : DmaHistory) (n : ℕ) : Prop :=
  let count := (h.written.extractLsb' 0 21).toNat
  if h.written.getLsbD 25 then n = count
  else if h.state.dma.latchStartmode = .card then n = count ∨ n = 0
  else h.moved ≤ count ∧ n = count - h.moved

/-- The register reads as the word last written, apart from the enable bit, the count and, on the
ARM7, the bit that its start modes do not have. -/
structure ReadsBack (h : DmaHistory) : Prop where
  count_lt : h.state.dma.wordcount.toNat < 2 ^ 21
  disjoint : h.state.dma.controlFields.Pairwise fun x y => x &&& y = 0
  flags : ∀ i, 21 ≤ i → i < 31 → (h.state.dma.procnum = .arm7 → i ≠ 27) →
    h.state.dma.read32.getLsbD i = h.written.getLsbD i
  arm7 : h.state.dma.procnum = .arm7 → h.state.dma.read32.getLsbD 27 = false
  enable : h.state.dma.read32.getLsbD 31 = h.state.dma.enable
  count : CountLeft h (h.state.dma.read32.extractLsb' 0 21).toNat

/-- Whether the latched mode counts as triggered. -/
def DmaController.fires (env : DmaEnv) (c : DmaController) : Bool :=
  match c.latchStartmode with
  | .immediate => true
  | .gxFifo => c.triggered || env.gxFifoSize ≤ 127
  | _ => c.triggered

def DmaController.goes (env : DmaEnv) (c : DmaController) : Bool := c.enable && c.fires env

/-- Whether an event copies: one that finds the channel running does so only when words are left
for the FIFO. -/
def DmaController.willCopy (env : DmaEnv) (c : DmaController) : Bool :=
  if c.running then c.startmode = .gxFifo && c.wordcount > 0 && c.doPause.goes env
  else c.goes env

/-- A copy that counts down takes no more than the count holds. -/
def Fits (env : DmaEnv) (c : DmaController) : Prop :=
  c.willCopy env = true → c.sar ≠ .invalid → c.repeatMode = false → c.latchStartmode ≠ .card →
    (c.procnum = .arm9 → c.wordcount ≠ 0) ∧
      (c.latchStartmode = .memDisplay → 128 ≤ c.wordcount.toNat)

def CallFits (h : DmaHistory) : DmaCall → Prop
  | .exec env => Fits env h.state.dma
  | _ => True

/-! ### The events -/

/-- The words moved and their count stay as they are, and so does the control word. -/
structure Keeps (s s' : DmaState) : Prop where
  setup : s'.dma.setup = s.dma.setup
  wordcount : s'.dma.wordcount = s.dma.wordcount
  transfers : s'.transfers = s.transfers

/-- The channel at the start of a copy. -/
def DmaController.starts (c : DmaController) : DmaController :=
  { c with startmode := c.latchStartmode, triggered := true, running := true, paused := false }

theorem execEnabled_eq (env : DmaEnv) (s : DmaState) :
    execEnabled env s =
      if s.dma.enable then
        if s.dma.fires env then
          doCopy env { s with dma := { s.dma with
            startmode := s.dma.latchStartmode, triggered := s.dma.fires env, running := true,
            paused := false } }
        else { s with dma := { s.dma with
          startmode := s.dma.latchStartmode, triggered := s.dma.fires env } }
      else s := by
  unfold execEnabled DmaController.fires
  cases s.dma.latchStartmode <;> rfl

theorem execEnabled_copies (env : DmaEnv) (s : DmaState) :
    (s.dma.goes env = true ∧ execEnabled env s = doCopy env { s with dma := s.dma.starts }) ∨
      (s.dma.goes env = false ∧ Keeps s (execEnabled env s)) := by
  rw [execEnabled_eq, DmaController.goes]
  split_ifs with henable hfires
  · refine .inl ⟨by rw [henable, hfires]; rfl, ?_⟩
    rw [hfires]
    rfl
  · rw [Bool.eq_false_of_not_eq_true hfires, Bool.and_false]
    exact .inr ⟨rfl, rfl, rfl, rfl⟩
  · rw [Bool.eq_false_of_not_eq_true henable, Bool.false_and]
    exact .inr ⟨rfl, rfl, rfl, rfl⟩

/-- An event either copies or leaves the words and their count alone. -/
theorem exec_copies (env : DmaEnv) (s : DmaState) :
    (s.dma.willCopy env = true ∧
      exec env s = doCopy env { s with dma := s.dma.clearCheck.starts }) ∨
      (s.dma.willCopy env = false ∧ Keeps s (exec env s)) := by
  by_cases hrun : s.dma.running = true
  · by_cases hleft : s.dma.startmode = .gxFifo ∧ s.dma.wordcount > 0
    · have hexec : exec env s = execEnabled env { s with dma := s.dma.clearCheck.doPause } :=
        (if_pos hrun).trans (if_pos hleft)
      have hwill : s.dma.willCopy env = s.dma.doPause.goes env := by
        rw [DmaController.willCopy, if_pos hrun, decide_eq_true hleft.1, decide_eq_true hleft.2]
        rfl
      rw [hexec, hwill]
      rcases execEnabled_copies env { s with dma := s.dma.clearCheck.doPause } with
        ⟨hgoes, hcopy⟩ | ⟨hgoes, hkeeps⟩
      · exact .inl ⟨hgoes, hcopy⟩
      · exact .inr ⟨hgoes, hkeeps.setup, hkeeps.wordcount, hkeeps.transfers⟩
    · have hexec : exec env s = doStop { s with dma := s.dma.clearCheck } :=
        (if_pos hrun).trans (if_neg hleft)
      refine .inr ⟨?_, ?_⟩
      · rw [DmaController.willCopy, if_pos hrun, ← Bool.decide_and, decide_eq_false hleft]
        rfl
      · rw [hexec]
        exact ⟨rfl, rfl, rfl⟩
  · have hexec : exec env s = execEnabled env { s with dma := s.dma.clearCheck } := if_neg hrun
    have hwill : s.dma.willCopy env = s.dma.goes env := if_neg hrun
    rw [hexec, hwill]
    rcases execEnabled_copies env { s with dma := s.dma.clearCheck } with
      ⟨hgoes, hcopy⟩ | ⟨hgoes, hkeeps⟩
    · exact .inl ⟨hgoes, hcopy⟩
    · exact .inr ⟨hgoes, hkeeps.setup, hkeeps.wordcount, hkeeps.transfers⟩

/-! ### The copy -/

theorem doCopy_setup (env : DmaEnv) (s : DmaState) : (doCopy env s).dma.setup = s.dma.setup := by
  unfold doCopy
  dsimp only
  split_ifs <;> split <;> rfl

theorem srcInc_eq_none {c : DmaController} : c.srcInc = none ↔ c.sar = .invalid := by
  unfold DmaController.srcInc
  cases c.sar <;> simp

/-- What a copy leaves of the count. -/
def DmaController.countAfter (env : DmaEnv) (c : DmaController) : BitVec 32 :=
  if c.repeatMode then c.wordcount
  else if c.startmode = .card then 0
  else c.wordcount - c.copyCount env

theorem doCopy_count (env : DmaEnv) (s : DmaState) :
    (s.dma.sar = .invalid ∧ Keeps s (doCopy env s)) ∨
      (s.dma.sar ≠ .invalid ∧
        (doCopy env s).transfers.length =
          s.transfers.length + (s.dma.copyCount env).toInt.toNat ∧
        (doCopy env s).dma.wordcount = s.dma.countAfter env) := by
  unfold doCopy
  dsimp only
  generalize hc : (if s.dma.startmode = .memDisplay ∧ env.vCount = 191 then
    { s.dma with enable := false } else s.dma) = c
  have hsame : c.setup = s.dma.setup ∧ c.wordcount = s.dma.wordcount ∧
      c.startmode = s.dma.startmode := by
    rw [← hc]
    split_ifs <;> exact ⟨rfl, rfl, rfl⟩
  obtain ⟨hsetup, hword, hmode⟩ := hsame
  have hsar : c.sar = s.dma.sar := congrArg DmaSetup.sar hsetup
  have hrepeat : c.repeatMode = s.dma.repeatMode := congrArg DmaSetup.repeatMode hsetup
  cases hsrc : c.srcInc with
  | none =>
    rw [srcInc_eq_none, hsar] at hsrc
    exact .inl ⟨hsrc, hsetup, hword, rfl⟩
  | some srcinc =>
    have hvalid : s.dma.sar ≠ .invalid := by
      rw [← hsar, ne_eq, ← srcInc_eq_none, hsrc]
      exact Option.some_ne_none _
    refine .inr ⟨hvalid, ?_, ?_⟩
    · rw [List.length_append, copyWords, List.length_iterate]
    · show (if c.repeatMode then c.wordcount else if c.startmode = .card then 0
        else c.wordcount - s.dma.copyCount env) = _
      rw [hrepeat, hmode, hword, DmaController.countAfter]

/-- A copy that fits takes as many words as it counts down, and no more than there are. -/
theorem copyCount_le {env : DmaEnv} {c : DmaController}
    (hcard : c.startmode ≠ .card) (hzero : c.procnum = .arm9 → c.wordcount ≠ 0)
    (hscan : c.startmode = .memDisplay → 128 ≤ c.wordcount.toNat) :
    (c.copyCount env).toNat ≤ c.wordcount.toNat := by
  have hfull : ¬ (c.procnum = .arm9 ∧ c.wordcount = 0) := fun h => hzero h.1 h.2
  unfold DmaController.copyCount
  simp only [if_neg hfull, if_neg hcard]
  split_ifs with hmem hgx hgx
  · exact absurd (hgx.1.symm.trans hmem) (by decide)
  · exact hscan hmem
  · have hbig := hgx.2
    rw [BitVec.lt_def] at hbig
    exact Nat.le_of_lt hbig
  · exact Nat.le_refl _

/-! ### The history of a channel -/

/-- What holds of a channel between calls. -/
structure Follows (h : DmaHistory) : Prop where
  setup : h.state.dma.setup = (h.state.dma.setControl h.written).setup
  before : h.before ≤ h.state.transfers.length
  count : CountLeft h h.state.dma.wordcount.toNat

theorem CountLeft.lt {h : DmaHistory} {n : ℕ} (hn : CountLeft h n) : n < 2 ^ 21 := by
  have hcount := (h.written.extractLsb' 0 21).isLt
  unfold CountLeft at hn
  dsimp only at hn
  split_ifs at hn <;> omega

theorem setup_latchStartmode {c c' : DmaController} (h : c'.setup = c.setup) :
    c'.latchStartmode = c.latchStartmode := by
  have hproc : c'.procnum = c.procnum := congrArg DmaSetup.procnum h
  have hbits : c'.startmodeBits = c.startmodeBits := congrArg DmaSetup.startmodeBits h
  have hchan : c'.chan = c.chan := congrArg DmaSetup.chan h
  rw [DmaController.latchStartmode, hproc, hbits, hchan, ← DmaController.latchStartmode]

theorem setControl_setup_congr {c c' : DmaController} (h : c'.setup = c.setup) (w : BitVec 32) :
    (c'.setControl w).setup = (c.setControl w).setup := by
  have hproc : c'.procnum = c.procnum := congrArg DmaSetup.procnum h
  have hchan : c'.chan = c.chan := congrArg DmaSetup.chan h
  simp only [DmaController.setControl, DmaController.setup, hproc, hchan]

theorem Follows.keeps {h : DmaHistory} (hh : Follows h) {s : DmaState} (hs : Keeps h.state s) :
    Follows { h with state := s } where
  setup := by
    rw [setControl_setup_congr hs.setup]
    exact hs.setup.trans hh.setup
  before := by
    show h.before ≤ s.transfers.length
    rw [hs.transfers]
    exact hh.before
  count := by
    have hcount := hh.count
    unfold CountLeft DmaHistory.moved at hcount ⊢
    show _
    rw [hs.wordcount, hs.transfers, setup_latchStartmode hs.setup]
    exact hcount

theorem write32_control (c : DmaController) (val : BitVec 32) :
    (c.write32 val).setup = (c.setControl val).setup ∧
      (c.write32 val).wordcount = val &&& 0x1FFFFF := by
  unfold DmaController.write32
  dsimp only
  split_ifs <;> exact ⟨rfl, rfl⟩

theorem toNat_and_count (val : BitVec 32) :
    (val &&& 0x1FFFFF).toNat = (val.extractLsb' 0 21).toNat := by
  rw [BitVec.toNat_and, BitVec.extractLsb'_toNat, Nat.shiftRight_zero]
  exact and_lowMask _ rfl

theorem follows_write32 (h : DmaHistory) (val : BitVec 32) :
    Follows (dmaCall h (.write32 val)) := by
  obtain ⟨hsetup, hword⟩ := write32_control h.state.dma val
  refine ⟨?_, le_rfl, ?_⟩
  · show (h.state.dma.write32 val).setup = ((h.state.dma.write32 val).setControl val).setup
    rw [setControl_setup_congr hsetup, hsetup]
    rfl
  · have hmoved : (dmaCall h (.write32 val)).moved = 0 := Nat.sub_self _
    show CountLeft _ (h.state.dma.write32 val).wordcount.toNat
    rw [hword, toNat_and_count]
    unfold CountLeft
    dsimp only
    rw [hmoved]
    split_ifs
    · rfl
    · exact .inl rfl
    · exact ⟨Nat.zero_le _, rfl⟩

theorem initial_follows (procnum : Proc) (chan : Fin 4) : Follows (.initial procnum chan) := by
  have hrep : (DmaHistory.initial procnum chan).written.getLsbD 25 = false := by
    simp [DmaHistory.initial]
  refine ⟨?_, le_rfl, ?_⟩
  · simp [DmaHistory.initial, DmaController.initial, DmaController.setControl,
      DmaController.setup, edmaDestinationUpdates, edmaSourceUpdates]
  · unfold CountLeft
    rw [hrep, if_neg Bool.false_ne_true]
    split_ifs
    · exact .inl rfl
    · exact ⟨Nat.zero_le _, rfl⟩

theorem toInt_toNat_of_lt {x : BitVec 32} (h : x.toNat < 2 ^ 21) : x.toInt.toNat = x.toNat := by
  rw [BitVec.toInt_eq_toNat_of_lt (by omega), Int.toNat_natCast]

/-- The count after a copy that fits. -/
theorem Follows.countLeft_copy {h : DmaHistory} (hh : Follows h) {env : DmaEnv}
    (hgo : h.state.dma.willCopy env = true) (hfits : Fits env h.state.dma)
    (hsar : h.state.dma.sar ≠ .invalid) {s : DmaState}
    (hlen : s.transfers.length = h.state.transfers.length +
      (h.state.dma.clearCheck.starts.copyCount env).toInt.toNat)
    (hmode : s.dma.latchStartmode = h.state.dma.latchStartmode) :
    CountLeft { h with state := s } (h.state.dma.clearCheck.starts.countAfter env).toNat := by
  have hcount := hh.count
  have hlt := hcount.lt
  have hbefore := hh.before
  have hrep : h.state.dma.repeatMode = h.written.getLsbD 25 :=
    congrArg DmaSetup.repeatMode hh.setup
  have hafter : h.state.dma.clearCheck.starts.countAfter env =
      if h.written.getLsbD 25 then h.state.dma.wordcount
      else if h.state.dma.latchStartmode = .card then 0
      else h.state.dma.wordcount - h.state.dma.clearCheck.starts.copyCount env := by
    rw [← hrep]
    rfl
  rw [hafter]
  unfold CountLeft DmaHistory.moved at hcount ⊢
  dsimp only at hcount ⊢
  rw [hmode, hlen]
  split_ifs at hcount ⊢ with hr hcard
  · exact hcount
  · exact .inr rfl
  · obtain ⟨hzero, hscan⟩ := hfits hgo hsar (hrep.trans (Bool.eq_false_of_not_eq_true hr)) hcard
    have hle' : (h.state.dma.clearCheck.starts.copyCount env).toNat ≤ h.state.dma.wordcount.toNat :=
      copyCount_le (c := h.state.dma.clearCheck.starts) hcard hzero hscan
    rw [toInt_toNat_of_lt (Nat.lt_of_le_of_lt hle' hlt), BitVec.toNat_sub_of_le
      (BitVec.le_def.mpr hle')]
    omega

/-- A copy that fits moves the words that it counts down. -/
theorem Follows.copy {h : DmaHistory} (hh : Follows h) {env : DmaEnv}
    (hgo : h.state.dma.willCopy env = true) (hfits : Fits env h.state.dma) :
    Follows { h with
      state := doCopy env { h.state with dma := h.state.dma.clearCheck.starts } } := by
  have hsetup := doCopy_setup env { h.state with dma := h.state.dma.clearCheck.starts }
  rcases doCopy_count env { h.state with dma := h.state.dma.clearCheck.starts } with
    ⟨-, hkeeps⟩ | ⟨hsar, hlen, hword⟩
  · exact hh.keeps ⟨hkeeps.setup, hkeeps.wordcount, hkeeps.transfers⟩
  · refine ⟨?_, ?_, ?_⟩
    · show DmaController.setup _ = _
      rw [setControl_setup_congr hsetup, hsetup]
      exact hh.setup
    · show h.before ≤ (doCopy env _).transfers.length
      rw [hlen]
      exact Nat.le_add_right_of_le hh.before
    · show CountLeft _ (doCopy env _).dma.wordcount.toNat
      rw [hword]
      exact hh.countLeft_copy hgo hfits hsar hlen
        (setup_latchStartmode (hsetup.trans (c := h.state.dma.setup) rfl))

theorem follows_call {h : DmaHistory} (hh : Follows h) (call : DmaCall) (hfits : CallFits h call) :
    Follows (dmaCall h call) := by
  cases call with
  | address saddr daddr => exact ⟨hh.setup, hh.before, hh.count⟩
  | write32 val => exact follows_write32 h val
  | tryTrigger mode =>
    refine hh.keeps ?_
    show Keeps h.state { h.state with dma := h.state.dma.tryTrigger mode }
    unfold DmaController.tryTrigger
    split_ifs <;> exact ⟨rfl, rfl, rfl⟩
  | exec env =>
    show Follows { h with state := exec env h.state }
    rcases exec_copies env h.state with ⟨hgo, hcopy⟩ | ⟨-, hkeeps⟩
    · rw [hcopy]
      exact hh.copy hgo hfits
    · exact hh.keeps hkeeps

theorem follows_run {h : DmaHistory} (hh : Follows h) {calls : List DmaCall}
    (hfits : AtEach dmaCall CallFits h calls) : Follows (run dmaCall h calls) := by
  induction calls generalizing h with
  | nil => exact hh
  | cons call calls ih => exact ih (follows_call hh call hfits.1) hfits.2

/-! ### Reading the register -/

theorem edmaDestinationUpdates_code (x : BitVec 2) : (edmaDestinationUpdates x.toFin).code = x := by
  revert x
  decide

theorem edmaSourceUpdates_code (x : BitVec 2) : (edmaSourceUpdates x.toFin).code = x := by
  revert x
  decide

theorem controlFields_pairwise {c : DmaController} (h : c.wordcount.toNat < 2 ^ 21) :
    c.controlFields.Pairwise fun x y => x &&& y = 0 := by
  apply pairwise_and_eq_zero [(31, 32), (30, 31), (27, 30), (26, 27), (25, 26), (23, 25), (21, 23),
    (0, 21)] _ (by decide)
  refine .cons (placed_within _ 31) (.cons (placed_within _ 30) (.cons (placed_within _ 27)
    (.cons (placed_within _ 26) (.cons (placed_within _ 25) (.cons (placed_within _ 23)
    (.cons (placed_within _ 21) (.cons (within_of_toNat_lt h) .nil)))))))

theorem read32_getLsbD (c : DmaController) {i : ℕ} (hi : i < 32) :
    c.read32.getLsbD i =
      (decide (31 ≤ i) && (BitVec.ofBool c.enable).getLsbD (i - 31) ||
        decide (30 ≤ i) && (BitVec.ofBool c.irq).getLsbD (i - 30) ||
        decide (27 ≤ i) && c.startmodeBits.getLsbD (i - 27) ||
        decide (26 ≤ i) && c.bitWidth.code.getLsbD (i - 26) ||
        decide (25 ≤ i) && (BitVec.ofBool c.repeatMode).getLsbD (i - 25) ||
        decide (23 ≤ i) && c.sar.code.getLsbD (i - 23) ||
        decide (21 ≤ i) && c.dar.code.getLsbD (i - 21) || c.wordcount.getLsbD i) := by
  simp only [DmaController.read32, DmaController.controlFields, List.foldl_cons, List.foldl_nil,
    BitVec.getLsbD_or, getLsbD_placed _ _ hi, BitVec.ofNat_eq_ofNat, BitVec.getLsbD_zero,
    Bool.false_or]

/-- The start mode bits of a control word that a processor keeps. -/
theorem Follows.startmodeBits {h : DmaHistory} (hh : Follows h) {i : ℕ} (hi : i < 3) :
    h.state.dma.startmodeBits.getLsbD i =
      (h.written.getLsbD (27 + i) && !(decide (h.state.dma.procnum = .arm7 ∧ i = 0))) := by
  have hbits : h.state.dma.startmodeBits = if h.state.dma.procnum = .arm7 then
      h.written.extractLsb' 27 3 &&& 6 else h.written.extractLsb' 27 3 :=
    congrArg DmaSetup.startmodeBits hh.setup
  have hcases : i = 0 ∨ i = 1 ∨ i = 2 := by omega
  rw [hbits]
  split_ifs with harm7
  · rcases hcases with rfl | rfl | rfl <;> simp [harm7]
  · simp [harm7, hi]

theorem Follows.flag {h : DmaHistory} (hh : Follows h) {i : ℕ} (hlo : 21 ≤ i) (hhi : i < 31) :
    h.state.dma.read32.getLsbD i =
      (h.written.getLsbD i && !(decide (h.state.dma.procnum = .arm7 ∧ i = 27))) := by
  have hcount : h.state.dma.wordcount.getLsbD i = false :=
    (within_of_toNat_lt (n := 21) hh.count.lt).getLsbD_eq_false (.inr hlo)
  have hirq : h.state.dma.irq = h.written.getLsbD 30 := congrArg DmaSetup.irq hh.setup
  have hrep : h.state.dma.repeatMode = h.written.getLsbD 25 :=
    congrArg DmaSetup.repeatMode hh.setup
  have hwidth : h.state.dma.bitWidth = if h.written.getLsbD 26 then .bits32 else .bits16 :=
    congrArg DmaSetup.bitWidth hh.setup
  have hsar : h.state.dma.sar.code = h.written.extractLsb' 23 2 :=
    (congrArg EDMASourceUpdate.code (congrArg DmaSetup.sar hh.setup)).trans
      (edmaSourceUpdates_code _)
  have hdar : h.state.dma.dar.code = h.written.extractLsb' 21 2 :=
    (congrArg EDMADestinationUpdate.code (congrArg DmaSetup.dar hh.setup)).trans
      (edmaDestinationUpdates_code _)
  have hwidth' : h.state.dma.bitWidth.code.getLsbD 0 = h.written.getLsbD 26 := by
    rw [hwidth]
    cases h.written.getLsbD 26 <;> rfl
  rw [read32_getLsbD _ (by omega), hcount, hirq, hrep, hsar, hdar]
  -- one bit of the word after the other
  have hcases : i = 21 ∨ i = 22 ∨ i = 23 ∨ i = 24 ∨ i = 25 ∨ i = 26 ∨ i = 27 ∨ i = 28 ∨ i = 29 ∨
      i = 30 := by omega
  rcases hcases with rfl | rfl | rfl | rfl | rfl | rfl | rfl | rfl | rfl | rfl
  all_goals simp [-BitVec.getLsbD_eq_getElem, hwidth', hh.startmodeBits]

/-- The invariant gives what the register reads as. -/
theorem Follows.readsBack {h : DmaHistory} (hh : Follows h) : ReadsBack h where
  count_lt := hh.count.lt
  disjoint := controlFields_pairwise hh.count.lt
  flags := by
    intro i hlo hhi harm7
    have hne : ¬ (h.state.dma.procnum = .arm7 ∧ i = 27) := fun hb => harm7 hb.1 hb.2
    rw [hh.flag hlo hhi, decide_eq_false hne, Bool.not_false, Bool.and_true]
  arm7 := by
    intro harm7
    rw [hh.flag (by decide) (by decide), decide_eq_true ⟨harm7, rfl⟩, Bool.not_true, Bool.and_false]
  enable := by
    have hcount : h.state.dma.wordcount.getLsbD 31 = false :=
      (within_of_toNat_lt (n := 21) hh.count.lt).getLsbD_eq_false (.inr (by decide))
    rw [read32_getLsbD _ (by decide), hcount]
    simp
  count := by
    have hlow : h.state.dma.read32.extractLsb' 0 21 = h.state.dma.wordcount.extractLsb' 0 21 := by
      apply BitVec.eq_of_getLsbD_eq
      intro i hi
      rw [BitVec.getLsbD_extractLsb', BitVec.getLsbD_extractLsb', Nat.zero_add,
        read32_getLsbD _ (by omega)]
      have hbelow : ∀ k, 21 ≤ k → decide (k ≤ i) = false := fun k hk => decide_eq_false (by omega)
      simp [hbelow]
    rw [hlow, BitVec.extractLsb'_toNat, Nat.shiftRight_zero, Nat.mod_eq_of_lt hh.count.lt]
    exact hh.count

/-! ### Copies that take more than the count holds -/

theorem overdraw_lt (env : DmaEnv) {c : DmaController} (hcard : c.startmode ≠ .card)
    (hover : ¬ ((c.procnum = .arm9 → c.wordcount ≠ 0) ∧
      (c.startmode = .memDisplay → 128 ≤ c.wordcount.toNat))) :
    c.wordcount.toNat < (c.copyCount env).toNat ∧ (c.copyCount env).toNat ≤ 0x200000 := by
  unfold DmaController.copyCount
  simp only [if_neg hcard]
  by_cases hmem : c.startmode = .memDisplay
  · have hgx : ¬ (c.startmode = .gxFifo ∧ (112 : BitVec 32) < 128) := fun h =>
      absurd (hmem.symm.trans h.1) (by decide)
    have hlt : c.wordcount.toNat < 128 := by
      by_contra hge
      refine hover ⟨fun _ hzero => ?_, fun _ => Nat.le_of_not_lt hge⟩
      rw [hzero] at hge
      exact hge (by decide)
    rw [if_pos hmem, if_neg hgx]
    exact ⟨hlt, by decide⟩
  · have hzero : c.procnum = .arm9 ∧ c.wordcount = 0 := by
      by_contra hne
      exact hover ⟨fun h hw => hne ⟨h, hw⟩, fun h => absurd h hmem⟩
    rw [if_neg hmem, if_pos hzero, hzero.2]
    split_ifs
    · exact ⟨by decide, by decide⟩
    · exact ⟨by decide, by decide⟩

/-- A copy keeps the count in its field exactly when it fits. -/
theorem exec_count_lt_iff {env : DmaEnv} {s : DmaState} (hlt : s.dma.wordcount.toNat < 2 ^ 21) :
    (exec env s).dma.wordcount.toNat < 2 ^ 21 ↔ Fits env s.dma := by
  rcases exec_copies env s with ⟨hgo, hcopy⟩ | ⟨hgo, hkeeps⟩
  · rw [hcopy]
    rcases doCopy_count env { s with dma := s.dma.clearCheck.starts } with
      ⟨hsar, hkeeps⟩ | ⟨hsar, -, hword⟩
    · rw [hkeeps.wordcount]
      exact iff_of_true hlt fun _ hne => absurd hsar hne
    · rw [hword, DmaController.countAfter]
      split_ifs with hrep hcard
      · exact iff_of_true hlt fun _ _ hno => absurd (hrep.symm.trans hno) (by decide)
      · exact iff_of_true (by decide) fun _ _ _ hno => absurd hcard hno
      · constructor
        · intro hafter _ _ _ _
          by_contra hover
          obtain ⟨hless, hle⟩ := overdraw_lt env (c := s.dma.clearCheck.starts) hcard hover
          rw [BitVec.toNat_sub_of_lt (BitVec.lt_def.mpr hless)] at hafter
          omega
        · intro hfits
          obtain ⟨hzero, hscan⟩ := hfits hgo hsar (Bool.eq_false_of_not_eq_true hrep) hcard
          have hle : (s.dma.clearCheck.starts.copyCount env).toNat ≤
              s.dma.clearCheck.starts.wordcount.toNat := copyCount_le hcard hzero hscan
          have hlt' : s.dma.clearCheck.starts.wordcount.toNat < 2 ^ 21 := hlt
          rw [BitVec.toNat_sub_of_le (BitVec.le_def.mpr hle)]
          omega
  · rw [hkeeps.wordcount]
    exact iff_of_true hlt fun h => absurd (hgo.symm.trans h) (by decide)

/-- Over every run whose counting copies take no more than the count holds, the count stays in its
field and the register reads as the word last written. -/
theorem run_readsBack (procnum : Proc) (chan : Fin 4) (calls : List DmaCall)
    (hfits : AtEach dmaCall CallFits (.initial procnum chan) calls) :
    ReadsBack (run dmaCall (.initial procnum chan) calls) :=
  (follows_run (initial_follows procnum chan) hfits).readsBack

/-- An immediate transfer of three words on the ARM9, read back after it ended. -/
theorem run_readsBack_threeWords :
    ReadsBack (run dmaCall (.initial .arm9 3)
      [.address 0x02000000 0x06000000, .write32 0x84000003, .exec ⟨0, 0, 0⟩, .exec ⟨0, 0, 0⟩]) := by
  refine run_readsBack .arm9 3 _ ⟨trivial, trivial, ?_, ?_, trivial⟩
  · intro _ _ _ _
    refine ⟨fun _ => by decide, fun h => absurd h (by decide)⟩
  · intro h
    exact absurd h (by decide)

/-- The ARM7 drops a bit of its start mode, and a screen transfer of four words counts below zero,
so that the register reads with every flag set. -/
theorem controlWord_lost :
    (run dmaCall (.initial .arm7 0) [.write32 0x08000000]).state.dma.read32 = 0 ∧
      (run dmaCall (.initial .arm9 0) [.write32 0xA4000004, .exec ⟨0, 0, 0⟩,
        .tryTrigger .memDisplay, .exec ⟨0, 0, 0⟩]).state.dma.read32 = 0xFFFFFF84 := by
  decide

end Desmume.Dma
