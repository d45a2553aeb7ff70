import Desmume.Clock.Serial
import Desmume.Clock.SerialRegisters
import Desmume.Library.PartialRun

/-! No write to the clock, in whatever order, makes it leave its buffer or its table of sizes; and over
any run of transactions a register reads as it was last written until a write finds bits of another in
the buffer. -/

namespace Desmume.Clock
open Library

section Bounds

/-- A transfer under way has a command of the table and bits left. -/
structure Rtc.InBounds (s : Rtc) : Prop where
  sizes : ∀ j ≠ 4, s.cmdBitsSize j = kDefaultCmdBitsSize j
  short : (s.cmdBitsSize 4).toNat ≤ 56
  transfer : s.cmdStat = .write ∨ s.cmdStat = .read →
    ∃ j, s.cmdIndex = some j ∧ s.bitsCount.toNat < (s.cmdBitsSize j).toNat

variable {s : Rtc}

theorem rtcInit_inBounds : rtcInit.InBounds :=
  ⟨fun _ _ => rfl, by decide, fun h => by rcases h with h | h <;> exact nomatch h⟩

theorem Rtc.InBounds.size_le (hs : s.InBounds) (j : Fin 8) : (s.cmdBitsSize j).toNat ≤ 56 := by
  by_cases h4 : j = 4
  · rw [h4]
    exact hs.short
  · rw [hs.sizes j h4]
    revert j
    decide

theorem Rtc.InBounds.dataIndex_isSome (hs : s.InBounds)
    (h : s.cmdStat = .write ∨ s.cmdStat = .read) : ∃ i, s.dataIndex = some i := by
  obtain ⟨j, -, hlt⟩ := hs.transfer h
  have hle := hs.size_le j
  have hi : (s.bitsCount >>> 3).toNat < 8 := by
    rw [BitVec.toNat_ushiftRight, Nat.shiftRight_eq_div_pow]
    omega
  exact ⟨_, dif_pos hi⟩

/-- Only the command, the state, the counter and the sizes matter. -/
theorem Rtc.InBounds.congr {s' : Rtc} (hs : s.InBounds) (hcmd : s'.cmd = s.cmd)
    (hstat : s'.cmdStat = s.cmdStat ∨ s'.cmdStat = .idle) (hcount : s'.bitsCount = s.bitsCount)
    (hsize : s'.cmdBitsSize = s.cmdBitsSize) : s'.InBounds := by
  refine ⟨by rw [hsize]; exact hs.sizes, by rw [hsize]; exact hs.short, fun h => ?_⟩
  rw [hcount, hsize, show s'.cmdIndex = s.cmdIndex by unfold Rtc.cmdIndex; rw [hcmd]]
  rcases hstat with hstat | hstat
  · rw [hstat] at h
    exact hs.transfer h
  · rw [hstat] at h
    rcases h with h | h <;> exact nomatch h

theorem decodeCommand_lt (cmd : Byte) : (decodeCommand cmd >>> 1).toNat < 8 := by
  revert cmd
  decide

theorem Rtc.InBounds.of_stat {s' : Rtc} (hs : s.InBounds) (hsize : s'.cmdBitsSize = s.cmdBitsSize)
    (hstat : s'.cmdStat = .idle ∨ s'.cmdStat = .command) : s'.InBounds := by
  refine ⟨by rw [hsize]; exact hs.sizes, by rw [hsize]; exact hs.short, fun h => ?_⟩
  rcases hstat with hstat | hstat
  all_goals
    rw [hstat] at h
    rcases h with h | h <;> exact nomatch h

theorem expect_inBounds (hs : s.InBounds) {cmd : Byte} (hcmd : (cmd >>> 1).toNat < 8)
    (c : CmdStat) : (s.expect cmd c).InBounds := by
  have hsizes : ∀ j ≠ 4, (s.expect cmd c).cmdBitsSize j = kDefaultCmdBitsSize j := by
    intro j hj
    rw [← hs.sizes j hj]
    unfold Rtc.expect
    dsimp only
    split
    · rw [Function.update_of_ne hj]
    · rfl
  have hfour : ((s.expect cmd c).cmdBitsSize 4).toNat ≤ 56 ∧
      (cmd >>> 1 = 4 → 0 < ((s.expect cmd c).cmdBitsSize 4).toNat) := by
    unfold Rtc.expect
    dsimp only
    split
    · rw [Function.update_self]
      split <;> exact ⟨by decide, fun _ => by decide⟩
    · exact ⟨hs.short, fun h => absurd h ‹_›⟩
  refine ⟨hsizes, hfour.1, fun _ => ⟨⟨_, hcmd⟩, dif_pos hcmd, ?_⟩⟩
  change (0 : Byte).toNat < _
  have hfour_iff : (⟨(cmd >>> 1).toNat, hcmd⟩ : Fin 8) = 4 ↔ cmd >>> 1 = 4 := by
    rw [Fin.ext_iff, ← BitVec.toNat_inj]
    rfl
  by_cases h4 : cmd >>> 1 = 4
  · rw [hfour_iff.mpr h4]
    exact hfour.2 h4
  · have hne := mt hfour_iff.mp h4
    rw [hsizes _ hne]
    generalize (⟨(cmd >>> 1).toNat, hcmd⟩ : Fin 8) = j at hne
    revert j
    decide

theorem startCommand_inBounds (hs : s.InBounds) (hstat : s.cmdStat = .command) (now : DateTime) :
    (s.startCommand now).InBounds := by
  by_cases hf : s.falls = true
  · rw [startCommand_of_falls hf]
    have hexpect := expect_inBounds hs (decodeCommand_lt s.cmd)
    unfold Rtc.accept
    split
    · obtain ⟨status1, data, hrecv⟩ := (s.expect (decodeCommand s.cmd) .read).rtcRecv_frame now
      rw [hrecv]
      exact (hexpect .read).congr rfl (.inl rfl) rfl rfl
    · exact hexpect .write
  · have hf' : ({ s with cmd := decodeCommand s.cmd } : Rtc).falls = false :=
      Bool.eq_false_iff.mpr hf
    unfold Rtc.startCommand
    simp only [hf']
    exact hs.of_stat rfl (.inr hstat)

theorem commandStep_inBounds (hs : s.InBounds) (hstat : s.cmdStat = .command) (now : DateTime) :
    (s.commandStep now).InBounds := by
  have hshift (b : Bool) : (s.shiftCommand b).InBounds := hs.of_stat rfl (.inr hstat)
  unfold Rtc.commandStep
  split
  · exact hs.of_stat rfl (.inl rfl)
  split
  · exact hs
  split
  · exact hs
  dsimp only
  split
  · exact startCommand_inBounds (hshift s.bus.SIO) hstat now
  · exact hshift s.bus.SIO

/-- A bit counted either ends the transfer or leaves bits. -/
theorem countBit_inBounds (hs : s.InBounds) {j : Fin 8} (hj : s.cmdIndex = some j)
    (hstat : s.cmdStat = .write ∨ s.cmdStat = .read) (hne : s.bitsCount + 1 ≠ s.cmdBitsSize j) :
    s.countBit.InBounds := by
  obtain ⟨i, hi, hlt⟩ := hs.transfer hstat
  obtain rfl : j = i := Option.some.inj (hj.symm.trans hi)
  refine ⟨hs.sizes, hs.short, fun _ => ⟨j, hj, ?_⟩⟩
  have hle := hs.size_le j
  have hcount : (s.bitsCount + 1).toNat = s.bitsCount.toNat + 1 := by
    rw [BitVec.toNat_add]
    change (s.bitsCount.toNat + 1) % 256 = _
    omega
  change (s.bitsCount + 1).toNat < (s.cmdBitsSize j).toNat
  have hne' : (s.bitsCount + 1).toNat ≠ (s.cmdBitsSize j).toNat := fun h =>
    hne (BitVec.eq_of_toNat_eq h)
  omega

/-- What counting the last bit, or one before it, makes of the clock. -/
theorem counted_inBounds (hs : s.InBounds) (hstat : s.cmdStat = .write ∨ s.cmdStat = .read)
    {j : Fin 8} (hj : s.cmdIndex = some j) {ended : Rtc} {p : Prop} [Decidable p]
    (hp : s.bitsCount + 1 = s.cmdBitsSize j → p) (hended : ended.cmdStat = .idle)
    (hsize : ended.cmdBitsSize = s.cmdBitsSize) :
    (if p then ended else s.countBit).InBounds := by
  split
  · exact hs.of_stat hsize (.inl hended)
  · exact countBit_inBounds hs hj hstat (mt hp ‹_›)

theorem storeBit_frame (hs : s.InBounds) (hstat : s.cmdStat = .write) :
    ∃ data, s.storeBit = some { s with data := data } := by
  obtain ⟨i, hi⟩ := hs.dataIndex_isSome (.inl hstat)
  unfold Rtc.storeBit
  rw [hi]
  split
  · exact ⟨_, rfl⟩
  · exact ⟨s.data, rfl⟩

theorem writeStep_inBounds (hs : s.InBounds) (hstat : s.cmdStat = .write) :
    ∃ s', s.writeStep = some s' ∧ s'.InBounds := by
  unfold Rtc.writeStep
  split
  · obtain ⟨j, hj, -⟩ := hs.transfer (.inl hstat)
    obtain ⟨data, hstore⟩ := storeBit_frame hs hstat
    have hdata : ({ s with data := data } : Rtc).InBounds := hs.congr rfl (.inl rfl) rfl rfl
    have hindex : ({ s with data := data } : Rtc).countBit.cmdIndex = some j := hj
    obtain ⟨_, _, _, _, hsend⟩ := ({ s with data := data } : Rtc).countBit.rtcSend_frame
    refine ⟨_, by simp only [hstore, hindex, Option.bind_eq_bind, Option.bind_some]; rfl, ?_⟩
    rw [hsend]
    exact counted_inBounds hdata (.inl hstat) hj id rfl rfl
  · exact ⟨s, rfl, hs⟩

theorem readStep_inBounds (hs : s.InBounds) (hstat : s.cmdStat = .read) (val : BitVec 16) :
    ∃ s', s.readStep val = some s' ∧ s'.InBounds := by
  unfold Rtc.readStep
  split
  · obtain ⟨i, hi⟩ := hs.dataIndex_isSome (.inr hstat)
    obtain ⟨j, hj, -⟩ := hs.transfer (.inr hstat)
    have hshow (b : Bool) : (s.showBit val b).InBounds := hs.congr rfl (.inl rfl) rfl rfl
    have hindex (b : Bool) : (s.showBit val b).countBit.cmdIndex = some j := hj
    refine ⟨_, by simp only [hi, hindex, Option.bind_eq_bind, Option.bind_some]; rfl, ?_⟩
    refine counted_inBounds (hshow _) (.inr hstat) hj (fun h => ?_) rfl rfl
    exact Bool.or_eq_true_iff.mpr (.inl (decide_eq_true h))
  · exact ⟨s, rfl, hs⟩

theorem step_inBounds (hs : s.InBounds) (now : DateTime) (val : BitVec 16) :
    ∃ s', s.step now val = some s' ∧ s'.InBounds := by
  unfold Rtc.step
  cases hstat : s.cmdStat with
  | idle =>
    refine ⟨_, rfl, ?_⟩
    split
    · exact hs.of_stat rfl (.inr rfl)
    · exact hs
  | command => exact ⟨_, rfl, commandStep_inBounds hs hstat now⟩
  | write => exact writeStep_inBounds hs hstat
  | read => exact readStep_inBounds hs hstat val

/-- No write leaves the arrays, whatever the lines carry. -/
theorem rtcWrite_inBounds (hs : s.InBounds) (now : DateTime) (val : BitVec 16) :
    ∃ s', s.rtcWrite now val = some s' ∧ s'.InBounds := by
  have hdrive : (s.drive val).InBounds := hs.congr rfl (.inl rfl) rfl rfl
  obtain ⟨s', hstep, hs'⟩ := step_inBounds hdrive now val
  unfold Rtc.rtcWrite
  rw [hstep]
  exact ⟨s'.latch, rfl, hs'.congr rfl (.inl rfl) rfl rfl⟩

theorem pulses_inBounds (hs : s.InBounds) (ps : List Pulse) :
    ∃ s' bits, s.pulses ps = some (s', bits) ∧ s'.InBounds := by
  induction ps generalizing s with
  | nil => exact ⟨s, [], rfl, hs⟩
  | cons p ps ih =>
    obtain ⟨s₁, hlow, hs₁⟩ := rtcWrite_inBounds hs p.low.now p.low.val
    obtain ⟨s₂, hhigh, hs₂⟩ := rtcWrite_inBounds hs₁ p.high.now p.high.val
    obtain ⟨s₃, bits, hrest, hs₃⟩ := ih hs₂
    refine ⟨s₃, s₂.rtcRead.getLsbD 0 :: bits, ?_, hs₃⟩
    simp only [Rtc.pulses, Rtc.pulse, Rtc.level, hlow, hhigh, hrest, Option.bind_eq_bind,
      Option.bind_some, Option.pure_def]

theorem transact_inBounds (hs : s.InBounds) (t : Transaction) :
    ∃ s' bits, s.transact t = some (s', bits) ∧ s'.InBounds := by
  obtain ⟨s₁, h₁, hs₁⟩ := rtcWrite_inBounds hs t.start.now t.start.val
  obtain ⟨s₂, h₂, hs₂⟩ := rtcWrite_inBounds hs₁ t.select.now t.select.val
  obtain ⟨s₃, _, h₃, hs₃⟩ := pulses_inBounds hs₂ t.command
  obtain ⟨s₄, bits, h₄, hs₄⟩ := pulses_inBounds hs₃ t.data
  obtain ⟨s₅, h₅, hs₅⟩ := rtcWrite_inBounds hs₄ t.deselect.now t.deselect.val
  refine ⟨s₅, bits, ?_, hs₅⟩
  simp only [Rtc.transact, Rtc.level, h₁, h₂, h₃, h₄, h₅, Option.bind_eq_bind, Option.bind_some]
  rfl

end Bounds

/-! ### Registers read back -/

section ReadBack

/-! The waveform of a driver. -/

def midnight : DateTime := ⟨0, 1, 1, 0, 0, 0, 0⟩

def portValue (cs sck : Bool) (sio : Option Bool) : BitVec 16 :=
  0x60 ||| (if cs then 0x04 else 0) ||| (if sck then 0x02 else 0) |||
    match sio with
    | none => 0
    | some b => if b then 0x11 else 0x10

def levelOf (cs sck : Bool) (sio : Option Bool) : Level cs sck where
  now := midnight
  val := portValue cs sck sio
  clock_driven := by cases cs <;> cases sck <;> rcases sio with _ | _ | _ <;> rfl
  clock := by cases cs <;> cases sck <;> rcases sio with _ | _ | _ <;> rfl
  select_driven := by cases cs <;> cases sck <;> rcases sio with _ | _ | _ <;> rfl
  select := by cases cs <;> cases sck <;> rcases sio with _ | _ | _ <;> rfl

theorem levelOf_carries (sck : Bool) (sio : Option Bool) : (levelOf true sck sio).Carries sio := by
  constructor
  · cases sck <;> rcases sio with _ | _ | _ <;> rfl
  · rintro b rfl
    cases sck <;> cases b <;> rfl

def pulseOf (sio : Option Bool) : Pulse where
  sio := sio
  low := levelOf true false sio
  high := levelOf true true sio
  low_sio := levelOf_carries false sio
  high_sio := levelOf_carries true sio

def transactionOf (register : Fin 8) (reading : Bool) (data : List (Option Bool))
    (hdata : ∀ d ∈ data, d.isNone = reading) : Transaction where
  register := register
  reading := reading
  highFirst := true
  start := levelOf false true none
  select := levelOf true true none
  command := (commandBits register reading true).map fun b => pulseOf (some b)
  command_bits := by simp [Function.comp_def, pulseOf]
  data := data.map pulseOf
  data_driven := by
    rintro p hp
    obtain ⟨d, hd, rfl⟩ := List.mem_map.mp hp
    exact hdata d hd
  deselect := levelOf false true none

def readOf (r : Stored) : Transaction :=
  transactionOf r.index true (List.replicate 8 none) fun d hd => by
    rw [List.eq_of_mem_replicate hd]
    rfl

def writeOf (r : Stored) (b : Byte) : Transaction :=
  transactionOf r.index false ((byteBits b).map some) fun d hd => by
    obtain ⟨b, -, rfl⟩ := List.mem_map.mp hd
    rfl

variable {s : Rtc}

theorem readsBack_iff (hs : s.AtRest) (w : Stored → Byte) : s.ReadsBack w ↔ s.stored = w := by
  constructor
  · intro h
    funext r
    obtain ⟨s', hread⟩ := h r (readOf r) ⟨rfl, rfl⟩ rfl
    obtain ⟨s'', bits, hread', -, -, hbits⟩ :=
      transact_read (t := readOf r) hs rfl (by cases r <;> rfl)
    rw [hread] at hread'
    obtain ⟨-, rfl⟩ := Prod.mk.inj (Option.some.inj hread')
    exact (byteBits_injective (hbits r ⟨rfl, rfl⟩)).symm
  · rintro rfl r t ht hlen
    obtain ⟨s', bits, hread, -, -, hbits⟩ := transact_read (t := t) hs ht.1 (by
      rw [hlen, ht.2]
      cases r <;> rfl)
    rw [hbits r ht] at hread
    exact ⟨s', hread⟩

theorem or_eq_right_iff (a b : Byte) : a ||| b = b ↔ a &&& ~~~b = 0 := by
  constructor
  all_goals
    intro h
    apply BitVec.eq_of_getLsbD_eq
    intro i hi
    have hbit := congrArg (·.getLsbD i) h
    simp only [BitVec.getLsbD_or, BitVec.getLsbD_and, BitVec.getLsbD_not, hi, decide_true,
      Bool.true_and] at hbit ⊢
    grind

/-- One transaction keeps the registers as they were last written exactly if it is clean. -/
theorem serve_step (hs : s.AtRest) {t : Transaction}
    (hlen : t.data.length = dataBits s.regStatus2 t.register) :
    ∃ s', s.serve t = some s' ∧ s'.AtRest ∧
      (s'.stored = writtenBy s.stored t ↔ s.CleanFor t) := by
  cases hreading : t.reading with
  | true =>
    obtain ⟨s', bits, hread, hrest, hstored, -⟩ := transact_read hs hreading hlen
    refine ⟨s', by rw [Rtc.serve, hread]; rfl, hrest, iff_of_true ?_ ?_⟩
    · rw [hstored]
      funext r
      simp [writtenBy, Transaction.Writes, hreading]
    · rintro r ⟨hwrite, -⟩
      simp [hreading] at hwrite
  | false =>
    obtain ⟨s', bits, hwrite, hrest, hstored⟩ := transact_write hs hreading hlen
    refine ⟨s', by rw [Rtc.serve, hwrite]; rfl, hrest, ?_⟩
    rw [funext_iff]
    apply forall_congr'
    intro r
    rw [hstored, writtenBy]
    by_cases hr : t.register = r.index
    · have hw : t.Writes r := ⟨hreading, hr⟩
      rw [if_pos hr, if_pos hw, or_eq_right_iff]
      exact ⟨fun h _ => h, fun h => h hw⟩
    · have hw : ¬ t.Writes r := fun h => hr h.2
      rw [if_neg hr, if_neg hw]
      exact iff_of_true rfl fun h => absurd h hw

/-- The property of a run: after each of its prefixes every register reads as last written. -/
def AlwaysReadsBack (s : Rtc) (ts : List Transaction) : Prop :=
  ∀ pre, pre <+: ts → ∃ s', runM Rtc.serve s pre = some s' ∧ s'.ReadsBack (written s.stored pre)

theorem alwaysReadsBack_cons {t : Transaction} {ts : List Transaction} {s' : Rtc}
    (hs : s.AtRest) (hserve : s.serve t = some s') (hs' : s'.AtRest) :
    AlwaysReadsBack s (t :: ts) ↔ s'.stored = writtenBy s.stored t ∧ AlwaysReadsBack s' ts := by
  constructor
  · intro h
    have hstored : s'.stored = writtenBy s.stored t := by
      obtain ⟨s₁, hrun, hback⟩ := h [t] ⟨ts, rfl⟩
      rw [runM_cons, hserve, Option.bind_some, runM_nil, Option.some.injEq] at hrun
      subst hrun
      exact (readsBack_iff hs' _).mp hback
    refine ⟨hstored, fun pre hpre => ?_⟩
    obtain ⟨s₁, hrun, hback⟩ := h (t :: pre) (List.prefix_cons_inj t |>.mpr hpre)
    rw [runM_cons, hserve, Option.bind_some] at hrun
    rw [hstored]
    exact ⟨s₁, hrun, hback⟩
  · rintro ⟨hstored, h⟩ pre hpre
    rcases List.prefix_cons_iff.mp hpre with rfl | ⟨pre, rfl, hp⟩
    · exact ⟨s, rfl, (readsBack_iff hs _).mpr rfl⟩
    · obtain ⟨s₁, hrun, hback⟩ := h pre hp
      rw [hstored] at hback
      exact ⟨s₁, by rw [runM_cons, hserve]; exact hrun, hback⟩

theorem alwaysReadsBack_iff (hs : s.AtRest) {ts : List Transaction}
    (hts : AllComplete s.stored ts) : AlwaysReadsBack s ts ↔ AtEachM Rtc.serve Rtc.CleanFor s ts := by
  induction ts generalizing s with
  | nil =>
    refine iff_of_true (fun pre hpre => ?_) trivial
    rw [List.prefix_nil.mp hpre]
    exact ⟨s, rfl, (readsBack_iff hs _).mpr rfl⟩
  | cons t ts ih =>
    obtain ⟨s', hserve, hrest, hclean⟩ := serve_step hs hts.1
    rw [alwaysReadsBack_cons hs hserve hrest]
    constructor
    · rintro ⟨hstored, h⟩
      refine ⟨hclean.mp hstored, fun s₁ hs₁ => ?_⟩
      obtain rfl : s' = s₁ := Option.some.inj (hserve.symm.trans hs₁)
      exact (ih hrest (hstored ▸ hts.2)).mp h
    · rintro ⟨hfirst, h⟩
      have hstored := hclean.mpr hfirst
      exact ⟨hstored, (ih hrest (hstored ▸ hts.2)).mpr (h s' hserve)⟩

theorem serve_inBounds (hs : s.InBounds) (ts : List Transaction) :
    ∃ s', runM Rtc.serve s ts = some s' := by
  induction ts generalizing s with
  | nil => exact ⟨s, rfl⟩
  | cons t ts ih =>
    obtain ⟨s₁, bits, htransact, hs₁⟩ := transact_inBounds hs t
    obtain ⟨s', hrun⟩ := ih hs₁
    refine ⟨s', ?_⟩
    rw [runM_cons, Rtc.serve, htransact]
    exact hrun

/-- From power-on no transaction indexes outside the buffer, and every register always reads as it
was last written exactly if no write to one finds bits left in the buffer that it does not set. -/
theorem rtcInit_readsBack_iff (ts : List Transaction) (hts : AllComplete (fun _ => 0) ts) :
    (∃ s, runM Rtc.serve rtcInit ts = some s) ∧
      ((∀ pre, pre <+: ts → ∃ s, runM Rtc.serve rtcInit pre = some s ∧
          s.ReadsBack (written (fun _ => 0) pre)) ↔
        AtEachM Rtc.serve Rtc.CleanFor rtcInit ts) := by
  have hinit : rtcInit.stored = fun _ => 0 := by
    funext r
    cases r <;> rfl
  have hcomplete : AllComplete rtcInit.stored ts := by
    rw [hinit]
    exact hts
  have hiff := alwaysReadsBack_iff rtcInit_atRest hcomplete
  unfold AlwaysReadsBack at hiff
  rw [hinit] at hiff
  exact ⟨serve_inBounds rtcInit_inBounds ts, hiff⟩

/-- Two writes to status 2. -/
def twoWrites : List Transaction := [writeOf .status2 1, writeOf .status2 2]

theorem twoWrites_readsBack_iff :
    (∃ s, runM Rtc.serve rtcInit twoWrites = some s) ∧
      ((∀ pre, pre <+: twoWrites → ∃ s, runM Rtc.serve rtcInit pre = some s ∧
          s.ReadsBack (written (fun _ => 0) pre)) ↔
        AtEachM Rtc.serve Rtc.CleanFor rtcInit twoWrites) :=
  rtcInit_readsBack_iff twoWrites ⟨rfl, rfl, trivial⟩

/-- The second write is not clean: status 2 reads as both. -/
theorem twoWrites_joined :
    ¬ ∀ ts, AllComplete (fun _ => 0) ts → (∃ s, runM Rtc.serve rtcInit ts = some s) ∧
      ∀ pre, pre <+: ts → ∃ s, runM Rtc.serve rtcInit pre = some s ∧
        s.ReadsBack (written (fun _ => 0) pre) := by
  intro h
  obtain ⟨s, hrun, hback⟩ := (h twoWrites ⟨rfl, rfl, trivial⟩).2 twoWrites (List.prefix_refl _)
  obtain ⟨s', hread⟩ := hback .status2 (readOf .status2) ⟨rfl, rfl⟩ rfl
  have hbits : (runM Rtc.serve rtcInit twoWrites).bind (fun s =>
      (s.transact (readOf .status2)).map Prod.snd) = some (byteBits 3) := by
    decide +kernel
  rw [hrun, Option.bind_some, hread, Option.map_some, Option.some.injEq] at hbits
  exact absurd (byteBits_injective hbits) (by decide)

end ReadBack

end Desmume.Clock
