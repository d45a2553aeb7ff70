import Desmume.Sound.AdpcmRuns

/-! What a channel that is keyed on decodes. Its header of eight nibbles is to be passed over, but a
round that hears a position in the header sets the last position back into it, and the next one decodes
the rest of the header as if it were data. -/

namespace Desmume.Sound
open Library AdpcmChannel

/-- The sample that the header at an address starts with. -/
structure IsHeader (env : SpuEnv ℚ) (addr : BitVec 32) (start : AdpcmSample) : Prop where
  predictor : start.predictor = env.read16 addr
  index : start.index = (env.read08 (addr + 2) &&& 0x7F).toNat

namespace Voice

variable (env : SpuEnv ℚ)

/-- Where the channel hears a position behind the header, it has decoded the nibbles from `k` up to
there. -/
def HearsFrom (start : AdpcmSample) (k : ℕ) (v : Voice) : Prop :=
  v.chan.status = chanstatPlay → 0 ≤ v.chan.sampcnt → 8 ≤ v.chan.position →
    ∃ data c, v.chan.fetchSample env = some (data, c) ∧
      c.StandsAt (decodeNibbles env v.chan.addr k (v.chan.position + 1) start)

/-- After the steps the fetch of a sample stays within the tables, and where the channel has not looped
it hears its data. -/
def DecodesData (buf : MixBuffer) (c : AdpcmChannel) (ops : List MixStep) : Prop :=
  (∀ v, afterKeyOn env buf c ops = some v → v.chan.fetchSample env ≠ none) ∧
    ∀ start, IsHeader env c.addr start →
      AtEachM (step env) (fun v op => ¬ v.LoopsAt op) ⟨buf, c.keyOn env⟩ ops →
        ∃ v, afterKeyOn env buf c ops = some v ∧ v.HearsFrom env start 8

end Voice

/-! ### The channel when it is keyed on -/

variable {sampinc : BitVec 16 → ℚ} {read08 : BitVec 32 → BitVec 8} {read16 : BitVec 32 → BitVec 16}
  {c : AdpcmChannel}

/-- The registers of a channel at the start of its data, with its decoder on the header. -/
def AdpcmChannel.started (env : SpuEnv ℚ) (status : BitVec 8) (c : AdpcmChannel) : AdpcmChannel :=
  { c with
    totlength := c.length + c.loopstart.setWidth 32
    doubleTotlengthShifted := env.ofU32 ((c.length + c.loopstart.setWidth 32) <<< 3)
    status := status
    sampinc := env.sampinc c.timer
    sampcnt := env.ofInt (-3)
    pcm16b := env.read16 c.addr
    pcm16bLast := env.read16 c.addr
    index := (env.read08 (c.addr + 2) &&& 0x7F).setWidth 32
    lastsampcnt := 7
    loopIndex := kAdpcmLoopingRecoveryIndex }

theorem keyOn_eq_started (env : SpuEnv ℚ) (h : c.format = 2) :
    ∃ status, c.keyOn env = c.started env status := by
  obtain ⟨d, loopPcm16b⟩ := c
  cases d
  dsimp only at h
  subst h
  exact ⟨_, rfl⟩

theorem shiftLeft_three_lt (x : BitVec 32) : (x <<< 3).toNat + 1 < 2 ^ 32 := by
  rw [BitVec.toNat_shiftLeft, Nat.shiftLeft_eq]
  omega

theorem readsFrom_started (hinc : ∀ t, 0 < sampinc t) {start : AdpcmSample}
    (hstart : IsHeader (exactEnv sampinc read08 read16) c.addr start) (status : BitVec 8) :
    Voice.ReadsFrom (exactEnv sampinc read08 read16) c.addr start 7
      (c.started (exactEnv sampinc read08 read16) status) where
  source := rfl
  stands := by
    have hempty := decodeNibbles_of_le (exactEnv sampinc read08 read16) c.addr (Nat.le_refl 8) start
    change (c.started _ status).StandsAt (decodeNibbles _ c.addr 8 8 start)
    rw [hempty]
    exact ⟨hstart.predictor.symm, (BitVec.toNat_setWidth_of_le (by decide)).trans hstart.index.symm⟩
  first := Nat.le_refl 7
  last := le_max_left 7 _
  skipped := .inl rfl
  sampinc := hinc c.timer
  fits := by
    change (((c.length + c.loopstart.setWidth 32) <<< 3).toNat : ℚ) + 1 < 2 ^ 32
    exact_mod_cast shiftLeft_three_lt _
  inside := by
    intro _
    change ((-3 : ℤ) : ℚ) ≤ (((c.length + c.loopstart.setWidth 32) <<< 3).toNat : ℚ)
    have : (0 : ℚ) ≤ (((c.length + c.loopstart.setWidth 32) <<< 3).toNat : ℚ) := Nat.cast_nonneg _
    push_cast
    linarith

theorem withinTables_started (env : SpuEnv ℚ) (h : (env.read08 (c.addr + 2) &&& 0x7F).toNat ≤ 88)
    (status : BitVec 8) : Voice.WithinTables env (c.started env status) where
  header := h
  index := (BitVec.toNat_setWidth_of_le (by decide)).trans_le h
  kept := .inl rfl

/-! ### What a channel decodes -/

variable {buf : MixBuffer} {ops : List MixStep}

/-- A header whose row is within the tables keeps every fetch within them. -/
theorem fetchSample_ne_none (env : SpuEnv ℚ) (hformat : c.format = 2)
    (h : (env.read08 (c.addr + 2) &&& 0x7F).toNat ≤ 88) {v : Voice}
    (hrun : Voice.afterKeyOn env buf c ops = some v) : v.chan.fetchSample env ≠ none := by
  obtain ⟨status, hstarted⟩ := keyOn_eq_started env hformat
  have hinv : Voice.WithinTables env v.chan := by
    refine @runM_invariant _ _ (Voice.step env) (fun v => Voice.WithinTables env v.chan)
      (fun v op v' hv hstep => hv.step hstep) _ _ _ ?_ hrun
    rw [hstarted]
    exact withinTables_started env h status
  obtain ⟨data, d, hfetch, -⟩ := hinv.fetchSample
  rw [hfetch]
  exact Option.some_ne_none _

/-- The first nibble that is decoded: that of the data exactly if no round hears a position in the
header, and one of the header otherwise. -/
theorem exists_hearsFrom (hinc : ∀ t, 0 < sampinc t) (hformat : c.format = 2) {start : AdpcmSample}
    (hstart : IsHeader (exactEnv sampinc read08 read16) c.addr start)
    (hloop : AtEachM (Voice.step (exactEnv sampinc read08 read16)) (fun v op => ¬ v.LoopsAt op)
      ⟨buf, c.keyOn (exactEnv sampinc read08 read16)⟩ ops) :
    ∃ v k, Voice.afterKeyOn (exactEnv sampinc read08 read16) buf c ops = some v ∧
      v.HearsFrom (exactEnv sampinc read08 read16) start k ∧ k ≤ 8 ∧
      (k = 8 ↔ AtEachM (Voice.step (exactEnv sampinc read08 read16)) (fun v op => ¬ v.MixesHeader op)
        ⟨buf, c.keyOn (exactEnv sampinc read08 read16)⟩ ops) := by
  obtain ⟨status, hstarted⟩ := keyOn_eq_started (exactEnv sampinc read08 read16) hformat
  have hreads := readsFrom_started hinc hstart status
  rw [← hstarted] at hreads
  obtain ⟨v, j, hrun, hv, hj⟩ :=
    @Voice.ReadsFrom.run _ ⟨buf, c.keyOn _⟩ _ _ _ hinc ops hreads hloop
  refine ⟨v, j + 1, hrun, fun hplay hpos hbehind => ?_, ?_, ?_⟩
  · obtain ⟨d, i, hfetch, hd, hlast, hi, -⟩ := hv.fetch hplay hpos
    refine ⟨_, d, hfetch, ?_⟩
    rw [hv.source, ← hlast, ← hi (by omega)]
    exact hd.stands
  · have := hv.skipped
    omega
  · rw [Nat.succ_inj, hj]
    exact and_iff_right rfl

/-- A run in which no round hears a position in the header decodes exactly the data. -/
theorem decodesData (hinc : ∀ t, 0 < sampinc t) (hformat : c.format = 2)
    (hheader : (read08 (c.addr + 2) &&& 0x7F).toNat ≤ 88)
    (hmixes : AtEachM (Voice.step (exactEnv sampinc read08 read16)) (fun v op => ¬ v.MixesHeader op)
      ⟨buf, c.keyOn (exactEnv sampinc read08 read16)⟩ ops) :
    Voice.DecodesData (exactEnv sampinc read08 read16) buf c ops := by
  refine ⟨fun v hrun => fetchSample_ne_none _ hformat hheader hrun, fun start hstart hloop => ?_⟩
  obtain ⟨v, k, hrun, hhears, -, hk⟩ := exists_hearsFrom hinc hformat hstart hloop
  obtain rfl : k = 8 := hk.mpr hmixes
  exact ⟨v, hrun, hhears⟩

/-- A memory with one byte that is not zero. -/
def oneByte (addr : BitVec 32) (byte : BitVec 8) : SpuEnv ℚ :=
  let read08 : BitVec 32 → BitVec 8 := fun a => if a = addr then byte else 0
  exactEnv hardwareSampinc read08 fun a => read08 (a + 1) ++ read08 a

/-- A channel over 16 bytes of data from address 0 on. -/
def sixteenBytes (timer : BitVec 16) : AdpcmChannel where
  vol := 127
  volumeDiv := 0
  hold := 0
  pan := 64
  waveduty := 0
  repeatMode := 2
  format := 2
  keyon := 1
  status := chanstatStopped
  addr := 0
  timer := timer
  loopstart := 0
  length := 4
  totlength := 0
  doubleTotlengthShifted := 0
  sampcnt := 0
  sampinc := 0
  lastsampcnt := 0
  pcm16b := 0
  pcm16bLast := 0
  index := 0
  loopIndex := 0
  x := 0
  loopPcm16b := 0

def longBuffer : MixBuffer := ⟨0, 100, fun _ => 0, 0⟩

theorem hardwareSampinc_pos (timer : BitVec 16) : 0 < hardwareSampinc timer := by
  have htimer : (timer.toNat : ℚ) < 0x10000 := by exact_mod_cast timer.isLt
  exact div_pos (by norm_num) (sub_pos.mpr htimer)

/-- A fast channel passes over the header at once. -/
theorem decodesData_fast :
    Voice.DecodesData (oneByte 0 0x70) longBuffer (sixteenBytes 0xFFDE)
      (List.replicate 3 (.mix true)) :=
  decodesData hardwareSampinc_pos rfl (by decide) (by decide +kernel)

/-- The sample 112 of the header is taken for two nibbles of data. -/
theorem header_decoded_as_data :
    ¬ Voice.DecodesData (oneByte 0 0x70) longBuffer (sixteenBytes 0xFE85)
      (List.replicate 11 (.mix true)) := by
  intro h
  have hseen : (Voice.afterKeyOn (oneByte 0 0x70) longBuffer (sixteenBytes 0xFE85)
      (List.replicate 11 (.mix true))).map (fun v =>
        (v.chan.status, v.chan.addr, v.chan.position, decide (0 ≤ v.chan.sampcnt),
          (v.chan.fetchSample (oneByte 0 0x70)).map fun r => r.2.pcm16b)) =
      some (chanstatPlay, 0, 8, true, some 133) := by
    decide +kernel
  obtain ⟨v, hrun, hv⟩ := h.2 ⟨0x70, 0, by decide⟩ ⟨rfl, rfl⟩ (by decide +kernel)
  rw [hrun, Option.map_some, Option.some.injEq] at hseen
  simp only [Prod.mk.injEq, decide_eq_true_eq] at hseen
  obtain ⟨hstatus, haddr, hposition, hpos, hfetch⟩ := hseen
  obtain ⟨data, c, hc, hstands⟩ := hv hstatus hpos hposition.ge
  rw [hc, Option.map_some, Option.some.injEq] at hfetch
  rw [haddr, hposition] at hstands
  have hdata : (decodeNibbles (oneByte 0 0x70) 0 8 (8 + 1) ⟨0x70, 0, by decide⟩).predictor = 112 := by
    decide +kernel
  exact absurd (hfetch.symm.trans (hstands.pcm16b.trans hdata)) (by decide)

/-- A header may name a row that the tables do not have. -/
theorem row_behind_tables :
    ¬ Voice.DecodesData (oneByte 2 89) longBuffer (sixteenBytes 0xFFDE) [.mix true] := by
  intro h
  have hrow : (Voice.afterKeyOn (oneByte 2 89) longBuffer (sixteenBytes 0xFFDE) [.mix true]).map
      (fun v => (v.chan.fetchSample (oneByte 2 89)).isNone) = some true := by
    decide +kernel
  obtain ⟨v, hrun, hnone⟩ := Option.map_eq_some_iff.mp hrow
  exact h.1 v hrun (Option.isNone_iff_eq_none.mp hnone)

end Desmume.Sound
