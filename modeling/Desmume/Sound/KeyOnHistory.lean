import Desmume.Sound.ChannelAgreement

/-! What a channel still has of its history when it is keyed on. -/

namespace Desmume.Sound
open Library

/-! ### The state that a key on starts from -/

namespace ChannelStruct

variable {env : SpuEnv ℚ} {c : ChannelStruct ℚ}

/-- A channel without its state of play. -/
def cleared (c : ChannelStruct ℚ) : ChannelStruct ℚ := { c with status := 0, sampcnt := 0, sampinc := 0 }

/-- The registers of a channel, and nothing else. -/
def registers (c : ChannelStruct ℚ) : ChannelStruct ℚ := c.cleared.plain

/-- A key on sets the state of play anew. -/
theorem keyOn_cleared (env : SpuEnv ℚ) (h : c.format.toNat < 4) : c.keyOn env = c.cleared.keyOn env := by
  have hstart : (c.keyed env).startFormat env = (c.cleared.keyed env).startFormat env := by
    have hformat : (c.keyed env).format.toNat = c.format.toNat := rfl
    have hformat' : (c.cleared.keyed env).format.toNat = c.format.toNat := rfl
    rw [startFormat, startFormat, hformat, hformat']
    revert h
    generalize c.format.toNat = n
    intro h
    rcases n with _ | _ | _ | _ | n
    · rfl
    · rfl
    · rfl
    · rfl
    · omega
  rw [keyOn_eq, keyOn_eq, hstart]

theorem keyOn_registers (env : SpuEnv ℚ) (c : ChannelStruct ℚ) :
    (c.keyOn env).registers = c.registers := by
  have hstart : ((c.keyed env).startFormat env).registers = c.registers := by
    rw [startFormat]
    split <;> rfl
  exact hstart

theorem Sane.keyOn (h : Sane c) : Sane (c.keyOn env) := by
  have hstart : Sane ((c.keyed env).startFormat env) := by
    rw [startFormat]
    split <;> exact ⟨h.format, h.volumeDiv⟩
  exact ⟨hstart.format, hstart.volumeDiv⟩

theorem Sane.keyProbe (masteren : BitVec 8) (h : Sane c) : Sane (c.keyProbe env masteren) := by
  rw [ChannelStruct.keyProbe]
  split_ifs
  · exact h.keyOn
  · exact h
  · exact ⟨h.format, h.volumeDiv⟩
  · exact h
  · exact h

theorem Sane.write {masteren : BitVec 8} {start : Prop} {w : ChannelStruct ℚ → ChannelStruct ℚ}
    (h : Sane c) (hw : Writes env masteren start w) : Sane (w c) := by
  cases hw with
  | fields hkeeps _ => exact hkeeps.sane c h
  | probe r hr hwrite _ _ =>
    rw [hwrite]
    exact (hr.sane c h).keyProbe masteren

/-- The write with the start bit keys a stopped channel on. -/
theorem Writes.keyOn {masteren : BitVec 8} {start : Prop} {w : ChannelStruct ℚ → ChannelStruct ℚ}
    (hw : Writes env masteren start w) (hstopped : c.status = chanstatStopped) (hstart : start)
    (hmaster : masteren ≠ 0) : ∃ r, Keeps r ∧ w c = (r c).keyOn env := by
  cases hw with
  | fields _ hnot => exact absurd hstart hnot
  | probe r hr hwrite hstatus hkeyon =>
    refine ⟨r, hr, ?_⟩
    rw [hwrite, keyProbe_stopped env _ masteren ((hstatus c).trans hstopped),
      if_pos ⟨(hkeyon c).mpr hstart, hmaster⟩]

end ChannelStruct

namespace MixChannel
open ChannelStruct AdpcmChannel

variable {c : MixChannel} {env : SpuEnv ℚ} {num : Fin 16}

theorem sane_of_plain {c' : ChannelStruct ℚ} {d : ChannelStruct ℚ} (h : c'.plain = d.plain) (hd : Sane d) :
    Sane c' := by
  have hformat : c'.plain.format = d.plain.format := congrArg ChannelStruct.format h
  have hdiv : c'.plain.volumeDiv = d.plain.volumeDiv := congrArg ChannelStruct.volumeDiv h
  exact ⟨hformat ▸ hd.format, hdiv ▸ hd.volumeDiv⟩

theorem testForLoop_sane {shift : ℕ} {r : ℤ × MixChannel} (h : c.testForLoop shift = some r)
    (hc : Sane c.toChannelStruct) : Sane r.2.toChannelStruct := by
  rw [MixChannel.testForLoop] at h
  split_ifs at h
  · obtain ⟨x, -, rfl⟩ := Option.map_eq_some_iff.mp h
    exact ⟨hc.format, hc.volumeDiv⟩
  · obtain rfl := Option.some.inj h
    exact ⟨hc.format, hc.volumeDiv⟩
  · obtain rfl := Option.some.inj h
    exact hc

theorem advance_sane {c' : MixChannel} (h : c.advance env = some c') (hc : Sane c.toChannelStruct) :
    Sane c'.toChannelStruct := by
  have hmoved : Sane c.moved.toChannelStruct := ⟨hc.format, hc.volumeDiv⟩
  have htest {shift : ℕ} (ht : (c.moved.testForLoop shift).map Prod.snd = some c') :
      Sane c'.toChannelStruct := by
    obtain ⟨r, hr, rfl⟩ := Option.map_eq_some_iff.mp ht
    exact testForLoop_sane hr hmoved
  rw [MixChannel.advance] at h
  split_ifs at h
  · rwa [← Option.some.inj h]
  · revert h
    generalize c.format.toNat = n
    intro h
    rcases n with _ | _ | _ | _ | n
    · exact htest h
    · exact htest h
    · obtain ⟨⟨ret, e⟩, hr, rfl⟩ := Option.map_eq_some_iff.mp h
      have he : Sane e.toChannelStruct := testForLoop_sane hr hmoved
      change Sane (Voice.afterTest env ret e.toAdpcmChannel).toChannelStruct
      rw [Voice.afterTest]
      split_ifs
      · exact sane_of_plain (plain_of_undecoded (undecoded_restart env _)).1 he
      · exact ⟨he.format, he.volumeDiv⟩
      · exact he
    · rwa [← Option.some.inj h]
    · rwa [← Option.some.inj h]

theorem round_sane {actuallyMix : Bool} {out : Option Sample} {c' : MixChannel}
    (h : c.round env num actuallyMix = some (out, c')) (hc : Sane c.toChannelStruct) :
    Sane c'.toChannelStruct := by
  obtain ⟨⟨out', e⟩, hhear, hrest⟩ := Option.bind_eq_some_iff.mp h
  obtain ⟨e', hadv, he⟩ := Option.map_eq_some_iff.mp hrest
  obtain ⟨-, rfl⟩ := Prod.mk.inj he
  exact advance_sane hadv (sane_of_plain (hear_open hhear).plain hc)

end MixChannel

namespace ChannelState
open MixChannel

variable {num : Fin 16} {s s' t t' : ChannelState} {o : ChannelOp}

theorem step_sane (hs : s.chan.Sane) (h : nextM (step num) s o = some s') : s'.chan.Sane := by
  rw [nextM] at h
  cases o with
  | writeByte reg val =>
    obtain rfl := Option.some.inj h
    exact hs.write (ChannelStruct.writes_byte s.bus.env s.masteren reg val)
  | writeWord reg val =>
    obtain rfl := Option.some.inj h
    exact hs.write (ChannelStruct.writes_word s.bus.env s.masteren reg val)
  | writeLong reg val =>
    obtain rfl := Option.some.inj h
    exact hs.write (ChannelStruct.writes_long s.bus.env s.masteren reg val)
  | master masteren =>
    obtain rfl := Option.some.inj h
    exact hs.keyProbe masteren
  | memory bus =>
    obtain rfl := Option.some.inj h
    exact hs
  | round actuallyMix =>
    rw [step] at h
    split_ifs at h
    · obtain ⟨r, hr, rfl⟩ := Option.map_eq_some_iff.mp h
      obtain ⟨⟨out, c⟩, hround, rfl⟩ := Option.map_eq_some_iff.mp hr
      exact round_sane hround hs
    · obtain rfl := Option.some.inj h
      exact hs

/-- What a channel comes to in a run of the unit. -/
def Reachable (num : Fin 16) (s : ChannelState) : Prop :=
  ∃ bus history m, runM (nextM Mixer.step) (Mixer.reset bus) history = some m ∧ m.view num = s

theorem Reachable.sane (h : Reachable num s) : s.chan.Sane := by
  obtain ⟨bus, history, m, hm, rfl⟩ := h
  have hrun := (Mixer.run_view num hm).1
  refine @runM_invariant _ _ _ (fun s => s.chan.Sane) (fun _ _ _ hs => step_sane hs) _ _ _ ?_ hrun
  exact ⟨show (0 : ℕ) < 4 by decide, show (0 : ℕ) < 4 by decide⟩

/-! ### Two histories -/

/-- After some history an operation keys the channel on. -/
structure KeyedOn (num : Fin 16) (s s' : ChannelState) : Prop where
  reachable : Reachable num s
  keys : ∃ o, s.KeysOn o ∧ nextM (step num) s o = some s'

/-- The channels have the same registers, and there is the same memory. -/
structure SameRegisters (s t : ChannelState) : Prop where
  chan : s.chan.registers = t.chan.registers
  masteren : s.masteren = t.masteren
  bus : s.bus = t.bus

/-- The parts that a key on sets, and those in which the channels agreed before. -/
def knownAfter (format : BitVec 8) (s t : ChannelState) : Set Part :=
  {p | KeyOnSets format p} ∪ {p | SamePart p s.chan t.chan}

theorem KeysOn.keyOn (hk : s.KeysOn o) (h : nextM (step num) s o = some s') :
    ∃ r, ChannelStruct.Keeps r ∧
      s'.chan = (s.chan.mapStruct r).mapStruct (ChannelStruct.keyOn s'.bus.env) := by
  obtain ⟨hstopped, hk⟩ := hk
  have hwrite {start : Prop} {w : ChannelStruct ℚ → ChannelStruct ℚ}
      (hw : ChannelStruct.Writes s.bus.env s.masteren start w) (hstart : start) (hm : s.masteren ≠ 0) :
      ∃ r, ChannelStruct.Keeps r ∧
        (s.write w).chan = (s.chan.mapStruct r).mapStruct (ChannelStruct.keyOn s.bus.env) := by
    obtain ⟨r, hr, hkey⟩ := hw.keyOn hstopped hstart hm
    refine ⟨r, hr, ?_⟩
    rw [write, mapStruct, hkey]
    rfl
  cases o with
  | writeByte reg val =>
    obtain rfl := Option.some.inj h
    exact hwrite (ChannelStruct.writes_byte s.bus.env s.masteren reg val) hk.1 hk.2
  | writeWord reg val =>
    obtain rfl := Option.some.inj h
    exact hwrite (ChannelStruct.writes_word s.bus.env s.masteren reg val) hk.1 hk.2
  | writeLong reg val =>
    obtain rfl := Option.some.inj h
    exact hwrite (ChannelStruct.writes_long s.bus.env s.masteren reg val) hk.1 hk.2
  | master masteren =>
    obtain rfl := Option.some.inj h
    refine ⟨id, ChannelStruct.keeps_id, ?_⟩
    change s.chan.mapStruct (ChannelStruct.keyProbe s.bus.env masteren) = _
    rw [mapStruct, ChannelStruct.keyProbe_stopped _ _ masteren hstopped, if_pos hk]
    rfl
  | memory bus => exact hk.1.elim
  | round actuallyMix => exact hk.1.elim

/-- A channel before it is keyed on, with nothing but its registers and what is hidden. -/
def keyedFrom (r : ChannelStruct ℚ → ChannelStruct ℚ) (c : MixChannel) : MixChannel :=
  (c.mapStruct r).mapStruct ChannelStruct.cleared

theorem KeyedOn.from_cleared (h : KeyedOn num s s') : ∃ r, ChannelStruct.Keeps r ∧
    s'.chan = (keyedFrom r s.chan).mapStruct (ChannelStruct.keyOn s'.bus.env) := by
  obtain ⟨hreach, o, hk, hstep⟩ := h
  obtain ⟨r, hr, hchan⟩ := hk.keyOn hstep
  have hsane : (r s.chan.toChannelStruct).Sane := hr.sane _ hreach.sane
  refine ⟨r, hr, hchan.trans ?_⟩
  have hkey := ChannelStruct.keyOn_cleared s'.bus.env hsane.format
  rw [mapStruct, mapStruct]
  exact congrArg (fun x => { s.chan with toChannelStruct := x }) hkey

theorem KeyedOn.agree (hs : KeyedOn num s s') (ht : KeyedOn num t t') (hregs : SameRegisters s' t') :
    Agree (knownAfter s'.chan.format s t) s' t' := by
  obtain ⟨r, hr, hchan⟩ := hs.from_cleared
  obtain ⟨r', hr', hchan'⟩ := ht.from_cleared
  have hbefore : MixChannel.Agree {p | SamePart p s.chan t.chan} (keyedFrom r s.chan)
      (keyedFrom r' t.chan) := by
    refine ⟨?_, fun p hp => ?_⟩
    · have hreg {e : ChannelState} {c : MixChannel}
          (he : e.chan = c.mapStruct (ChannelStruct.keyOn e.bus.env)) : e.chan.registers = c.registers := by
        rw [he]
        exact ChannelStruct.keyOn_registers e.bus.env c.toChannelStruct
      have hsame := hregs.chan
      rw [hreg hchan, hreg hchan'] at hsame
      exact hsame
    · have hp₁ : SamePart p (s.chan.mapStruct r) (t.chan.mapStruct r') :=
        SamePart.mapStruct (hr.hidden _) (hr'.hidden _) hp
      exact SamePart.mapStruct ⟨rfl, rfl, rfl, rfl, rfl, rfl, rfl⟩ ⟨rfl, rfl, rfl, rfl, rfl, rfl, rfl⟩ hp₁
  have hformat : s'.chan.format = (keyedFrom r s.chan).format := by
    rw [hchan]
    exact ChannelStruct.keyOn_format _ _
  have hafter := @MixChannel.Agree.keyOn _ _ _ s'.bus.env hbefore
  refine ⟨?_, hregs.masteren, hregs.bus⟩
  rw [← hchan, ← hformat, hregs.bus, ← hchan'] at hafter
  exact hafter.mono fun p hp => hp.symm

/-- After two histories a key on with the same registers and the same memory leads to the same samples,
as long as nothing is read that it leaves and in which the histories differ. -/
theorem keyOn_forgets {s s' t t' : ChannelState} (hs : KeyedOn num s s') (ht : KeyedOn num t t')
    (hregs : SameRegisters s' t') {ops : List ChannelOp}
    (h : ReadsKnown num (knownAfter s'.chan.format s t) s' ops) :
    outputs (step num) s' ops = outputs (step num) t' ops := (hs.agree ht hregs).outputs_eq h

/-! ### Two histories of one channel -/

/-- A write to the control register of the channel. -/
def control (val : BitVec 32) (s : ChannelState) : ChannelState :=
  s.write fun c => c.writeLong s.bus.env s.masteren 0 val

theorem keyedOn_control {bus : SoundBus} {history : List MixerOp} {m : Mixer}
    (hm : runM (nextM Mixer.step) (Mixer.reset bus) history = some m) {val : BitVec 32}
    (hval : val.getLsbD 31 = true) (hstopped : (m.channel num).status = chanstatStopped)
    (hmaster : m.spu.masteren ≠ 0) : KeyedOn num (m.view num) ((m.view num).control val) :=
  ⟨⟨bus, history, m, hm, rfl⟩, .writeLong 0 val, ⟨hstopped, ⟨rfl, hval⟩, hmaster⟩, rfl⟩

/-- Without a change of the memory a run keeps it. -/
theorem run_bus {m m' : Mixer} {ops : List MixerOp} (hops : ∀ op ∈ ops, ∀ bus, op ≠ .memory bus)
    (h : runM (nextM Mixer.step) m ops = some m') : m'.bus = m.bus := by
  induction ops generalizing m with
  | nil =>
    obtain rfl := Option.some.inj h
    rfl
  | cons op ops ih =>
    obtain ⟨m₁, hstep, hrest⟩ := runM_cons_eq_some.mp h
    refine (ih (fun o ho => hops o (List.mem_cons_of_mem op ho)) hrest).trans ?_
    obtain ⟨⟨out, m₁⟩, hop, rfl⟩ := Option.map_eq_some_iff.mp hstep
    cases op with
    | memory bus => exact absurd rfl (hops _ List.mem_cons_self bus)
    | round n actuallyMix =>
      rw [Mixer.step] at hop
      split_ifs at hop
      · obtain ⟨r, -, hr⟩ := Option.map_eq_some_iff.mp hop
        rw [← (Prod.mk.inj hr).2]
        rfl
      · rw [← (Prod.mk.inj (Option.some.inj hop)).2]
    | _ =>
      rw [← (Prod.mk.inj (Option.some.inj hop)).2]

deriving instance DecidableEq for ChannelStruct

/-- The master enable, and the timer of a channel. -/
def prelude (channel : ℕ) : List MixerOp :=
  [.writeWord 0x500 0x8000, .writeLong (0x408 + channel) 0xFF00, .writeLong (0x40C + channel) 4]

/-- The noise of channel 14, played and stopped. -/
def noisePlayed : List MixerOp :=
  prelude 0xE0 ++ [.writeLong 0x4E0 0xE040007F, .round 14 true, .round 14 true, .round 14 true,
    .writeLong 0x4E0 0x6040007F]

/-- The data of channel 0, played and stopped. -/
def dataPlayed : List MixerOp :=
  prelude 0 ++ [.writeLong 0x400 0xC040007F, .round 0 true, .round 0 true, .writeLong 0x400 0x4040007F]

/-- ADPCM data sounds the same after both histories of the channel. -/
theorem adpcm_forgets :
    ∃ m n, runM (nextM Mixer.step) (Mixer.reset Mixer.silentBus) (prelude 0) = some m ∧
      runM (nextM Mixer.step) (Mixer.reset Mixer.silentBus) dataPlayed = some n ∧
      m.channel 0 ≠ n.channel 0 ∧
      outputs (step 0) ((m.view 0).control 0xC040007F) (List.replicate 20 (.round true)) =
        outputs (step 0) ((n.view 0).control 0xC040007F) (List.replicate 20 (.round true)) := by
  have hseen : ((runM (nextM Mixer.step) (Mixer.reset Mixer.silentBus) (prelude 0)).bind fun m =>
      (runM (nextM Mixer.step) (Mixer.reset Mixer.silentBus) dataPlayed).map fun n =>
        (((m.channel 0).status, (n.channel 0).status), (m.spu.masteren, n.spu.masteren),
          ((m.channel 0).sampcnt, (n.channel 0).sampcnt), ((m.view 0).control 0xC040007F).chan.format,
          decide (((m.view 0).control 0xC040007F).chan.registers =
              ((n.view 0).control 0xC040007F).chan.registers ∧
            (m.channel 0).x = (n.channel 0).x ∧ (m.channel 0).psgnoiseLast = (n.channel 0).psgnoiseLast))) =
      some ((chanstatStopped, chanstatStopped), (1, 1), (0, 2 * hardwareSampinc 0xFF00 - 3), 2, true) := by
    decide +kernel
  obtain ⟨m, hm, hrest⟩ := Option.bind_eq_some_iff.mp hseen
  obtain ⟨n, hn, hv⟩ := Option.map_eq_some_iff.mp hrest
  simp only [Prod.mk.injEq, decide_eq_true_eq] at hv
  obtain ⟨⟨hstopped, hstopped'⟩, ⟨hmaster, hmaster'⟩, ⟨hpos, hpos'⟩, hformat, hregs, hx, hnoise⟩ := hv
  have hone : (1 : BitVec 8) ≠ 0 := by decide
  have hbus : m.bus = n.bus := by
    rw [run_bus (by simp [prelude]) hm, run_bus (by simp [prelude, dataPlayed]) hn]
  have hs : KeyedOn 0 (m.view 0) ((m.view 0).control 0xC040007F) :=
    keyedOn_control hm (by decide) hstopped (hmaster ▸ hone)
  have ht : KeyedOn 0 (n.view 0) ((n.view 0).control 0xC040007F) :=
    keyedOn_control hn (by decide) hstopped' (hmaster' ▸ hone)
  refine ⟨m, n, hm, hn, fun heq => ?_, ?_⟩
  · have hmoved : (0 : ℚ) ≠ 2 * hardwareSampinc 0xFF00 - 3 := by decide +kernel
    exact hmoved (hpos.symm.trans ((congrArg (fun c => c.sampcnt) heq).trans hpos'))
  · refine keyOn_forgets hs ht ⟨hregs, hmaster.trans hmaster'.symm, hbus⟩ (readsKnown_of_all ?_ _ _)
    intro p
    cases p with
    | generator => exact .inr hx
    | noise => exact .inr hnoise
    | totals => exact .inl trivial
    | decoder => exact .inl hformat
    | loop => exact .inl hformat
    | last => exact .inl hformat

/-- The noise begins with the last sample of the sound before. -/
theorem noise_remembered :
    ¬ ∀ num s s' t t', KeyedOn num s s' → KeyedOn num t t' → SameRegisters s' t' →
      ∀ ops, outputs (step num) s' ops = outputs (step num) t' ops := by
  intro h
  have hseen : ((runM (nextM Mixer.step) (Mixer.reset Mixer.silentBus) (prelude 0xE0)).bind fun m =>
      (runM (nextM Mixer.step) (Mixer.reset Mixer.silentBus) noisePlayed).map fun n =>
        (((m.channel 14).status, (n.channel 14).status), (m.spu.masteren, n.spu.masteren),
          decide (((m.view 14).control 0xE040007F).chan.registers =
            ((n.view 14).control 0xE040007F).chan.registers),
          decide (outputs (step 14) ((m.view 14).control 0xE040007F) [.round true, .round true] =
            outputs (step 14) ((n.view 14).control 0xE040007F) [.round true, .round true]))) =
      some ((chanstatStopped, chanstatStopped), (1, 1), true, false) := by
    decide +kernel
  obtain ⟨m, hm, hrest⟩ := Option.bind_eq_some_iff.mp hseen
  obtain ⟨n, hn, hv⟩ := Option.map_eq_some_iff.mp hrest
  simp only [Prod.mk.injEq, decide_eq_true_eq, decide_eq_false_iff_not] at hv
  obtain ⟨⟨hstopped, hstopped'⟩, ⟨hmaster, hmaster'⟩, hregs, hout⟩ := hv
  have hone : (1 : BitVec 8) ≠ 0 := by decide
  have hbus : m.bus = n.bus := by
    rw [run_bus (by simp [prelude]) hm, run_bus (by simp [prelude, noisePlayed]) hn]
  have hs : KeyedOn 14 (m.view 14) ((m.view 14).control 0xE040007F) :=
    keyedOn_control hm (by decide) hstopped (hmaster ▸ hone)
  have ht : KeyedOn 14 (n.view 14) ((n.view 14).control 0xE040007F) :=
    keyedOn_control hn (by decide) hstopped' (hmaster' ▸ hone)
  exact hout (h 14 _ _ _ _ hs ht ⟨hregs, hmaster.trans hmaster'.symm, hbus⟩ _)

end ChannelState

end Desmume.Sound
