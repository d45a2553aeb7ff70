import Desmume.Sound.MixerDefs
import Desmume.Sound.SpuWrites
import Mathlib.Data.List.ReduceOption

/-! Runs of the sound unit: each channel goes its own way through them, and a channel that has come to
its end. -/

namespace Desmume.Sound
open Library SpuStruct

/-! ### What a run is to a channel -/

section Writes

variable {φ : Type} (env : SpuEnv φ) (s : SpuStruct φ) {addr : ℕ} (num : Fin 16)

/-- A write to the registers of a channel, as another one or the same sees it. -/
theorem setChannel_channels_eq (n : Fin 16) (f : ChannelStruct φ → ChannelStruct φ) :
    (s.setChannel n (f (s.channels n))).channels num =
      if n = num then f (s.channels num) else s.channels num := by
  split_ifs with h
  · subst h
    exact setChannel_channels_self ..
  · exact setChannel_channels_of_ne _ (Ne.symm h) _

theorem writeByte_rest (h : ¬ isChannel addr) (hcnt : addr ≠ 0x501) (val : BitVec 8) :
    (s.writeByte env addr val).channels = s.channels ∧
      (s.writeByte env addr val).masteren = s.masteren := by
  unfold SpuStruct.writeByte
  rw [if_neg h]
  split <;> first | exact ⟨rfl, rfl⟩ | exact absurd rfl hcnt

theorem writeWord_rest (h : ¬ isChannel addr) (hcnt : addr ≠ 0x500) (val : BitVec 16) :
    (s.writeWord env addr val).channels = s.channels ∧
      (s.writeWord env addr val).masteren = s.masteren := by
  unfold SpuStruct.writeWord
  rw [if_neg h]
  split <;> first | exact ⟨rfl, rfl⟩ | exact absurd rfl hcnt

theorem writeLong_rest (h : ¬ isChannel addr) (hcnt : addr ≠ 0x500) (val : BitVec 32) :
    (s.writeLong env addr val).channels = s.channels ∧
      (s.writeLong env addr val).masteren = s.masteren := by
  unfold SpuStruct.writeLong
  rw [if_neg h]
  split <;> first | exact ⟨rfl, rfl⟩ | exact absurd rfl hcnt

end Writes

namespace Mixer

variable {m : Mixer} {num : Fin 16}

/-- What a channel puts out of what the unit does. -/
def sampleOf (num : Fin 16) (out : Option (Fin 16 × Sample)) : Option Sample :=
  out.bind fun r => if r.1 = num then some r.2 else none

theorem view_write {spu : SpuStruct ℚ} {f : ChannelStruct ℚ → ChannelStruct ℚ}
    (hchan : spu.channels num = f (m.spu.channels num)) (hmaster : spu.masteren = m.spu.masteren) :
    { m with spu := spu }.view num = (m.view num).write f := by
  simp only [view, channel, ChannelState.write, MixChannel.mapStruct, hchan, hmaster]

theorem view_same {spu : SpuStruct ℚ} (hchan : spu.channels num = m.spu.channels num)
    (hmaster : spu.masteren = m.spu.masteren) : { m with spu := spu }.view num = m.view num := by
  simp only [view, channel, hchan, hmaster]

/-- An operation and its result, as one channel sees them. -/
def Seen (num : Fin 16) (m : Mixer) (op : MixerOp) (r : Option (Fin 16 × Sample) × Mixer) : Prop :=
  match op.project num with
  | none => sampleOf num r.1 = none ∧ r.2.view num = m.view num
  | some o => ChannelState.step num (m.view num) o = some (sampleOf num r.1, r.2.view num)

/-- A write to a channel is seen by that channel only. -/
theorem seen_channel_write {n : Fin 16} {f : ChannelStruct ℚ → ChannelStruct ℚ} {op : MixerOp}
    {o : ChannelOp} (hproject : op.project num = if n = num then some o else none)
    (hstep : ChannelState.step num (m.view num) o = some (none, (m.view num).write f)) :
    Seen num m op (none, { m with spu := m.spu.setChannel n (f (m.spu.channels n)) }) := by
  have hchan := setChannel_channels_eq m.spu num n f
  rw [Seen, hproject]
  split_ifs at hchan ⊢
  · have hview := view_write hchan (setChannel_masteren ..)
    change _ = some (none, _)
    rw [hview]
    exact hstep
  · exact ⟨rfl, view_same hchan (setChannel_masteren ..)⟩

theorem seen_rest {spu : SpuStruct ℚ} {op : MixerOp} (hproject : op.project num = none)
    (h : spu.channels = m.spu.channels ∧ spu.masteren = m.spu.masteren) :
    Seen num m op (none, { m with spu := spu }) := by
  rw [Seen, hproject]
  exact ⟨rfl, view_same (congrFun h.1 num) h.2⟩

theorem view_setChannel_self (c : MixChannel) :
    (m.setChannel num c).view num = { m.view num with chan := c } := by
  simp only [view, channel, setChannel, setChannel_channels_self, setChannel_masteren,
    Function.update_self]

theorem view_setChannel_of_ne {n : Fin 16} (h : num ≠ n) (c : MixChannel) :
    (m.setChannel n c).view num = m.view num := by
  simp only [view, channel, setChannel, setChannel_channels_of_ne _ h, setChannel_masteren,
    Function.update_of_ne h]

/-- Every step is seen by a channel as its own step, or not at all. -/
theorem step_seen (num : Fin 16) {op : MixerOp} {r : Option (Fin 16 × Sample) × Mixer}
    (h : m.step op = some r) : Seen num m op r := by
  cases op with
  | writeByte addr val =>
    obtain rfl := Option.some.inj h
    by_cases hch : isChannel addr
    · rw [writeByte_channel m.bus.env m.spu hch]
      have hproject : MixerOp.project num (.writeByte addr val) =
          if chanNum addr = num then some (.writeByte (addr &&& 0xF) val) else none := if_pos hch
      exact seen_channel_write hproject rfl
    · by_cases hcnt : addr = 0x501
      · subst hcnt
        rfl
      · exact seen_rest (by simp only [MixerOp.project, if_neg hch, if_neg hcnt])
          (writeByte_rest m.bus.env m.spu hch hcnt val)
  | writeWord addr val =>
    obtain rfl := Option.some.inj h
    by_cases hch : isChannel addr
    · rw [writeWord_channel m.bus.env m.spu hch]
      have hproject : MixerOp.project num (.writeWord addr val) =
          if chanNum addr = num then some (.writeWord (addr &&& 0xF) val) else none := if_pos hch
      exact seen_channel_write hproject rfl
    · by_cases hcnt : addr = 0x500
      · subst hcnt
        rfl
      · exact seen_rest (by simp only [MixerOp.project, if_neg hch, if_neg hcnt])
          (writeWord_rest m.bus.env m.spu hch hcnt val)
  | writeLong addr val =>
    obtain rfl := Option.some.inj h
    by_cases hch : isChannel addr
    · rw [writeLong_channel m.bus.env m.spu hch]
      have hproject : MixerOp.project num (.writeLong addr val) =
          if chanNum addr = num then some (.writeLong (addr &&& 0xF) val) else none := if_pos hch
      exact seen_channel_write hproject rfl
    · by_cases hcnt : addr = 0x500
      · subst hcnt
        rfl
      · exact seen_rest (by simp only [MixerOp.project, if_neg hch, if_neg hcnt])
          (writeLong_rest m.bus.env m.spu hch hcnt val)
  | memory bus =>
    obtain rfl := Option.some.inj h
    rfl
  | round n actuallyMix =>
    rw [step] at h
    by_cases hnum : n = num
    · subst hnum
      rw [Seen, MixerOp.project, if_pos rfl]
      change ChannelState.step n (m.view n) (.round actuallyMix) = _
      rw [ChannelState.step]
      split_ifs at h ⊢
      · obtain ⟨x, hx, rfl⟩ := Option.map_eq_some_iff.mp h
        obtain ⟨out, c⟩ := x
        have hround : (m.view n).chan.round (m.view n).bus.env n actuallyMix = some (out, c) := hx
        rw [hround, Option.map_some, view_setChannel_self]
        cases out with
        | none => rfl
        | some sample => simp only [sampleOf, Option.map_some, Option.bind_some, if_pos]
      · obtain rfl := Option.some.inj h
        rfl
    · rw [Seen, MixerOp.project, if_neg hnum]
      split_ifs at h
      · obtain ⟨⟨out, c⟩, -, rfl⟩ := Option.map_eq_some_iff.mp h
        refine ⟨?_, view_setChannel_of_ne (Ne.symm hnum) c⟩
        cases out with
        | none => rfl
        | some sample => exact if_neg hnum
      · obtain rfl := Option.some.inj h
        exact ⟨rfl, rfl⟩

/-- A run of the unit is to each channel a run of its own, with the samples that it puts out. -/
theorem run_view (num : Fin 16) {m m' : Mixer} {ops : List MixerOp}
    (h : runM (nextM step) m ops = some m') :
    runM (nextM (ChannelState.step num)) (m.view num) (ops.filterMap (MixerOp.project num)) =
        some (m'.view num) ∧
      (outputs step m ops).filterMap (sampleOf num) =
        (outputs (ChannelState.step num) (m.view num)
          (ops.filterMap (MixerOp.project num))).reduceOption := by
  induction ops generalizing m with
  | nil =>
    obtain rfl := Option.some.inj h
    exact ⟨rfl, rfl⟩
  | cons op ops ih =>
    obtain ⟨m₁, hstep, hrest⟩ := runM_cons_eq_some.mp h
    obtain ⟨⟨out, m₁⟩, hop, rfl⟩ := Option.map_eq_some_iff.mp hstep
    obtain ⟨hrun, hout⟩ := ih hrest
    have hseen := step_seen num hop
    rw [Seen] at hseen
    rw [outputs, hop]
    cases hproject : op.project num with
    | none =>
      rw [hproject] at hseen
      obtain ⟨hsilent, hview⟩ := hseen
      rw [List.filterMap_cons_none hproject, ← hview]
      exact ⟨hrun, by rw [List.filterMap_cons_none hsilent, hout]⟩
    | some o =>
      rw [hproject] at hseen
      replace hseen : ChannelState.step num (m.view num) o = some (sampleOf num out, m₁.view num) :=
        hseen
      rw [List.filterMap_cons_some hproject, outputs, hseen]
      refine ⟨runM_cons_eq_some.mpr ⟨m₁.view num, by rw [nextM, hseen]; rfl, hrun⟩, ?_⟩
      cases hsample : sampleOf num out with
      | none => rw [List.filterMap_cons_none hsample, List.reduceOption_cons_of_none, hout]
      | some sample =>
        rw [List.filterMap_cons_some hsample, List.reduceOption_cons_of_some, hout]

end Mixer

/-! ### The end of a sound -/

/-- A bit of a register that is kept in a byte. -/
theorem bits_one_eq_zero_iff {w : ℕ} (x : BitVec w) (lo : ℕ) :
    bits x lo 1 = 0 ↔ x.getLsbD lo = false := by
  constructor
  · intro h
    have hbit := getLsbD_bits x lo 1 (show 0 < 8 by decide)
    rw [h] at hbit
    simpa using hbit.symm
  · intro h
    refine BitVec.eq_of_getLsbD_eq fun i hi => ?_
    rw [getLsbD_bits x lo 1 hi]
    by_cases hzero : i = 0
    · subst hzero
      simpa using h
    · simp [hzero]

namespace ChannelStruct

variable {φ : Type} (env : SpuEnv φ) (c : ChannelStruct φ)

/-- Nothing of the channel is to be played. -/
def NoLength : Prop :=
  c.format ≠ 3 ∧ (c.length + c.loopstart.setWidth 32) <<< formatShift c.format = 0

instance : Decidable c.NoLength := inferInstanceAs (Decidable (_ ∧ _))

theorem startFormat_keeps : (c.startFormat env).format = c.format ∧
    (c.startFormat env).totlength = c.totlength ∧ (c.startFormat env).status = c.status := by
  rw [startFormat]
  split <;> exact ⟨rfl, rfl, rfl⟩

theorem keyOn_status :
    (c.keyOn env).status = if c.NoLength then chanstatStopped else chanstatPlay := by
  obtain ⟨hformat, htot, hstatus⟩ := startFormat_keeps env
    (adjustChannelTimer env
      { c with status := chanstatPlay, totlength := c.length + c.loopstart.setWidth 32 })
  rw [keyOn, startLength]
  simp only [shiftedLength, hformat, htot, hstatus]
  rfl

theorem keyProbe_stopped (masteren : BitVec 8) (h : c.status = chanstatStopped) :
    c.keyProbe env masteren = if c.keyon ≠ 0 ∧ masteren ≠ 0 then c.keyOn env else c := by
  rw [keyProbe, if_pos h]

/-- Without a start request a stopped channel stays stopped. -/
theorem keyProbe_idle {masteren : BitVec 8} (h : c.status = chanstatStopped) (hkey : c.keyon = 0) :
    (c.keyProbe env masteren).status = chanstatStopped := by
  rw [keyProbe_stopped env c masteren h, if_neg fun hboth => hboth.1 hkey, h]

theorem writeByte_status {masteren : BitVec 8} {reg : ℕ} {val : BitVec 8}
    (h : c.status = chanstatStopped) (hstart : ¬ (reg = 0x3 ∧ val.getLsbD 7 = true)) :
    (c.writeByte env masteren reg val).status = chanstatStopped := by
  unfold writeByte
  split
  case h_4 =>
    have hbit : val.getLsbD 7 = false := Bool.eq_false_of_not_eq_true fun hb => hstart ⟨rfl, hb⟩
    exact keyProbe_idle env _ h ((bits_one_eq_zero_iff val 7).mpr hbit)
  all_goals exact h

theorem writeWord_status {masteren : BitVec 8} {reg : ℕ} {val : BitVec 16}
    (h : c.status = chanstatStopped) (hstart : ¬ (reg = 0x2 ∧ val.getLsbD 15 = true)) :
    (c.writeWord env masteren reg val).status = chanstatStopped := by
  unfold writeWord
  split
  case h_2 =>
    have hbit : val.getLsbD 15 = false := Bool.eq_false_of_not_eq_true fun hb => hstart ⟨rfl, hb⟩
    exact keyProbe_idle env _ h ((bits_one_eq_zero_iff val 15).mpr hbit)
  all_goals exact h

theorem writeLong_status {masteren : BitVec 8} {reg : ℕ} {val : BitVec 32}
    (h : c.status = chanstatStopped) (hstart : ¬ (reg = 0x0 ∧ val.getLsbD 31 = true)) :
    (c.writeLong env masteren reg val).status = chanstatStopped := by
  unfold writeLong
  split
  case h_1 =>
    have hbit : val.getLsbD 31 = false := Bool.eq_false_of_not_eq_true fun hb => hstart ⟨rfl, hb⟩
    exact keyProbe_idle env _ h ((bits_one_eq_zero_iff val 31).mpr hbit)
  all_goals exact h

end ChannelStruct

/-- A write to the channel's own control register with the start bit set. -/
def ChannelOp.StartBit : ChannelOp → Prop
  | .writeByte reg val => reg = 0x3 ∧ val.getLsbD 7 = true
  | .writeWord reg val => reg = 0x2 ∧ val.getLsbD 15 = true
  | .writeLong reg val => reg = 0x0 ∧ val.getLsbD 31 = true
  | .master _ => False
  | .memory _ => False
  | .round _ => False

namespace ChannelState

variable {s s' : ChannelState} {num : Fin 16} {o : ChannelOp}

/-- The master enable is written while the channel still has a start request, and something to play. -/
def Rekeys (s : ChannelState) : ChannelOp → Prop
  | .master masteren => masteren ≠ 0 ∧ s.chan.keyon ≠ 0 ∧ ¬ s.chan.NoLength
  | _ => False

/-- A channel that is stopped starts by its own start bit, or at a write of the master enable. -/
theorem stopped_iff_not_rekeys (hstopped : s.chan.status = chanstatStopped) (hown : ¬ o.StartBit)
    (h : nextM (step num) s o = some s') : s'.chan.status = chanstatStopped ↔ ¬ s.Rekeys o := by
  rw [nextM] at h
  cases o with
  | writeByte reg val =>
    obtain rfl := Option.some.inj h
    exact iff_of_true (ChannelStruct.writeByte_status _ _ hstopped hown) id
  | writeWord reg val =>
    obtain rfl := Option.some.inj h
    exact iff_of_true (ChannelStruct.writeWord_status _ _ hstopped hown) id
  | writeLong reg val =>
    obtain rfl := Option.some.inj h
    exact iff_of_true (ChannelStruct.writeLong_status _ _ hstopped hown) id
  | master masteren =>
    obtain rfl := Option.some.inj h
    change (s.chan.keyProbe s.bus.env masteren).status = _ ↔ _
    rw [ChannelStruct.keyProbe_stopped _ _ masteren hstopped, Rekeys]
    by_cases hkey : s.chan.keyon ≠ 0 ∧ masteren ≠ 0
    · rw [if_pos hkey, ChannelStruct.keyOn_status]
      split_ifs with hlength
      · exact iff_of_true rfl fun hall => hall.2.2 hlength
      · exact iff_of_false (by decide) (not_not.mpr ⟨hkey.2, hkey.1, hlength⟩)
    · rw [if_neg hkey]
      exact iff_of_true hstopped fun hall => hkey ⟨hall.2.1, hall.1⟩
  | memory bus =>
    obtain rfl := Option.some.inj h
    exact iff_of_true hstopped id
  | round actuallyMix =>
    have hidle : ¬ s.Sounding := fun hplay => absurd (hstopped.symm.trans hplay.2) (by decide)
    rw [step, if_neg hidle] at h
    obtain rfl := Option.some.inj h
    exact iff_of_true hstopped id

end ChannelState

namespace Mixer

def OwnStart (num : Fin 16) (op : MixerOp) : Prop := ∃ o, op.project num = some o ∧ o.StartBit

def Rekeys (num : Fin 16) (m : Mixer) (op : MixerOp) : Prop :=
  ∃ o, op.project num = some o ∧ (m.view num).Rekeys o

/-- A round in which a channel plays to its end. -/
structure Ends (num : Fin 16) (m : Mixer) (actuallyMix : Bool) (m₁ : Mixer) : Prop where
  plays : (m.channel num).status = chanstatPlay
  round : nextM step m (.round num actuallyMix) = some m₁
  stopped : (m₁.channel num).status = chanstatStopped

/-- In a run `P` holds of each stretch that begins where a channel has come to its end and in which
nothing is written to its control register with the start bit. -/
def AfterEnds (num : Fin 16) (bus : SoundBus) (ops : List MixerOp) (P : Mixer → List MixerOp → Prop) :
    Prop :=
  ∀ pre actuallyMix mid post m m₁, ops = pre ++ .round num actuallyMix :: (mid ++ post) →
    runM (nextM step) (reset bus) pre = some m → Ends num m actuallyMix m₁ →
    (∀ op ∈ mid, ¬ OwnStart num op) → P m₁ mid

/-- The channel stays stopped. -/
def StaysStopped (num : Fin 16) (bus : SoundBus) (ops : List MixerOp) : Prop :=
  AfterEnds num bus ops fun m₁ mid =>
    ∀ m₂, runM (nextM step) m₁ mid = some m₂ → (m₂.channel num).status = chanstatStopped

/-- No write of the master enable comes upon a start request that is left. -/
def NeverRekeyed (num : Fin 16) (bus : SoundBus) (ops : List MixerOp) : Prop :=
  AfterEnds num bus ops (AtEachM (nextM step) fun m op => ¬ Rekeys num m op)

theorem stopped_step {num : Fin 16} {m m' : Mixer} {op : MixerOp} (hown : ¬ OwnStart num op)
    (hstopped : (m.channel num).status = chanstatStopped) (h : nextM step m op = some m') :
    (m'.channel num).status = chanstatStopped ↔ ¬ Rekeys num m op := by
  obtain ⟨⟨out, m'⟩, hop, rfl⟩ := Option.map_eq_some_iff.mp h
  have hseen := step_seen num hop
  rw [Seen] at hseen
  cases hproject : op.project num with
  | none =>
    rw [hproject] at hseen
    have hchan : m'.channel num = m.channel num := congrArg ChannelState.chan hseen.2
    refine iff_of_true (by rw [hchan]; exact hstopped) ?_
    rintro ⟨o, ho, -⟩
    exact nomatch hproject.symm.trans ho
  | some o =>
    rw [hproject] at hseen
    replace hseen : ChannelState.step num (m.view num) o = some (sampleOf num out, m'.view num) := hseen
    have hbit : ¬ o.StartBit := fun ho => hown ⟨o, hproject, ho⟩
    have hnext : nextM (ChannelState.step num) (m.view num) o = some (m'.view num) := by
      rw [nextM, hseen]
      rfl
    have hiff := ChannelState.stopped_iff_not_rekeys hstopped hbit hnext
    refine hiff.trans (not_congr ⟨fun hr => ⟨o, hproject, hr⟩, ?_⟩)
    rintro ⟨o', ho', hr⟩
    obtain rfl := Option.some.inj (hproject.symm.trans ho')
    exact hr

/-- A step that fails is a round of the mixing loop. -/
theorem not_rekeys_of_fails {num : Fin 16} {m : Mixer} {op : MixerOp} (h : nextM step m op = none) :
    ¬ Rekeys num m op := by
  cases op with
  | round n actuallyMix =>
    rintro ⟨o, ho, hr⟩
    rw [MixerOp.project] at ho
    split_ifs at ho
    obtain rfl := Option.some.inj ho
    exact hr
  | _ => exact nomatch h

/-- In a run a channel that has played to its end stays stopped until it is started itself, exactly
if no write of the master enable meets the start request that the end leaves behind. -/
theorem staysStopped_iff (num : Fin 16) (bus : SoundBus) (ops : List MixerOp) :
    StaysStopped num bus ops ↔ NeverRekeyed num bus ops := by
  have hstretch {m m₁ : Mixer} {actuallyMix : Bool} (hends : Ends num m actuallyMix m₁)
      {mid : List MixerOp} (hmid : ∀ op ∈ mid, ¬ OwnStart num op) :
      (∀ pre m₂, pre <+: mid → runM (nextM step) m₁ pre = some m₂ →
          (m₂.channel num).status = chanstatStopped) ↔
        AtEachM (nextM step) (fun m op => ¬ Rekeys num m op) m₁ mid :=
    kept_iff_atEachM (fun _ _ => not_rekeys_of_fails) (fun _ _ _ => stopped_step) hends.stopped hmid
  constructor
  · intro h pre actuallyMix mid post m m₁ hops hpre hends hmid
    refine (hstretch hends hmid).mp fun part m₂ hpart => ?_
    obtain ⟨rest, rfl⟩ := hpart
    refine h pre actuallyMix part (rest ++ post) m m₁ (by rw [hops, List.append_assoc]) hpre hends ?_ m₂
    exact fun op hop => hmid op (List.mem_append_left rest hop)
  · intro h pre actuallyMix mid post m m₁ hops hpre hends hmid m₂
    exact (hstretch hends hmid).mpr (h pre actuallyMix mid post m m₁ hops hpre hends hmid) mid m₂
      (List.prefix_refl mid)

/-- A memory of zeros. -/
def silentBus : SoundBus := ⟨fun _ => 0, fun _ => 0⟩

/-- The master enable, and channel 0 with one word of 8-bit data at the highest rate, as one-shot. -/
def oneShotStart : List MixerOp :=
  [.writeWord 0x500 0x8000, .writeLong 0x408 0xFFFF, .writeLong 0x40C 1, .writeLong 0x400 0x90000000]

/-- Another write to `SOUNDCNT` starts the sound again. -/
theorem soundcnt_restarts : ¬ ∀ num bus ops, StaysStopped num bus ops := by
  intro h
  have hseen (ops : List MixerOp) {v : BitVec 8}
      (hops : (runM (nextM step) (reset silentBus) ops).map (fun m => (m.channel 0).status) = some v) :
      ∃ m, runM (nextM step) (reset silentBus) ops = some m ∧ (m.channel 0).status = v :=
    Option.map_eq_some_iff.mp hops
  have hstep {ops : List MixerOp} {op : MixerOp} {m m' : Mixer}
      (hm : runM (nextM step) (reset silentBus) ops = some m)
      (hm' : runM (nextM step) (reset silentBus) (ops ++ [op]) = some m') :
      runM (nextM step) m [op] = some m' := by
    rwa [runM_append, hm, Option.bind_some] at hm'
  obtain ⟨m, hm, hplays⟩ := hseen oneShotStart (v := chanstatPlay) (by decide +kernel)
  obtain ⟨m₁, hm₁, hends⟩ :=
    hseen (oneShotStart ++ [.round 0 true]) (v := chanstatStopped) (by decide +kernel)
  obtain ⟨m₂, hm₂, hagain⟩ := hseen (oneShotStart ++ [.round 0 true] ++ [.writeWord 0x500 0x8000])
    (v := chanstatPlay) (by decide +kernel)
  obtain ⟨m₁', hround, hnil⟩ := runM_cons_eq_some.mp (hstep hm hm₁)
  obtain rfl : m₁' = m₁ := Option.some.inj hnil
  have hown : ∀ op ∈ [MixerOp.writeWord 0x500 0x8000], ¬ OwnStart 0 op := by
    intro op hop
    obtain rfl := List.mem_singleton.mp hop
    rintro ⟨o, ho, hbit⟩
    obtain rfl := Option.some.inj ho
    exact hbit
  have hstopped := h 0 silentBus _ oneShotStart true [.writeWord 0x500 0x8000] [] m m₁' rfl hm
    ⟨hplays, hround, hends⟩ hown m₂ (hstep hm₁ hm₂)
  exact absurd (hagain.symm.trans hstopped) (by decide)

end Mixer

end Desmume.Sound
