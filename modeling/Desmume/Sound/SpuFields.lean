import Desmume.Sound.SpuDefs

/-! The widths of the fields of the sound registers, and the states that writes and the running
unit reach. -/

namespace Desmume.Sound
open Library

variable {φ : Type} (env : SpuEnv φ)

namespace ChannelStruct

/-- Every field of a channel lies in the bits that its register has for it. -/
structure FieldsFit (c : ChannelStruct φ) : Prop where
  vol : c.vol.toNat < 2 ^ 7
  volumeDiv : c.volumeDiv.toNat < 2 ^ 2
  hold : c.hold.toNat < 2 ^ 1
  pan : c.pan.toNat < 2 ^ 7
  waveduty : c.waveduty.toNat < 2 ^ 3
  repeatMode : c.repeatMode.toNat < 2 ^ 2
  format : c.format.toNat < 2 ^ 2
  keyon : c.keyon.toNat < 2 ^ 1

/-- Two channels that differ in the state of their playback only. -/
structure SameRegisters (c d : ChannelStruct φ) : Prop where
  vol : c.vol = d.vol
  volumeDiv : c.volumeDiv = d.volumeDiv
  hold : c.hold = d.hold
  pan : c.pan = d.pan
  waveduty : c.waveduty = d.waveduty
  repeatMode : c.repeatMode = d.repeatMode
  format : c.format = d.format
  keyon : c.keyon = d.keyon
  addr : c.addr = d.addr
  timer : c.timer = d.timer
  loopstart : c.loopstart = d.loopstart
  length : c.length = d.length

variable {c d e : ChannelStruct φ}

theorem SameRegisters.rfl : SameRegisters c c := by
  constructor <;> exact Eq.refl _

theorem SameRegisters.trans (h : SameRegisters c d) (h' : SameRegisters d e) :
    SameRegisters c e where
  vol := h.vol.trans h'.vol
  volumeDiv := h.volumeDiv.trans h'.volumeDiv
  hold := h.hold.trans h'.hold
  pan := h.pan.trans h'.pan
  waveduty := h.waveduty.trans h'.waveduty
  repeatMode := h.repeatMode.trans h'.repeatMode
  format := h.format.trans h'.format
  keyon := h.keyon.trans h'.keyon
  addr := h.addr.trans h'.addr
  timer := h.timer.trans h'.timer
  loopstart := h.loopstart.trans h'.loopstart
  length := h.length.trans h'.length

theorem FieldsFit.of_sameRegisters (hc : c.FieldsFit) (h : SameRegisters c d) : d.FieldsFit where
  vol := h.vol ▸ hc.vol
  volumeDiv := h.volumeDiv ▸ hc.volumeDiv
  hold := h.hold ▸ hc.hold
  pan := h.pan ▸ hc.pan
  waveduty := h.waveduty ▸ hc.waveduty
  repeatMode := h.repeatMode ▸ hc.repeatMode
  format := h.format ▸ hc.format
  keyon := h.keyon ▸ hc.keyon

theorem sameRegisters_adjustChannelTimer : SameRegisters c (c.adjustChannelTimer env) := by
  constructor <;> exact Eq.refl _

theorem sameRegisters_startFormat : SameRegisters c (c.startFormat env) := by
  rw [startFormat]
  split <;> constructor <;> exact Eq.refl _

theorem sameRegisters_startLength : SameRegisters c (c.startLength env) := by
  constructor <;> exact Eq.refl _

theorem sameRegisters_keyOn : SameRegisters c (c.keyOn env) := by
  have hstart : SameRegisters c
      { c with status := chanstatPlay, totlength := c.length + c.loopstart.setWidth 32 } := by
    constructor <;> exact Eq.refl _
  have htimer := hstart.trans (sameRegisters_adjustChannelTimer env)
  exact (htimer.trans (sameRegisters_startFormat env)).trans (sameRegisters_startLength env)

theorem sameRegisters_keyOff : SameRegisters c c.keyOff := by
  constructor <;> exact Eq.refl _

theorem sameRegisters_keyProbe (masteren : BitVec 8) :
    SameRegisters c (c.keyProbe env masteren) := by
  rw [keyProbe]
  split
  · split
    · exact sameRegisters_keyOn env
    · exact SameRegisters.rfl
  · split
    · split
      · exact sameRegisters_keyOff
      · exact SameRegisters.rfl
    · exact SameRegisters.rfl

theorem FieldsFit.keyProbe (hc : c.FieldsFit) (masteren : BitVec 8) :
    (c.keyProbe env masteren).FieldsFit :=
  hc.of_sameRegisters (sameRegisters_keyProbe env masteren)

theorem and_lt_of_bits {val mask : BitVec 8} {k : ℕ} (hk : k ≤ 8)
    (h : mask = (BitVec.allOnes k).setWidth 8) : (val &&& mask).toNat < 2 ^ k := by
  rw [h, and_lowOnes]
  exact bits_lt val 0 hk

theorem FieldsFit.writeByte (hc : c.FieldsFit) (masteren : BitVec 8) (reg : ℕ) (val : BitVec 8) :
    (c.writeByte env masteren reg val).FieldsFit := by
  unfold ChannelStruct.writeByte
  split
  · exact { hc with vol := and_lt_of_bits (k := 7) (by decide) (by decide) }
  · exact { hc with volumeDiv := bits_lt _ _ (by decide), hold := bits_lt _ _ (by decide) }
  · exact { hc with pan := and_lt_of_bits (k := 7) (by decide) (by decide) }
  · apply FieldsFit.keyProbe
    exact { hc with
      waveduty := bits_lt _ _ (by decide)
      repeatMode := bits_lt _ _ (by decide)
      format := bits_lt _ _ (by decide)
      keyon := bits_lt _ _ (by decide) }
  all_goals exact { hc with }

theorem FieldsFit.writeWord (hc : c.FieldsFit) (masteren : BitVec 8) (reg : ℕ) (val : BitVec 16) :
    (c.writeWord env masteren reg val).FieldsFit := by
  unfold ChannelStruct.writeWord
  split
  · exact { hc with
      vol := bits_lt _ _ (by decide)
      volumeDiv := bits_lt _ _ (by decide)
      hold := bits_lt _ _ (by decide) }
  · apply FieldsFit.keyProbe
    exact { hc with
      pan := bits_lt _ _ (by decide)
      waveduty := bits_lt _ _ (by decide)
      repeatMode := bits_lt _ _ (by decide)
      format := bits_lt _ _ (by decide)
      keyon := bits_lt _ _ (by decide) }
  all_goals exact { hc with }

theorem FieldsFit.writeLong (hc : c.FieldsFit) (masteren : BitVec 8) (reg : ℕ) (val : BitVec 32) :
    (c.writeLong env masteren reg val).FieldsFit := by
  unfold ChannelStruct.writeLong
  split
  · apply FieldsFit.keyProbe
    constructor <;> exact bits_lt _ _ (by decide)
  all_goals exact { hc with }

end ChannelStruct

/-- What the running unit leaves alone in a capture. -/
structure Cap.SameRegisters (k l : Cap φ) : Prop where
  add : k.add = l.add
  source : k.source = l.source
  oneshot : k.oneshot = l.oneshot
  bits8 : k.bits8 = l.bits8
  active : k.active = l.active
  dad : k.dad = l.dad
  len : k.len = l.len

namespace SpuStruct

/-- The running unit mixes and captures, and does not change a register. -/
structure SameRegisters (s t : SpuStruct φ) : Prop where
  channels : ∀ num, (s.channels num).SameRegisters (t.channels num)
  mastervol : s.mastervol = t.mastervol
  ctlLeft : s.ctlLeft = t.ctlLeft
  ctlRight : s.ctlRight = t.ctlRight
  ctlCh1bypass : s.ctlCh1bypass = t.ctlCh1bypass
  ctlCh3bypass : s.ctlCh3bypass = t.ctlCh3bypass
  masteren : s.masteren = t.masteren
  soundbias : s.soundbias = t.soundbias
  cap : ∀ which, (s.cap which).SameRegisters (t.cap which)

/-- Every field of the channels and of `SOUNDCNT` lies in the bits that its register has for it. -/
structure FieldsFit (s : SpuStruct φ) : Prop where
  channels : ∀ num, (s.channels num).FieldsFit
  mastervol : s.mastervol.toNat < 2 ^ 7
  ctlLeft : s.ctlLeft.toNat < 2 ^ 2
  ctlRight : s.ctlRight.toNat < 2 ^ 2
  ctlCh1bypass : s.ctlCh1bypass.toNat < 2 ^ 1
  ctlCh3bypass : s.ctlCh3bypass.toNat < 2 ^ 1
  masteren : s.masteren.toNat < 2 ^ 1

variable {s t : SpuStruct φ}

theorem FieldsFit.of_sameRegisters (hs : s.FieldsFit) (h : SameRegisters s t) : t.FieldsFit where
  channels num := (hs.channels num).of_sameRegisters (h.channels num)
  mastervol := h.mastervol ▸ hs.mastervol
  ctlLeft := h.ctlLeft ▸ hs.ctlLeft
  ctlRight := h.ctlRight ▸ hs.ctlRight
  ctlCh1bypass := h.ctlCh1bypass ▸ hs.ctlCh1bypass
  ctlCh3bypass := h.ctlCh3bypass ▸ hs.ctlCh3bypass
  masteren := h.masteren ▸ hs.masteren

theorem FieldsFit.setChannel (hs : s.FieldsFit) (num : Fin 16) {c : ChannelStruct φ}
    (hc : c.FieldsFit) : (s.setChannel num c).FieldsFit := by
  refine { hs with channels := ?_ }
  intro other
  by_cases hnum : other = num
  · subst hnum
    rw [setChannel_channels_self]
    exact hc
  · rw [setChannel_channels_of_ne s hnum]
    exact hs.channels other

theorem FieldsFit.writeMaster {w : ℕ} (hs : s.FieldsFit) (val : BitVec w) (lo : ℕ) :
    (s.writeMaster env val lo).FieldsFit where
  channels num := (hs.channels num).keyProbe env _
  mastervol := hs.mastervol
  ctlLeft := bits_lt _ _ (by decide)
  ctlRight := bits_lt _ _ (by decide)
  ctlCh1bypass := bits_lt _ _ (by decide)
  ctlCh3bypass := bits_lt _ _ (by decide)
  masteren := bits_lt _ _ (by decide)

theorem FieldsFit.writeByte (hs : s.FieldsFit) (addr : ℕ) (val : BitVec 8) :
    (s.writeByte env addr val).FieldsFit := by
  unfold SpuStruct.writeByte
  split
  · exact hs.setChannel _ ((hs.channels _).writeByte env _ _ _)
  · split
    · exact { hs with mastervol := ChannelStruct.and_lt_of_bits (k := 7) (by decide) (by decide) }
    · exact hs.writeMaster env val 0
    all_goals exact { hs with }

theorem FieldsFit.writeWord (hs : s.FieldsFit) (addr : ℕ) (val : BitVec 16) :
    (s.writeWord env addr val).FieldsFit := by
  unfold SpuStruct.writeWord
  split
  · exact hs.setChannel _ ((hs.channels _).writeWord env _ _ _)
  · split
    · apply FieldsFit.writeMaster
      exact { hs with mastervol := bits_lt _ _ (by decide) }
    all_goals exact { hs with }

theorem FieldsFit.writeLong (hs : s.FieldsFit) (addr : ℕ) (val : BitVec 32) :
    (s.writeLong env addr val).FieldsFit := by
  unfold SpuStruct.writeLong
  split
  · exact hs.setChannel _ ((hs.channels _).writeLong env _ _ _)
  · split
    · apply FieldsFit.writeMaster
      exact { hs with mastervol := bits_lt _ _ (by decide) }
    all_goals exact { hs with }

end SpuStruct

/-- The states of the unit: after a reset, after register writes, and after it has run. -/
inductive Reachable : SpuStruct φ → Prop
  | reset : Reachable (spuReset env)
  | writeByte {s} (addr : ℕ) (val : BitVec 8) : Reachable s → Reachable (s.writeByte env addr val)
  | writeWord {s} (addr : ℕ) (val : BitVec 16) : Reachable s → Reachable (s.writeWord env addr val)
  | writeLong {s} (addr : ℕ) (val : BitVec 32) : Reachable s → Reachable (s.writeLong env addr val)
  | emulate {s t} : s.SameRegisters t → Reachable s → Reachable t

theorem fieldsFit_spuReset : (spuReset env).FieldsFit := by
  constructor
  · intro num
    constructor <;> exact Nat.two_pow_pos _
  all_goals exact Nat.two_pow_pos _

theorem Reachable.fieldsFit {s : SpuStruct φ} (hs : Reachable env s) : s.FieldsFit := by
  induction hs with
  | reset => exact fieldsFit_spuReset env
  | writeByte addr val _ ih => exact ih.writeByte env addr val
  | writeWord addr val _ ih => exact ih.writeWord env addr val
  | writeLong addr val _ ih => exact ih.writeLong env addr val
  | emulate h _ ih => exact ih.of_sameRegisters h

end Desmume.Sound
