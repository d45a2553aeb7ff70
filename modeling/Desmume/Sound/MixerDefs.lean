import Desmume.Sound.AdpcmDefs

/-! The sixteen channels under the mixer: the rounds of a channel of each format, the register writes
around them, and the part of both that concerns one channel. -/

namespace Desmume.Sound
open Library

def wavedutytbl : List (List ℤ) :=
  [[-0x7FFF, -0x7FFF, -0x7FFF, -0x7FFF, -0x7FFF, -0x7FFF, -0x7FFF, 0x7FFF],
    [-0x7FFF, -0x7FFF, -0x7FFF, -0x7FFF, -0x7FFF, -0x7FFF, 0x7FFF, 0x7FFF],
    [-0x7FFF, -0x7FFF, -0x7FFF, -0x7FFF, -0x7FFF, 0x7FFF, 0x7FFF, 0x7FFF],
    [-0x7FFF, -0x7FFF, -0x7FFF, -0x7FFF, 0x7FFF, 0x7FFF, 0x7FFF, 0x7FFF],
    [-0x7FFF, -0x7FFF, -0x7FFF, 0x7FFF, 0x7FFF, 0x7FFF, 0x7FFF, 0x7FFF],
    [-0x7FFF, -0x7FFF, 0x7FFF, 0x7FFF, 0x7FFF, 0x7FFF, 0x7FFF, 0x7FFF],
    [-0x7FFF, 0x7FFF, 0x7FFF, 0x7FFF, 0x7FFF, 0x7FFF, 0x7FFF, 0x7FFF],
    [-0x7FFF, -0x7FFF, -0x7FFF, -0x7FFF, -0x7FFF, -0x7FFF, -0x7FFF, -0x7FFF]]

/-- The memory of the ARM7, as the sound unit reads it. -/
structure SoundBus where
  read08 : BitVec 32 → BitVec 8
  read16 : BitVec 32 → BitVec 16

def SoundBus.env (bus : SoundBus) : SpuEnv ℚ := exactEnv hardwareSampinc bus.read08 bus.read16

/-- A channel with the last sample of its noise generator. -/
structure MixChannel extends AdpcmChannel where
  psgnoiseLast : BitVec 16

/-- A sample of a channel, and what it adds on each side. -/
structure Sample where
  data : BitVec 32
  left : BitVec 32
  right : BitVec 32
deriving DecidableEq, Repr

/-- The switch of the mixing loop over `CHANNELS`, which `pan` decides. -/
def panned (pan : BitVec 8) (data : BitVec 32) : Sample :=
  if pan = 0 then ⟨data, data, 0⟩
  else if pan = 127 then ⟨data, 0, data⟩
  else ⟨data, spumuldiv7 data (127 - pan), spumuldiv7 data pan⟩

namespace MixChannel

variable (env : SpuEnv ℚ) (num : Fin 16)

/-- A change of the fields that the register file shares with the mixer. -/
def mapStruct (f : ChannelStruct ℚ → ChannelStruct ℚ) (c : MixChannel) : MixChannel :=
  { c with toAdpcmChannel := { c.toAdpcmChannel with toChannelStruct := f c.toChannelStruct } }

def mapAdpcm (f : AdpcmChannel → AdpcmChannel) (c : MixChannel) : MixChannel :=
  { c with toAdpcmChannel := f c.toAdpcmChannel }

/-- A round of the loop of `FetchPSGData`. -/
def noiseStep (c : MixChannel) : MixChannel :=
  if c.x &&& 1 ≠ 0 then { c with x := c.x >>> 1 ^^^ 0x6000, psgnoiseLast := BitVec.ofInt 16 (-0x7FFF) }
  else { c with x := c.x >>> 1, psgnoiseLast := 0x7FFF }

/-- `FetchPSGData`. -/
def fetchPSGData (c : MixChannel) : BitVec 32 × MixChannel :=
  let max := sputrunc c.sampcnt
  if c.lastsampcnt = max then (c.psgnoiseLast.signExtend 32, c)
  else
    let c := { noiseStep^[max.toNat - c.lastsampcnt.toNat] c with lastsampcnt := max }
    (c.psgnoiseLast.signExtend 32, c)

/-- The arm of the PSG in the mixing loop. -/
def fetchPSG (c : MixChannel) : BitVec 32 × MixChannel :=
  if num < 8 then (0, c)
  else if num < 14 then
    (BitVec.ofInt 32 ((wavedutytbl.getD c.waveduty.toNat []).getD (sputrunc c.sampcnt &&& 0x7).toNat 0), c)
  else c.fetchPSGData

/-- The sample of a round, before its volume is applied. -/
def fetch (c : MixChannel) : Option (BitVec 32 × MixChannel) :=
  if c.sampcnt < 0 then some (0, c)
  else
    match c.format.toNat with
    | 0 => some ((env.read08 (c.addr + sputrunc c.sampcnt)).signExtend 32 <<< 8, c)
    | 1 => some ((env.read16 (c.addr + sputrunc c.sampcnt * 2)).signExtend 32, c)
    | 2 => (c.toAdpcmChannel.fetchSample env).map fun r => (r.1, { c with toAdpcmChannel := r.2 })
    | _ => some (c.fetchPSG num)

/-- The part of a round that `CHANNELS != -1` guards. -/
def hear (actuallyMix : Bool) (c : MixChannel) : Option (Option Sample × MixChannel) :=
  if actuallyMix then
    (c.fetch env num).map fun r =>
      (some (panned r.2.pan ((spumuldiv7 r.1 r.2.vol).sshiftRight (volumeShift r.2.volumeDiv))), r.2)
  else some (none, c)

/-- `TestForLoop`. -/
def testForLoop (shift : ℕ) (c : MixChannel) : Option (ℤ × MixChannel) :=
  if c.doubleTotlengthShifted < c.sampcnt then
    if c.repeatMode = 1 then
      (c.wrapPosition shift).map fun x => (0, c.mapStruct fun s => { s with sampcnt := x })
    else some (1, c.mapStruct ChannelStruct.keyOff)
  else some (-1, c)

/-- `chan->sampcnt += chan->sampinc`. -/
def moved (c : MixChannel) : MixChannel := c.mapStruct fun s => { s with sampcnt := s.sampcnt + s.sampinc }

/-- ADPCM data that is too short does not move. -/
def TooShort (c : MixChannel) : Prop := c.format = 2 ∧ c.totlength.toNat < 4

instance (c : MixChannel) : Decidable c.TooShort := inferInstanceAs (Decidable (_ ∧ _))

/-- The part of a round that moves the position. -/
def advance (c : MixChannel) : Option MixChannel :=
  if c.TooShort then some c
  else
    match c.format.toNat with
    | 0 => (c.moved.testForLoop 2).map Prod.snd
    | 1 => (c.moved.testForLoop 1).map Prod.snd
    | 2 => (c.moved.testForLoop 3).map fun r => r.2.mapAdpcm (Voice.afterTest env r.1)
    | _ => some c.moved

/-- A round of `____SPU_ChanUpdate`. -/
def round (actuallyMix : Bool) (c : MixChannel) : Option (Option Sample × MixChannel) :=
  (c.hear env num actuallyMix).bind fun r => (r.2.advance env).map fun c => (r.1, c)

end MixChannel

/-! ### A channel and what happens to it -/

structure ChannelState where
  chan : MixChannel
  masteren : BitVec 8
  bus : SoundBus

/-- The writes to the registers of the channel, the write to the upper byte of `SOUNDCNT`, a change
of the memory, and a round of the mixing loop. -/
inductive ChannelOp where
  | writeByte (reg : ℕ) (val : BitVec 8)
  | writeWord (reg : ℕ) (val : BitVec 16)
  | writeLong (reg : ℕ) (val : BitVec 32)
  | master (masteren : BitVec 8)
  | memory (bus : SoundBus)
  | round (actuallyMix : Bool)

namespace ChannelState

variable (num : Fin 16) (s : ChannelState)

def write (f : ChannelStruct ℚ → ChannelStruct ℚ) : ChannelState :=
  { s with chan := s.chan.mapStruct f }

/-- The mixing loop comes to the channel. -/
def Sounding : Prop := s.masteren ≠ 0 ∧ s.chan.status = chanstatPlay

instance : Decidable s.Sounding := inferInstanceAs (Decidable (_ ∧ _))

def step : ChannelState → ChannelOp → Option (Option Sample × ChannelState)
  | s, .writeByte reg val => some (none, s.write fun c => c.writeByte s.bus.env s.masteren reg val)
  | s, .writeWord reg val => some (none, s.write fun c => c.writeWord s.bus.env s.masteren reg val)
  | s, .writeLong reg val => some (none, s.write fun c => c.writeLong s.bus.env s.masteren reg val)
  | s, .master masteren =>
    some (none, { s.write (fun c => c.keyProbe s.bus.env masteren) with masteren := masteren })
  | s, .memory bus => some (none, { s with bus := bus })
  | s, .round actuallyMix =>
    if s.Sounding then
      (s.chan.round s.bus.env num actuallyMix).map fun r => (r.1, { s with chan := r.2 })
    else some (none, s)

end ChannelState

/-! ### The whole unit -/

/-- `SPU_struct`, with the fields of its channels that only the mixer knows, and the memory. -/
structure Mixer where
  spu : SpuStruct ℚ
  loopPcm16b : Fin 16 → BitVec 16
  psgnoiseLast : Fin 16 → BitVec 16
  bus : SoundBus

/-- A write of each width, a change of the memory, and a round of a channel. -/
inductive MixerOp where
  | writeByte (addr : ℕ) (val : BitVec 8)
  | writeWord (addr : ℕ) (val : BitVec 16)
  | writeLong (addr : ℕ) (val : BitVec 32)
  | memory (bus : SoundBus)
  | round (num : Fin 16) (actuallyMix : Bool)

namespace Mixer

def reset (bus : SoundBus) : Mixer := ⟨spuReset bus.env, fun _ => 0, fun _ => 0, bus⟩

variable (m : Mixer)

def channel (num : Fin 16) : MixChannel :=
  ⟨⟨m.spu.channels num, m.loopPcm16b num⟩, m.psgnoiseLast num⟩

def setChannel (num : Fin 16) (c : MixChannel) : Mixer :=
  { m with
    spu := m.spu.setChannel num c.toChannelStruct
    loopPcm16b := Function.update m.loopPcm16b num c.loopPcm16b
    psgnoiseLast := Function.update m.psgnoiseLast num c.psgnoiseLast }

def view (num : Fin 16) : ChannelState := ⟨m.channel num, m.spu.masteren, m.bus⟩

def step : Mixer → MixerOp → Option (Option (Fin 16 × Sample) × Mixer)
  | m, .writeByte addr val => some (none, { m with spu := m.spu.writeByte m.bus.env addr val })
  | m, .writeWord addr val => some (none, { m with spu := m.spu.writeWord m.bus.env addr val })
  | m, .writeLong addr val => some (none, { m with spu := m.spu.writeLong m.bus.env addr val })
  | m, .memory bus => some (none, { m with bus := bus })
  | m, .round num actuallyMix =>
    if (m.view num).Sounding then
      ((m.channel num).round m.bus.env num actuallyMix).map fun r =>
        (r.1.map fun sample => (num, sample), m.setChannel num r.2)
    else some (none, m)

end Mixer

/-- What an operation is to a channel, if anything. -/
def MixerOp.project (num : Fin 16) : MixerOp → Option ChannelOp
  | .writeByte addr val =>
    if SpuStruct.isChannel addr then
      if SpuStruct.chanNum addr = num then some (.writeByte (addr &&& 0xF) val) else none
    else if addr = 0x501 then some (.master (bits val 7 1))
    else none
  | .writeWord addr val =>
    if SpuStruct.isChannel addr then
      if SpuStruct.chanNum addr = num then some (.writeWord (addr &&& 0xF) val) else none
    else if addr = 0x500 then some (.master (bits val 15 1))
    else none
  | .writeLong addr val =>
    if SpuStruct.isChannel addr then
      if SpuStruct.chanNum addr = num then some (.writeLong (addr &&& 0xF) val) else none
    else if addr = 0x500 then some (.master (bits val 15 1))
    else none
  | .memory bus => some (.memory bus)
  | .round n actuallyMix => if n = num then some (.round actuallyMix) else none

end Desmume.Sound
