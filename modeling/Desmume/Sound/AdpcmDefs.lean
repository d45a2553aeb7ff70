import Desmume.Library.Loop
import Desmume.Library.PartialRun
import Desmume.Sound.SpuDefs
import Mathlib.Algebra.Order.Floor.Ring
import Mathlib.Data.Rat.Floor

/-! The mixing of an ADPCM channel: the tables of the decoder, the fetch of a sample, the test for the
end of the data and the rounds of the mixing loop. Positions are exact rationals. -/

namespace Desmume.Sound
open Library

/-! ### The tables -/

def indextbl : List ℤ := [-1, -1, -1, -1, 2, 4, 6, 8]

def adpcmtbl : List ℕ :=
  [0x0007, 0x0008, 0x0009, 0x000A, 0x000B, 0x000C, 0x000D, 0x000E, 0x0010,
    0x0011, 0x0013, 0x0015, 0x0017, 0x0019, 0x001C, 0x001F, 0x0022, 0x0025,
    0x0029, 0x002D, 0x0032, 0x0037, 0x003C, 0x0042, 0x0049, 0x0050, 0x0058,
    0x0061, 0x006B, 0x0076, 0x0082, 0x008F, 0x009D, 0x00AD, 0x00BE, 0x00D1,
    0x00E6, 0x00FD, 0x0117, 0x0133, 0x0151, 0x0173, 0x0198, 0x01C1, 0x01EE,
    0x0220, 0x0256, 0x0292, 0x02D4, 0x031C, 0x036C, 0x03C3, 0x0424, 0x048E,
    0x0502, 0x0583, 0x0610, 0x06AB, 0x0756, 0x0812, 0x08E0, 0x09C3, 0x0ABD,
    0x0BD0, 0x0CFF, 0x0E4C, 0x0FBA, 0x114C, 0x1307, 0x14EE, 0x1706, 0x1954,
    0x1BDC, 0x1EA5, 0x21B6, 0x2515, 0x28CA, 0x2CDF, 0x315B, 0x364B, 0x3BB9,
    0x41B2, 0x4844, 0x4F7E, 0x5771, 0x602F, 0x69CE, 0x7462, 0x7FFF]

def minMax (val low high : ℤ) : ℤ := if val < low then low else if val > high then high else val

/-- The table as `SPU_Init` fills it, with nothing behind its 89 rows. -/
def precalcdifftbl (j i : ℕ) : Option ℤ :=
  adpcmtbl[j]?.map fun step =>
    let diff := ((i &&& 0x7) * 2 + 1) * step / 8
    if i &&& 0x8 ≠ 0 then -(diff : ℤ) else diff

/-- The table as `SPU_Init` fills it, with nothing behind its 89 rows. -/
def precalcindextbl (j i : ℕ) : Option (BitVec 8) :=
  if j < 89 then some (BitVec.ofInt 8 (minMax (j + indextbl.getD i 0) 0 88)) else none

/-! ### The channel -/

/-- A channel with the sample it goes back to when it loops. -/
structure AdpcmChannel extends ChannelStruct ℚ where
  loopPcm16b : BitVec 16

/-- The conversion of a `double` to `u32`, towards zero. -/
def sputrunc (x : ℚ) : BitVec 32 := BitVec.ofInt 32 (x.num.tdiv x.den)

/-- The increment for a timer, at the rate the mixer runs at. -/
def hardwareSampinc (timer : BitVec 16) : ℚ := 33513982 / (44100 * 2) / (0x10000 - timer.toNat)

/-- The positions are kept exactly. -/
def exactEnv (sampinc : BitVec 16 → ℚ) (read08 : BitVec 32 → BitVec 8)
    (read16 : BitVec 32 → BitVec 16) : SpuEnv ℚ where
  ofInt z := z
  ofU32 w := w.toNat
  sampinc := sampinc
  read08 := read08
  read16 := read16

namespace AdpcmChannel

variable (env : SpuEnv ℚ)

def keyOn (c : AdpcmChannel) : AdpcmChannel :=
  { c with toChannelStruct := c.toChannelStruct.keyOn env }

def adjustChannelTimer (timer : BitVec 16) (c : AdpcmChannel) : AdpcmChannel :=
  { c with toChannelStruct := { c.toChannelStruct with timer := timer }.adjustChannelTimer env }

/-- `loopstart << shift`. -/
def loopPosition (shift : ℕ) (c : AdpcmChannel) : ℕ := c.loopstart.toNat <<< shift

/-- The decoder moves on by a difference, to a row of the tables. -/
def moveTo (diff : ℤ) (index : BitVec 8) (c : AdpcmChannel) : AdpcmChannel :=
  { c with
    index := index.setWidth 32
    pcm16bLast := c.pcm16b
    pcm16b := BitVec.ofInt 16 (minMax (c.pcm16b.toInt + diff) (-0x8000) 0x7FFF) }

/-- At the start of the loop the decoder is kept for the next time. -/
def snagLoop (i : BitVec 32) (c : AdpcmChannel) : AdpcmChannel :=
  if i = BitVec.ofNat 32 (c.loopPosition 3) then
    { c with loopPcm16b := c.pcm16b, loopIndex := c.index }
  else c

/-- A round of the loop of `FetchADPCMData`: there is none if a table is read behind its end. -/
def decodeAt (c : AdpcmChannel) (i : BitVec 32) : Option AdpcmChannel := do
  let shift := (i &&& 1) <<< 2
  let data4bit := (env.read08 (c.addr + i >>> 1)).setWidth 32 >>> shift.toNat
  let diff ← precalcdifftbl c.index.toNat (data4bit &&& 0xF).toNat
  let index ← precalcindextbl c.index.toNat (data4bit &&& 0x7).toNat
  some ((c.moveTo diff index).snagLoop i)

/-- `FetchADPCMData`. -/
def fetchADPCMData (c : AdpcmChannel) : Option (BitVec 32 × AdpcmChannel) := do
  let endExclusive := sputrunc (c.sampcnt + 1)
  let c ← consumeM (fun c i => c.decodeAt env (BitVec.ofNat 32 i)) (c.lastsampcnt + 1).toNat
    endExclusive.toNat c
  let c := { c with lastsampcnt := sputrunc c.sampcnt }
  some (c.pcm16b.signExtend 32, c)

/-- The sample of a round, before its volume is applied. -/
def fetchSample (c : AdpcmChannel) : Option (BitVec 32 × AdpcmChannel) :=
  if c.sampcnt < 0 then some (0, c)
  else if c.lastsampcnt = sputrunc c.sampcnt then some (c.pcm16b.signExtend 32, c)
  else c.fetchADPCMData env

/-- What a round of the loop of `TestForLoop` takes off the position. -/
def loopLength (shift : ℕ) (c : AdpcmChannel) : ℚ :=
  c.doubleTotlengthShifted - c.loopPosition shift

/-- The loop of `TestForLoop`, with as many rounds as it takes if it ends. -/
def wrapPosition (shift : ℕ) (c : AdpcmChannel) : Option ℚ :=
  runWhile (fun x => c.doubleTotlengthShifted < x) (fun x => x - c.loopLength shift)
    ⌈(c.sampcnt - c.doubleTotlengthShifted) / c.loopLength shift⌉₊ c.sampcnt

/-- The channel goes back to where its loop starts, or to its header. -/
def restart (c : AdpcmChannel) : AdpcmChannel :=
  if c.loopIndex = kAdpcmLoopingRecoveryIndex then
    { c with
      pcm16b := env.read16 c.addr
      index := (env.read08 (c.addr + 2) &&& 0x7F).setWidth 32
      lastsampcnt := 7 }
  else
    { c with
      pcm16b := c.loopPcm16b
      index := c.loopIndex
      lastsampcnt := BitVec.ofNat 32 (c.loopPosition 3) }

end AdpcmChannel

/-! ### The mixing loop -/

/-- The template parameter `CHANNELS`. -/
inductive Channels where
  | silent
  | mixL
  | mixLR
  | mixR
deriving DecidableEq, Repr

/-- What the mixing loop uses of `SPU_struct`. -/
structure MixBuffer where
  bufpos : ℕ
  buflength : ℕ
  sndbuf : ℕ → BitVec 32
  lastdata : BitVec 32

def spumuldiv7 (val : BitVec 32) (multiplier : BitVec 8) : BitVec 32 :=
  if multiplier = 127 then val else (val * multiplier.setWidth 32).sshiftRight 7

def volumeShift (volumeDiv : BitVec 8) : ℕ := [0, 1, 2, 4].getD volumeDiv.toNat 0

/-- What `SPU_struct` and the channel are while the channel is mixed. -/
structure Voice where
  buf : MixBuffer
  chan : AdpcmChannel

namespace MixBuffer

def addAt (i : ℕ) (data : BitVec 32) (b : MixBuffer) : MixBuffer :=
  { b with sndbuf := Function.update b.sndbuf i (b.sndbuf i + data) }

/-- The switch of the mixing loop over `CHANNELS`. -/
def mix (channels : Channels) (pan : BitVec 8) (data : BitVec 32) (b : MixBuffer) : MixBuffer :=
  match channels with
  | .silent => b
  | .mixL => b.addAt (b.bufpos * 2) data
  | .mixLR =>
    (b.addAt (b.bufpos * 2) (spumuldiv7 data (127 - pan))).addAt (b.bufpos * 2 + 1)
      (spumuldiv7 data pan)
  | .mixR => b.addAt (b.bufpos * 2 + 1) data

end MixBuffer

namespace Voice

variable (env : SpuEnv ℚ)

/-- The part of a round that `CHANNELS != -1` guards. -/
def hear (channels : Channels) (v : Voice) : Option Voice := do
  if channels = .silent then some v
  else
    let (data, c) ← v.chan.fetchSample env
    let data := (spumuldiv7 data c.vol).sshiftRight (volumeShift c.volumeDiv)
    some { v with buf := { v.buf.mix channels c.pan data with lastdata := data }, chan := c }

/-- `TestForLoop`. -/
def testForLoop (shift : ℕ) (v : Voice) : Option (ℤ × Voice) :=
  if v.chan.doubleTotlengthShifted < v.chan.sampcnt then
    if v.chan.repeatMode = 1 then
      (v.chan.wrapPosition shift).map fun x => (0, { v with chan := { v.chan with sampcnt := x } })
    else
      let c := { v.chan with toChannelStruct := v.chan.toChannelStruct.keyOff }
      some (1, { v with buf := { v.buf with bufpos := v.buf.buflength }, chan := c })
  else some (-1, v)

/-- The switch over what `TestForLoop` returns. -/
def afterTest (ret : ℤ) (c : AdpcmChannel) : AdpcmChannel :=
  if ret = 0 then c.restart env
  else if ret = 1 then { c with status := chanstatStopped }
  else c

/-- `chan->sampcnt += chan->sampinc`. -/
def moved (v : Voice) : Voice :=
  { v with chan := { v.chan with sampcnt := v.chan.sampcnt + v.chan.sampinc } }

/-- The part of a round that moves the position, which data that is too short does not do. -/
def advance (v : Voice) : Option Voice :=
  if v.chan.totlength.toNat < 4 then some v
  else (testForLoop 3 v.moved).map fun r => { r.2 with chan := afterTest env r.1 r.2.chan }

/-- A round of `____SPU_ChanUpdate`. -/
def round (channels : Channels) (v : Voice) : Option Voice := do
  let v ← v.hear env channels
  let v ← v.advance env
  some { v with buf := { v.buf with bufpos := v.buf.bufpos + 1 } }

/-- The loop of `____SPU_ChanUpdate`, for at most so many rounds. -/
def rounds (channels : Channels) : ℕ → Voice → Option Voice
  | 0, v => some v
  | n + 1, v =>
    if v.buf.bufpos < v.buf.buflength then (v.round env channels).bind (rounds channels n)
    else some v

/-- The instance of the template that `___SPU_ChanUpdate` takes. -/
def channelsFor (actuallyMix : Bool) (pan : BitVec 8) : Channels :=
  if actuallyMix = false then .silent
  else if pan = 0 then .mixL
  else if pan = 127 then .mixR
  else .mixLR

/-- `___SPU_ChanUpdate`. -/
def chanUpdate (actuallyMix : Bool) (v : Voice) : Option Voice :=
  v.rounds env (channelsFor actuallyMix v.chan.pan) (v.buf.buflength - v.buf.bufpos)

end Voice

/-! ### Runs -/

/-- What happens to a channel that plays: its timer is written, `SPU_MixAudio` sets the buffer up for
it, or the mixing loop makes a round. -/
inductive MixStep where
  | setTimer (timer : BitVec 16)
  | setBuffer (buf : MixBuffer)
  | mix (actuallyMix : Bool)

namespace Voice

variable (env : SpuEnv ℚ)

/-- The mixing loop makes a round: the channel plays and the buffer is not full. -/
def Mixing (v : Voice) : Prop :=
  v.chan.status = chanstatPlay ∧ v.buf.bufpos < v.buf.buflength

instance (v : Voice) : Decidable v.Mixing := inferInstanceAs (Decidable (_ ∧ _))

def step (v : Voice) : MixStep → Option Voice
  | .setTimer timer => some { v with chan := v.chan.adjustChannelTimer env timer }
  | .setBuffer buf => some { v with buf := buf }
  | .mix actuallyMix =>
    if v.Mixing then v.round env (channelsFor actuallyMix v.chan.pan) else some v

/-- The steps `ops` after the channel is keyed on. -/
def afterKeyOn (buf : MixBuffer) (c : AdpcmChannel) (ops : List MixStep) : Option Voice :=
  runM (step env) ⟨buf, c.keyOn env⟩ ops

end Voice

end Desmume.Sound
