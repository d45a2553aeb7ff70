import Desmume.Library.WordParts
import Mathlib.Data.Int.Notation
import Mathlib.Logic.Function.Basic

/-! The register file of the sound unit: the channels, the masters and the two captures, with the
reads and writes of the three widths. -/

namespace Desmume.Sound
open Library

/-- What the unit computes in floating point and the bytes it reads for a key on. -/
structure SpuEnv (φ : Type) where
  ofInt : ℤ → φ
  ofU32 : BitVec 32 → φ
  sampinc : BitVec 16 → φ
  read08 : BitVec 32 → BitVec 8
  read16 : BitVec 32 → BitVec 16

/-- `channel_struct`. -/
structure ChannelStruct (φ : Type) where
  vol : BitVec 8
  volumeDiv : BitVec 8
  hold : BitVec 8
  pan : BitVec 8
  waveduty : BitVec 8
  repeatMode : BitVec 8
  format : BitVec 8
  keyon : BitVec 8
  status : BitVec 8
  addr : BitVec 32
  timer : BitVec 16
  loopstart : BitVec 16
  length : BitVec 32
  totlength : BitVec 32
  doubleTotlengthShifted : φ
  sampcnt : φ
  sampinc : φ
  lastsampcnt : BitVec 32
  pcm16b : BitVec 16
  pcm16bLast : BitVec 16
  index : BitVec 32
  loopIndex : BitVec 32
  x : BitVec 16

/-- `SPUFifo`. -/
@[ext]
structure SpuFifo where
  buffer : Fin 16 → BitVec 16
  head : ℤ
  tail : ℤ
  size : ℤ

/-- `CAP`, with its `Runtime`. -/
@[ext]
structure Cap (φ : Type) where
  add : BitVec 8
  source : BitVec 8
  oneshot : BitVec 8
  bits8 : BitVec 8
  active : BitVec 8
  dad : BitVec 32
  len : BitVec 16
  running : BitVec 8
  curdad : BitVec 32
  maxdad : BitVec 32
  sampcnt : φ
  fifo : SpuFifo

/-- `SPU_struct`: the channels and `REGS`. -/
structure SpuStruct (φ : Type) where
  channels : Fin 16 → ChannelStruct φ
  mastervol : BitVec 8
  ctlLeft : BitVec 8
  ctlRight : BitVec 8
  ctlCh1bypass : BitVec 8
  ctlCh3bypass : BitVec 8
  masteren : BitVec 8
  soundbias : BitVec 16
  cap : Fin 2 → Cap φ

def chanstatStopped : BitVec 8 := 0
def chanstatPlay : BitVec 8 := 1

/-- `format_shift`. -/
def formatShift (format : BitVec 8) : ℕ := [2, 1, 3, 0].getD format.toNat 0

def kAdpcmLoopingRecoveryIndex : BitVec 32 := 99999

variable {φ : Type} (env : SpuEnv φ)

namespace ChannelStruct

def adjustChannelTimer (c : ChannelStruct φ) : ChannelStruct φ :=
  { c with sampinc := env.sampinc c.timer }

/-- The switch of `KeyOn` over the format. -/
def startFormat (c : ChannelStruct φ) : ChannelStruct φ :=
  match c.format.toNat with
  | 0 => { c with sampcnt := env.ofInt (-3) }
  | 1 => { c with sampcnt := env.ofInt (-3) }
  | 2 =>
    { c with
      pcm16b := env.read16 c.addr
      pcm16bLast := env.read16 c.addr
      index := (env.read08 (c.addr + 2) &&& 0x7F).setWidth 32
      lastsampcnt := 7
      sampcnt := env.ofInt (-3)
      loopIndex := kAdpcmLoopingRecoveryIndex }
  | 3 => { c with sampcnt := env.ofInt (-1), x := 0x7FFF }
  | _ => c

def keyOff (c : ChannelStruct φ) : ChannelStruct φ := { c with status := chanstatStopped }

def shiftedLength (c : ChannelStruct φ) : BitVec 32 := c.totlength <<< formatShift c.format

/-- The end of `KeyOn`: a channel of no length does not play. -/
def startLength (c : ChannelStruct φ) : ChannelStruct φ :=
  { c with
    doubleTotlengthShifted := env.ofU32 c.shiftedLength
    status := if c.format ≠ 3 ∧ c.shiftedLength = 0 then chanstatStopped else c.status }

def keyOn (c : ChannelStruct φ) : ChannelStruct φ :=
  startLength env (startFormat env (adjustChannelTimer env
    { c with status := chanstatPlay, totlength := c.length + c.loopstart.setWidth 32 }))

def keyProbe (masteren : BitVec 8) (c : ChannelStruct φ) : ChannelStruct φ :=
  if c.status = chanstatStopped then
    if c.keyon ≠ 0 ∧ masteren ≠ 0 then c.keyOn env else c
  else if c.status = chanstatPlay then
    if c.keyon = 0 ∨ masteren = 0 then c.keyOff else c
  else c

variable (c : ChannelStruct φ)

/-- A bit of a register that tells whether the channel plays. -/
def playBit (w bit : ℕ) : BitVec w := if c.status = chanstatPlay then 1#w <<< bit else 0#w

def readByte (reg : ℕ) : BitVec 8 :=
  match reg with
  | 0x0 => c.vol
  | 0x1 => c.volumeDiv ||| c.hold <<< 7
  | 0x2 => c.pan
  | 0x3 => c.waveduty ||| c.repeatMode <<< 3 ||| c.format <<< 5 ||| c.playBit 8 7
  | 0x8 => c.timer.setWidth 8
  | 0x9 => (c.timer >>> 8).setWidth 8
  | 0xA => c.loopstart.setWidth 8
  | 0xB => (c.loopstart >>> 8).setWidth 8
  | _ => 0

def readWord (reg : ℕ) : BitVec 16 :=
  match reg with
  | 0x0 => c.vol.setWidth 16 ||| c.volumeDiv.setWidth 16 <<< 8 ||| c.hold.setWidth 16 <<< 15
  | 0x2 =>
    c.pan.setWidth 16 ||| c.waveduty.setWidth 16 <<< 8 ||| c.repeatMode.setWidth 16 <<< 11 |||
      c.format.setWidth 16 <<< 13 ||| c.playBit 16 15
  | 0x8 => c.timer
  | 0xA => c.loopstart
  | _ => 0

def readLong (reg : ℕ) : BitVec 32 :=
  match reg with
  | 0x0 =>
    c.vol.setWidth 32 ||| c.volumeDiv.setWidth 32 <<< 8 ||| c.hold.setWidth 32 <<< 15 |||
      c.pan.setWidth 32 <<< 16 ||| c.waveduty.setWidth 32 <<< 24 |||
      c.repeatMode.setWidth 32 <<< 27 ||| c.format.setWidth 32 <<< 29 ||| c.playBit 32 31
  | 0x8 => c.timer.setWidth 32 ||| c.loopstart.setWidth 32 <<< 16
  | _ => 0

def writeByte (masteren : BitVec 8) (reg : ℕ) (val : BitVec 8) : ChannelStruct φ :=
  match reg with
  | 0x0 => { c with vol := val &&& 0x7F }
  | 0x1 => { c with volumeDiv := bits val 0 2, hold := bits val 7 1 }
  | 0x2 => { c with pan := val &&& 0x7F }
  | 0x3 =>
    keyProbe env masteren
      { c with
        waveduty := bits val 0 3
        repeatMode := bits val 3 2
        format := bits val 5 2
        keyon := bits val 7 1 }
  | 0x4 => { c with addr := patch c.addr 0 (val &&& 0xFC) }
  | 0x5 => { c with addr := patch c.addr 8 val }
  | 0x6 => { c with addr := patch c.addr 16 val }
  | 0x7 => { c with addr := patch c.addr 24 (val &&& 0x07) }
  | 0x8 => adjustChannelTimer env { c with timer := patch c.timer 0 val }
  | 0x9 => adjustChannelTimer env { c with timer := patch c.timer 8 val }
  | 0xA => { c with loopstart := patch c.loopstart 0 val }
  | 0xB => { c with loopstart := patch c.loopstart 8 val }
  | 0xC => { c with length := patch c.length 0 val }
  | 0xD => { c with length := patch c.length 8 val }
  | 0xE => { c with length := patch c.length 16 (val &&& 0x3F) }
  | 0xF => { c with length := patch c.length 24 (0 : BitVec 8) }
  | _ => c

def writeWord (masteren : BitVec 8) (reg : ℕ) (val : BitVec 16) : ChannelStruct φ :=
  match reg with
  | 0x0 => { c with vol := bits val 0 7, volumeDiv := bits val 8 2, hold := bits val 15 1 }
  | 0x2 =>
    keyProbe env masteren
      { c with
        pan := bits val 0 7
        waveduty := bits val 8 3
        repeatMode := bits val 11 2
        format := bits val 13 2
        keyon := bits val 15 1 }
  | 0x4 => { c with addr := patch c.addr 0 (val &&& 0xFFFC) }
  | 0x6 => { c with addr := patch c.addr 16 (val &&& 0x07FF) }
  | 0x8 => adjustChannelTimer env { c with timer := val }
  | 0xA => { c with loopstart := val }
  | 0xC => { c with length := patch c.length 0 val }
  | 0xE => { c with length := patch c.length 16 (val &&& 0x003F) }
  | _ => c

def writeLong (masteren : BitVec 8) (reg : ℕ) (val : BitVec 32) : ChannelStruct φ :=
  match reg with
  | 0x0 =>
    keyProbe env masteren
      { c with
        vol := bits val 0 7
        volumeDiv := bits val 8 2
        hold := bits val 15 1
        pan := bits val 16 7
        waveduty := bits val 24 3
        repeatMode := bits val 27 2
        format := bits val 29 2
        keyon := bits val 31 1 }
  | 0x4 => { c with addr := val &&& 0x07FFFFFC }
  | 0x8 =>
    adjustChannelTimer env
      { c with timer := val.setWidth 16, loopstart := (val >>> 16).setWidth 16 }
  | 0xC => { c with length := val &&& 0x003FFFFF }
  | _ => c

end ChannelStruct

namespace Cap

variable (k : Cap φ)

/-- `ProbeCapture`. -/
def probeCapture : Cap φ :=
  if k.active = 0 then { k with running := 0 }
  else
    let len : BitVec 32 := if k.len = 0 then 1 else k.len.setWidth 32
    { k with
      running := 1
      curdad := k.dad
      maxdad := k.dad + len * 4
      sampcnt := env.ofInt 0
      fifo := { k.fifo with head := 0, tail := 0, size := 0 } }

/-- The control fields from the bits of a word on, and the probe after them. -/
def writeControl {w : ℕ} (val : BitVec w) (lo : ℕ) : Cap φ :=
  probeCapture env
    { k with
      add := bits val lo 1
      source := bits val (lo + 1) 1
      oneshot := bits val (lo + 2) 1
      bits8 := bits val (lo + 3) 1
      active := bits val (lo + 7) 1 }

/-- The control byte of a capture. -/
def readControl : BitVec 8 :=
  k.add ||| k.source <<< 1 ||| k.oneshot <<< 2 ||| k.bits8 <<< 3 ||| k.running <<< 7

end Cap

namespace SpuStruct

variable (s : SpuStruct φ)

def setChannel (num : Fin 16) (c : ChannelStruct φ) : SpuStruct φ :=
  { s with channels := Function.update s.channels num c }

def setCap (which : Fin 2) (k : Cap φ) : SpuStruct φ :=
  { s with cap := Function.update s.cap which k }

@[simp] theorem setChannel_channels_self (num : Fin 16) (c : ChannelStruct φ) :
    (s.setChannel num c).channels num = c := by
  rw [setChannel]
  exact Function.update_self num c s.channels

theorem setChannel_channels_of_ne {num other : Fin 16} (h : other ≠ num) (c : ChannelStruct φ) :
    (s.setChannel num c).channels other = s.channels other := by
  rw [setChannel]
  exact Function.update_of_ne h c s.channels

@[simp] theorem setChannel_masteren (num : Fin 16) (c : ChannelStruct φ) :
    (s.setChannel num c).masteren = s.masteren := rfl

@[simp] theorem setChannel_setChannel (num : Fin 16) (c d : ChannelStruct φ) :
    (s.setChannel num c).setChannel num d = s.setChannel num d := by
  simp only [setChannel, Function.update_idem]

@[simp] theorem setCap_cap_self (which : Fin 2) (k : Cap φ) :
    (s.setCap which k).cap which = k := by
  rw [setCap]
  exact Function.update_self which k s.cap

theorem setCap_cap_of_ne {which other : Fin 2} (h : other ≠ which) (k : Cap φ) :
    (s.setCap which k).cap other = s.cap other := by
  rw [setCap]
  exact Function.update_of_ne h k s.cap

@[simp] theorem setCap_setCap (which : Fin 2) (k l : Cap φ) :
    (s.setCap which k).setCap which l = s.setCap which l := by
  simp only [setCap, Function.update_idem]

def setDad (which : Fin 2) (dad : BitVec 32) : SpuStruct φ :=
  s.setCap which { s.cap which with dad := dad }

def setLen (which : Fin 2) (len : BitVec 16) : SpuStruct φ :=
  s.setCap which { s.cap which with len := len }

/-- The address lies in the registers of a channel. -/
def isChannel (addr : ℕ) : Prop := addr &&& 0x0F00 = 0x0400

instance (addr : ℕ) : Decidable (isChannel addr) := inferInstanceAs (Decidable (_ = _))

def chanNum (addr : ℕ) : Fin 16 := Fin.ofNat 16 (addr >>> 4)

def probeAll : SpuStruct φ :=
  { s with channels := fun num => (s.channels num).keyProbe env s.masteren }

/-- The upper byte of `SOUNDCNT`, from bit `lo` of a word on, and the key probes. -/
def writeMaster {w : ℕ} (val : BitVec w) (lo : ℕ) : SpuStruct φ :=
  probeAll env
    { s with
      ctlLeft := bits val lo 2
      ctlRight := bits val (lo + 2) 2
      ctlCh1bypass := bits val (lo + 4) 1
      ctlCh3bypass := bits val (lo + 5) 1
      masteren := bits val (lo + 7) 1 }

/-- `ReadByte`. -/
def readByte (addr : ℕ) : BitVec 8 :=
  if isChannel addr then (s.channels (chanNum addr)).readByte (addr &&& 0xF)
  else
    match addr with
    | 0x500 => s.mastervol
    | 0x501 =>
      s.ctlLeft ||| s.ctlRight <<< 2 ||| s.ctlCh1bypass <<< 4 ||| s.ctlCh3bypass <<< 5 |||
        s.masteren <<< 7
    | 0x504 => s.soundbias.setWidth 8
    | 0x505 => (s.soundbias >>> 8).setWidth 8
    | 0x508 => (s.cap 0).readControl
    | 0x509 => (s.cap 1).readControl
    | 0x510 => (s.cap 0).dad.setWidth 8
    | 0x511 => ((s.cap 0).dad >>> 8).setWidth 8
    | 0x512 => ((s.cap 0).dad >>> 16).setWidth 8
    | 0x513 => ((s.cap 0).dad >>> 24).setWidth 8
    | 0x514 => (s.cap 0).len.setWidth 8
    | 0x515 => ((s.cap 0).len >>> 8).setWidth 8
    | 0x518 => (s.cap 1).dad.setWidth 8
    | 0x519 => ((s.cap 1).dad >>> 8).setWidth 8
    | 0x51A => ((s.cap 1).dad >>> 16).setWidth 8
    | 0x51B => ((s.cap 1).dad >>> 24).setWidth 8
    | 0x51C => (s.cap 1).len.setWidth 8
    | 0x51D => ((s.cap 1).len >>> 8).setWidth 8
    | _ => 0

/-- `ReadWord`. -/
def readWord (addr : ℕ) : BitVec 16 :=
  if isChannel addr then (s.channels (chanNum addr)).readWord (addr &&& 0xF)
  else
    match addr with
    | 0x500 =>
      s.mastervol.setWidth 16 ||| s.ctlLeft.setWidth 16 <<< 8 ||| s.ctlRight.setWidth 16 <<< 10 |||
        s.ctlCh1bypass.setWidth 16 <<< 12 ||| s.ctlCh3bypass.setWidth 16 <<< 13 |||
        s.masteren.setWidth 16 <<< 15
    | 0x504 => s.soundbias
    | 0x508 => (s.cap 0).readControl.setWidth 16 ||| (s.cap 1).readControl.setWidth 16 <<< 8
    | 0x510 => (s.cap 0).dad.setWidth 16
    | 0x512 => ((s.cap 0).dad >>> 16).setWidth 16
    | 0x514 => (s.cap 0).len
    | 0x518 => (s.cap 1).dad.setWidth 16
    | 0x51A => ((s.cap 1).dad >>> 16).setWidth 16
    | 0x51C => (s.cap 1).len
    | _ => 0

/-- `ReadLong`. -/
def readLong (addr : ℕ) : BitVec 32 :=
  if isChannel addr then (s.channels (chanNum addr)).readLong (addr &&& 0xF)
  else
    match addr with
    | 0x500 =>
      s.mastervol.setWidth 32 ||| s.ctlLeft.setWidth 32 <<< 8 ||| s.ctlRight.setWidth 32 <<< 10 |||
        s.ctlCh1bypass.setWidth 32 <<< 12 ||| s.ctlCh3bypass.setWidth 32 <<< 13 |||
        s.masteren.setWidth 32 <<< 15
    | 0x504 => s.soundbias.setWidth 32
    | 0x508 => (s.cap 0).readControl.setWidth 32 ||| (s.cap 1).readControl.setWidth 32 <<< 8
    | 0x510 => (s.cap 0).dad
    | 0x514 => (s.cap 0).len.setWidth 32
    | 0x518 => (s.cap 1).dad
    | 0x51C => (s.cap 1).len.setWidth 32
    | _ => 0

/-- `WriteByte`. -/
def writeByte (addr : ℕ) (val : BitVec 8) : SpuStruct φ :=
  if isChannel addr then
    s.setChannel (chanNum addr)
      ((s.channels (chanNum addr)).writeByte env s.masteren (addr &&& 0xF) val)
  else
    match addr with
    | 0x500 => { s with mastervol := val &&& 0x7F }
    | 0x501 => s.writeMaster env val 0
    | 0x504 => { s with soundbias := patch s.soundbias 0 val }
    | 0x505 => { s with soundbias := patch s.soundbias 8 (val &&& 0x03) }
    | 0x508 => s.setCap 0 ((s.cap 0).writeControl env val 0)
    | 0x509 => s.setCap 1 ((s.cap 1).writeControl env val 0)
    | 0x510 => s.setDad 0 (patch (s.cap 0).dad 0 (val &&& 0xFC))
    | 0x511 => s.setDad 0 (patch (s.cap 0).dad 8 val)
    | 0x512 => s.setDad 0 (patch (s.cap 0).dad 16 val)
    | 0x513 => s.setDad 0 (patch (s.cap 0).dad 24 (val &&& 0x07))
    | 0x514 => s.setLen 0 (patch (s.cap 0).len 0 val)
    | 0x515 => s.setLen 0 (patch (s.cap 0).len 8 val)
    | 0x518 => s.setDad 1 (patch (s.cap 1).dad 0 (val &&& 0xFC))
    | 0x519 => s.setDad 1 (patch (s.cap 1).dad 8 val)
    | 0x51A => s.setDad 1 (patch (s.cap 1).dad 16 val)
    | 0x51B => s.setDad 1 (patch (s.cap 1).dad 24 (val &&& 0x07))
    | 0x51C => s.setLen 1 (patch (s.cap 1).len 0 val)
    | 0x51D => s.setLen 1 (patch (s.cap 1).len 8 val)
    | _ => s

/-- The arm of `0x508` in the wider writes. -/
def writeCaptures {w : ℕ} (val : BitVec w) : SpuStruct φ :=
  let s := s.setCap 0 ((s.cap 0).writeControl env val 0)
  s.setCap 1 ((s.cap 1).writeControl env val 8)

/-- `WriteWord`. -/
def writeWord (addr : ℕ) (val : BitVec 16) : SpuStruct φ :=
  if isChannel addr then
    s.setChannel (chanNum addr)
      ((s.channels (chanNum addr)).writeWord env s.masteren (addr &&& 0xF) val)
  else
    match addr with
    | 0x500 => { s with mastervol := bits val 0 7 }.writeMaster env val 8
    | 0x504 => { s with soundbias := val &&& 0x3FF }
    | 0x508 => s.writeCaptures env val
    | 0x510 => s.setDad 0 (patch (s.cap 0).dad 0 (val &&& 0xFFFC))
    | 0x512 => s.setDad 0 (patch (s.cap 0).dad 16 (val &&& 0x7FFF))
    | 0x514 => s.setLen 0 val
    | 0x518 => s.setDad 1 (patch (s.cap 1).dad 0 (val &&& 0xFFFC))
    | 0x51A => s.setDad 1 (patch (s.cap 1).dad 16 (val &&& 0x7FFF))
    | 0x51C => s.setLen 1 val
    | _ => s

/-- `WriteLong`. The arm of `0x504` falls through. -/
def writeLong (addr : ℕ) (val : BitVec 32) : SpuStruct φ :=
  if isChannel addr then
    s.setChannel (chanNum addr)
      ((s.channels (chanNum addr)).writeLong env s.masteren (addr &&& 0xF) val)
  else
    match addr with
    | 0x500 => { s with mastervol := bits val 0 7 }.writeMaster env val 8
    | 0x504 => { s with soundbias := val.setWidth 16 &&& 0x3FF }.writeCaptures env val
    | 0x508 => s.writeCaptures env val
    | 0x510 => s.setDad 0 (val &&& 0x07FFFFFC)
    | 0x514 => s.setLen 0 (val.setWidth 16)
    | 0x518 => s.setDad 1 (val &&& 0x07FFFFFC)
    | 0x51C => s.setLen 1 (val.setWidth 16)
    | _ => s

end SpuStruct

/-- `SPU_struct::reset`. -/
def spuReset : SpuStruct φ where
  channels _ :=
    { vol := 0, volumeDiv := 0, hold := 0, pan := 0, waveduty := 0, repeatMode := 0, format := 0,
      keyon := 0, status := 0, addr := 0, timer := 0, loopstart := 0, length := 0, totlength := 0,
      doubleTotlengthShifted := env.ofU32 0, sampcnt := env.ofInt 0, sampinc := env.ofInt 0,
      lastsampcnt := 0, pcm16b := 0, pcm16bLast := 0, index := 0, loopIndex := 0, x := 0 }
  mastervol := 0
  ctlLeft := 0
  ctlRight := 0
  ctlCh1bypass := 0
  ctlCh3bypass := 0
  masteren := 0
  soundbias := 0
  cap _ :=
    { add := 0, source := 0, oneshot := 0, bits8 := 0, active := 0, dad := 0, len := 0,
      running := 0, curdad := 0, maxdad := 0, sampcnt := env.ofInt 0, fifo := ⟨fun _ => 0, 0, 0, 0⟩ }

end Desmume.Sound
