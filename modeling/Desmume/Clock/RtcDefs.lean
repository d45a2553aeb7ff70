import Desmume.Library.Literals
import Mathlib.Data.Fin.VecNotation
import Mathlib.Logic.Function.Basic

/-! The real-time clock: its registers, the three lines of its serial bus and the machine that
shifts commands and data through them. A result of `none` stands for an index that leaves an
array. -/

namespace Desmume.Clock

abbrev Byte := BitVec 8

/-- The fields of `DateTime` that the clock reads. -/
structure DateTime where
  year : ℕ
  month : ℕ
  day : ℕ
  dayOfWeek : ℕ
  hour : ℕ
  minute : ℕ
  second : ℕ

/-- The bus part of `_RTC`. -/
structure Bus where
  prevSCK : Bool
  prevCS : Bool
  prevSIO : Bool
  SCK : Bool
  CS : Bool
  SIO : Bool
  DD : Bool
  REG : BitVec 16
  deriving DecidableEq

/-- `rtc.cmdStat`, with the values 0, 1, 3 and 4. -/
inductive CmdStat where
  | idle | command | write | read
  deriving DecidableEq

/-- `_RTC`. -/
structure Rtc where
  regStatus1 : Byte
  regStatus2 : Byte
  regAdjustment : Byte
  regFree : Byte
  bus : Bus
  cmd : Byte
  cmdStat : CmdStat
  bitsCount : Byte
  data : Fin 8 → Byte
  cmdBitsSize : Fin 8 → Byte

def kDefaultCmdBitsSize : Fin 8 → Byte := ![8, 8, 56, 24, 0, 24, 8, 8]

/-- `rtcInit`. -/
def rtcInit : Rtc where
  regStatus1 := 0x02
  regStatus2 := 0
  regAdjustment := 0
  regFree := 0
  bus := ⟨false, false, false, false, false, false, false, 0⟩
  cmd := 0
  cmdStat := .idle
  bitsCount := 0
  data := fun _ => 0
  cmdBitsSize := kDefaultCmdBitsSize

def toBCD (x : Byte) : Byte := ((x / 10) <<< 4) ||| (x % 10)

/-- The hour in the mode that the status selects. -/
def hourByte (regStatus1 : Byte) (hour : ℕ) : Byte :=
  let hour := if regStatus1.getLsbD 1 then hour else hour % 12
  (if hour < 12 then 0x00 else 0x40) ||| toBCD (.ofNat 8 hour)

namespace Rtc

variable (s : Rtc)

/-- Bytes for the buffer, the rest of it cleared. -/
def setData (bytes : List Byte) : Rtc := { s with data := fun i => bytes.getD i 0 }

/-- `rtcRecv`. -/
def rtcRecv (now : DateTime) : Rtc :=
  match (s.cmd >>> 1).toNat with
  | 0 =>
    let s := { s with regStatus1 := s.regStatus1 &&& 0x0F }
    s.setData [s.regStatus1]
  | 1 => s.setData [s.regStatus2]
  | 2 => s.setData [toBCD (.ofNat 8 (now.year % 100)), toBCD (.ofNat 8 now.month),
      toBCD (.ofNat 8 now.day), .ofNat 8 now.dayOfWeek, hourByte s.regStatus1 now.hour,
      toBCD (.ofNat 8 now.minute), toBCD (.ofNat 8 now.second)]
  | 3 => s.setData [hourByte s.regStatus1 now.hour, toBCD (.ofNat 8 now.minute),
      toBCD (.ofNat 8 now.second)]
  | 6 => s.setData [s.regAdjustment]
  | 7 => s.setData [s.regFree]
  -- the alarms are not emulated
  | _ => s.setData []

/-- `rtcSend`. -/
def rtcSend : Rtc :=
  match (s.cmd >>> 1).toNat with
  | 0 => { s with regStatus1 := s.data 0 }
  | 1 => { s with regStatus2 := s.data 0 }
  | 6 => { s with regAdjustment := s.data 0 }
  | 7 => { s with regFree := s.data 0 }
  | _ => s

/-- `rtcRead`. -/
def rtcRead : BitVec 16 := s.bus.REG

/-- The index of the byte with the next bit, and of the size of the command. -/
def dataIndex : Option (Fin 8) :=
  if h : (s.bitsCount >>> 3).toNat < 8 then some ⟨_, h⟩ else none

def cmdIndex : Option (Fin 8) :=
  if h : (s.cmd >>> 1).toNat < 8 then some ⟨_, h⟩ else none

end Rtc

/-- The order of the bits of a command: the code 0110 came first or last. -/
def decodeCommand (cmd : Byte) : Byte :=
  if cmd &&& 0x0F = 0x06 then
    ((cmd &&& 0x80) >>> 7) ||| ((cmd &&& 0x40) >>> 5) ||| ((cmd &&& 0x20) >>> 3) |||
      ((cmd &&& 0x10) >>> 1)
  else cmd &&& 0x0F

namespace Rtc

variable (s : Rtc)

/-- The clock falls. -/
def falls : Bool := s.bus.prevSCK && !s.bus.SCK

/-- What follows a complete command. -/
def startCommand (now : DateTime) : Rtc :=
  let s := { s with cmd := decodeCommand s.cmd }
  if s.falls then
    let s := { s with bitsCount := 0 }
    let s := if s.cmd >>> 1 = 4 then
        { s with
          cmdBitsSize := Function.update s.cmdBitsSize 4
            (if s.regStatus2 &&& 0x0F = 0x04 then 24 else 8) }
      else s
    if s.cmd.getLsbD 0 then { s with cmdStat := .read }.rtcRecv now
    else { s with cmdStat := .write }
  else s

/-- The case 1 of `rtcWrite`. -/
def commandStep (now : DateTime) : Rtc :=
  if !s.bus.CS then { s with cmdStat := .idle }
  else if s.bus.SCK && s.bus.DD then s
  else if !s.bus.SCK && !s.bus.DD then s
  else
    let s := { s with
      cmd := s.cmd ||| ((BitVec.ofBool s.bus.SIO).setWidth 8 <<< s.bitsCount)
      bitsCount := s.bitsCount + 1 }
    if s.bitsCount = 8 then s.startCommand now else s

/-- The bit on the data line joins the buffer. -/
def storeBit : Option Rtc :=
  if s.bus.SIO then
    s.dataIndex.map fun i =>
      { s with
        data := Function.update s.data i (s.data i ||| ((1 : Byte) <<< (s.bitsCount &&& 0x07))) }
  else some s

def countBit : Rtc := { s with bitsCount := s.bitsCount + 1 }

/-- The case 3 of `rtcWrite`: the buffer is not cleared for a new command. -/
def writeStep : Option Rtc :=
  if s.falls then do
    let s ← s.storeBit
    let s := s.countBit
    let i ← s.cmdIndex
    return if s.bitsCount = s.cmdBitsSize i then { s.rtcSend with cmdStat := .idle } else s
  else some s

/-- The port with a bit for the program to read. -/
def showBit (val : BitVec 16) (b : Bool) : Rtc :=
  { s with bus := { s.bus with REG := if b then val ||| 0x01 else val &&& ~~~0x01 } }

/-- The case 4 of `rtcWrite`. -/
def readStep (val : BitVec 16) : Option Rtc :=
  if s.falls then do
    let i ← s.dataIndex
    let s := (s.showBit val ((s.data i >>> (s.bitsCount &&& 0x07)).getLsbD 0)).countBit
    let i ← s.cmdIndex
    return if s.bitsCount = s.cmdBitsSize i || !val.getLsbD 2 then { s with cmdStat := .idle } else s
  else some s

/-- The `switch` of `rtcWrite`. -/
def step (now : DateTime) (val : BitVec 16) : Option Rtc :=
  match s.cmdStat with
  | .idle =>
    some (if !s.bus.prevCS && s.bus.prevSCK && s.bus.CS && s.bus.SCK then
      { s with cmdStat := .command, bitsCount := 0, cmd := 0 } else s)
  | .command => some (s.commandStep now)
  | .write => s.writeStep
  | .read => s.readStep val

/-- The lines that a value drives, the others as they were. -/
def drive (val : BitVec 16) : Rtc :=
  { s with
    bus := { s.bus with
      DD := val.getLsbD 4
      SIO := if val.getLsbD 4 then val.getLsbD 0 else s.bus.prevSIO
      SCK := if val.getLsbD 5 then val.getLsbD 1 else s.bus.prevSCK
      CS := if val.getLsbD 6 then val.getLsbD 2 else s.bus.prevCS } }

/-- The lines become the previous ones. -/
def latch : Rtc :=
  { s with bus := { s.bus with prevSIO := s.bus.SIO, prevSCK := s.bus.SCK, prevCS := s.bus.CS } }

/-- `rtcWrite` at a moment. -/
def rtcWrite (now : DateTime) (val : BitVec 16) : Option Rtc := ((s.drive val).step now val).map latch

/-- Receiving fills the buffer, and masks status 1. -/
theorem rtcRecv_frame (now : DateTime) :
    ∃ status1 data, s.rtcRecv now = { s with regStatus1 := status1, data := data } := by
  unfold rtcRecv setData
  split <;> exact ⟨_, _, rfl⟩

/-- Sending changes registers only. -/
theorem rtcSend_frame : ∃ status1 status2 adjustment free, s.rtcSend =
    { s with
      regStatus1 := status1, regStatus2 := status2
      regAdjustment := adjustment, regFree := free } := by
  unfold rtcSend
  split <;> exact ⟨_, _, _, _, rfl⟩

end Rtc

end Desmume.Clock
