import Desmume.Library.ByteFile
import Desmume.Library.LittleEndian
import Desmume.Library.Run

/-! The backup memory of a card: the command bytes it receives over SPI and the file behind it. -/

namespace Desmume.Backup
open Library

def bmCmdWriteStatus : BitVec 8 := 0x01
def bmCmdWriteLow : BitVec 8 := 0x02
def bmCmdReadLow : BitVec 8 := 0x03
def bmCmdWriteDisable : BitVec 8 := 0x04
def bmCmdReadStatus : BitVec 8 := 0x05
def bmCmdWriteEnable : BitVec 8 := 0x06
def bmCmdIrda : BitVec 8 := 0x08
def bmCmdWriteHigh : BitVec 8 := 0x0A
def bmCmdReadHigh : BitVec 8 := 0x0B

def footerTxt : String :=
  "|<--Snip above here to create a raw sav by excluding this DeSmuME savedata footer:"

def saveCookie : String := "|-DESMUME SAVE-|"

def textBytes (s : String) : List (BitVec 8) := s.toList.map fun c => BitVec.ofNat 8 c.toNat

/-- `saveSizes` without the last one, which stands for no size. -/
def saveSizes : List (BitVec 32) :=
  [512, 0x2000, 0x8000, 0x10000, 0x40000, 0x80000, 0x100000, 0x200000, 0x400000, 0x800000,
    0x1000000, 0x2000000, 0x4000000]

/-- The sizes in `save_types`, from the first one that is searched. -/
def saveTypeSizes : List (BitVec 32) :=
  [0x200, 0x2000, 0x10000, 0x8000, 0x40000, 0x80000, 0x100000, 0x200000, 0x400000, 0x800000,
    0x1000000, 0x2000000]

def padUpSize (startSize : BitVec 32) : BitVec 32 :=
  (saveSizes.find? fun size => startSize ≤ size).getD startSize

def searchFileSaveType (size : BitVec 32) : BitVec 8 :=
  match saveTypeSizes.findIdx? fun s => size == s with
  | some i => BitVec.ofNat 8 i
  | none => 0xFF

inductive BackupState where
  | detecting
  | running
deriving DecidableEq

structure BackupInfo where
  size : BitVec 32
  padSize : BitVec 32
  type : BitVec 32

structure BackupDevice where
  info : BackupInfo
  uninitializedValue : BitVec 8
  fpMC : ByteFile (BitVec 8)
  fsize : BitVec 32
  writeEnable : Bool
  resetCommandState : Bool
  com : BitVec 8
  addrSize : BitVec 32
  addrCounter : BitVec 32
  addr : BitVec 32
  writeProtect : BitVec 8
  dataAutodetect : List (BitVec 8)
  state : BackupState

/-- `fseek` from the start of the file; the offset is an `int` and a negative one is refused. -/
def fseekSet (fp : ByteFile (BitVec 8)) (offset : BitVec 32) : ByteFile (BitVec 8) :=
  if 0 ≤ offset.toInt then fp.seek offset.toNat else fp

def write32le (fp : ByteFile (BitVec 8)) (val : BitVec 32) : ByteFile (BitVec 8) :=
  fp.write (leBytes 4 val.toNat)

/-- The address size found from the number of bytes of the first command. -/
def autodetectAddrSize (gameCode : List Char) (autodetectSize : ℕ) : BitVec 32 :=
  match autodetectSize with
  | 0 | 1 | 2 => 1
  | 3 =>
    if gameCode.take 3 ∈ [['A', 'L', '3'], ['A', 'H', '5'], ['A', 'V', 'H'], ['A', 'Q', '3']] then 1
    else 2
  | 4 => if gameCode.take 3 = ['A', 'S', 'M'] then 2 else 3
  | _ =>
    if gameCode.take 3 = ['B', 'D', 'E'] then 2 else BitVec.ofNat 32 autodetectSize &&& 3#32

namespace BackupDevice

variable (d : BackupDevice)

/-- The footer behind `padSize` bytes of data. -/
def footer (info : BackupInfo) (addr padSize : BitVec 32) (fp : ByteFile (BitVec 8)) :
    ByteFile (BitVec 8) :=
  let fp := fp.write (textBytes footerTxt)
  let fp := write32le fp addr
  let fp := write32le fp padSize
  let fp := write32le fp info.type
  let fp := write32le fp d.addrSize
  let fp := write32le fp info.size
  let fp := write32le fp 0
  fp.write (textBytes saveCookie)

/-- `ensure`: make the file hold at least `addr` bytes of data. -/
def ensure (addr : BitVec 32) : BackupDevice :=
  if addr < d.fsize then d
  else
    let fp := fseekSet d.fpMC d.fsize
    let padSize := padUpSize addr
    let size := padSize - d.fsize
    let type := searchFileSaveType padSize
    let info := ⟨padSize, padSize,
      if type ≠ 0xFF then type.setWidth 32 + 1 else d.info.type⟩
    let fp := if 0 < size then fp.write (List.replicate size.toNat d.uninitializedValue) else fp
    let fp := d.footer info addr padSize fp
    { d with info := info, fsize := padSize, fpMC := fseekSet fp (addr - 1) }

def read : BitVec 8 × BackupDevice :=
  ((d.fpMC.readData 1).headD 0xFF, { d with fpMC := d.fpMC.read 1 })

def write (val : BitVec 8) : BackupDevice := { d with fpMC := d.fpMC.write [val] }

def detect (gameCode : List Char) : BackupDevice :=
  if d.resetCommandState = true ∧ d.state = .detecting ∧ d.dataAutodetect ≠ [] then
    { d with
      addrSize := autodetectAddrSize gameCode d.dataAutodetect.length
      state := .running
      dataAutodetect := [] }
  else d

def checkReset : BackupDevice :=
  if d.resetCommandState then { d with com := 0, resetCommandState := false } else d

/-- `reset_command`, the release of the chip select. -/
def resetCommand : BackupDevice := { d with resetCommandState := true }

/-- An address or data byte of READLOW or WRITELOW. -/
def transferByte (val : BitVec 8) : BitVec 8 × BackupDevice :=
  if d.addrCounter < d.addrSize then
    let addr := (d.addr <<< 8) ||| val.setWidth 32
    let addrCounter := d.addrCounter + 1
    let fp := if addrCounter = d.addrSize then fseekSet d.fpMC addr else d.fpMC
    (0xFF, { d with addr := addr, addrCounter := addrCounter, fpMC := fp })
  else
    let d :=
      if d.addrSize = 1 then
        { d with addr := d.addr &&& 0x1FF#32, fpMC := fseekSet d.fpMC (d.addr &&& 0x1FF#32) }
      else d
    let d := d.ensure (d.addr + 1)
    let r :=
      if d.com = bmCmdReadLow then d.read
      else if d.writeEnable then (val, d.write val)
      else (val, d)
    (r.1, { r.2 with addr := r.2.addr + 1 })

/-- The first byte of a transfer. -/
def newCommand (val : BitVec 8) : BitVec 8 × BackupDevice :=
  let d := { d with com := val }
  if val = bmCmdIrda then (0xAA, d)
  else if val = bmCmdWriteDisable then (0xFF, { d with writeEnable := false })
  else if val = bmCmdWriteEnable then (0xFF, { d with writeEnable := true })
  else if val = bmCmdWriteLow ∨ val = bmCmdReadLow then (0xFF, { d with addrCounter := 0, addr := 0 })
  else if val = bmCmdWriteHigh ∨ val = bmCmdReadHigh then
    (0xFF, { d with
      com := if val = bmCmdWriteHigh then bmCmdWriteLow else bmCmdReadLow
      addrCounter := 0
      addr := if d.addrSize = 1 then 1 else 0 })
  else (0xFF, d)

/-- `data_command`, up to the check of the chip select. -/
def command (gameCode : List Char) (val : BitVec 8) : BitVec 8 × BackupDevice :=
  if d.com = bmCmdWriteStatus then (val, { d with writeProtect := val &&& 0xFC#8 })
  else if d.com = bmCmdWriteLow ∨ d.com = bmCmdReadLow then
    match d.state with
    | .detecting => (0xFF, { d with dataAutodetect := d.dataAutodetect ++ [val] }.detect gameCode)
    | .running => d.transferByte val
  else if d.com = bmCmdReadStatus then
    (((BitVec.ofBool d.writeEnable).setWidth 8 <<< 1) ||| d.writeProtect, d)
  else if d.com = bmCmdIrda then (0xAA, d)
  else if d.com ≠ 0 then (val, d)
  else d.newCommand val

def dataCommand (gameCode : List Char) (val : BitVec 8) : BitVec 8 × BackupDevice :=
  let r := d.command gameCode val
  (r.1, r.2.checkReset)

end BackupDevice

/-- What the bus does to the device. -/
inductive SpiOp where
  | byte (val : BitVec 8)
  | release
deriving DecidableEq

namespace BackupDevice

variable (gameCode : List Char) (d : BackupDevice)

def step : SpiOp → BackupDevice
  | .byte val => (d.dataCommand gameCode val).2
  | .release => d.resetCommand

def output : SpiOp → List (BitVec 8)
  | .byte val => [(d.dataCommand gameCode val).1]
  | .release => []

end BackupDevice

end Desmume.Backup
