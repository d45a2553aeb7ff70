import Desmume.Bios.Crc16
import Desmume.Library.FlatMemory

/-! The firmware chip and the two copies of the user settings on it. -/

namespace Desmume.Firmware
open Library Bios

/-- `fw_memory_chip`. A file is what it holds. -/
structure FwMemoryChip where
  com : BitVec 8
  addr : BitVec 32
  addrShift : BitVec 8
  writeEnable : Bool
  data : ℕ → BitVec 8
  size : BitVec 32
  writeableBuffer : Bool
  fp : Option (List (BitVec 8))
  isFirmware : Bool
  userfile : List (BitVec 8)

structure CommonSettings where
  useExtFirmware : Bool
  useExtFirmwareSettings : Bool

/-- `NDS_FW_USER_SETTINGS_MEM_BYTE_COUNT`. -/
def userSettingsMemByteCount : ℕ := 0x70

section CopyUserData

/-- Memory that is read with checks. -/
abbrev FwData := ℕ → Option (BitVec 8)

variable (fwData : FwData)

/-- `fw_data[a] | fw_data[a + 1] << 8`. -/
def readPair (a : BitVec 32) : Option (BitVec 32) := do
  let low ← fwData a.toNat
  let high ← fwData (a + 1).toNat
  return low.setWidth 32 ||| high.setWidth 32 <<< 8

def readBytes (a : BitVec 32) (count : ℕ) : Option (List (BitVec 8)) :=
  (List.range' a.toNat count).mapM fwData

/-- `user1_valid` and `user2_valid`. -/
def userValid (a : BitVec 32) : Option Bool := do
  let crc := calcCRC16 0xffff (← readBytes fwData a userSettingsMemByteCount)
  let fwCrc ← readPair fwData (a + 0x72)
  return crc == fwCrc

/-- `count1` and `count2`. -/
def updateCount (a : BitVec 32) : Option (BitVec 16) := do
  return (← readPair fwData (a + 0x70)).setWidth 16

/-- `copy_settings_offset` when both copies are valid. -/
def greaterCount (userSettingsOffset : BitVec 32) : Option (BitVec 32) := do
  let count1 ← updateCount fwData userSettingsOffset
  let count2 ← updateCount fwData (userSettingsOffset + 0x100)
  return if count1 < count2 then userSettingsOffset + 0x100 else userSettingsOffset

/-- `copy_settings_offset`. -/
def copySettingsOffset (userSettingsOffset : BitVec 32) : Option (BitVec 32) := do
  let user1Valid ← userValid fwData userSettingsOffset
  let user2Valid ← userValid fwData (userSettingsOffset + 0x100)
  match user1Valid, user2Valid with
  | true, true => greaterCount fwData userSettingsOffset
  | true, false => return userSettingsOffset
  | false, true => return userSettingsOffset + 0x100
  | false, false => return -1

/-- `user_settings_offset`. -/
def userSettingsOffset : Option (BitVec 32) := do
  return (← readPair fwData 0x20) <<< 3

/-- What `memcpy` makes of the destination, with what is returned. -/
def copyFrom (destBuffer : ℕ → BitVec 8) (copySettingsOffset : BitVec 32) :
    Option (BitVec 32 × (ℕ → BitVec 8)) :=
  if (0 : BitVec 32).slt copySettingsOffset then do
    return (1, store destBuffer 0 (← readBytes fwData copySettingsOffset userSettingsMemByteCount))
  else some (0, destBuffer)

/-- `copy_firmware_user_data`. -/
def copyFirmwareUserData (destBuffer : ℕ → BitVec 8) : Option (BitVec 32 × (ℕ → BitVec 8)) := do
  let offset ← userSettingsOffset fwData
  if offset ≤ 0x3FE00 then
    copyFrom fwData destBuffer (← copySettingsOffset fwData offset)
  else return (0, destBuffer)

end CopyUserData

section SaveSettings

/-- `DFC_ID_CODE`, with the zero at its end. -/
def dfcIdCode : List (BitVec 8) :=
  "DeSmuME Firmware User Settings".toList.map (BitVec.ofNat 8 ·.toNat) ++ [0]

/-- What `saveSettings` writes to the file. -/
def dfcFile (data : ℕ → BitVec 8) (userDataAddr : ℕ) : List (BitVec 8) :=
  dfcIdCode ++ load data userDataAddr 0x100 ++ load data 0x2A 0x1D5 ++ load data 0x3FA00 0x300

/-- The copy whose counter follows the other's goes over it. -/
def mirrorSettings (data : ℕ → BitVec 8) (userDataAddr : ℕ) : ℕ → BitVec 8 :=
  let counter0 := data (userDataAddr + 0x070)
  let counter1 := data (userDataAddr + 0x170)
  if counter1 = (counter0 + 1) &&& 0x7F then
    store data userDataAddr (load data (userDataAddr + 0x100) 0x100)
  else store data (userDataAddr + 0x100) (load data userDataAddr 0x100)

/-- `CFIRMWARE::saveSettings`, on `MMU.fw`. -/
def saveSettings (common : CommonSettings) (userDataAddr : BitVec 32) (fw : FwMemoryChip) :
    Bool × FwMemoryChip :=
  if !common.useExtFirmware then (false, fw)
  else if !common.useExtFirmwareSettings then (false, fw)
  else
    let data := mirrorSettings fw.data userDataAddr.toNat
    (true, { fw with data, userfile := dfcFile data userDataAddr.toNat })

end SaveSettings

end Desmume.Firmware
