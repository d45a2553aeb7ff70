import Desmume.Firmware.UserSettings

/-! The firmware image that is built when none is loaded: areas at fixed places, written in order, with
six checksums over what is there by then. -/

namespace Desmume.Firmware
open Library Bios

section Tables

/-- `FW_WIFIInit`. -/
def fwWifiInit : List (BitVec 8) :=
  [0x02, 0x00, 0x17, 0x00, 0x26, 0x00, 0x18, 0x18, 0x48, 0x00, 0x40, 0x48, 0x58, 0x00, 0x42, 0x00,
    0x40, 0x01, 0x64, 0x80, 0xE0, 0xE0, 0x43, 0x24, 0x0E, 0x00, 0x32, 0x00, 0xF4, 0x01, 0x01, 0x01]

/-- `FW_BBInit`, with the zeros up to its size. -/
def fwBBInit : List (BitVec 8) :=
  [0x6D, 0x9E, 0x40, 0x05, 0x1B, 0x6C, 0x48, 0x80, 0x38, 0x00, 0x35, 0x07, 0x00, 0x00, 0x00,
    0x00, 0x00, 0x00, 0x00, 0x00, 0xB0, 0x00, 0x04, 0x01, 0xD8, 0xFF, 0xFF, 0xC7, 0xBB, 0x01,
    0xB6, 0x7F, 0x5A, 0x01, 0x3F, 0x01, 0x3F, 0x36, 0x36, 0x00, 0x78, 0x28, 0x55, 0x08, 0x28,
    0x16, 0x00, 0x01, 0x0E, 0x20, 0x02, 0x98, 0x98, 0x1F, 0x0A, 0x08, 0x04, 0x01, 0x00, 0x00,
    0x00, 0xFF, 0xFF, 0xFE, 0xFE, 0xFE, 0xFE, 0xFC, 0xFA, 0xFA, 0xF8, 0xF8, 0xF6, 0xA5, 0x12,
    0x14, 0x12, 0x41, 0x23, 0x03, 0x04, 0x70, 0x35, 0x0E, 0x16, 0x16, 0x00, 0x00, 0x06, 0x01,
    0xFF, 0xFE, 0xFF, 0xFF, 0x00, 0x0E, 0x13, 0x00, 0x00, 0x28, 0x1C,
    0x00, 0x00, 0x00, 0x00]

/-- `FW_RFInit`. -/
def fwRFInit : List (BitVec 8) :=
  [0x07, 0xC0, 0x00, 0x03, 0x9C, 0x12, 0x28, 0x17, 0x14, 0xBA, 0xE8, 0x1A,
    0x6F, 0x45, 0x1D, 0xFA, 0xFF, 0x23, 0x30, 0x1D, 0x24, 0x01, 0x00, 0x28,
    0x00, 0x00, 0x2C, 0x03, 0x9C, 0x06, 0x22, 0x00, 0x08, 0x6F, 0xFF, 0x0D]

/-- `FW_RFChannel`. -/
def fwRFChannel : List (BitVec 8) :=
  [0x28, 0x17, 0x14, 0xBA, 0xE8, 0x1A, 0x37, 0x17, 0x14, 0x46, 0x17, 0x19,
    0x45, 0x17, 0x14, 0xD1, 0x45, 0x1B, 0x54, 0x17, 0x14, 0x5D, 0x74, 0x19,
    0x62, 0x17, 0x14, 0xE9, 0xA2, 0x1B, 0x71, 0x17, 0x14, 0x74, 0xD1, 0x19,
    0x80, 0x17, 0x14, 0x00, 0x00, 0x18, 0x8E, 0x17, 0x14, 0x8C, 0x2E, 0x1A,
    0x9D, 0x17, 0x14, 0x17, 0x5D, 0x18, 0xAB, 0x17, 0x14, 0xA3, 0x8B, 0x1A,
    0xBA, 0x17, 0x14, 0x2F, 0xBA, 0x18, 0xC8, 0x17, 0x14, 0xBA, 0xE8, 0x1A,
    0xD7, 0x17, 0x14, 0x46, 0x17, 0x19, 0xFA, 0x17, 0x14, 0x2F, 0xBA, 0x18]

/-- `FW_BBChannel`. -/
def fwBBChannel : List (BitVec 8) :=
  [0xB3, 0xB3, 0xB3, 0xB3, 0xB3, 0xB4, 0xB4, 0xB4, 0xB4, 0xB4, 0xB5, 0xB5, 0xB6, 0xB6]

/-- A `FW_WFCProfile` with a name and a status, and zeros. -/
def fwWfcProfile (ssid : List (BitVec 8)) (status : BitVec 8) : List (BitVec 8) :=
  ssid ++ List.replicate (167 - ssid.length) 0 ++ [status] ++ List.replicate 24 0

def fwWfcProfile1 : List (BitVec 8) := fwWfcProfile ("SoftAP".toList.map (BitVec.ofNat 8 ·.toNat)) 0
def fwWfcProfile2 : List (BitVec 8) := fwWfcProfile [] 0xFF
def fwWfcProfile3 : List (BitVec 8) := fwWfcProfile [] 0xFF

end Tables

/-- `NDS_fw_touchscreen_cal`. -/
@[ext] structure FwTouchscreenCal where
  adcX : BitVec 16
  adcY : BitVec 16
  screenX : BitVec 8
  screenY : BitVec 8

/-- `NDS_fw_config_data`. -/
@[ext] structure FwConfigData where
  dsType : BitVec 32
  favColour : BitVec 8
  birthMonth : BitVec 8
  birthDay : BitVec 8
  nickname : Vector (BitVec 16) 10
  nicknameLen : BitVec 8
  message : Vector (BitVec 16) 26
  messageLen : BitVec 8
  language : BitVec 8
  touchCal : Vector FwTouchscreenCal 2

/-- `NDS_CONSOLE_TYPE_DSI`. -/
def consoleTypeDsi : BitVec 32 := 0xFE

/-! ### The builder -/

/-- `x & 0xff` and `(x >> 8) & 0xff`. -/
def halfBytes (x : BitVec 16) : List (BitVec 8) := [x.setWidth 8, (x >>> 8).setWidth 8]

def calBytes (cal : FwTouchscreenCal) : List (BitVec 8) :=
  halfBytes cal.adcX ++ halfBytes cal.adcY ++ [cal.screenX, cal.screenY]

/-- What `fill_user_data_area` writes before the checksum. -/
def userSettingsWrites (user : FwConfigData) (count : BitVec 16) : List (ℕ × List (BitVec 8)) :=
  [(0x00, List.replicate 0x100 0),
   -- version
   (0x00, [5]), (0x01, [0]),
   (0x02, [user.favColour]),
   (0x03, [user.birthMonth]), (0x04, [user.birthDay]),
   (0x06, user.nickname.toList.flatMap halfBytes),
   (0x1a, [user.nicknameLen]),
   (0x1c, user.message.toList.flatMap halfBytes),
   (0x50, [user.messageLen]),
   (0x58, user.touchCal.toList.flatMap calBytes),
   -- language and flags
   (0x64, [user.language]), (0x65, [0xfc]),
   (0x70, halfBytes count)]

/-- The checksum and what is behind it. -/
def crcWrites (crc : BitVec 32) : List (ℕ × List (BitVec 8)) :=
  [(0x72, [crc.setWidth 8]), (0x73, [(crc >>> 8).setWidth 8]),
   (0x74, List.replicate (0x100 - 0x74) 0xff)]

/-- `fill_user_data_area`. -/
def fillUserDataArea (user : FwConfigData) (fw : ℕ → BitVec 8) (data : ℕ) (count : BitVec 16) :
    ℕ → BitVec 8 :=
  let fw := storeAll fw data (userSettingsWrites user count)
  storeAll fw data (crcWrites (calcCRC16 0xffff (load fw data 0x70)))

/-- The header up to the offset of the user settings. -/
def headerWrites (user : FwConfigData) : List (ℕ × List (BitVec 8)) :=
  [(0, List.replicate 0x40000 0),
   -- "MACP"
   (0x8, [0x4D]), (0x8 + 1, [0x41]), (0x8 + 2, [0x43]), (0x8 + 3, [0x50]),
   (0x1d, [if user.dsType = consoleTypeDsi then 0xFF else user.dsType.setWidth 8]),
   (0x20, [0xc0]), (0x21, [0x7f])]

/-- The Wi-Fi settings and the connection profiles. -/
def wifiWrites (fwMac : Vector (BitVec 8) 6) : List (ℕ × List (BitVec 8)) :=
  [(0x2C, [0x38]), (0x2D, [0x01]), (0x2E, [0x00]), (0x2F, [0x00]),
   (0x36, fwMac.toList),
   -- enabled channels
   (0x3C, [0xFE]), (0x3D, [0x3F]), (0x3E, [0xFF]), (0x3F, [0xFF]),
   (0x40, [0x02]), (0x41, [0x18]), (0x42, [0x0C]), (0x43, [0x01]),
   (0x44, fwWifiInit), (0x64, fwBBInit), (0xCE, fwRFInit),
   (0xF2, fwRFChannel), (0x146, fwBBChannel), (0x154, List.replicate 0xE 0x10),
   (0x3FA40, fwWfcProfile1), (0x3FB40, fwWfcProfile2), (0x3FC40, fwWfcProfile3)]

/-- `*(u16*)at = (u16)calc_CRC16(0, data, count)`. -/
def storeCRC16 (fw : ℕ → BitVec 8) (at_ data count : ℕ) : ℕ → BitVec 8 :=
  store fw at_ (halfBytes ((calcCRC16 0 (load fw data count)).setWidth 16))

/-- The header and the two user areas. -/
def fillUserAreas (user : FwConfigData) (fw : ℕ → BitVec 8) : ℕ → BitVec 8 :=
  let fw := storeAll fw 0 (headerWrites user)
  let fw := fillUserDataArea user fw 0x3FE00 0
  fillUserDataArea user fw 0x3FF00 1

/-- The Wi-Fi settings and the profiles, with the checksums of these. -/
def fillWifi (fwMac : Vector (BitVec 8) 6) (fw : ℕ → BitVec 8) : ℕ → BitVec 8 :=
  let fw := storeAll fw 0 (wifiWrites fwMac)
  let fw := storeCRC16 fw 0x3FAFE 0x3FA00 0xFE
  let fw := storeCRC16 fw 0x3FBFE 0x3FB00 0xFE
  storeCRC16 fw 0x3FCFE 0x3FC00 0xFE

/-- The end of the Wi-Fi settings and their checksum. -/
def finishWifi (fw : ℕ → BitVec 8) : ℕ → BitVec 8 :=
  let fw := storeAll fw 0 [(0x162, [0x19]), (0x163, List.replicate 0x9D 0xFF)]
  storeCRC16 fw 0x2A 0x2C 0x138

/-- `NDS_CreateDummyFirmware`: what is returned, the image and the configuration that is kept. -/
def createDummyFirmware (fwMac : Vector (BitVec 8) 6) (user : FwConfigData) (fw : ℕ → BitVec 8) :
    BitVec 32 × (ℕ → BitVec 8) × FwConfigData :=
  (1, finishWifi (fillWifi fwMac (fillUserAreas user fw)), user)

/-! ### What the areas hold -/

section Fields

variable {m : ℕ → BitVec 8}

theorem halfword_halfBytes (x : BitVec 16) : (x >>> 8).setWidth 8 ++ x.setWidth 8 = x := by
  apply BitVec.eq_of_toNat_eq
  have hx := x.isLt
  rw [BitVec.toNat_append, BitVec.toNat_setWidth, BitVec.toNat_setWidth, BitVec.toNat_ushiftRight,
    ← Nat.shiftLeft_add_eq_or_of_lt (Nat.mod_lt _ (by decide)), Nat.shiftLeft_eq,
    Nat.shiftRight_eq_div_pow]
  omega

theorem halfword_of_load {a : ℕ} {x : BitVec 16} (h : load m a 2 = halfBytes x) :
    halfword m a = x := by
  obtain ⟨hlow, hrest⟩ := List.cons_eq_cons.1 (show m a :: [m (a + 1)] = halfBytes x from h)
  have hhigh : m (a + 1) = (x >>> 8).setWidth 8 := (List.cons_eq_cons.1 hrest).1
  rw [halfword, hlow, hhigh, halfword_halfBytes]

theorem length_flatMap_of_const {α : Type*} {f : α → List (BitVec 8)} {k : ℕ}
    (hf : ∀ x, (f x).length = k) (xs : List α) : (xs.flatMap f).length = k * xs.length := by
  induction xs with
  | nil => rfl
  | cons x xs ih =>
    rw [List.flatMap_cons, List.length_append, hf, ih, List.length_cons]
    ring

/-- The records of an area, one behind the other. -/
theorem load_flatMap {α : Type*} {f : α → List (BitVec 8)} {k : ℕ} (hf : ∀ x, (f x).length = k)
    {xs : List α} {a : ℕ} (h : load m a (k * xs.length) = xs.flatMap f) {i : ℕ}
    (hi : i < xs.length) : load m (a + k * i) k = f xs[i] := by
  induction xs generalizing a i with
  | nil => exact absurd hi (Nat.not_lt_zero i)
  | cons x xs ih =>
    have hsplit : k * (x :: xs).length = k + k * xs.length := by
      rw [List.length_cons]
      ring
    rw [hsplit, load_add, List.flatMap_cons] at h
    obtain ⟨hfirst, hrest⟩ := List.append_inj h (by rw [length_load, hf])
    cases i with
    | zero => exact hfirst
    | succ i =>
      have hnext := ih hrest (Nat.lt_of_succ_lt_succ hi)
      rw [Nat.mul_succ, Nat.add_comm (k * i), ← Nat.add_assoc]
      exact hnext

theorem length_halfBytes (x : BitVec 16) : (halfBytes x).length = 2 := rfl

theorem length_calBytes (cal : FwTouchscreenCal) : (calBytes cal).length = 6 := rfl

theorem cal_of_load {a : ℕ} {cal : FwTouchscreenCal} (h : load m a 6 = calBytes cal) :
    (⟨halfword m a, halfword m (a + 2), m (a + 4), m (a + 5)⟩ : FwTouchscreenCal) = cal := by
  have hsplit : load m a 6 = load m a 2 ++ (load m (a + 2) 2 ++ load m (a + 4) 2) := rfl
  rw [hsplit, calBytes, List.append_assoc] at h
  obtain ⟨hx, hrest⟩ := List.append_inj h rfl
  obtain ⟨hy, hscreen⟩ := List.append_inj hrest rfl
  obtain ⟨hfirst, hsecond⟩ := List.cons_eq_cons.1 (show m (a + 4) :: [m (a + 4 + 1)] = _ from hscreen)
  exact FwTouchscreenCal.ext (halfword_of_load hx) (halfword_of_load hy) hfirst
    (List.cons_eq_cons.1 hsecond).1

/-- The record that the bytes of a user area stand for; the console type is not one of them. -/
def decodeUserData (dsType : BitVec 32) (d : ℕ → BitVec 8) : FwConfigData where
  dsType
  favColour := d 0x02
  birthMonth := d 0x03
  birthDay := d 0x04
  nickname := Vector.ofFn fun i => halfword d (0x06 + 2 * i)
  nicknameLen := d 0x1a
  message := Vector.ofFn fun i => halfword d (0x1c + 2 * i)
  messageLen := d 0x50
  language := d 0x64
  touchCal := Vector.ofFn fun i =>
    { adcX := halfword d (0x58 + 6 * i)
      adcY := halfword d (0x58 + 6 * i + 2)
      screenX := d (0x58 + 6 * i + 4)
      screenY := d (0x58 + 6 * i + 5) }

variable (user : FwConfigData) (data : ℕ) (c : BitVec 16)

theorem length_nicknameBytes : (user.nickname.toList.flatMap halfBytes).length = 20 := by
  rw [length_flatMap_of_const length_halfBytes, Vector.length_toList]

theorem length_messageBytes : (user.message.toList.flatMap halfBytes).length = 52 := by
  rw [length_flatMap_of_const length_halfBytes, Vector.length_toList]

theorem length_touchCalBytes : (user.touchCal.toList.flatMap calBytes).length = 12 := by
  rw [length_flatMap_of_const length_calBytes, Vector.length_toList]

theorem spans_userSettings : (userSettingsWrites user c).map span =
    [(0x00, 0x100), (0x00, 1), (0x01, 1), (0x02, 1), (0x03, 1), (0x04, 1), (0x06, 20), (0x1a, 1),
      (0x1c, 52), (0x50, 1), (0x58, 12), (0x64, 1), (0x65, 1), (0x70, 2)] := by
  simp only [userSettingsWrites, List.map_cons, List.map_nil, span, List.length_replicate,
    length_nicknameBytes, length_messageBytes, length_touchCalBytes]
  rfl

theorem spans_crc (crc : BitVec 32) :
    (crcWrites crc).map span = [(0x72, 1), (0x73, 1), (0x74, 0x8C)] := by
  simp only [crcWrites, List.map_cons, List.map_nil, span, List.length_singleton,
    List.length_replicate, Nat.reduceSub]

variable {user data c}

/-- What is written behind the settings leaves them. -/
theorem load_fillUserDataArea_settings {a n : ℕ} (h : a + n ≤ 0x72) :
    load (fillUserDataArea user m data c) (data + a) n =
      load (storeAll m data (userSettingsWrites user c)) (data + a) n := by
  refine load_storeAll_clear fun s hs => .inr ?_
  have hbehind : ∀ s ∈ [(0x72, 1), (0x73, 1), (0x74, 0x8C)], 0x72 ≤ s.1 := by decide
  rw [spans_crc] at hs
  exact h.trans (hbehind s hs)

theorem load_setting {k a : ℕ} {bs : List (BitVec 8)}
    (hk : (userSettingsWrites user c)[k]? = some (a, bs))
    (h : Clear (((userSettingsWrites user c).map span).drop (k + 1)) a bs.length)
    (hend : a + bs.length ≤ 0x72) :
    load (fillUserDataArea user m data c) (data + a) bs.length = bs := by
  rw [load_fillUserDataArea_settings hend]
  exact load_storeAll_get hk h

theorem setting_byte (k : ℕ) {a : ℕ} {x : BitVec 8}
    (hk : (userSettingsWrites user c)[k]? = some (a, [x]))
    (h : Clear (((userSettingsWrites user c).map span).drop (k + 1)) a 1) (hend : a < 0x72) :
    fillUserDataArea user m data c (data + a) = x := by
  have hload : load (fillUserDataArea user m data c) (data + a) 1 = [x] := load_setting hk h hend
  exact List.singleton_inj.1 hload

theorem setting_records {α : Type*} {f : α → List (BitVec 8)} {n : ℕ}
    (hf : ∀ x, (f x).length = n) (k : ℕ) {a : ℕ} {xs : List α}
    (hk : (userSettingsWrites user c)[k]? = some (a, xs.flatMap f))
    (h : Clear (((userSettingsWrites user c).map span).drop (k + 1)) a (n * xs.length))
    (hend : a + n * xs.length ≤ 0x72) {i : ℕ} (hi : i < xs.length) :
    load (fillUserDataArea user m data c) (data + (a + n * i)) n = f xs[i] := by
  have hlength := length_flatMap_of_const hf xs
  have hload : load (fillUserDataArea user m data c) (data + a) (xs.flatMap f).length = xs.flatMap f :=
    load_setting hk (hlength ▸ h) (hlength ▸ hend)
  rw [hlength] at hload
  rw [← Nat.add_assoc]
  exact load_flatMap hf hload hi

/-- A user area stands for the record that it was filled with. -/
theorem decode_fillUserDataArea :
    decodeUserData user.dsType (fun i => fillUserDataArea user m data c (data + i)) = user := by
  have hword (a : ℕ) (x : BitVec 16)
      (h : load (fillUserDataArea user m data c) (data + a) 2 = halfBytes x) :
      halfword (fun i => fillUserDataArea user m data c (data + i)) a = x := halfword_of_load h
  refine FwConfigData.ext rfl ?_ ?_ ?_ ?_ ?_ ?_ ?_ ?_ ?_
  · exact setting_byte 3 rfl (by rw [spans_userSettings]; decide) (by decide)
  · exact setting_byte 4 rfl (by rw [spans_userSettings]; decide) (by decide)
  · exact setting_byte 5 rfl (by rw [spans_userSettings]; decide) (by decide)
  · refine Vector.ext fun i hi => ?_
    have hi' : i < user.nickname.toList.length := by rwa [Vector.length_toList]
    have hload : load (fillUserDataArea user m data c) (data + (0x06 + 2 * i)) 2 =
        halfBytes user.nickname.toList[i] :=
      setting_records length_halfBytes 6 rfl
        (by rw [spans_userSettings, Vector.length_toList]; decide)
        (by rw [Vector.length_toList]; decide) hi'
    rw [decodeUserData, Vector.getElem_ofFn, ← Vector.getElem_toList hi']
    exact hword _ _ hload
  · exact setting_byte 7 rfl (by rw [spans_userSettings]; decide) (by decide)
  · refine Vector.ext fun i hi => ?_
    have hi' : i < user.message.toList.length := by rwa [Vector.length_toList]
    have hload : load (fillUserDataArea user m data c) (data + (0x1c + 2 * i)) 2 =
        halfBytes user.message.toList[i] :=
      setting_records length_halfBytes 8 rfl
        (by rw [spans_userSettings, Vector.length_toList]; decide)
        (by rw [Vector.length_toList]; decide) hi'
    rw [decodeUserData, Vector.getElem_ofFn, ← Vector.getElem_toList hi']
    exact hword _ _ hload
  · exact setting_byte 9 rfl (by rw [spans_userSettings]; decide) (by decide)
  · exact setting_byte 11 rfl (by rw [spans_userSettings]; decide) (by decide)
  · refine Vector.ext fun i hi => ?_
    have hi' : i < user.touchCal.toList.length := by rwa [Vector.length_toList]
    have hload : load (fillUserDataArea user m data c) (data + (0x58 + 6 * i)) 6 =
        calBytes user.touchCal.toList[i] :=
      setting_records length_calBytes 10 rfl
        (by rw [spans_userSettings, Vector.length_toList]; decide)
        (by rw [Vector.length_toList]; decide) hi'
    rw [decodeUserData, Vector.getElem_ofFn, ← Vector.getElem_toList hi']
    exact cal_of_load hload

theorem load_fillUserDataArea_apart {a n : ℕ} (h : a + n ≤ data ∨ data + 0x100 ≤ a) :
    load (fillUserDataArea user m data c) a n = load m a n := by
  have hspan : ∀ s ∈ (userSettingsWrites user c).map span, s.1 + s.2 ≤ 0x100 := by
    rw [spans_userSettings]
    decide
  have hcrc : ∀ s ∈ [(0x72, 1), (0x73, 1), (0x74, 0x8C)], s.1 + s.2 ≤ 0x100 := by decide
  refine (load_storeAll_apart fun s hs => ?_).trans (load_storeAll_apart fun s hs => ?_)
  · rw [spans_crc] at hs
    have hend := hcrc s hs
    omega
  · have hend := hspan s hs
    omega

theorem halfword_count :
    halfword (fillUserDataArea user m data c) (data + 0x70) = c :=
  halfword_of_load (load_setting (k := 13) rfl
    (by rw [spans_userSettings, length_halfBytes]; decide) (by rw [length_halfBytes]))

end Fields

/-! ### The checksums -/

section Checksums

variable {m m' : ℕ → BitVec 8}

/-- The checksum over `n` bytes is the one that is stored. -/
def Confirmed (m : ℕ → BitVec 8) (seed : BitVec 32) (data n at_ : ℕ) : Prop :=
  calcCRC16 seed (load m data n) = (halfword m at_).setWidth 32

theorem halfword_congr {a : ℕ} (h : load m' a 2 = load m a 2) : halfword m' a = halfword m a := by
  have hlow : m' a = m a := (List.cons_eq_cons.1 h).1
  have hhigh : m' (a + 1) = m (a + 1) := (List.cons_eq_cons.1 (List.cons_eq_cons.1 h).2).1
  rw [halfword, halfword, hlow, hhigh]

theorem Confirmed.of_load {seed : BitVec 32} {data n at_ : ℕ} (h : Confirmed m seed data n at_)
    (hdata : load m' data n = load m data n) (hat : load m' at_ 2 = load m at_ 2) :
    Confirmed m' seed data n at_ := by
  rw [Confirmed, hdata, halfword_congr hat]
  exact h

theorem calcCRC16_fits (seed : BitVec 32) (bs : List (BitVec 8)) :
    ((calcCRC16 seed bs).setWidth 16).setWidth 32 = calcCRC16 seed bs := by
  have hround (x : BitVec 16) : (x.setWidth 32).setWidth 16 = x := by
    rw [BitVec.setWidth_setWidth_of_le x (by decide), BitVec.setWidth_eq]
  rw [calcCRC16_eq, hround]

theorem load_storeCRC16_apart {at_ data n a k : ℕ} (h : at_ + 2 ≤ a ∨ a + k ≤ at_) :
    load (storeCRC16 m at_ data n) a k = load m a k := load_store_apart _ _ h

theorem confirmed_storeCRC16 {at_ data n : ℕ} (h : at_ + 2 ≤ data ∨ data + n ≤ at_) :
    Confirmed (storeCRC16 m at_ data n) 0 data n at_ := by
  have hstored : halfword (storeCRC16 m at_ data n) at_ =
      (calcCRC16 0 (load m data n)).setWidth 16 := halfword_of_load (load_store ..)
  rw [Confirmed, load_storeCRC16_apart h, hstored, calcCRC16_fits]

/-- The two bytes of a checksum behind the settings. -/
theorem load_crc (data : ℕ) (crc : BitVec 32) :
    load (storeAll m data (crcWrites crc)) (data + 0x72) 2 = halfBytes (crc.setWidth 16) := by
  have hfirst : (crcWrites crc)[0]? = some (0x72, [crc.setWidth 8]) := rfl
  have hsecond : (crcWrites crc)[1]? = some (0x73, [(crc >>> 8).setWidth 8]) := rfl
  have hlow : load (storeAll m data (crcWrites crc)) (data + 0x72) 1 = [crc.setWidth 8] :=
    load_storeAll_get hfirst (by rw [spans_crc, List.length_singleton]; decide)
  have hhigh : load (storeAll m data (crcWrites crc)) (data + 0x73) 1 = [(crc >>> 8).setWidth 8] :=
    load_storeAll_get hsecond (by rw [spans_crc, List.length_singleton]; decide)
  have hlow' : (crc.setWidth 16).setWidth 8 = crc.setWidth 8 :=
    BitVec.setWidth_setWidth_of_le crc (by decide)
  have hhigh' : (crc.setWidth 16 >>> 8).setWidth 8 = (crc >>> 8).setWidth 8 := by
    apply BitVec.eq_of_toNat_eq
    simp only [BitVec.toNat_setWidth, BitVec.toNat_ushiftRight, Nat.shiftRight_eq_div_pow]
    omega
  rw [load_add _ _ 1 1, hlow, Nat.add_assoc, hhigh, halfBytes, hlow', hhigh']
  rfl

theorem confirmed_fillUserDataArea (user : FwConfigData) (data : ℕ) (c : BitVec 16) :
    Confirmed (fillUserDataArea user m data c) 0xffff data userSettingsMemByteCount
      (data + 0x72) := by
  have hsettings : load (fillUserDataArea user m data c) data 0x70 =
      load (storeAll m data (userSettingsWrites user c)) data 0x70 :=
    load_fillUserDataArea_settings (a := 0) (by decide)
  have hstored : load (fillUserDataArea user m data c) (data + 0x72) 2 = halfBytes
      ((calcCRC16 0xffff (load (storeAll m data (userSettingsWrites user c)) data 0x70)).setWidth
        16) := by
    rw [fillUserDataArea]
    exact load_crc _ _
  rw [Confirmed, userSettingsMemByteCount, hsettings, halfword_of_load hstored, calcCRC16_fits]

end Checksums

/-! ### The stages -/

section Stages

variable {m : ℕ → BitVec 8} {a n : ℕ}

theorem spans_header (user : FwConfigData) : (headerWrites user).map span =
    [(0, 0x40000), (0x8, 1), (0x8 + 1, 1), (0x8 + 2, 1), (0x8 + 3, 1), (0x1d, 1), (0x20, 1),
      (0x21, 1)] := by
  simp only [headerWrites, List.map_cons, List.map_nil, span, List.length_singleton,
    List.length_replicate]

theorem length_fwWfcProfile {ssid : List (BitVec 8)} (status : BitVec 8) (h : ssid.length ≤ 167) :
    (fwWfcProfile ssid status).length = 0xC0 := by
  rw [fwWfcProfile, List.length_append, List.length_append, List.length_append, List.length_replicate,
    List.length_replicate, List.length_singleton]
  omega

theorem spans_wifi (fwMac : Vector (BitVec 8) 6) : (wifiWrites fwMac).map span =
    [(0x2C, 1), (0x2D, 1), (0x2E, 1), (0x2F, 1), (0x36, 6), (0x3C, 1), (0x3D, 1), (0x3E, 1),
      (0x3F, 1), (0x40, 1), (0x41, 1), (0x42, 1), (0x43, 1), (0x44, 32), (0x64, 105), (0xCE, 36),
      (0xF2, 84), (0x146, 14), (0x154, 0xE), (0x3FA40, 0xC0), (0x3FB40, 0xC0), (0x3FC40, 0xC0)] := by
  have hinit : fwWifiInit.length = 32 := rfl
  have hbb : fwBBInit.length = 105 := rfl
  have hrf : fwRFInit.length = 36 := rfl
  have hrfChannel : fwRFChannel.length = 84 := rfl
  have hbbChannel : fwBBChannel.length = 14 := rfl
  have hprofile1 : fwWfcProfile1.length = 0xC0 := length_fwWfcProfile 0 (by decide)
  have hprofile2 : fwWfcProfile2.length = 0xC0 := length_fwWfcProfile 0xFF (by decide)
  have hprofile3 : fwWfcProfile3.length = 0xC0 := length_fwWfcProfile 0xFF (by decide)
  simp only [wifiWrites, List.map_cons, List.map_nil, span, List.length_singleton,
    List.length_replicate, Vector.length_toList, hinit, hbb, hrf, hrfChannel, hbbChannel, hprofile1,
    hprofile2, hprofile3]

/-- The Wi-Fi areas lie between the header and the user areas. -/
theorem load_fillWifi (fwMac : Vector (BitVec 8) 6) (h : 0x3FD00 ≤ a ∨ a + n ≤ 0x2C) :
    load (fillWifi fwMac m) a n = load m a n := by
  have hspan : ∀ s ∈ (wifiWrites fwMac).map span, 0x2C ≤ s.1 ∧ s.1 + s.2 ≤ 0x3FD00 := by
    rw [spans_wifi]
    decide
  rw [fillWifi, load_storeCRC16_apart (by omega), load_storeCRC16_apart (by omega),
    load_storeCRC16_apart (by omega)]
  refine load_storeAll_apart fun s hs => ?_
  have hplace := hspan s hs
  omega

theorem load_finishWifi (h : 0x200 ≤ a ∨ a + n ≤ 0x2A ∨ 0x2C ≤ a ∧ a + n ≤ 0x162) :
    load (finishWifi m) a n = load m a n := by
  rw [finishWifi, load_storeCRC16_apart (by omega)]
  refine load_storeAll_apart fun s hs => ?_
  simp only [List.map_cons, List.map_nil, span, List.length_singleton, List.length_replicate,
    List.mem_cons, List.not_mem_nil, or_false] at hs
  rcases hs with rfl | rfl <;> omega

/-- What comes after the user areas leaves them and the header. -/
theorem load_image (fwMac : Vector (BitVec 8) 6) (h : 0x3FD00 ≤ a ∨ a + n ≤ 0x2A) :
    load (finishWifi (fillWifi fwMac m)) a n = load m a n := by
  rw [load_finishWifi (by omega), load_fillWifi fwMac (by omega)]

/-- A header byte is left by the user areas. -/
theorem header_byte (user : FwConfigData) (k : ℕ) {x : BitVec 8} (hend : a < 0x3FE00)
    (hk : (headerWrites user)[k]? = some (a, [x]))
    (h : Clear (((headerWrites user).map span).drop (k + 1)) a 1) : fillUserAreas user m a = x := by
  have hload : load (storeAll m 0 (headerWrites user)) (0 + a) 1 = [x] := load_storeAll_get hk h
  rw [Nat.zero_add] at hload
  have harea : load (fillUserAreas user m) a 1 = [x] := by
    rw [fillUserAreas, load_fillUserDataArea_apart (by omega),
      load_fillUserDataArea_apart (by omega), hload]
  exact List.singleton_inj.1 harea

variable (m) (fwMac : Vector (BitVec 8) 6) (user : FwConfigData)

theorem settingsOffset_dummy :
    settingsOffset (finishWifi (fillWifi fwMac (fillUserAreas user m))) = 0x3FE00 := by
  have hload : load (finishWifi (fillWifi fwMac (fillUserAreas user m))) 0x20 2 = halfBytes 0x7FC0 := by
    rw [load_image fwMac (.inr (by decide)), load_add _ _ 1 1, load_one, load_one,
      header_byte user 6 (by decide) rfl (by rw [spans_header]; decide),
      header_byte user 7 (by decide) rfl (by rw [spans_header]; decide)]
    rfl
  rw [settingsOffset, halfword_of_load hload]
  rfl

/-- The image that a user area is filled on. -/
def beforeArea : Copy → ℕ → BitVec 8
  | .user1 => storeAll m 0 (headerWrites user)
  | .user2 => fillUserDataArea user (storeAll m 0 (headerWrites user)) 0x3FE00 0

def areaCount : Copy → BitVec 16
  | .user1 => 0
  | .user2 => 1

def userArea (u : Copy) : ℕ → BitVec 8 :=
  fillUserDataArea user (beforeArea m user u) (0x3FE00 + u.base) (areaCount u)

/-- A user area is as it was filled. -/
theorem load_userArea (u : Copy) (h : a + n ≤ 0x100) :
    load (finishWifi (fillWifi fwMac (fillUserAreas user m))) (0x3FE00 + u.base + a) n =
      load (userArea m user u) (0x3FE00 + u.base + a) n := by
  rw [load_image fwMac (.inl (by omega)), fillUserAreas]
  cases u with
  | user1 =>
    refine load_fillUserDataArea_apart (.inl ?_)
    rw [Copy.base]
    omega
  | user2 => rfl

/-! ### The readers -/

/-- The image is taken by whoever reads it: the checksums are right, and the loader gets the second
copy, which stands for the record. -/
structure Accepted (user : FwConfigData) (dest data : ℕ → BitVec 8) : Prop where
  users : ∀ u, Confirmed data 0xffff (area data u) userSettingsMemByteCount (area data u + 0x72)
  wifi : Confirmed data 0 0x2C 0x138 0x2A
  wifiLength : halfword data 0x2C = 0x138
  profiles : ∀ profile ∈ [0x3FA00, 0x3FB00, 0x3FC00], Confirmed data 0 profile 0xFE (profile + 0xFE)
  current : Copies data dest .user2
  counted : count data .user2 = 1
  decoded : decodeUserData user.dsType
    (store dest 0 (load data (area data .user2) userSettingsMemByteCount)) = user
  console : data 0x1d = if user.dsType = consoleTypeDsi then 0xFF else user.dsType.setWidth 8

theorem Confirmed.valid {data : ℕ → BitVec 8} {u : Copy}
    (h : Confirmed data 0xffff (area data u) userSettingsMemByteCount (area data u + 0x72)) :
    Valid data u := by
  rw [Confirmed, calcCRC16_eq] at h
  exact setWidth_inj.1 h

/-- The profiles and their checksums. -/
theorem confirmed_profiles (profile : ℕ) (h : profile ∈ [0x3FA00, 0x3FB00, 0x3FC00]) :
    Confirmed (finishWifi (fillWifi fwMac m)) 0 profile 0xFE (profile + 0xFE) := by
  have hwifi : Confirmed (fillWifi fwMac m) 0 profile 0xFE (profile + 0xFE) := by
    rw [fillWifi]
    simp only [List.mem_cons, List.not_mem_nil, or_false] at h
    rcases h with rfl | rfl | rfl
    · refine (Confirmed.of_load (confirmed_storeCRC16 (.inr (by decide)))
        (load_storeCRC16_apart (.inr (by decide))) (load_storeCRC16_apart (.inr (by decide)))).of_load
        (load_storeCRC16_apart (.inr (by decide))) (load_storeCRC16_apart (.inr (by decide)))
    · refine Confirmed.of_load (confirmed_storeCRC16 (.inr (by decide)))
        (load_storeCRC16_apart (.inr (by decide))) (load_storeCRC16_apart (.inr (by decide)))
    · exact confirmed_storeCRC16 (.inr (by decide))
  have hplace : 0x3FA00 ≤ profile := by
    have hall : ∀ p ∈ [0x3FA00, 0x3FB00, 0x3FC00], 0x3FA00 ≤ p := by decide
    exact hall profile h
  exact hwifi.of_load (load_finishWifi (.inl (by omega))) (load_finishWifi (.inl (by omega)))

theorem wifiLength_dummy : halfword (finishWifi (fillWifi fwMac m)) 0x2C = 0x138 := by
  have hfirst : (wifiWrites fwMac)[0]? = some (0x2C, [0x38]) := rfl
  have hsecond : (wifiWrites fwMac)[1]? = some (0x2D, [0x01]) := rfl
  have hlow : load (storeAll m 0 (wifiWrites fwMac)) (0 + 0x2C) 1 = [0x38] :=
    load_storeAll_get hfirst (by rw [spans_wifi, List.length_singleton]; decide)
  have hhigh : load (storeAll m 0 (wifiWrites fwMac)) (0 + 0x2D) 1 = [0x01] :=
    load_storeAll_get hsecond (by rw [spans_wifi, List.length_singleton]; decide)
  refine halfword_of_load ?_
  rw [load_finishWifi (.inr (.inr (by decide))), fillWifi, load_storeCRC16_apart (.inr (by decide)),
    load_storeCRC16_apart (.inr (by decide)), load_storeCRC16_apart (.inr (by decide)),
    load_add _ _ 1 1]
  rw [Nat.zero_add] at hlow hhigh
  rw [hlow, hhigh]
  rfl

theorem area_dummy (u : Copy) :
    area (finishWifi (fillWifi fwMac (fillUserAreas user m))) u = 0x3FE00 + u.base := by
  rw [area, settingsOffset_dummy m fwMac user]

theorem confirmed_userArea (u : Copy) :
    Confirmed (finishWifi (fillWifi fwMac (fillUserAreas user m))) 0xffff (0x3FE00 + u.base)
      userSettingsMemByteCount (0x3FE00 + u.base + 0x72) :=
  (confirmed_fillUserDataArea user _ (areaCount u)).of_load
    (load_userArea m fwMac user (a := 0) u (by decide)) (load_userArea m fwMac user u (by decide))

theorem count_dummy (u : Copy) :
    count (finishWifi (fillWifi fwMac (fillUserAreas user m))) u = areaCount u := by
  rw [count, area_dummy m fwMac user, halfword_congr (load_userArea m fwMac user u (by decide))]
  exact halfword_count

/-- Decoding looks at the settings only. -/
theorem decodeUserData_congr (dsType : BitVec 32) {d d' : ℕ → BitVec 8}
    (h : ∀ i < userSettingsMemByteCount, d i = d' i) :
    decodeUserData dsType d = decodeUserData dsType d' := by
  have hbyte (i : ℕ) (hi : i < 0x70) : d i = d' i := h i hi
  have hword (i : ℕ) (hi : i + 1 < 0x70) : halfword d i = halfword d' i := by
    rw [halfword, halfword, hbyte i (by omega), hbyte (i + 1) hi]
  refine FwConfigData.ext rfl (hbyte _ (by decide)) (hbyte _ (by decide)) (hbyte _ (by decide)) ?_
    (hbyte _ (by decide)) ?_ (hbyte _ (by decide)) (hbyte _ (by decide)) ?_
  · refine Vector.ext fun i hi => ?_
    rw [decodeUserData, decodeUserData, Vector.getElem_ofFn, Vector.getElem_ofFn]
    exact hword _ (by change 0x06 + 2 * i + 1 < _; omega)
  · refine Vector.ext fun i hi => ?_
    rw [decodeUserData, decodeUserData, Vector.getElem_ofFn, Vector.getElem_ofFn]
    exact hword _ (by change 0x1c + 2 * i + 1 < _; omega)
  · refine Vector.ext fun i hi => ?_
    rw [decodeUserData, decodeUserData, Vector.getElem_ofFn, Vector.getElem_ofFn]
    refine FwTouchscreenCal.ext (hword _ ?_) (hword _ ?_) (hbyte _ ?_) (hbyte _ ?_)
    · change 0x58 + 6 * i + 1 < _
      omega
    · change 0x58 + 6 * i + 2 + 1 < _
      omega
    · change 0x58 + 6 * i + 4 < _
      omega
    · change 0x58 + 6 * i + 5 < _
      omega

theorem createDummyFirmware_accepted (fwMac : Vector (BitVec 8) 6) (user : FwConfigData)
    (fw dest : ℕ → BitVec 8) :
    (createDummyFirmware fwMac user fw).1 = 1 ∧
      Accepted user dest (createDummyFirmware fwMac user fw).2.1 := by
  refine ⟨rfl, ?_⟩
  change Accepted user dest (finishWifi (fillWifi fwMac (fillUserAreas user fw)))
  have harea := area_dummy fw fwMac user
  have hcount := count_dummy fw fwMac user
  have husers := confirmed_userArea fw fwMac user
  have hoffset := settingsOffset_dummy fw fwMac user
  have hbyte (i : ℕ) (hi : i < userSettingsMemByteCount) :
      finishWifi (fillWifi fwMac (fillUserAreas user fw)) (0x3FF00 + i) =
        userArea fw user .user2 (0x3FF00 + i) :=
    List.singleton_inj.1 (load_userArea fw fwMac user (n := 1) .user2
      (by rw [userSettingsMemByteCount] at hi; omega))
  have hwifi : Confirmed (finishWifi (fillWifi fwMac (fillUserAreas user fw))) 0 0x2C 0x138 0x2A :=
    confirmed_storeCRC16 (.inl (by decide))
  have hlength := wifiLength_dummy (fillUserAreas user fw) fwMac
  have hprofiles := confirmed_profiles (fillUserAreas user fw) fwMac
  have hconsole : finishWifi (fillWifi fwMac (fillUserAreas user fw)) 0x1d =
      if user.dsType = consoleTypeDsi then 0xFF else user.dsType.setWidth 8 := by
    rw [List.singleton_inj.1 (load_image fwMac (a := 0x1d) (n := 1) (.inr (by decide)))]
    exact header_byte user 5 (by decide) rfl (by rw [spans_header]; decide)
  generalize finishWifi (fillWifi fwMac (fillUserAreas user fw)) = data at *
  have hrange : InRange data := by
    rw [InRange, hoffset]
  have husers' (u : Copy) : Confirmed data 0xffff (area data u) userSettingsMemByteCount
      (area data u + 0x72) := by
    rw [harea]
    exact husers u
  have hnewer : Newer data .user2 := by
    rw [Newer, Copy.other, hcount, hcount]
    decide
  have hless : count data .user1 < count data .user2 := by
    rw [hcount, hcount]
    decide
  have hpick := (pick_newer_iff (fun u => (husers' u).valid) hnewer).2 hless
  refine ⟨husers', hwifi, hlength, hprofiles,
    (copies_iff hrange .user2).2 ⟨hpick, by rw [harea]; exact Nat.add_pos_left (by decide) _⟩,
    hcount .user2, ?_, hconsole⟩
  have hdest (i : ℕ) (hi : i < userSettingsMemByteCount) :
      store dest 0 (load data (area data .user2) userSettingsMemByteCount) i =
        userArea fw user .user2 (0x3FF00 + i) := by
    rw [store, if_pos (Nat.zero_le i), Nat.sub_zero, load, List.getElem?_map, List.getElem?_range' hi,
      Option.map_some, Option.getD_some, Nat.one_mul, harea]
    exact hbyte i hi
  have hdecode : decodeUserData user.dsType (fun i => userArea fw user .user2 (0x3FF00 + i)) = user :=
    decode_fillUserDataArea
  exact (decodeUserData_congr user.dsType hdest).trans hdecode

end Stages

end Desmume.Firmware
