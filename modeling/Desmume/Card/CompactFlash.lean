import Desmume.Library.BitFields
import Desmume.Library.ByteFile
import Desmume.Library.LittleEndian
import Mathlib.Data.List.Induction

/-! The CompactFlash of the GBAMP in slot 2. Writes are collected to a sector in front of the image,
reads go to the image at once. -/

namespace Desmume.Card
open Library

def cfRegData : BitVec 32 := 0x9000000
def cfRegLba1 : BitVec 32 := 0x9060000
def cfRegLba2 : BitVec 32 := 0x9080000
def cfRegLba3 : BitVec 32 := 0x90A0000
def cfRegLba4 : BitVec 32 := 0x90C0000
def cfRegCmd : BitVec 32 := 0x90E0000
def cfRegSts : BitVec 32 := 0x98C0000

def cfCmdLba : BitVec 16 := 0xE0
def cfCmdRead : BitVec 16 := 0x20
def cfCmdWrite : BitVec 16 := 0x30

/-- The static variables of the device and of `cflash_write`. -/
structure CFlash where
  cfRegSts : BitVec 16
  cfRegLba1 : BitVec 16
  cfRegLba2 : BitVec 16
  cfRegLba3 : BitVec 16
  cfRegLba4 : BitVec 16
  cfRegCmd : BitVec 16
  currLBA : BitVec 64
  sectorData : ℕ → BitVec 8
  sectorWriteIndex : ℕ
  file : Option (ByteFile (BitVec 8))

/-- `size()` of the file. -/
def fileSize (f : ByteFile (BitVec 8)) : ℤ := (BitVec.ofNat 32 f.data.length).toInt

/-- `fseek(offset, SEEK_SET)`. The library refuses a negative offset. -/
def fseek (f : ByteFile (BitVec 8)) (offset : BitVec 32) : ByteFile (BitVec 8) :=
  if 0 ≤ offset.toInt then f.seek offset.toNat else f

/-- A full sector goes to the file if it is in front of its end. -/
def writeSector (currLBA : BitVec 64) (sectorData : List (BitVec 8)) (f : ByteFile (BitVec 8)) :
    ByteFile (BitVec 8) :=
  if (currLBA + 512).toInt < fileSize f then (fseek f (currLBA.setWidth 32)).write sectorData else f

namespace CFlash

/-- The case `CF_REG_DATA` of `cflash_read`. What `data` holds where the file has ended is left open in
the source and zero here. -/
def readData (c : CFlash) : BitVec 32 × CFlash :=
  if c.cfRegCmd = cfCmdRead then
    match c.file with
    | some f =>
      let f := fseek f (c.currLBA.setWidth 32)
      let data := (f.readData 2).takeD 2 0
      (data[1]!.setWidth 32 <<< 8 ||| data[0]!.setWidth 32,
        { c with currLBA := c.currLBA + 2, file := some (f.read 2) })
    | none => (0, { c with currLBA := c.currLBA + 2 })
  else (0, c)

/-- `cflash_read`. -/
def read (c : CFlash) (address : BitVec 32) : BitVec 32 × CFlash :=
  if address = Card.cfRegSts then (c.cfRegSts.setWidth 32, c)
  else if address = cfRegData then c.readData
  else if address = Card.cfRegLba1 then (c.cfRegLba1.setWidth 32, c)
  else (0, c)

/-- The case `CF_REG_DATA` of `cflash_write`. -/
def writeData (c : CFlash) (data : BitVec 32) : CFlash :=
  if c.cfRegCmd = cfCmdWrite then
    let sectorData := Function.update
      (Function.update c.sectorData c.sectorWriteIndex (data.setWidth 8))
      (c.sectorWriteIndex + 1) ((data >>> 8).setWidth 8)
    if c.sectorWriteIndex + 2 = 512 then
      { c with
        sectorData
        file := c.file.map (writeSector c.currLBA ((List.range 512).map sectorData))
        currLBA := c.currLBA + 512
        sectorWriteIndex := 0 }
    else { c with sectorData, sectorWriteIndex := c.sectorWriteIndex + 2 }
  else c

/-- The case `CF_REG_LBA4`: the sector number becomes an offset. -/
def writeLba4 (c : CFlash) (data : BitVec 16) : CFlash :=
  if data &&& 0xF0#16 = cfCmdLba then
    { c with
      cfRegLba4 := data
      currLBA := (c.currLBA &&& 0x00FFFFFF#64 ||| (data &&& 0x0F#16).setWidth 64 <<< 24) * 512
      sectorWriteIndex := 0 }
  else { c with cfRegLba4 := data }

/-- `cflash_write`. -/
def write (c : CFlash) (address data : BitVec 32) : CFlash :=
  let reg := data.setWidth 16 &&& 0xFF#16
  if address = Card.cfRegSts then { c with cfRegSts := data.setWidth 16 }
  else if address = cfRegData then c.writeData data
  else if address = Card.cfRegCmd then { c with cfRegCmd := reg, cfRegSts := 0x58 }
  else if address = Card.cfRegLba1 then
    { c with cfRegLba1 := reg, currLBA := c.currLBA &&& 0xFFFFFF00#64 ||| reg.setWidth 64 }
  else if address = Card.cfRegLba2 then
    { c with cfRegLba2 := reg, currLBA := c.currLBA &&& 0xFFFF00FF#64 ||| reg.setWidth 64 <<< 8 }
  else if address = Card.cfRegLba3 then
    { c with cfRegLba3 := reg, currLBA := c.currLBA &&& 0xFF00FFFF#64 ||| reg.setWidth 64 <<< 16 }
  else if address = Card.cfRegLba4 then c.writeLba4 reg
  else c

def writeWord (c : CFlash) (addr : BitVec 32) (val : BitVec 16) : CFlash :=
  c.write addr (val.setWidth 32)

def readWord (c : CFlash) (addr : BitVec 32) : BitVec 16 × CFlash :=
  ((c.read addr).1.setWidth 16, (c.read addr).2)

/-- The four LBA registers, and the command for what comes at the data register. -/
def begin (c : CFlash) (sector : ℕ) (cmd : BitVec 16) : CFlash :=
  ((((c.writeWord Card.cfRegLba1 (BitVec.ofNat 16 (sector % 256))).writeWord
      Card.cfRegLba2 (BitVec.ofNat 16 (sector / 2 ^ 8 % 256))).writeWord
      Card.cfRegLba3 (BitVec.ofNat 16 (sector / 2 ^ 16 % 256))).writeWord
      Card.cfRegLba4 (cfCmdLba ||| BitVec.ofNat 16 (sector / 2 ^ 24 % 16))).writeWord
      Card.cfRegCmd cmd

def writeWords (c : CFlash) (words : List (BitVec 16)) : CFlash :=
  words.foldl (fun c w => c.writeWord cfRegData w) c

def readWords (c : CFlash) : ℕ → List (BitVec 16) × CFlash
  | 0 => ([], c)
  | n + 1 =>
    let (w, c) := c.readWord cfRegData
    let (ws, c) := c.readWords n
    (w :: ws, c)

/-- The bytes of the file. -/
def image (c : CFlash) : List (BitVec 8) := (c.file.map fun f => f.data).getD []

/-- The words that are written from a sector on are read again from there, and the image is left
as it is in front of them and behind. -/
def RoundTrip (c : CFlash) (sector : ℕ) (words : List (BitVec 16)) : Prop :=
  let written := (c.begin sector cfCmdWrite).writeWords words
  let back := (written.begin sector cfCmdRead).readWords words.length
  back.1 = words ∧ ∀ i, i < 512 * sector ∨ 512 * sector + 2 * words.length ≤ i →
    back.2.image[i]? = c.image[i]?

section Select

variable (c : CFlash) (x : BitVec 16)

/-- The byte of a register. -/
abbrev low : BitVec 16 := (x.setWidth 32).setWidth 16 &&& 0xFF#16

theorem low_eq : low x = x &&& 0xFF#16 := by
  rw [low, BitVec.setWidth_setWidth_of_le _ (by decide), BitVec.setWidth_eq]

theorem low_ofNat (n : ℕ) : (low (BitVec.ofNat 16 (n % 256))).toNat = n % 256 := by
  rw [low_eq, toNat_and_mask (n := 8) _ rfl, BitVec.toNat_ofNat]
  omega

theorem writeWord_lba1 : c.writeWord Card.cfRegLba1 x =
    { c with cfRegLba1 := low x, currLBA := c.currLBA &&& 0xFFFFFF00#64 ||| (low x).setWidth 64 } :=
  rfl

theorem writeWord_lba2 : c.writeWord Card.cfRegLba2 x =
    { c with
      cfRegLba2 := low x
      currLBA := c.currLBA &&& 0xFFFF00FF#64 ||| (low x).setWidth 64 <<< 8 } :=
  rfl

theorem writeWord_lba3 : c.writeWord Card.cfRegLba3 x =
    { c with
      cfRegLba3 := low x
      currLBA := c.currLBA &&& 0xFF00FFFF#64 ||| (low x).setWidth 64 <<< 16 } :=
  rfl

theorem writeWord_lba4 : c.writeWord Card.cfRegLba4 x = c.writeLba4 (low x) := rfl

theorem writeWord_cmd : c.writeWord Card.cfRegCmd x =
    { c with cfRegCmd := low x, cfRegSts := 0x58 } := rfl

end Select

/-- The last of the four registers. -/
theorem low_lba4 (n : ℕ) : low (cfCmdLba ||| BitVec.ofNat 16 (n % 16)) &&& 0xF0#16 = cfCmdLba ∧
    (low (cfCmdLba ||| BitVec.ofNat 16 (n % 16)) &&& 0x0F#16).toNat = n % 16 := by
  have h (k : Fin 16) : low (cfCmdLba ||| BitVec.ofNat 16 k) &&& 0xF0#16 = cfCmdLba ∧
      (low (cfCmdLba ||| BitVec.ofNat 16 k) &&& 0x0F#16).toNat = k := by
    decide +revert
  exact h ⟨n % 16, Nat.mod_lt n (by decide)⟩

/-- What the four registers make of the sector. -/
theorem toNat_sector (x : BitVec 64) {y1 y2 y3 y4 : BitVec 64} (h1 : y1.toNat < 2 ^ 8)
    (h2 : y2.toNat < 2 ^ 8) (h3 : y3.toNat < 2 ^ 8) (h4 : y4.toNat < 2 ^ 8) :
    ((((x &&& 0xFFFFFF00#64 ||| y1) &&& 0xFFFF00FF#64 ||| y2 <<< 8) &&& 0xFF00FFFF#64 |||
      y3 <<< 16) &&& 0x00FFFFFF#64 ||| y4 <<< 24).toNat =
      y1.toNat + 2 ^ 8 * y2.toNat + 2 ^ 16 * y3.toNat + 2 ^ 24 * y4.toNat := by
  have hfirst : (x &&& 0xFFFFFF00#64 ||| y1 <<< 0).toNat % 2 ^ (0 + 8) =
      x.toNat % 2 ^ 0 + 2 ^ 0 * y1.toNat := toNat_and_or_shiftLeft x rfl h1 (by decide)
  rw [BitVec.shiftLeft_zero, pow_zero, Nat.mod_one, Nat.zero_add, Nat.one_mul, Nat.zero_add] at hfirst
  rw [← Nat.mod_eq_of_lt (a := BitVec.toNat (_ ||| _)) (b := 2 ^ (24 + 8)),
    toNat_and_or_shiftLeft (s := 24) _ rfl h4 (by decide),
    toNat_and_or_shiftLeft (s := 16) _ rfl h3 (by decide),
    toNat_and_or_shiftLeft (s := 8) _ rfl h2 (by decide), hfirst]
  rw [BitVec.toNat_or, BitVec.toNat_and]
  refine Nat.or_lt_two_pow ?_ ?_
  · exact Nat.and_lt_two_pow _ (by decide)
  · rw [BitVec.toNat_shiftLeft, Nat.shiftLeft_eq]
    omega

theorem begin_currLBA (c : CFlash) {sector : ℕ} (h : sector < 2 ^ 28) (cmd : BitVec 16) :
    (c.begin sector cmd).currLBA = BitVec.ofNat 64 (512 * sector) := by
  obtain ⟨hlba, hnibble⟩ := low_lba4 (sector / 2 ^ 24)
  have hnibble : ((low (cfCmdLba ||| BitVec.ofNat 16 (sector / 2 ^ 24 % 16)) &&& 0x0F#16).setWidth
      64).toNat = sector / 2 ^ 24 % 16 := by
    rw [BitVec.toNat_setWidth, hnibble]
    omega
  have hreg (n : ℕ) : ((low (BitVec.ofNat 16 (n % 256))).setWidth 64).toNat = n % 256 := by
    rw [BitVec.toNat_setWidth, low_ofNat]
    omega
  rw [begin, writeWord_cmd, writeWord_lba4, writeLba4, if_pos hlba, writeWord_lba3, writeWord_lba2,
    writeWord_lba1]
  apply BitVec.eq_of_toNat_eq
  simp only [BitVec.toNat_mul]
  rw [toNat_sector]
  · rw [hreg, hreg, hreg, hnibble, BitVec.toNat_ofNat]
    change _ * 512 % _ = _
    omega
  · exact (hreg _).trans_lt (Nat.mod_lt _ (by decide))
  · exact (hreg _).trans_lt (Nat.mod_lt _ (by decide))
  · exact (hreg _).trans_lt (Nat.mod_lt _ (by decide))
  · omega

theorem begin_rest (c : CFlash) (sector : ℕ) (cmd : BitVec 16) :
    (c.begin sector cmd).cfRegCmd = low cmd ∧ (c.begin sector cmd).sectorWriteIndex = 0 ∧
      (c.begin sector cmd).file = c.file := by
  obtain ⟨hlba, -⟩ := low_lba4 (sector / 2 ^ 24)
  rw [begin, writeWord_cmd, writeWord_lba4, writeLba4, if_pos hlba]
  exact ⟨rfl, rfl, rfl⟩

/-! ### Writing -/

variable {c : CFlash} {f : ByteFile (BitVec 8)}

/-- The device is at the beginning of a sector that is to be written. -/
structure AtSector (c : CFlash) (sector : ℕ) (f : ByteFile (BitVec 8)) : Prop where
  cmd : c.cfRegCmd = cfCmdWrite
  index : c.sectorWriteIndex = 0
  lba : c.currLBA = BitVec.ofNat 64 (512 * sector)
  file : c.file = some f

theorem begin_atSector (hfile : c.file = some f) {sector : ℕ} (h : sector < 2 ^ 28) :
    AtSector (c.begin sector cfCmdWrite) sector f := by
  obtain ⟨hcmd, hindex, hf⟩ := c.begin_rest sector cfCmdWrite
  exact ⟨hcmd, hindex, begin_currLBA c h _, hf.trans hfile⟩

theorem leBytes_word (w : BitVec 16) : leBytes 2 w.toNat =
    [(w.setWidth 32).setWidth 8, (w.setWidth 32 >>> 8).setWidth 8] := by
  have hlow : BitVec.ofNat 8 w.toNat = (w.setWidth 32).setWidth 8 := by
    apply BitVec.eq_of_toNat_eq
    simp only [BitVec.toNat_ofNat, BitVec.toNat_setWidth]
    omega
  have hhigh : BitVec.ofNat 8 (w.toNat / 256) = (w.setWidth 32 >>> 8).setWidth 8 := by
    apply BitVec.eq_of_toNat_eq
    simp only [BitVec.toNat_ofNat, BitVec.toNat_setWidth, BitVec.toNat_ushiftRight,
      Nat.shiftRight_eq_div_pow]
    omega
  rw [leBytes, leBytes, leBytes, hlow, hhigh]

theorem map_update_two (d : ℕ → BitVec 8) (k : ℕ) (a b : BitVec 8) :
    (List.range (k + 2)).map (Function.update (Function.update d k a) (k + 1) b) =
      (List.range k).map d ++ [a, b] := by
  rw [List.range_succ, List.range_succ, List.map_append, List.map_append, List.append_assoc]
  congr 1
  · refine List.map_congr_left fun i hi => ?_
    have hi := List.mem_range.mp hi
    rw [Function.update_of_ne (by omega), Function.update_of_ne (by omega)]
  · rw [List.map_singleton, List.map_singleton, Function.update_self,
      Function.update_of_ne (by omega), Function.update_self]
    rfl

/-- What is collected while a sector is not full. -/
structure Collects (c c' : CFlash) (words : List (BitVec 16)) : Prop where
  cmd : c'.cfRegCmd = c.cfRegCmd
  index : c'.sectorWriteIndex = 2 * words.length
  lba : c'.currLBA = c.currLBA
  file : c'.file = c.file
  data : (List.range (2 * words.length)).map c'.sectorData = unitBytes 2 words

theorem unitBytes_append (as bs : List (BitVec 16)) :
    unitBytes 2 (as ++ bs) = unitBytes 2 as ++ unitBytes 2 bs := List.flatMap_append

theorem writeWords_concat (c : CFlash) (words : List (BitVec 16)) (w : BitVec 16) :
    c.writeWords (words ++ [w]) = (c.writeWords words).writeData (w.setWidth 32) :=
  List.foldl_append

theorem writeWords_append (c : CFlash) (as bs : List (BitVec 16)) :
    c.writeWords (as ++ bs) = (c.writeWords as).writeWords bs := List.foldl_append

theorem writeWords_collects (hcmd : c.cfRegCmd = cfCmdWrite) (hindex : c.sectorWriteIndex = 0)
    {words : List (BitVec 16)} (h : words.length < 256) : Collects c (c.writeWords words) words := by
  induction words using List.reverseRecOn with
  | nil => exact ⟨rfl, hindex, rfl, rfl, rfl⟩
  | append_singleton words w ih =>
    rw [List.length_append, List.length_singleton] at h
    have ih := ih (by omega)
    have hdata := map_update_two (c.writeWords words).sectorData (2 * words.length)
      ((w.setWidth 32).setWidth 8) ((w.setWidth 32 >>> 8).setWidth 8)
    rw [writeWords_concat, writeData, if_pos (ih.cmd.trans hcmd), if_neg (by rw [ih.index]; omega)]
    refine ⟨ih.cmd, ?_, ih.lba, ih.file, ?_⟩
    · rw [List.length_append, List.length_singleton, Nat.mul_succ]
      exact congrArg (· + 2) ih.index
    · rw [List.length_append, List.length_singleton, Nat.mul_succ, unitBytes_append, ← ih.data,
        ih.index, hdata]
      exact congrArg (_ ++ ·) (leBytes_word w).symm

/-- A whole sector. -/
theorem writeWords_sector {sector : ℕ} (h : AtSector c sector f) {words : List (BitVec 16)}
    (hlen : words.length = 256) : AtSector (c.writeWords words) (sector + 1)
      (writeSector (BitVec.ofNat 64 (512 * sector)) (unitBytes 2 words) f) := by
  obtain rfl | ⟨front, w, rfl⟩ := List.eq_nil_or_concat words
  · cases hlen
  rw [List.concat_eq_append] at hlen ⊢
  rw [List.length_append, List.length_singleton] at hlen
  have hfront := writeWords_collects h.cmd h.index (by omega : front.length < 256)
  have hdata := map_update_two (c.writeWords front).sectorData (2 * front.length)
    ((w.setWidth 32).setWidth 8) ((w.setWidth 32 >>> 8).setWidth 8)
  have hindex : (c.writeWords front).sectorWriteIndex = 510 := hfront.index.trans (by omega)
  rw [writeWords_concat, writeData, if_pos (hfront.cmd.trans h.cmd), if_pos (by rw [hindex])]
  refine ⟨hfront.cmd.trans h.cmd, rfl, ?_, ?_⟩
  · change (c.writeWords front).currLBA + 512 = _
    rw [hfront.lba, h.lba, Nat.mul_succ, BitVec.ofNat_add]
    rfl
  · have hbytes : (List.range 512).map (Function.update (Function.update
        (c.writeWords front).sectorData (2 * front.length) ((w.setWidth 32).setWidth 8))
        (2 * front.length + 1) ((w.setWidth 32 >>> 8).setWidth 8)) = unitBytes 2 (front ++ [w]) := by
      rw [show 512 = 2 * front.length + 2 by omega, hdata, hfront.data, unitBytes_append]
      exact congrArg (_ ++ ·) (leBytes_word w).symm
    rw [hfront.index, hbytes, hfront.lba, h.lba, hfront.file, h.file]
    rfl

theorem fseek_ofNat (f : ByteFile (BitVec 8)) {n : ℕ} (h : n < 2 ^ 31) :
    fseek f ((BitVec.ofNat 64 n).setWidth 32) = f.seek n := by
  have hnat : ((BitVec.ofNat 64 n).setWidth 32).toNat = n := by
    simp only [BitVec.toNat_setWidth, BitVec.toNat_ofNat]
    omega
  rw [fseek, BitVec.toInt_eq_toNat_of_lt (by omega), hnat, if_pos (Int.natCast_nonneg n)]

/-- The check in front of the write is whether the file goes on behind the sector. -/
theorem writeSector_eq (hlen : f.data.length < 2 ^ 31) {sector : ℕ}
    (h : 512 * (sector + 1) ≤ f.data.length) (bytes : List (BitVec 8)) :
    writeSector (BitVec.ofNat 64 (512 * sector)) bytes f =
      if 512 * (sector + 1) < f.data.length then (f.seek (512 * sector)).write bytes else f := by
  have hsum : (BitVec.ofNat 64 (512 * sector) + 512).toNat = 512 * (sector + 1) := by
    rw [BitVec.toNat_add, BitVec.toNat_ofNat]
    change (_ + 512) % _ = _
    omega
  have hend : (BitVec.ofNat 64 (512 * sector) + 512).toInt = (512 * (sector + 1) : ℕ) := by
    rw [BitVec.toInt_eq_toNat_of_lt (by omega), hsum]
  have hnat : (BitVec.ofNat 32 f.data.length).toNat = f.data.length := by
    rw [BitVec.toNat_ofNat]
    omega
  have hsize : fileSize f = f.data.length := by
    rw [fileSize, BitVec.toInt_eq_toNat_of_lt (by omega), hnat]
  rw [writeSector, hend, hsize, fseek_ofNat f (by omega)]
  simp only [Nat.cast_lt]

/-- Sectors behind which the file goes on. -/
theorem writeWords_sectors (hlen : f.data.length < 2 ^ 31) {sector : ℕ} (h : AtSector c sector f)
    {n : ℕ} (hrun : 512 * (sector + n) < f.data.length) {words : List (BitVec 16)}
    (hwords : words.length = 256 * n) : ∃ f', AtSector (c.writeWords words) (sector + n) f' ∧
      f'.data = splice f.data (512 * sector) (unitBytes 2 words) := by
  induction n generalizing words with
  | zero =>
    obtain rfl := List.eq_nil_of_length_eq_zero hwords
    refine ⟨f, h, ?_⟩
    exact congrArg ByteFile.data (ByteFile.write_nil (b := f.seek (512 * sector)) (by
      change 512 * sector ≤ f.data.length
      omega)).symm
  | succ n ih =>
    obtain ⟨front, last, rfl, hfront⟩ : ∃ front last, words = front ++ last ∧
        front.length = 256 * n :=
      ⟨_, _, (List.take_append_drop (256 * n) words).symm, by rw [List.length_take]; omega⟩
    rw [List.length_append] at hwords
    obtain ⟨f', hat, hdata⟩ := ih (by omega) hfront
    have hbytes : (unitBytes 2 front).length = 512 * n := by
      rw [length_unitBytes, hfront]
      omega
    have hlen' : f'.data.length = f.data.length := by
      rw [hdata, length_splice, hbytes]
      omega
    rw [writeWords_append]
    refine ⟨_, writeWords_sector hat (by omega), ?_⟩
    rw [writeSector_eq (by omega) (by omega), if_pos (by omega), ByteFile.write, ByteFile.seek]
    rw [hdata, unitBytes_append, ← splice_splice, hbytes, Nat.mul_add]

/-- The last sector is not written. -/
theorem writeWords_last (hlen : f.data.length < 2 ^ 31) {sector : ℕ} (h : AtSector c sector f)
    {n : ℕ} (hrun : 512 * (sector + n + 1) = f.data.length) {words : List (BitVec 16)}
    (hwords : words.length = 256 * (n + 1)) :
    ∃ f', AtSector (c.writeWords words) (sector + n + 1) f' ∧
      f'.data = splice f.data (512 * sector) (unitBytes 2 (words.take (256 * n))) := by
  have hfront : (words.take (256 * n)).length = 256 * n := by
    rw [List.length_take]
    omega
  have hback : (words.drop (256 * n)).length = 256 := by
    rw [List.length_drop]
    omega
  obtain ⟨f', hat, hdata⟩ := writeWords_sectors hlen h (by omega) hfront
  have hlen' : f'.data.length = f.data.length := by
    rw [hdata, length_splice, length_unitBytes, hfront]
    omega
  have hsplit := writeWords_append c (words.take (256 * n)) (words.drop (256 * n))
  rw [List.take_append_drop] at hsplit
  have hlast := writeWords_sector hat hback
  rw [writeSector_eq (by omega) (by omega), if_neg (by omega), ← hsplit] at hlast
  exact ⟨f', hlast, hdata⟩

/-! ### Reading -/

theorem leBytes_pair (a b : BitVec 8) :
    leBytes 2 ((b.setWidth 32 <<< 8 ||| a.setWidth 32).setWidth 16).toNat = [a, b] := by
  have hword : (b.setWidth 32 <<< 8 ||| a.setWidth 32).setWidth 16 =
      BitVec.ofNat 16 (ofLeBytes [a, b]) := by
    have ha : a.setWidth 32 = BitVec.ofNat 32 (ofLeBytes [a]) := by
      apply BitVec.eq_of_toNat_eq
      simp [ofLeBytes]
    have hpair : BitVec.ofNat 32 (ofLeBytes [a]) ||| b.setWidth 32 <<< 8 =
        BitVec.ofNat 32 (ofLeBytes [a, b]) := or_byte_shiftLeft [a] b
    rw [BitVec.or_comm, ha, hpair]
    apply BitVec.eq_of_toNat_eq
    simp only [BitVec.toNat_setWidth, BitVec.toNat_ofNat]
    omega
  have hlt : ofLeBytes [a, b] < 256 ^ 2 := ofLeBytes_lt [a, b]
  rw [hword, BitVec.toNat_ofNat, Nat.mod_eq_of_lt (by omega)]
  exact leBytes_ofLeBytes [a, b]

theorem readWord_data (hcmd : c.cfRegCmd = cfCmdRead) {p : ℕ} (hlba : c.currLBA = BitVec.ofNat 64 p)
    (hfile : c.file = some f) (hlen : f.data.length < 2 ^ 31) (h : p + 2 ≤ f.data.length) :
    ∃ w f', leBytes 2 w.toNat = (f.data.drop p).take 2 ∧ f'.data = f.data ∧
      c.readWord Card.cfRegData = (w, { c with
        currLBA := BitVec.ofNat 64 (p + 2)
        file := some f' }) := by
  obtain ⟨a, b, hab⟩ : ∃ a b, (f.data.drop p).take 2 = [a, b] :=
    List.length_eq_two.mp (by rw [List.length_take, List.length_drop]; omega)
  have hread : (f.seek p).readData 2 = [a, b] := hab
  refine ⟨_, (f.seek p).read 2, (leBytes_pair a b).trans hab.symm, rfl, ?_⟩
  have hdata : c.read Card.cfRegData = c.readData := rfl
  rw [readWord, hdata, readData, if_pos hcmd, hfile]
  dsimp only
  rw [hlba, fseek_ofNat f (by omega), hread, BitVec.ofNat_add]
  rfl

theorem readWords_data (hcmd : c.cfRegCmd = cfCmdRead) {p : ℕ} (hlba : c.currLBA = BitVec.ofNat 64 p)
    (hfile : c.file = some f) (hlen : f.data.length < 2 ^ 31) {n : ℕ}
    (h : p + 2 * n ≤ f.data.length) : (c.readWords n).1.length = n ∧
      unitBytes 2 (c.readWords n).1 = (f.data.drop p).take (2 * n) ∧
      (c.readWords n).2.image = f.data := by
  induction n generalizing c f p with
  | zero =>
    refine ⟨rfl, (List.take_zero).symm, ?_⟩
    rw [readWords, image, hfile]
    rfl
  | succ n ih =>
    obtain ⟨w, f', hw, hdata, hread⟩ := readWord_data hcmd hlba hfile hlen (by omega)
    rw [readWords, hread]
    obtain ⟨hlength, hbytes, himage⟩ := @ih
      { c with currLBA := BitVec.ofNat 64 (p + 2), file := some f' } f' hcmd (p + 2) rfl rfl
      (by rw [hdata]; exact hlen) (by rw [hdata]; omega)
    refine ⟨congrArg (· + 1) hlength, ?_, himage.trans hdata⟩
    rw [unitBytes, List.flatMap_cons, ← unitBytes, hbytes, hw, hdata, ← List.drop_drop,
      ← List.take_add, Nat.add_comm, ← Nat.mul_succ]

theorem unitBytes_inj {as bs : List (BitVec 16)} : unitBytes 2 as = unitBytes 2 bs ↔ as = bs := by
  refine ⟨fun h => ?_, congrArg _⟩
  induction as generalizing bs with
  | nil =>
    cases bs with
    | nil => rfl
    | cons b bs => cases h
  | cons a as ih =>
    cases bs with
    | nil => cases h
    | cons b bs =>
      rw [unitBytes, unitBytes, List.flatMap_cons, List.flatMap_cons] at h
      obtain ⟨hhead, htail⟩ := List.append_inj h (by rw [length_leBytes, length_leBytes])
      have hnat := congrArg ofLeBytes hhead
      rw [ofLeBytes_leBytes_of_lt (by omega), ofLeBytes_leBytes_of_lt (by omega)] at hnat
      rw [BitVec.eq_of_toNat_eq hnat, ih htail]

/-- The round trip by what the file holds after the writes. -/
theorem roundTrip_of_written {sector : ℕ} {words : List (BitVec 16)}
    (hfile : ((c.begin sector cfCmdWrite).writeWords words).file = some f)
    (hlen : f.data.length < 2 ^ 31) (hrun : 512 * sector + 2 * words.length ≤ f.data.length) :
    c.RoundTrip sector words ↔
      (f.data.drop (512 * sector)).take (2 * words.length) = unitBytes 2 words ∧
      ∀ i, i < 512 * sector ∨ 512 * sector + 2 * words.length ≤ i → f.data[i]? = c.image[i]? := by
  obtain ⟨hcmd, -, hbegin⟩ := begin_rest ((c.begin sector cfCmdWrite).writeWords words) sector cfCmdRead
  obtain ⟨hlength, hbytes, himage⟩ := readWords_data hcmd (begin_currLBA _ (by omega) _)
    (hbegin.trans hfile) hlen hrun
  rw [RoundTrip, himage, ← hbytes, unitBytes_inj]

theorem getElem?_splice_outside {sector k : ℕ} {bytes : List (BitVec 8)} (hk : bytes.length ≤ k)
    {data : List (BitVec 8)} (hrun : 512 * sector + k ≤ data.length) (i : ℕ)
    (hi : i < 512 * sector ∨ 512 * sector + k ≤ i) :
    (splice data (512 * sector) bytes)[i]? = data[i]? := by
  rcases hi with hi | hi
  · exact getElem?_splice_before _ _ hi (by omega)
  · exact getElem?_splice_behind _ (by omega)

theorem image_of_file (hfile : c.file = some f) : c.image = f.data := by
  rw [image, hfile]
  rfl

/-- The run goes up to the end of the image. -/
theorem roundTrip_to_end (hfile : c.file = some f) (hlen : f.data.length < 2 ^ 31) {sector n : ℕ}
    (hrun : 512 * (sector + n + 1) = f.data.length) {words : List (BitVec 16)}
    (hwords : words.length = 256 * (n + 1)) : c.RoundTrip sector words ↔
      f.data.drop (512 * (sector + n)) = unitBytes 2 (words.drop (256 * n)) := by
  obtain ⟨f', hat, hdata⟩ :=
    writeWords_last hlen (begin_atSector hfile (by omega)) hrun hwords
  have hbytes : (unitBytes 2 (words.take (256 * n))).length = 512 * n := by
    rw [length_unitBytes, List.length_take]
    omega
  have hlen' : f'.data.length = f.data.length := by
    rw [hdata, length_splice, hbytes]
    omega
  have hsplit : unitBytes 2 words =
      unitBytes 2 (words.take (256 * n)) ++ unitBytes 2 (words.drop (256 * n)) := by
    rw [← unitBytes_append, List.take_append_drop]
  have hall : (unitBytes 2 (words.take (256 * n)) ++ f.data.drop (512 * (sector + n))).take
      (2 * words.length) = unitBytes 2 (words.take (256 * n)) ++ f.data.drop (512 * (sector + n)) := by
    rw [List.take_of_length_le]
    rw [List.length_append, hbytes, List.length_drop]
    omega
  rw [roundTrip_of_written hat.file (by omega) (by omega), image_of_file hfile, hdata, drop_splice,
    hsplit, hbytes, ← Nat.mul_add, hall, List.append_cancel_left_eq]
  exact and_iff_left (getElem?_splice_outside (by omega) (by omega))

/-- The write leaves out the last sector of the image, which is right if it was as it should be. -/
theorem roundTrip_iff (hfile : c.file = some f) (hlen : f.data.length < 2 ^ 31) {sector n : ℕ}
    (hrun : 512 * (sector + n) ≤ f.data.length) {words : List (BitVec 16)}
    (hwords : words.length = 256 * n) : c.RoundTrip sector words ↔
      n = 0 ∨ 512 * (sector + n) < f.data.length ∨
        f.data.drop (512 * (sector + (n - 1))) = unitBytes 2 (words.drop (256 * (n - 1))) := by
  have hat := begin_atSector hfile (by omega : sector < 2 ^ 28)
  have hbytes : (unitBytes 2 words).length = 2 * words.length := length_unitBytes 2 words
  rcases hrun.lt_or_eq with hlt | heq
  · obtain ⟨f', hat', hdata⟩ := writeWords_sectors hlen hat hlt hwords
    have hlen' : f'.data.length = f.data.length := by
      rw [hdata, length_splice, hbytes]
      omega
    rw [roundTrip_of_written hat'.file (by omega) (by omega), image_of_file hfile, hdata, drop_splice]
    exact iff_of_true ⟨List.take_left' hbytes,
      getElem?_splice_outside hbytes.le (by omega)⟩ (Or.inr (Or.inl hlt))
  cases n with
  | zero =>
    obtain rfl := List.eq_nil_of_length_eq_zero hwords
    have hnone : c.RoundTrip sector [] ↔ _ := roundTrip_of_written hat.file hlen hrun
    rw [hnone, image_of_file hfile]
    exact iff_of_true ⟨rfl, fun i _ => rfl⟩ (Or.inl rfl)
  | succ n =>
    rw [roundTrip_to_end hfile hlen heq hwords]
    constructor
    · exact fun h => Or.inr (Or.inr h)
    · rintro (h | h | h)
      · cases h
      · omega
      · exact h

/-- A device over an image. -/
def ofImage (data : List (BitVec 8)) : CFlash where
  cfRegSts := 0x58
  cfRegLba1 := 0
  cfRegLba2 := 0
  cfRegLba3 := 0
  cfRegLba4 := 0
  cfRegCmd := 0
  currLBA := 0
  sectorData _ := 0
  sectorWriteIndex := 0
  file := some ⟨data, 0, false⟩

theorem roundTrip_first_sector :
    (ofImage (List.replicate 1024 0)).RoundTrip 0 (List.replicate 256 0x4246) := by
  have hfirst (data : List (BitVec 8)) (words : List (BitVec 16)) (hlen : data.length = 1024)
      (hwords : words.length = 256 * 1) : (ofImage data).RoundTrip 0 words :=
    (@roundTrip_iff (ofImage data) ⟨data, 0, false⟩ rfl (by rw [hlen]; decide) 0 1
      (by rw [hlen]; decide) words hwords).mpr (Or.inr (Or.inl (by rw [hlen]; decide)))
  exact hfirst _ _ (List.length_replicate ..) (List.length_replicate ..)

/-- An image of one sector stays as it is. -/
theorem roundTrip_one_sector {data : List (BitVec 8)} (hlen : data.length = 512)
    {words : List (BitVec 16)} (hwords : words.length = 256) :
    (ofImage data).RoundTrip 0 words ↔ data = unitBytes 2 words :=
  @roundTrip_to_end (ofImage data) ⟨data, 0, false⟩ rfl (by rw [hlen]; decide) 0 0 hlen.symm words
    hwords

theorem last_sector_lost :
    ¬ (ofImage (List.replicate 512 0)).RoundTrip 0 (List.replicate 256 0x4246) := by
  rw [roundTrip_one_sector (List.length_replicate ..) (List.length_replicate ..)]
  exact fun h => absurd (congrArg (fun l => l.head?) h) (by decide)

end CFlash

end Desmume.Card
