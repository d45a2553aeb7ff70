import Desmume.Cheat.CheatItem
import Desmume.Library.ByteFile
import Desmume.Library.LittleEndian
import Desmume.Library.Loop
import Mathlib.Data.List.Basic

/-! The export of codes from a database: the cipher of the database, the search of a game in the
directory, and the reading of its folders and cheats from a buffer. -/

namespace Desmume.Cheat
open Library

section Decrypt

/-- The byte under a key, and the next key. -/
def decryptByte (key : BitVec 16) (b : BitVec 8) : BitVec 8 × BitVec 16 :=
  let xor : BitVec 8 := BitVec.ofBoolListBE
    [key[14], key[12], key[11], key[9], key[7], key[6], key[1], key[0]]
  let k : BitVec 32 := ((b.setWidth 32 <<< 8) ^^^ key.setWidth 32) <<< 16
  let x := (List.range' 1 31).foldl (fun x j => x ^^^ (k >>> j)) k
  (b ^^^ xor, BitVec.ofBoolListBE
    [x[23], k[22], k[21], k[20], k[19], k[18], k[17] != x[31], k[16] != x[30],
      k[30] != k[29], k[29] != k[28], k[28] != k[27], k[27] != k[26],
      k[26] != k[25], k[25] != k[24], k[25] != x[26], k[24] != x[25]])

/-- The bytes from the place `i` on; each block of 512 starts with a key of its own. -/
def decryptFrom (n : BitVec 32) (i : ℕ) (key : BitVec 16) : List (BitVec 8) → List (BitVec 8)
  | [] => []
  | b :: buf =>
    let key := if i % 512 = 0 then (n + BitVec.ofNat 32 (i / 512)).setWidth 16 ^^^ 0x484A#16 else key
    let r := decryptByte key b
    r.1 :: decryptFrom n (i + 1) r.2 buf

/-- `R4decrypt`. -/
def r4decrypt (buf : List (BitVec 8)) (n : BitVec 32) : List (BitVec 8) := decryptFrom n 0 0 buf

end Decrypt

/-- `FAT_R4`, as its 16 bytes. -/
abbrev FatR4 := List (BitVec 8)

namespace FatR4

variable (fat : FatR4)

def serial : List (BitVec 8) := fat.take 4

def crc : BitVec 32 := BitVec.ofNat 32 (ofLeBytes ((fat.drop 4).take 4))

def addr : BitVec 64 := BitVec.ofNat 64 (ofLeBytes ((fat.drop 8).take 8))

end FatR4

/-- What an array holds after `fread` has stored some bytes in it. -/
def overlay (array bytes : List (BitVec 8)) : List (BitVec 8) := bytes ++ array.drop bytes.length

/-- A directory entry in a block. -/
def entryOf (buf : List (BitVec 8)) (pos : ℕ) : FatR4 := (buf.drop pos).take 16

structure SearchState where
  file : ByteFile (BitVec 8)
  pos : BitVec 32
  t : BitVec 32
  fat : FatR4
  fatTmp : FatR4
  buf : List (BitVec 8)

section Search

variable (encrypted : Bool) (gameCode : List (BitVec 8))

/-- The state before the loop of `search`. -/
def searchStart (content : List (BitVec 8)) (fat : FatR4) : SearchState :=
  let file : ByteFile (BitVec 8) := ⟨content, 0, false⟩
  if encrypted then
    let buf := overlay (List.replicate 512 0) (file.readData 512)
    ⟨file.read 512, 0x100, 0, fat, List.replicate 16 0, r4decrypt buf 0⟩
  else
    let file := file.seek 0x100
    ⟨file.read 16, 0x100, 0, fat, overlay (List.replicate 16 0) (file.readData 16),
      List.replicate 512 0⟩

/-- The first half of the body of the loop: the next entry, and the one behind it. -/
def loadEntry (s : SearchState) : SearchState :=
  if encrypted then
    let fat := entryOf s.buf (s.pos.toNat % 512)
    let pos := s.pos + 16
    if s.t < pos >>> 9 then
      let t := s.t + 1
      let buf := r4decrypt (overlay s.buf (s.file.readData 512)) t
      ⟨s.file.read 512, pos, t, fat, entryOf buf (pos.toNat % 512), buf⟩
    else ⟨s.file, pos, s.t, fat, entryOf s.buf (pos.toNat % 512), s.buf⟩
  else
    { s with
      fat := s.fatTmp
      fatTmp := overlay s.fatTmp (s.file.readData 16)
      file := s.file.read 16 }

/-- The entry is the one of the game, or the last one. -/
def EntryStops (fat : FatR4) : Prop := fat.serial = gameCode ∨ fat.addr = 0

instance : DecidablePred (EntryStops gameCode) := fun _ => inferInstanceAs (Decidable (_ ∨ _))

/-- The members that `search` sets, and the file. -/
structure Found where
  file : ByteFile (BitVec 8)
  fat : FatR4
  crc : BitVec 32
  dataSize : BitVec 32
  encOffset : BitVec 32

/-- The end of `search`; there is nothing if it returns false. -/
def searchEnd (file : ByteFile (BitVec 8)) (fat fatTmp : FatR4) : Option Found :=
  if fat.serial = gameCode then
    let dataSize : BitVec 32 := if fatTmp.addr ≠ 0 then (fatTmp.addr - fat.addr).setWidth 32 else 0
    let encOffset : BitVec 32 := if encrypted then (fat.addr % 512#64).setWidth 32 else 0
    let dataSize := dataSize + encOffset
    if dataSize = 0 then none else some ⟨file, fat, fat.crc, dataSize, encOffset⟩
  else none

/-- The loop of `search` from its second half on. -/
def searchLoop (n : ℕ) (s : SearchState) : Option SearchState :=
  runWhile (fun s => ¬ EntryStops gameCode s.fat) (loadEntry encrypted) n s

/-- `search` on a file, within so many rounds of its loop. -/
def search (content : List (BitVec 8)) (fat : FatR4) (n : ℕ) : Option (Option Found) :=
  (searchLoop encrypted gameCode n (loadEntry encrypted (searchStart encrypted content fat))).map
    fun s => searchEnd encrypted gameCode s.file s.fat s.fatTmp

end Search

section Buffer

variable (data : List (BitVec 8))

/-- A pointer rounded down to a word; the buffer starts at one. -/
def wordAligned (offset : ℕ) : ℕ := offset / 4 * 4

/-- A word of the buffer, if it lies in it. -/
def readWord (offset : ℕ) : Option (BitVec 32) :=
  if offset + 4 ≤ data.length then
    some (BitVec.ofNat 32 (ofLeBytes ((data.drop offset).take 4)))
  else none

/-- The string at a place of the buffer, if it ends in it. -/
def stringAt (offset : ℕ) : Option CString :=
  if 0#8 ∈ data.drop offset then
    some ⟨(data.drop offset).takeWhile (· ≠ 0#8), fun _ h => by
      simpa only [decide_eq_true_eq] using List.mem_takeWhile_imp h⟩
  else none

def readLine (offset : ℕ) : Option ArLine := do
  let hi ← readWord data offset
  let lo ← readWord data (offset + 4)
  return (hi, lo)

end Buffer

section Codes

variable (data : List (BitVec 8)) (numCheats : ℕ)

def colon : CString := ⟨[cchar ':', cchar ' '], by decide⟩

def bar : CString := ⟨[cchar ' ', cchar '|', cchar ' '], by decide⟩

/-- A text in front of another one, unless it is empty or missing. -/
def withFolder (folderName : Option CString) (cheatName : CString) : CString :=
  match folderName with
  | some name => if name.val = [] then cheatName else (name.append colon).append cheatName
  | none => cheatName

def withNote (s cheatNote : CString) : CString :=
  if cheatNote.val = [] then s else (s.append bar).append cheatNote

/-- Where the word behind two strings is that follow the word at `cmd`. -/
def behindStrings (cmd : ℕ) (s s' : CString) : ℕ :=
  wordAligned (cmd + 4 + s.val.length + 1 + s'.val.length + 1 + 3)

/-- What is kept of a cheat; there is no result behind the end of `cheats`. -/
def storeCheat (folderName : Option CString) (cheatName cheatNote : CString) (cheatData : ℕ)
    (numberCodes : ℕ) (cheats : List CheatItem) : Option (List CheatItem) :=
  if h : numberCodes ≤ maxXxCode then
    if cheats.length < numCheats then do
      let codes ← (List.range numberCodes).mapM fun j => readLine data (cheatData + 8 * j)
      let description := withNote (withFolder folderName cheatName) cheatNote
      return cheats ++ [{ newItem with
        description := copyTruncated 1024 description
        num := numberCodes
        num_le := h
        type := 1
        code := fun j => codes.getD j (0, 0) }]
    else none
  else some cheats

/-- A cheat of a folder, with the place of the next one. -/
def readCheat (folderName : Option CString) (cmd : ℕ) (cheats : List CheatItem) :
    Option (ℕ × List CheatItem) := do
  let cheatName ← stringAt data (cmd + 4)
  let cheatNote ← stringAt data (cmd + 4 + cheatName.val.length + 1)
  let cheatData := behindStrings cmd cheatName cheatNote
  let cheatDataLen ← readWord data cheatData
  let cheats ← storeCheat data numCheats folderName cheatName cheatNote (cheatData + 4)
    (cheatDataLen / 2#32).toNat cheats
  let size ← readWord data cmd
  return (cmd + ((size + 1) * 4).toNat, cheats)

def readFolder (folderName : Option CString) : ℕ → ℕ → List CheatItem → Option (ℕ × List CheatItem)
  | 0, cmd, cheats => some (cmd, cheats)
  | folderNum + 1, cmd, cheats => do
    let (cmd, cheats) ← readCheat data numCheats folderName cmd cheats
    readFolder folderName folderNum cmd cheats

/-- The loop of `getCodes` over its items. -/
def readItems (pos cmd : ℕ) (cheats : List CheatItem) : Option (List CheatItem) :=
  if pos < numCheats then do
    let head ← readWord data cmd
    if head &&& 0xF0000000#32 = 0x10000000#32 then
      let folderNum := (head &&& 0x00FFFFFF#32).toNat
      let folderName ← stringAt data (cmd + 4)
      let folderNote ← stringAt data (cmd + 4 + folderName.val.length + 1)
      let (cmd, cheats) ← readFolder data numCheats (some folderName) folderNum
        (behindStrings cmd folderName folderNote) cheats
      readItems (pos + 1 + folderNum) cmd cheats
    else
      let (cmd, cheats) ← readFolder data numCheats none 1 cmd cheats
      readItems (pos + 1) cmd cheats
  else some cheats
termination_by numCheats - pos

end Codes

/-- `CHEAT_DB_GAME_TITLE_SIZE`. -/
def gameTitleSize : ℕ := 256

/-- The codes of a buffer; there is no result if something is read or written outside an array. -/
def parseCodes (data : List (BitVec 8)) (encOffset : ℕ) : Option (CString × List CheatItem) := do
  let gametitle ← stringAt data encOffset
  if gametitle.val.length ≤ gameTitleSize then
    let cmd := wordAligned (encOffset + gametitle.val.length + 4)
    let count ← readWord data cmd
    let cheats ← readItems data (count &&& 0x0FFFFFFF#32).toNat 0 (cmd + 36) []
    return (gametitle, cheats)
  else none

namespace Found

variable (encrypted : Bool) (found : Found)

/-- What `fread` gets of the codes; `fseek` refuses a negative place. -/
def loaded : List (BitVec 8) :=
  let offset := found.fat.addr - found.encOffset.setWidth 64
  let file := if offset.msb then found.file else found.file.seek offset.toNat
  file.readData found.dataSize.toNat

/-- The size of the buffer. -/
def capacity : ℕ := (found.dataSize + 8).toNat

def buffer : List (BitVec 8) :=
  (if encrypted then r4decrypt found.loaded ((found.fat.addr >>> 9).setWidth 32)
    else found.loaded) ++ List.replicate 8 0

/-- `getCodes`: the title and the codes, or nothing if it returns false. -/
def getCodes : Option (Option (CString × List CheatItem)) :=
  if found.capacity < found.loaded.length then none
  else if found.loaded.length ≠ found.dataSize.toNat then some none
  else (parseCodes (found.buffer encrypted) found.encOffset.toNat).map some

end Found

/-! ### The cipher -/

/-- What is encrypted at once. -/
abbrev R4Block := { buf : List (BitVec 8) // buf.length = 512 }

section Stream

variable {n : BitVec 32} {i : ℕ} {key : BitVec 16}

theorem length_decryptFrom (n : BitVec 32) (i : ℕ) (key : BitVec 16) (buf : List (BitVec 8)) :
    (decryptFrom n i key buf).length = buf.length := by
  induction buf generalizing i key with
  | nil => rfl
  | cons b buf ih => rw [decryptFrom, List.length_cons, List.length_cons, ih]

/-- At the start of a block the key is set anew. -/
theorem decryptFrom_reseed (n : BitVec 32) (hi : i % 512 = 0) (key key' : BitVec 16)
    (buf : List (BitVec 8)) : decryptFrom n i key buf = decryptFrom n i key' buf := by
  cases buf with
  | nil => rfl
  | cons b buf => rw [decryptFrom, decryptFrom, if_pos hi, if_pos hi]

/-- A block further on is the next block number. -/
theorem decryptFrom_shift (n : BitVec 32) (i : ℕ) (key : BitVec 16) (buf : List (BitVec 8)) :
    decryptFrom n (i + 512) key buf = decryptFrom (n + 1) i key buf := by
  induction buf generalizing i key with
  | nil => rfl
  | cons b buf ih =>
    have hblock : n + BitVec.ofNat 32 ((i + 512) / 512) = n + 1 + BitVec.ofNat 32 (i / 512) := by
      rw [Nat.add_div_right i (by decide), BitVec.ofNat_add, BitVec.add_assoc,
        BitVec.add_comm (BitVec.ofNat 32 (i / 512))]
      rfl
    rw [decryptFrom, decryptFrom, Nat.add_mod_right, hblock, Nat.add_right_comm, ih]

theorem decryptFrom_append (n : BitVec 32) (i : ℕ) (key : BitVec 16) (buf rest : List (BitVec 8)) :
    ∃ key', decryptFrom n i key (buf ++ rest) =
      decryptFrom n i key buf ++ decryptFrom n (i + buf.length) key' rest := by
  induction buf generalizing i key with
  | nil => exact ⟨key, rfl⟩
  | cons b buf ih =>
    obtain ⟨key', hkey'⟩ := ih (i + 1) (decryptByte
      (if i % 512 = 0 then (n + BitVec.ofNat 32 (i / 512)).setWidth 16 ^^^ 0x484A#16 else key) b).2
    refine ⟨key', ?_⟩
    rw [List.cons_append, decryptFrom, hkey', decryptFrom, List.length_cons, List.cons_append,
      Nat.add_comm buf.length, Nat.add_assoc]

theorem r4decrypt_append (n : BitVec 32) (block : R4Block) (rest : List (BitVec 8)) :
    r4decrypt (block.val ++ rest) n = r4decrypt block.val n ++ r4decrypt rest (n + 1) := by
  obtain ⟨key', h⟩ := decryptFrom_append n 0 0 block.val rest
  have hblock : (0 + 512) % 512 = 0 := by decide
  rw [r4decrypt, h, block.property, decryptFrom_reseed n hblock key' 0, decryptFrom_shift, r4decrypt,
    r4decrypt]

end Stream

section Injective

/-- Under the same key, different bytes stay different. -/
theorem decryptByte_injective (key : BitVec 16) {b b' : BitVec 8}
    (h : (decryptByte key b).1 = (decryptByte key b').1) : b = b' := by
  simp only [decryptByte] at h
  exact (BitVec.xor_left_inj _).mp h

/-- The bytes are the same up to any place, so that the keys are the same there. -/
theorem decryptFrom_injective (n : BitVec 32) (i : ℕ) (key : BitVec 16) :
    Function.Injective (decryptFrom n i key) := by
  intro buf buf' h
  induction buf generalizing i key buf' with
  | nil =>
    have hlength := congrArg List.length h
    rw [length_decryptFrom, length_decryptFrom] at hlength
    exact (List.length_eq_zero_iff.mp hlength.symm).symm
  | cons b buf ih =>
    cases buf' with
    | nil => cases h
    | cons b' buf' =>
      simp only [decryptFrom, List.cons.injEq] at h
      obtain ⟨hbyte, hrest⟩ := h
      obtain rfl := decryptByte_injective _ hbyte
      rw [ih _ _ hrest]

end Injective

/-- The decryption of a block. -/
def R4Block.decrypt (n : BitVec 32) (block : R4Block) : R4Block :=
  ⟨r4decrypt block.val n, (length_decryptFrom ..).trans block.property⟩

/-- Blocks are decrypted each on its own, and none of them loses anything. -/
theorem r4decrypt_blocks (n : BitVec 32) (blocks : List R4Block) :
    r4decrypt (blocks.map Subtype.val).flatten n =
        ((blocks.mapIdx fun k block => block.decrypt (n + BitVec.ofNat 32 k)).map
          Subtype.val).flatten ∧
      Function.Injective (R4Block.decrypt n) := by
  constructor
  · induction blocks generalizing n with
    | nil => rfl
    | cons block blocks ih =>
      have hnext (k : ℕ) : n + 1 + BitVec.ofNat 32 k = n + BitVec.ofNat 32 (k + 1) := by
        rw [BitVec.add_assoc, BitVec.add_comm 1, BitVec.ofNat_add]
        rfl
      rw [List.map_cons, List.flatten_cons, r4decrypt_append, ih, List.mapIdx_cons, List.map_cons,
        List.flatten_cons, BitVec.add_zero]
      simp only [hnext]
      rfl
  · intro block block' h
    exact Subtype.ext (decryptFrom_injective n 0 0 (congrArg Subtype.val h))

end Desmume.Cheat
