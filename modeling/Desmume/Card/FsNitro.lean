import Desmume.Library.CString
import Desmume.Library.FlatMemory
import Desmume.Library.Loop

/-! The file system of a ROM image: the tables that the constructor loads, with every access to the
image and to the tables checked, and the lookups. -/

namespace Desmume.Card
open Function Library

/-- `gameInfo.romdata` and `romsize`. -/
structure RomImage where
  size : BitVec 32
  byte : ℕ → BitVec 8

/-- A word of the image, if it is inside. -/
def RomImage.read (rom : RomImage) (n a : ℕ) : Option (BitVec (8 * n)) :=
  if a + n ≤ rom.size.toNat then some (readWord n rom.byte a) else none

/-- The string in a buffer that bytes of the image are copied to. -/
def RomImage.string (rom : RomImage) (a len : ℕ) : Option (List (BitVec 8)) :=
  if a + len ≤ rom.size.toNat then some ((load rom.byte a len).takeWhile (· ≠ 0#8)) else none

structure NitroHeader where
  fNameTblOff : BitVec 32
  fNameTblSize : BitVec 32
  fatOff : BitVec 32
  fatSize : BitVec 32
  arm9OverlayOff : BitVec 32
  arm9OverlaySize : BitVec 32
  arm7OverlayOff : BitVec 32
  arm7OverlaySize : BitVec 32

/-- What the constructor takes from the first 0x60 bytes. -/
def RomImage.header (rom : RomImage) : NitroHeader where
  fNameTblOff := readWord 4 rom.byte 0x40
  fNameTblSize := readWord 4 rom.byte 0x44
  fatOff := readWord 4 rom.byte 0x48
  fatSize := readWord 4 rom.byte 0x4C
  arm9OverlayOff := readWord 4 rom.byte 0x50
  arm9OverlaySize := readWord 4 rom.byte 0x54
  arm7OverlayOff := readWord 4 rom.byte 0x58
  arm7OverlaySize := readWord 4 rom.byte 0x5C

def NitroHeader.numFiles (h : NitroHeader) : ℕ := h.fatSize.toNat / 8

/-- `FAT_NITRO`. -/
structure FatNitro where
  start : BitVec 32
  finish : BitVec 32
  size : BitVec 32
  isOverlay : Bool := false
  file : Bool := false
  sizeFile : BitVec 32
  parentID : BitVec 16 := 0
  filename : List (BitVec 8) := []

/-- `FNT_NITRO`. -/
structure FntNitro where
  offset : BitVec 32
  firstID : BitVec 16
  parentID : BitVec 16
  filename : List (BitVec 8) := []

structure FsNitro where
  inited : Bool
  fatOff : BitVec 32
  fatEnd : BitVec 32
  numFiles : ℕ
  numDirs : ℕ
  currentID : ℕ
  fat : ℕ → FatNitro
  fnt : ℕ → FntNitro

def delimiter : List (BitVec 8) := [cchar '/']

/-! ### The tables -/

section Tables

variable (rom : RomImage)

/-- An entry of `_FAT`. -/
def fatNitro (i : ℕ) : FatNitro :=
  let start := readWord 4 rom.byte (rom.header.fatOff.toNat + 8 * i)
  let finish := readWord 4 rom.byte (rom.header.fatOff.toNat + 8 * i + 4)
  { start, finish, size := finish - start, sizeFile := finish - start }

/-- An entry of `_FNT`. -/
def fntNitro (i : ℕ) : FntNitro where
  offset := readWord 4 rom.byte (rom.header.fNameTblOff.toNat + 8 * i)
  firstID := readWord 2 rom.byte (rom.header.fNameTblOff.toNat + 8 * i + 4)
  parentID := readWord 2 rom.byte (rom.header.fNameTblOff.toNat + 8 * i + 6)

/-- `overlay_%04u.bin`. -/
def overlayName (id : BitVec 32) : List (BitVec 8) :=
  let digits := (Nat.toDigits 10 id.toNat).map cchar
  ['o', 'v', 'e', 'r', 'l', 'a', 'y', '_'].map cchar ++
    List.replicate (4 - digits.length) (cchar '0') ++ digits ++ ['.', 'b', 'i', 'n'].map cchar

/-- The entries of an overlay table, by their ids and file ids. The array that the table is copied
to has room for whole entries only. -/
def overlays (off size : BitVec 32) : Option (List (BitVec 32 × BitVec 32)) :=
  let num := size.toNat / 32
  if num = 0 then some []
  else if off.toNat + size.toNat ≤ rom.size.toNat ∧ size.toNat = 32 * num then
    some ((List.range num).map fun i =>
      (readWord 4 rom.byte (off.toNat + 32 * i), readWord 4 rom.byte (off.toNat + 32 * i + 24)))
  else none

def markOverlay (fat : ℕ → FatNitro) (ovr : BitVec 32 × BitVec 32) : Option (ℕ → FatNitro) :=
  let fileID := ovr.2.toNat
  if fileID < rom.header.numFiles then
    some (update fat fileID { fat fileID with isOverlay := true, filename := overlayName ovr.1 })
  else none

/-- The state of the loop that reads the file structure. -/
structure NitroWalk where
  sub : Option ℕ
  fntID : BitVec 16
  fileCount : BitVec 16
  fat : ℕ → FatNitro
  fnt : ℕ → FntNitro
  store : ℕ → Option ℕ

/-- `loadFileTables` up to the loop. -/
def startWalk (numDirs : ℕ) : Option NitroWalk :=
  let h := rom.header
  if rom.size.toNat < h.fatOff.toNat + 8 * h.numFiles then none
  else do
    let ovr9 ← overlays rom h.arm9OverlayOff h.arm9OverlaySize
    let fat ← ovr9.foldlM (markOverlay rom) (fatNitro rom)
    let ovr7 ← overlays rom h.arm7OverlayOff h.arm7OverlaySize
    let fat ← ovr7.foldlM (markOverlay rom) fat
    if rom.size.toNat < h.fNameTblOff.toNat + 8 * numDirs then none
    else
      let root := fntNitro rom 0
      some { sub := some (h.fNameTblOff.toNat + root.offset.toNat), fntID := 0xF000
             fileCount := root.firstID, fat, store := fun _ => none
             fnt := update (fntNitro rom) 0 { root with filename := delimiter, parentID := 0xF000 } }

/-- `FNT_TYPES`. -/
inductive FntType
  | fileEntry
  | subdirEntry
  | endSubtable
  | reserved
  deriving DecidableEq

def getFNTType (type : BitVec 8) : FntType :=
  if type = 0x00 then .endSubtable
  else if type = 0x80 then .reserved
  else if type < 0x80 then .fileEntry
  else .subdirEntry

/-- The index of a directory id. -/
def dirIndex (id : BitVec 16) : ℕ := (id &&& 0x0FFF).toNat

/-- A round of the loop. It ends at the last file and at a reserved entry. -/
def walkStep (numDirs : ℕ) (w : NitroWalk) : Option (NitroWalk ⊕ NitroWalk) := do
  let sub ← w.sub
  let type ← rom.read 1 sub
  let len := (type &&& 0x7F).toNat
  match getFNTType type with
  | .endSubtable =>
    let id := dirIndex w.fntID
    if id < numDirs then some (.inl { w with sub := w.store id, fntID := (w.fnt id).parentID })
    else none
  | .subdirEntry =>
    let buf ← rom.string (sub + 1) len
    let fntID ← rom.read 2 (sub + 1 + len)
    let id := dirIndex fntID
    if id < numDirs then
      some (.inl { w with
        sub := some (rom.header.fNameTblOff.toNat + (w.fnt id).offset.toNat), fntID
        store := update w.store id (some (sub + 1 + len + 2))
        fnt := update w.fnt id { w.fnt id with filename := buf } })
    else none
  | .fileEntry =>
    let buf ← rom.string (sub + 1) len
    let id := w.fileCount.toNat
    if id < rom.header.numFiles then
      let w' := { w with
        sub := some (sub + 1 + len), fileCount := w.fileCount + 1
        fat := update w.fat id { w.fat id with filename := buf, parentID := w.fntID } }
      some (if w'.fileCount.toNat ≥ rom.header.numFiles then .inr w' else .inl w')
    else none
  | .reserved => some (.inr w)

/-- The file system of an image without the tables. -/
def noTables : FsNitro :=
  { inited := false, fatOff := rom.header.fatOff, fatEnd := 0, numFiles := 0, numDirs := 0
    currentID := 0, fat := fatNitro rom, fnt := fntNitro rom }

/-- The file system with the tables as the loop leaves them. -/
def withTables (numDirs : ℕ) (w : NitroWalk) : FsNitro :=
  { inited := true, fatOff := rom.header.fatOff, fatEnd := rom.header.fatOff + rom.header.fatSize
    numFiles := rom.header.numFiles, numDirs, currentID := 0, fat := w.fat, fnt := w.fnt }

/-- `loadFileTables`, with a bound on the rounds. -/
def loadFileTables (rounds numDirs : ℕ) : Option FsNitro := do
  let w ← startWalk rom numDirs
  let w ← runRounds (walkStep rom numDirs) rounds w
  some (withTables rom numDirs w)

/-- The constructor. -/
def fsNitro (rounds : ℕ) : Option FsNitro :=
  let h := rom.header
  if rom.size.toNat < 0x60 then none
  else if h.fNameTblOff < 0x8000 ∨ h.fatOff < 0x8000 ∨ h.fatSize = 0 then some (noTables rom)
  else do
    let numDirs ← rom.read 2 (h.fNameTblOff.toNat + 6)
    if h.numFiles = 0 ∨ numDirs = 0 then some (noTables rom)
    else loadFileTables rom rounds numDirs.toNat

/-- The constructor ends, and all its accesses are in range. -/
def Constructs (fs : FsNitro) : Prop := ∃ rounds, fsNitro rom rounds = some fs

end Tables

/-! ### The lookups -/

section Lookups

variable (fs : FsNitro)

def FsNitro.fatAt (i : ℕ) : Option FatNitro := if i < fs.numFiles then some (fs.fat i) else none

def FsNitro.fntAt (i : ℕ) : Option FntNitro := if i < fs.numDirs then some (fs.fnt i) else none

def getFATRecord (addr : BitVec 32) : Option (BitVec 32) :=
  if fs.inited = false ∨ addr < fs.fatOff ∨ addr > fs.fatEnd then some 0xFFFFFFFF
  else
    let id := (addr - fs.fatOff).toNat / 8
    let offs := (addr - fs.fatOff).toNat % 8
    (fs.fatAt id).map fun entry =>
      if offs = 0 then entry.start
      else if entry.file then entry.start + entry.sizeFile
      else entry.finish

/-- A round of the search for an address. -/
def searchStep (addr : BitVec 32) (pos : ℕ) : Option (ℕ ⊕ Option ℕ) :=
  (fs.fatAt pos).map fun entry =>
    if addr ≥ entry.start ∧ addr < entry.finish then .inr (some pos)
    else
      let next := if pos + 1 ≥ fs.numFiles then 0 else pos + 1
      if next = fs.currentID then .inr none else .inl next

/-- The file with an address in it, by its id and the offset in it. The next search begins there. -/
def getFileIdByAddr (addr : BitVec 32) (rounds : ℕ) :
    Option (FsNitro × Option (BitVec 16 × BitVec 32)) :=
  if fs.inited = false then some (fs, none)
  else (runRounds (searchStep fs addr) rounds fs.currentID).map fun found =>
    match found with
    | none => (fs, none)
    | some pos =>
      ({ fs with currentID := pos }, some (BitVec.ofNat 16 pos, addr - (fs.fat pos).start))

/-- The lookups for a directory. -/
def dirGetter {α : Type} (closed file invalid : α) (field : FntNitro → α) (id : BitVec 16) :
    Option α :=
  if fs.inited = false then some closed
  else if id &&& 0xF000 ≠ 0xF000 then some file
  else if dirIndex id > fs.numDirs then some invalid
  else (fs.fntAt (dirIndex id)).map field

/-- The error texts. -/
def fileText : List (BitVec 8) := ['|', 'f', 'i', 'l', 'e', '|'].map cchar

def directoryText : List (BitVec 8) :=
  ['<', 'd', 'i', 'r', 'e', 'c', 't', 'o', 'r', 'y', '>'].map cchar

def invalidText : List (BitVec 8) :=
  ['<', '!', 'E', 'R', 'R', 'O', 'R', ' ', 'i', 'n', 'v', 'a', 'l', 'i', 'd', ' ', 'i', 'd',
    '>'].map cchar

def getDirNameByID (id : BitVec 16) : Option (List (BitVec 8)) :=
  dirGetter fs [] fileText invalidText FntNitro.filename id

def getDirParrentByID (id : BitVec 16) : Option (BitVec 16) :=
  dirGetter fs 0xFFFF 0xFFFF 0xFFFF FntNitro.parentID id

/-- The lookups for a file. -/
def fileGetter {α : Type} (invalid : α) (field : FatNitro → α) (id : BitVec 16) : Option α :=
  if id.toNat > fs.numFiles then some invalid else (fs.fatAt id.toNat).map field

def getFileNameByID (id : BitVec 16) : Option (List (BitVec 8)) :=
  if fs.inited = false then some []
  else if id &&& 0xF000 = 0xF000 then some directoryText
  else fileGetter fs invalidText FatNitro.filename id

def getFileParentById (id : BitVec 16) : Option (BitVec 16) :=
  if fs.inited = false ∨ id &&& 0xF000 = 0xF000 then some 0xFFFF
  else fileGetter fs 0xFFFF FatNitro.parentID id

def getFileSizeById (id : BitVec 16) : Option (BitVec 32) :=
  if fs.inited = false then some 0 else fileGetter fs 0 FatNitro.size id

def getStartAddrById (id : BitVec 16) : Option (BitVec 32) :=
  if fs.inited = false then some 0 else fileGetter fs 0 FatNitro.start id

def getEndAddrById (id : BitVec 16) : Option (BitVec 32) :=
  if fs.inited = false then some 0 else fileGetter fs 0 FatNitro.finish id

/-- Unlike the others it does not ask whether there are tables. -/
def isOverlay (id : BitVec 16) : Option Bool := fileGetter fs false FatNitro.isOverlay id

/-- A round of the loop that puts the names of the parents before a name. -/
def climbStep (s : List (BitVec 8) × ℕ) : Option (List (BitVec 8) × ℕ ⊕ List (BitVec 8)) :=
  let (res, parentID) := s
  if parentID = 0 then some (.inr res)
  else (fs.fntAt parentID).map fun dir =>
    .inl (dir.filename ++ delimiter ++ res, dirIndex dir.parentID)

/-- The folder that a path begins with, if it is asked for. -/
def rootFolder (addRoot : Bool) (name : List Char) : List (BitVec 8) :=
  if addRoot then delimiter ++ name.map cchar ++ delimiter else []

def filePath (entry : FatNitro) (addRoot : Bool) (rounds : ℕ) : Option (List (BitVec 8)) :=
  if entry.isOverlay then
    some (rootFolder addRoot ['o', 'v', 'e', 'r', 'l', 'a', 'y'] ++ entry.filename)
  else
    (runRounds (climbStep fs) rounds ([], dirIndex entry.parentID)).map fun res =>
      rootFolder addRoot ['d', 'a', 't', 'a'] ++ res ++ entry.filename

def getFullPathByFileID (id : BitVec 16) (addRoot : Bool) (rounds : ℕ) :
    Option (List (BitVec 8)) :=
  if fs.inited = false then some []
  else if id.toNat > fs.numFiles then some invalidText
  else (fs.fatAt id.toNat).bind fun entry => filePath fs entry addRoot rounds

end Lookups

/-! ### What they are to be -/

inductive NitroLookup
  | fatRecord (addr : BitVec 32)
  | fileIdByAddr (addr : BitVec 32)
  | dirName (id : BitVec 16)
  | dirParrent (id : BitVec 16)
  | fileName (id : BitVec 16)
  | fileParent (id : BitVec 16)
  | fileSize (id : BitVec 16)
  | startAddr (id : BitVec 16)
  | endAddr (id : BitVec 16)
  | overlay (id : BitVec 16)
  | fullPath (id : BitVec 16) (addRoot : Bool)

/-- The lookup ends, and all its accesses are in range. -/
def FsNitro.Answers (fs : FsNitro) : NitroLookup → Prop
  | .fatRecord addr => (getFATRecord fs addr).isSome
  | .fileIdByAddr addr => ∃ rounds, (getFileIdByAddr fs addr rounds).isSome
  | .dirName id => (getDirNameByID fs id).isSome
  | .dirParrent id => (getDirParrentByID fs id).isSome
  | .fileName id => (getFileNameByID fs id).isSome
  | .fileParent id => (getFileParentById fs id).isSome
  | .fileSize id => (getFileSizeById fs id).isSome
  | .startAddr id => (getStartAddrById fs id).isSome
  | .endAddr id => (getEndAddrById fs id).isSome
  | .overlay id => (isOverlay fs id).isSome
  | .fullPath id addRoot => ∃ rounds, (getFullPathByFileID fs id addRoot rounds).isSome

/-- The file systems after some searches. The other lookups change nothing. -/
inductive Searched (fs : FsNitro) : FsNitro → Prop
  | start : Searched fs fs
  | search {fs' fs'' : FsNitro} {addr : BitVec 32} {rounds : ℕ}
      {found : Option (BitVec 16 × BitVec 32)} (h : Searched fs fs')
      (hfound : getFileIdByAddr fs' addr rounds = some (fs'', found)) : Searched fs fs''

def Robust (rom : RomImage) : Prop :=
  ∃ fs, Constructs rom fs ∧ ∀ fs', Searched fs fs' → ∀ q, fs'.Answers q

/-- The tables that the header names are inside of the image. -/
structure RomImage.HeaderInside (rom : RomImage) : Prop where
  header : 0x60 ≤ rom.size.toNat
  names : rom.header.fNameTblOff.toNat + rom.header.fNameTblSize.toNat ≤ rom.size.toNat
  files : rom.header.fatOff.toNat + rom.header.fatSize.toNat ≤ rom.size.toNat
  overlays9 : rom.header.arm9OverlayOff.toNat + rom.header.arm9OverlaySize.toNat ≤ rom.size.toNat
  overlays7 : rom.header.arm7OverlayOff.toNat + rom.header.arm7OverlaySize.toNat ≤ rom.size.toNat

/-- The directory above. -/
def FsNitro.above (fs : FsNitro) (dir : ℕ) : ℕ := dirIndex (fs.fnt dir).parentID

/-- From the directory the parents lead to the root. -/
def FsNitro.Climbs (fs : FsNitro) (dir : ℕ) : Prop :=
  ∃ n, fs.above^[n] dir = 0 ∧ ∀ k < n, fs.above^[k] dir < fs.numDirs

/-- What a lookup needs to stay in range. -/
def FsNitro.InRange (fs : FsNitro) : NitroLookup → Prop
  | .fatRecord addr =>
    fs.fatOff ≤ addr → addr ≤ fs.fatEnd → (addr - fs.fatOff).toNat / 8 < fs.numFiles
  | .fileIdByAddr _ => True
  | .dirName id | .dirParrent id => id &&& 0xF000 = 0xF000 → dirIndex id ≠ fs.numDirs
  | .fileName id | .fileParent id => id &&& 0xF000 ≠ 0xF000 → id.toNat ≠ fs.numFiles
  | .fileSize id | .startAddr id | .endAddr id | .overlay id => id.toNat ≠ fs.numFiles
  | .fullPath id _ => id.toNat ≠ fs.numFiles ∧
    (id.toNat < fs.numFiles → (fs.fat id.toNat).isOverlay = false →
      fs.Climbs (dirIndex (fs.fat id.toNat).parentID))

/-- A file system with tables. -/
structure FsNitro.Ready (fs : FsNitro) : Prop where
  inited : fs.inited = true
  current : fs.currentID < fs.numFiles

/-! ### The range of the lookups -/

section Range

variable {fs : FsNitro}

theorem FsNitro.Ready.opened (hfs : fs.Ready) : ¬ fs.inited = false := by
  rw [hfs.inited]
  decide

theorem isSome_fatAt (i : ℕ) : (fs.fatAt i).isSome ↔ i < fs.numFiles := by
  rw [FsNitro.fatAt]
  split_ifs with h <;> simp [h]

theorem isSome_fntAt (i : ℕ) : (fs.fntAt i).isSome ↔ i < fs.numDirs := by
  rw [FsNitro.fntAt]
  split_ifs with h <;> simp [h]

theorem isSome_fileGetter {α : Type} (invalid : α) (field : FatNitro → α) (id : BitVec 16) :
    (fileGetter fs invalid field id).isSome ↔ id.toNat ≠ fs.numFiles := by
  rw [fileGetter]
  split_ifs with h
  · exact iff_of_true rfl (by omega)
  · rw [Option.isSome_map, isSome_fatAt]
    omega

theorem isSome_namedFile (hfs : fs.Ready) {α : Type} (closed dir invalid : α)
    (field : FatNitro → α) (id : BitVec 16) :
    (if fs.inited = false then some closed
      else if id &&& 0xF000 = 0xF000 then some dir else fileGetter fs invalid field id).isSome ↔
      (id &&& 0xF000 ≠ 0xF000 → id.toNat ≠ fs.numFiles) := by
  rw [if_neg hfs.opened]
  split_ifs with hdir
  · exact iff_of_true rfl fun h => absurd hdir h
  · rw [isSome_fileGetter, forall_prop_of_true hdir]

theorem isSome_sizedFile (hfs : fs.Ready) {α : Type} (closed invalid : α) (field : FatNitro → α)
    (id : BitVec 16) :
    (if fs.inited = false then some closed else fileGetter fs invalid field id).isSome ↔
      id.toNat ≠ fs.numFiles := by
  rw [if_neg hfs.opened, isSome_fileGetter]

theorem isSome_dirGetter (hfs : fs.Ready) {α : Type} (closed file invalid : α)
    (field : FntNitro → α) (id : BitVec 16) :
    (dirGetter fs closed file invalid field id).isSome ↔
      (id &&& 0xF000 = 0xF000 → dirIndex id ≠ fs.numDirs) := by
  rw [dirGetter, if_neg hfs.opened]
  split_ifs with hfile hdirs
  · exact iff_of_true rfl fun h => absurd h hfile
  · exact iff_of_true rfl fun _ => by omega
  · rw [Option.isSome_map, isSome_fntAt, forall_prop_of_true (not_not.mp hfile)]
    omega

theorem isSome_getFATRecord (hfs : fs.Ready) (addr : BitVec 32) :
    (getFATRecord fs addr).isSome ↔
      (fs.fatOff ≤ addr → addr ≤ fs.fatEnd → (addr - fs.fatOff).toNat / 8 < fs.numFiles) := by
  rw [getFATRecord]
  by_cases hin : fs.fatOff ≤ addr ∧ addr ≤ fs.fatEnd
  · have hrange : ¬ (fs.inited = false ∨ addr < fs.fatOff ∨ addr > fs.fatEnd) := by
      rintro (h | h | h)
      · exact hfs.opened h
      · exact BitVec.not_le.mpr h hin.1
      · exact BitVec.not_le.mpr h hin.2
    rw [if_neg hrange, Option.isSome_map, isSome_fatAt, forall_prop_of_true hin.1,
      forall_prop_of_true hin.2]
  · have hrange : fs.inited = false ∨ addr < fs.fatOff ∨ addr > fs.fatEnd := by
      refine .inr ?_
      rw [← BitVec.not_le, gt_iff_lt, ← BitVec.not_le]
      exact Classical.not_and_iff_not_or_not.mp hin
    rw [if_pos hrange]
    exact iff_of_true rfl fun hlow hhigh => absurd ⟨hlow, hhigh⟩ hin

/-! ### The search for an address -/

/-- The entries that a search from `start` on has seen at `pos`. -/
def lookedAt (numFiles start pos : ℕ) : ℕ :=
  if start ≤ pos then pos - start else pos + numFiles - start

/-- A search looks at every entry once. -/
theorem search_returns (hfs : fs.Ready) (addr : BitVec 32) {pos : ℕ} (hpos : pos < fs.numFiles) :
    ∃ found, Returns (searchStep fs addr) pos found ∧ ∀ i ∈ found, i < fs.numFiles := by
  have hcurrent := hfs.current
  induction hleft : fs.numFiles - lookedAt fs.numFiles fs.currentID pos using Nat.strong_induction_on
    generalizing pos with
  | _ left ih =>
    have hat : fs.fatAt pos = some (fs.fat pos) := if_pos hpos
    by_cases hhit : addr ≥ (fs.fat pos).start ∧ addr < (fs.fat pos).finish
    · have hstep : searchStep fs addr pos = some (.inr (some pos)) := by
        rw [searchStep, hat, Option.map_some, if_pos hhit]
      exact ⟨some pos, (returns_stop hstep).mpr rfl, fun i hi => by
        obtain rfl := Option.mem_some_iff.mp hi
        exact hpos⟩
    · obtain ⟨next, hnext⟩ : ∃ next, next = if pos + 1 ≥ fs.numFiles then 0 else pos + 1 := ⟨_, rfl⟩
      by_cases hround : next = fs.currentID
      · have hstep : searchStep fs addr pos = some (.inr none) := by
          rw [searchStep, hat, Option.map_some, if_neg hhit]
          dsimp only
          rw [← hnext, if_pos hround]
        exact ⟨none, (returns_stop hstep).mpr rfl, fun i hi => absurd hi nofun⟩
      · have hstep : searchStep fs addr pos = some (.inl next) := by
          rw [searchStep, hat, Option.map_some, if_neg hhit]
          dsimp only
          rw [← hnext, if_neg hround]
        have hlt : next < fs.numFiles := by
          rw [hnext]
          split_ifs <;> omega
        have hdown : fs.numFiles - lookedAt fs.numFiles fs.currentID next < left := by
          rw [← hleft]
          unfold lookedAt
          split_ifs at hnext ⊢ <;> omega
        obtain ⟨found, hfound, hin⟩ := ih _ hdown hlt rfl
        exact ⟨found, (returns_next hstep).mpr hfound, hin⟩

theorem exists_getFileIdByAddr (hfs : fs.Ready) (addr : BitVec 32) :
    ∃ rounds, (getFileIdByAddr fs addr rounds).isSome := by
  obtain ⟨found, ⟨rounds, hrounds⟩, -⟩ := search_returns hfs addr hfs.current
  refine ⟨rounds, ?_⟩
  rw [getFileIdByAddr, if_neg hfs.opened, hrounds]
  rfl

/-- A search leaves the tables as they are. -/
theorem getFileIdByAddr_eq {fs' : FsNitro} {addr : BitVec 32} {rounds : ℕ}
    {found : Option (BitVec 16 × BitVec 32)} (h : getFileIdByAddr fs addr rounds = some (fs', found)) :
    ∃ current, fs' = { fs with currentID := current } ∧ (fs.Ready → fs'.Ready) := by
  rw [getFileIdByAddr] at h
  split_ifs at h with hinited
  · obtain ⟨rfl, -⟩ := Prod.mk.inj (Option.some.inj h)
    exact ⟨fs.currentID, rfl, id⟩
  · obtain ⟨pos, hpos, h⟩ := Option.map_eq_some_iff.mp h
    cases pos with
    | none =>
      obtain ⟨rfl, -⟩ := Prod.mk.inj h
      exact ⟨fs.currentID, rfl, id⟩
    | some pos =>
      obtain ⟨rfl, -⟩ := Prod.mk.inj h
      refine ⟨pos, rfl, fun hfs => ⟨hfs.inited, ?_⟩⟩
      obtain ⟨found, hfound, hin⟩ := search_returns hfs addr hfs.current
      exact hin pos (hfound.unique ⟨rounds, hpos⟩ ▸ Option.mem_some_self pos)

/-! ### The way to the root -/

theorem returns_root (res : List (BitVec 8)) : Returns (climbStep fs) (res, 0) res :=
  (returns_stop (b := res) rfl).mpr rfl

theorem climbStep_up (res : List (BitVec 8)) {dir : ℕ} (h0 : dir ≠ 0) (hdir : dir < fs.numDirs) :
    climbStep fs (res, dir) =
      some (.inl ((fs.fnt dir).filename ++ delimiter ++ res, fs.above dir)) := by
  simp only [climbStep, if_neg h0, FsNitro.fntAt, if_pos hdir, Option.map_some, FsNitro.above]

theorem climb_returns_iff (res : List (BitVec 8)) (dir : ℕ) :
    (∃ path, Returns (climbStep fs) (res, dir) path) ↔ fs.Climbs dir := by
  constructor
  · rintro ⟨path, n, hn⟩
    induction n generalizing res dir with
    | zero => exact absurd hn.symm (Option.some_ne_none path)
    | succ n ih =>
      by_cases h0 : dir = 0
      · exact ⟨0, h0, fun k hk => absurd hk (Nat.not_lt_zero k)⟩
      · by_cases hdir : dir < fs.numDirs
        · rw [runRounds, climbStep_up res h0 hdir] at hn
          obtain ⟨m, hend, hin⟩ := ih _ _ hn
          refine ⟨m + 1, hend, fun k hk => ?_⟩
          cases k with
          | zero => exact hdir
          | succ k => exact hin k (by omega)
        · have hstuck : climbStep fs (res, dir) = none := by
            simp only [climbStep, if_neg h0, FsNitro.fntAt, if_neg hdir, Option.map_none]
          rw [runRounds, hstuck] at hn
          exact absurd hn.symm (Option.some_ne_none path)
  · rintro ⟨n, hend, hin⟩
    induction n generalizing res dir with
    | zero =>
      obtain rfl : dir = 0 := hend
      exact ⟨res, returns_root res⟩
    | succ n ih =>
      by_cases h0 : dir = 0
      · subst h0
        exact ⟨res, returns_root res⟩
      · obtain ⟨path, hpath⟩ := ih _ _ hend fun k hk => hin (k + 1) (by omega)
        exact ⟨path, (returns_next (climbStep_up res h0 (hin 0 (Nat.succ_pos n)))).mpr hpath⟩

theorem exists_filePath_iff (entry : FatNitro) (addRoot : Bool) :
    (∃ rounds, (filePath fs entry addRoot rounds).isSome) ↔
      (entry.isOverlay = false → fs.Climbs (dirIndex entry.parentID)) := by
  simp only [filePath]
  by_cases hoverlay : entry.isOverlay = true
  · simp only [if_pos hoverlay]
    exact iff_of_true ⟨0, rfl⟩ fun h => absurd (hoverlay.symm.trans h) (by decide)
  · simp only [if_neg hoverlay, Option.isSome_map]
    rw [forall_prop_of_true (Bool.eq_false_of_not_eq_true hoverlay), ← climb_returns_iff []]
    simp only [Option.isSome_iff_exists, Returns]
    exact exists_comm

theorem exists_getFullPath_iff (hfs : fs.Ready) (id : BitVec 16) (addRoot : Bool) :
    (∃ rounds, (getFullPathByFileID fs id addRoot rounds).isSome) ↔
      fs.InRange (.fullPath id addRoot) := by
  simp only [getFullPathByFileID, if_neg hfs.opened, FsNitro.InRange]
  rcases Nat.lt_trichotomy id.toNat fs.numFiles with hin | hend | hover
  · have hat : fs.fatAt id.toNat = some (fs.fat id.toNat) := if_pos hin
    simp only [if_neg (Nat.lt_asymm hin), hat, Option.bind_some]
    rw [exists_filePath_iff, and_iff_right (Nat.ne_of_lt hin), forall_prop_of_true hin]
  · have hat : fs.fatAt id.toNat = none := if_neg (by omega)
    simp only [if_neg (show ¬ id.toNat > fs.numFiles by omega), hat, Option.bind_none]
    exact iff_of_false (fun h => absurd h.choose_spec (by decide)) fun h => h.1 hend
  · simp only [if_pos hover]
    exact iff_of_true ⟨0, rfl⟩ ⟨by omega, fun h => absurd h (by omega)⟩

/-- When a lookup ends with all its accesses in range. -/
theorem answers_iff (hfs : fs.Ready) (q : NitroLookup) : fs.Answers q ↔ fs.InRange q := by
  cases q with
  | fatRecord addr => exact isSome_getFATRecord hfs addr
  | fileIdByAddr addr => exact iff_of_true (exists_getFileIdByAddr hfs addr) trivial
  | dirName id => exact isSome_dirGetter hfs _ _ _ _ id
  | dirParrent id => exact isSome_dirGetter hfs _ _ _ _ id
  | fileName id => exact isSome_namedFile hfs _ _ _ _ id
  | fileParent id =>
    have h := isSome_namedFile hfs 0xFFFF 0xFFFF 0xFFFF FatNitro.parentID id
    rwa [← ite_or] at h
  | fileSize id => exact isSome_sizedFile hfs _ _ _ id
  | startAddr id => exact isSome_sizedFile hfs _ _ _ id
  | endAddr id => exact isSome_sizedFile hfs _ _ _ id
  | overlay id => exact isSome_fileGetter _ _ id
  | fullPath id addRoot => exact exists_getFullPath_iff hfs id addRoot

theorem searched_eq {fs' : FsNitro} (h : Searched fs fs') (hfs : fs.Ready) :
    fs'.Ready ∧ ∃ current, fs' = { fs with currentID := current } := by
  induction h with
  | start => exact ⟨hfs, fs.currentID, rfl⟩
  | search h hfound ih =>
    obtain ⟨hready, current, rfl⟩ := ih
    obtain ⟨current', rfl, hkeep⟩ := getFileIdByAddr_eq hfound
    exact ⟨hkeep hready, current', rfl⟩

/-- However many searches came before it. -/
theorem searched_answers_iff {fs' : FsNitro} (h : Searched fs fs') (hfs : fs.Ready)
    (q : NitroLookup) : fs'.Answers q ↔ fs.InRange q := by
  obtain ⟨hready, current, rfl⟩ := searched_eq h hfs
  rw [answers_iff hready]
  cases q <;> rfl

end Range

/-! ### The constructor -/

section Constructor

variable {rom : RomImage} {fs : FsNitro} {rounds : ℕ}

theorem fsNitro_cases (h : fsNitro rom rounds = some fs) :
    fs = noTables rom ∨ rom.header.numFiles ≠ 0 ∧ ∃ numDirs w, startWalk rom numDirs = some w ∧
      ∃ w', Returns (walkStep rom numDirs) w w' ∧ fs = withTables rom numDirs w' := by
  simp only [fsNitro] at h
  split_ifs at h with hsize hearly
  · exact .inl (Option.some.inj h).symm
  · obtain ⟨numDirs, -, h⟩ := Option.bind_eq_some_iff.mp h
    split_ifs at h with hnone
    · exact .inl (Option.some.inj h).symm
    · obtain ⟨w, hw, h⟩ := Option.bind_eq_some_iff.mp h
      obtain ⟨w', hw', h⟩ := Option.bind_eq_some_iff.mp h
      exact .inr ⟨fun h0 => hnone (.inl h0), _, w, hw, w', ⟨rounds, hw'⟩, (Option.some.inj h).symm⟩

theorem ready_withTables (h : rom.header.numFiles ≠ 0) (numDirs : ℕ) (w : NitroWalk) :
    (withTables rom numDirs w).Ready := ⟨rfl, Nat.pos_of_ne_zero h⟩

/-- The record at the end of the file table is one too many, and without tables there is nothing
that entry 0 could be read from. -/
theorem exists_unanswered (hrom : rom.HeaderInside) (hfs : Constructs rom fs) :
    ∃ q, ¬ fs.Answers q := by
  obtain ⟨rounds, h⟩ := hfs
  rcases fsNitro_cases h with rfl | ⟨hfiles, numDirs, -, -, w, -, rfl⟩
  · refine ⟨.overlay 0, fun hanswers => ?_⟩
    have h0 : (fileGetter (noTables rom) false FatNitro.isOverlay 0).isSome := hanswers
    exact (isSome_fileGetter _ _ _).mp h0 rfl
  · refine ⟨.fatRecord (rom.header.fatOff + rom.header.fatSize), ?_⟩
    rw [answers_iff (ready_withTables hfiles numDirs w)]
    intro hin
    have hwrap := hrom.files
    have hlt := rom.size.isLt
    have hsum : (rom.header.fatOff + rom.header.fatSize).toNat =
        rom.header.fatOff.toNat + rom.header.fatSize.toNat := by
      rw [BitVec.toNat_add, Nat.mod_eq_of_lt (by omega)]
    have hlow : rom.header.fatOff ≤ rom.header.fatOff + rom.header.fatSize := by
      rw [BitVec.le_def, hsum]
      exact Nat.le_add_right ..
    have hid := hin hlow (BitVec.le_refl _)
    change (rom.header.fatOff + rom.header.fatSize - rom.header.fatOff).toNat / 8 <
      rom.header.fatSize.toNat / 8 at hid
    rw [BitVec.add_comm, BitVec.add_sub_cancel] at hid
    exact Nat.lt_irrefl _ hid

theorem not_robust (rom : RomImage) (hrom : rom.HeaderInside) : ¬ Robust rom := by
  rintro ⟨fs, hfs, hlookups⟩
  obtain ⟨q, hq⟩ := exists_unanswered hrom hfs
  exact hq (hlookups fs .start q)

/-- An image of nothing but a header. -/
theorem headerOnly_not_robust : ¬ Robust ⟨0x60, fun _ => 0⟩ :=
  not_robust _ (by constructor <;> decide)

/-- An image with one file. -/
def smallRom : RomImage where
  size := 0x8018
  byte a := (List.lookup a [(0x41, 0x80), (0x44, 0x0B), (0x48, 0x10), (0x49, 0x80), (0x4C, 0x08),
    (0x8000, 0x08), (0x8006, 0x01), (0x8008, 0x01), (0x8009, 0x61),
    (0x8010, 0x18), (0x8011, 0x80), (0x8014, 0x18), (0x8015, 0x80)]).getD 0

theorem smallRom_headerInside : smallRom.HeaderInside := by
  constructor <;> decide

/-- Its file table is loaded, and the record at the end of it is looked up outside. -/
theorem smallRom_not_robust :
    smallRom.HeaderInside ∧ (fsNitro smallRom 2).isSome ∧
      ((fsNitro smallRom 2).bind fun fs => getFATRecord fs fs.fatEnd) = none ∧ ¬ Robust smallRom := by
  refine ⟨smallRom_headerInside, by decide, by decide, ?_⟩
  rintro ⟨fs, hfs, hlookups⟩
  obtain ⟨q, hq⟩ := exists_unanswered smallRom_headerInside hfs
  exact hq (hlookups fs .start q)

end Constructor

end Desmume.Card
