import Desmume.Library.FlatMemory
import Desmume.Library.LittleEndian
import Desmume.SaveState.Emufile

/-! Tables of saved variables: the writer `SubWrite`, the reader `ReadStateChunk` and the chunk
header, on a host with little-endian byte order. -/

namespace Desmume.SaveState
open Library

abbrev Memory := ℕ → Byte

/-- A row of a table: the four characters of its descriptor, the size and number of the
elements, and the address of the variable, which is zero in the row that ends a table. -/
structure SFormat where
  desc : List Byte
  size : BitVec 32
  count : BitVec 32
  v : ℕ
  desc_length : desc.length = 4
  deriving DecidableEq

namespace EmufileMemory

variable (f : EmufileMemory)

def write32le (b : BitVec 32) : Option EmufileMemory := f.fwrite (leBytes 4 b.toNat)

/-- `read32le`, with no value when fewer than four bytes were left. -/
def read32le : Option (Option (BitVec 32) × EmufileMemory) :=
  (f.fread 4).map fun r =>
    (if r.1.length < 4 then none else some (BitVec.ofNat 32 (ofLeBytes r.1)), r.2)

end EmufileMemory

/-- What `SubWrite` writes for a row. -/
def subWriteEntry (mem : Memory) (os : EmufileMemory) (sf : SFormat) : Option EmufileMemory := do
  let os ← os.fwrite sf.desc
  let os ← os.write32le sf.size
  let os ← os.write32le sf.count
  let bytes := (sf.size * sf.count).toInt
  if bytes < 0 then none else os.fwrite (load mem sf.v bytes.toNat)

/-- `SubWrite`, from a row on and with the count accumulated so far; without a stream it only
counts. -/
def subWrite (mem : Memory) :
    Option EmufileMemory → List SFormat → BitVec 32 → Option (BitVec 32 × Option EmufileMemory)
  | os, [], acc => some (acc, os)
  | os, sf :: rest, acc =>
    if sf.v = 0 then some (acc, os)
    else
      let acc := acc + (4 + 4 + 4) + sf.count * sf.size
      match os with
      | none => subWrite mem none rest acc
      | some os => do
        let os ← subWriteEntry mem os sf
        subWrite mem (some os) rest acc

/-- `savestate_WriteChunk` over a table. -/
def savestateWriteChunk (mem : Memory) (os : EmufileMemory) (type : BitVec 32)
    (sf : Option (List SFormat)) : Option (BitVec 32 × Option EmufileMemory) := do
  let os ← os.write32le type
  match sf with
  | none => return (4, some os)
  | some sf =>
    let (bsize, _) ← subWrite mem none sf 0#32
    let os ← os.write32le bsize
    let (written, os) ← subWrite mem (some os) sf 0#32
    if written = 0#32 then return (8, os) else return (bsize + 8, os)

/-- The loop of `CheckS` without a guess, from row `i` on. -/
def checkFrom (size count : BitVec 32) (desc : List Byte) : List SFormat → ℕ → Option ℕ
  | [], _ => none
  | sf :: rest, i =>
    if sf.v = 0 then none
    else if desc = sf.desc then
      if sf.size ≠ size ∨ sf.count ≠ count then none else some i
    else checkFrom size count desc rest (i + 1)

/-- `CheckS`: rows are named by their index. -/
def checkS (guess : Option ℕ) (table : List SFormat) (size count : BitVec 32)
    (desc : List Byte) : Option ℕ :=
  match guess with
  | none => checkFrom size count desc table 0
  | some i =>
    match table[i]? with
    | none => none
    | some sf =>
      if sf.v = 0 then none
      else if desc = sf.desc then
        if sf.size ≠ size ∨ sf.count ≠ count then none else some i
      else checkFrom size count desc table 0

/-- The stream, the memory and the guess of `ReadStateChunk` between two rows. -/
structure ChunkReader where
  is : EmufileMemory
  mem : Memory
  guessSF : Option ℕ

/-- One round of the loop of `ReadStateChunk`; `false` when it gives up. -/
def readEntry (table : List SFormat) (r : ChunkReader) : Option (Bool × ChunkReader) := do
  let (toa, is) ← r.is.fread 4
  if is.failbit then return (false, { r with is })
  let (sz?, is) ← is.read32le
  let some sz := sz? | return (false, { r with is })
  let (count?, is) ← is.read32le
  let some count := count? | return (false, { r with is })
  let bytes := sz * count
  match checkS r.guessSF table sz count toa with
  | some i =>
    let (data, is) ← is.fread bytes.toNat
    let v := (table[i]?.map SFormat.v).getD 0
    return (true, ⟨is, store r.mem v data, some (i + 1)⟩)
  | none => return (true, ⟨is.fseek bytes.toInt .cur, r.mem, none⟩)

/-- The loop of `ReadStateChunk`, for `fuel` rounds at most. -/
def readStateChunkLoop (table : List SFormat) (stop : ℤ) :
    ℕ → ChunkReader → Option (Bool × ChunkReader)
  | 0, _ => none
  | fuel + 1, r =>
    if r.is.ftell < stop then do
      let (ok, r) ← readEntry table r
      if ok then readStateChunkLoop table stop fuel r else return (false, r)
    else some (true, r)

def readStateChunk (fuel : ℕ) (is : EmufileMemory) (mem : Memory) (table : List SFormat)
    (size : ℤ) : Option (Bool × ChunkReader) :=
  readStateChunkLoop table (s32 (is.ftell + size)) fuel ⟨is, mem, none⟩

end Desmume.SaveState
