import Desmume.Library.ByteFile
import Desmume.Library.SignedWord

/-! `EMUFILE_MEMORY`: a byte stream over a vector, with the 32-bit arithmetic of its position
and length. A result of `none` stands for an access that leaves the vector or an exception. -/

namespace Desmume.SaveState
open Library

abbrev Byte := BitVec 8

structure EmufileMemory where
  vec : List Byte
  pos : ℤ
  len : ℤ
  failbit : Bool
  deriving DecidableEq

inductive SeekOrigin where
  | set
  | cur
  | fromEnd

/-- The `n` bytes at `buf()+off`. -/
def loadBytes (vec : List Byte) (off : ℤ) (n : ℕ) : Option (List Byte) :=
  if 0 ≤ off ∧ off + n ≤ vec.length then some ((vec.drop off.toNat).take n) else none

/-- `memcpy(buf()+off, bs, ...)`. -/
def storeBytes (vec : List Byte) (off : ℤ) (bs : List Byte) : Option (List Byte) :=
  if 0 ≤ off ∧ off + bs.length ≤ vec.length then
    some (vec.take off.toNat ++ bs ++ vec.drop (off.toNat + bs.length))
  else none

namespace EmufileMemory

/-- The constructor over an existing vector or buffer. -/
def ofUnderlying (underlying : List Byte) : EmufileMemory :=
  ⟨underlying, 0, s32 underlying.length, false⟩

/-- The constructor that preallocates; the one without arguments has the same contents with
`amt = 0`. -/
def preallocate (amt : ℕ) : EmufileMemory := ⟨List.replicate amt 0, 0, s32 amt, false⟩

variable (f : EmufileMemory)

def reserve (amt : ℕ) : EmufileMemory :=
  if f.vec.length < amt then { f with vec := f.vec.takeD amt 0 } else f

/-- The effect of `buf()` on the stream. -/
def buf : EmufileMemory := if f.len = 0 then f.reserve 1 else f

/-- `_fread`, with the bytes it copies. -/
def fread (bytes : ℕ) : Option (List Byte × EmufileMemory) :=
  let remain := u32 (s32 (f.len - f.pos))
  let todo := min remain (bytes % 2 ^ 32)
  if f.len = 0 then some ([], { f with failbit := true })
  else
    (loadBytes f.vec f.pos todo).map fun data =>
      (data, { f with
        pos := s32 (f.pos + todo)
        failbit := f.failbit || decide (todo < bytes) })

/-- The cells of the vector that `_fread` touches. -/
def freadCells (bytes : ℕ) : List ℕ :=
  if f.len = 0 then []
  else List.range' f.pos.toNat (min (u32 (s32 (f.len - f.pos))) (bytes % 2 ^ 32))

def fwrite (bs : List Byte) : Option EmufileMemory :=
  let end_ := s32 (f.pos + s32 bs.length)
  let g := (f.reserve (u32 end_)).buf
  (storeBytes g.vec g.pos bs).map fun vec =>
    { g with vec := vec, pos := end_, len := max end_ g.len }

def fputc (c : ℤ) : Option EmufileMemory := f.fwrite [BitVec.ofInt 8 c]

/-- The position that `fseek` stores. -/
def seekPos (offset : ℤ) : SeekOrigin → ℤ
  | .set => offset
  | .cur => s32 (f.pos + offset)
  | .fromEnd => s32 (f.len + offset)

def fseek (offset : ℤ) (origin : SeekOrigin) : EmufileMemory :=
  let pos := f.seekPos offset origin
  { f with pos := pos }.reserve (u32 pos)

def ftell : ℤ := f.pos

def size : ℤ := f.len

def truncate (length : ℤ) : Option EmufileMemory :=
  if length < 0 then none
  else some { f with
    vec := f.vec.takeD length.toNat 0
    len := length
    pos := if f.pos > length then length else f.pos }

end EmufileMemory

/-- The operations a client of the stream issues. -/
inductive EmufileOp where
  | fwrite (bs : List Byte)
  | fputc (c : ℤ)
  | fread (bytes : ℕ)
  | fseek (offset : ℤ) (origin : SeekOrigin)
  | ftell
  | truncate (length : ℤ)
  | size

/-- What an operation returns: nothing, a number, or the cells a read touched and the bytes it
copied out. -/
inductive Response where
  | done
  | int (x : ℤ)
  | read (cells : List ℕ) (data : List Byte)
  deriving DecidableEq

def EmufileMemory.step (f : EmufileMemory) : EmufileOp → Option (Response × EmufileMemory)
  | .fwrite bs => (f.fwrite bs).map fun g => (.done, g)
  | .fputc c => (f.fputc c).map fun g => (.int 0, g)
  | .fread n => (f.fread n).map fun r => (.read (f.freadCells n) r.1, r.2)
  | .fseek offset origin => some (.int 0, f.fseek offset origin)
  | .ftell => some (.int f.ftell, f)
  | .truncate length => (f.truncate length).map fun g => (.done, g)
  | .size => some (.int f.size, f)

end Desmume.SaveState
