import Desmume.Library.BitFields
import Desmume.Library.FlatMemory
import Desmume.Library.PartialRun

/-! The reads of the game card in slot 1: the ROM component that keeps an address for three
operations, under the protocol component and the two retail cards that start it. -/

namespace Desmume.Card
open Library

/-- What was loaded. `headerCardSize` is the shift that the header of the ROM gives. -/
structure GameInfo where
  romsize : BitVec 32
  headerCardSize : BitVec 8
  romdata : ℕ → BitVec 8
  secureArea : ℕ → BitVec 8

namespace GameInfo

variable (g : GameInfo)

/-- The end of `loadROM`: a size that is too small for the file is raised, if one of the sizes of the
list is large enough. -/
def cardSize : BitVec 32 :=
  let size := 0x20000#32 <<< g.headerCardSize.toNat
  if size < g.romsize then
    match ((List.range 15).filter (g.headerCardSize.toNat ≤ ·)).find?
        fun i => g.romsize ≤ 0x20000#32 <<< i with
    | some i => 0x20000#32 <<< i
    | none => size
  else size

def mask : BitVec 32 :=
  [1, 2, 4, 8, 16].foldl (fun mask i => mask ||| mask >>> i) (g.cardSize - 1)

/-- The four bytes lie in the ROM. -/
def Inside (pos : ℕ) : Prop := pos + 4 ≤ g.romsize.toNat

instance (pos : ℕ) : Decidable (g.Inside pos) := inferInstanceAs (Decidable (_ ≤ _))

def word (pos : ℕ) : BitVec 32 := readWord 4 g.romdata pos

/-- `readROM` of a ROM in memory. The check ends the process; an address that it lets pass because the
sum wraps is read outside of the buffer, and the model ends there as well. -/
def readROM (pos : BitVec 32) : Option (BitVec 32) :=
  if pos + 4 > g.romsize then none
  else if g.Inside pos.toNat then some (g.word pos.toNat) else none

end GameInfo

/-- `eSlot1Operation`. -/
inductive Slot1Operation where
  | readHeader | dummy9F | chipId90 | chipId1x | secureAreaLoad | b7Read | chipIdB8 | unknown
  deriving DecidableEq

/-- `Slot1Comp_Rom`. The last two are not in the source: the address of the last start, and the words
read since. -/
structure Slot1CompRom where
  operation : Slot1Operation
  address : BitVec 32
  started : BitVec 32
  words : ℕ
  deriving DecidableEq

/-- A read: the address that it hands to `readROM`, the index that it reads the secure area at, and the
word, if it returns. -/
structure RomRead where
  asked : Option (BitVec 32)
  secure : Option ℕ
  value : Option (BitVec 32)
  next : Slot1CompRom

/-- Four bytes on, within the block of 4 KB. -/
def nextInBlock (address : BitVec 32) : BitVec 32 :=
  (address &&& ~~~0xFFF#32) + ((address + 4) &&& 0xFFF#32)

/-- The two steps in front of every B7 read. -/
def redirect (g : GameInfo) (address : BitVec 32) : BitVec 32 :=
  let address := address &&& g.mask
  if address < 0x8000 then 0x8000 + (address &&& 0x1FF#32) else address

namespace Slot1CompRom

def start (operation : Slot1Operation) (addr : BitVec 32) : Slot1CompRom :=
  ⟨operation, addr, addr, 0⟩

variable (g : GameInfo) (c : Slot1CompRom)

def read : RomRead :=
  match c.operation with
  | .readHeader =>
    ⟨some c.address, none, g.readROM c.address,
      { c with address := (c.address + 4) &&& 0xFFF#32, words := c.words + 1 }⟩
  | .secureAreaLoad =>
    let secureAreaAddress := ((c.address - 0x4000) &&& 0x3FFF#32).toNat
    ⟨none, some secureAreaAddress, some (readWord 4 g.secureArea secureAreaAddress),
      { c with address := nextInBlock c.address, words := c.words + 1 }⟩
  | .b7Read =>
    let address := redirect g c.address
    if address + 4 > g.romsize then
      ⟨none, none, some 0xFFFFFFFF, { c with address, words := c.words + 1 }⟩
    else
      ⟨some address, none, g.readROM address,
        { c with address := nextInBlock address, words := c.words + 1 }⟩
  | _ => ⟨none, none, some 0, { c with words := c.words + 1 }⟩

end Slot1CompRom

/-! ### The card -/

/-- `eCardMode`, without `KEY2`, which nothing sets. -/
inductive CardMode where
  | raw | key1 | normal
  deriving DecidableEq

/-- The bytes of a `GC_Command`. -/
abbrev GcCommand := Fin 8 → BitVec 8

/-- The bytes as one number, the first of them highest. -/
def GcCommand.cmd64 (c : GcCommand) : BitVec 64 := c 0 ++ c 1 ++ c 2 ++ c 3 ++ c 4 ++ c 5 ++ c 6 ++ c 7

/-- `Slot1Comp_Protocol`. -/
structure Slot1CompProtocol where
  mode : CardMode
  operation : Slot1Operation
  command : GcCommand
  address : BitVec 32

/-- What `Slot1_Retail_NAND` has of its own. -/
structure NandState where
  mode : BitVec 8
  handleSave : Bool
  saveStart : BitVec 32
  saveAdr : BitVec 32
  subAdr : BitVec 32

/-- `Slot1_Retail_MCROM`, and `Slot1_Retail_NAND` with the rest of its state. -/
structure Slot1Card where
  protocol : Slot1CompProtocol
  rom : Slot1CompRom
  nand : Option NandState

/-- What the card is in: the ROM, the `KEY1` cipher and the chip id. -/
structure CardEnv where
  game : GameInfo
  key1Decrypt : GcCommand → GcCommand
  chipId : BitVec 32

namespace Slot1Card

variable (e : CardEnv) (s : Slot1Card)

/-- The constructor and `connect`: nothing has been read yet. A boot without the BIOS then sets the
mode. -/
def connect (mode : CardMode) (rom : Slot1CompRom) (nand : Option NandState) : Slot1Card :=
  ⟨⟨mode, .dummy9F, fun i => if i = 0 then 0x9F else 0, 0⟩, rom, nand⟩

/-- Of the NAND card: the address as the command has it. -/
def addressFromProtocol : BitVec 32 :=
  s.protocol.command 1 ++ s.protocol.command 2 ++ s.protocol.command 3 ++ s.protocol.command 4

def setSaveStart (n : NandState) : NandState :=
  { n with
    saveStart := s.addressFromProtocol
    saveAdr := (s.addressFromProtocol &&& e.game.mask) - n.subAdr }

/-- A start that is already set leaves the cursor alone. -/
def moveSaveStart (n : NandState) : NandState :=
  if s.addressFromProtocol ≠ n.saveStart then s.setSaveStart e n else n

/-- The commands that the NAND card takes itself. -/
def nandCommand (operation : Slot1Operation) (n : NandState) : Slot1Card :=
  let cmd := s.protocol.command 0
  if cmd = 0x94 then { s with nand := some { n with mode := cmd } }
  else if cmd = 0x81 then
    { s with nand := some { s.moveSaveStart e { n with mode := cmd } with handleSave := true } }
  else if cmd = 0x84 ∨ cmd = 0x85 then { s with nand := some { n with mode := cmd } }
  else if cmd = 0x8B then { s with nand := some { n with mode := cmd, handleSave := false } }
  else if cmd = 0xB7 then
    if n.handleSave then { s with nand := some (s.moveSaveStart e { n with mode := cmd }) }
    else { s with rom := .start operation s.addressFromProtocol }
  else if cmd = 0xB2 then
    { s with nand := some { s.setSaveStart e { n with mode := cmd } with handleSave := true } }
  else s

/-- `slot1client_startOperation` of the two cards. -/
def startOperation (operation : Slot1Operation) : Slot1Card :=
  match s.nand with
  | none => { s with rom := .start operation s.protocol.address }
  | some n =>
    match operation with
    | .readHeader => { s with rom := .start operation s.addressFromProtocol }
    | .secureAreaLoad => { s with rom := .start operation s.protocol.address }
    | _ => s.nandCommand e operation n

def setOperation (operation : Slot1Operation) : Slot1Card :=
  { s with protocol := { s.protocol with operation } }

def setMode (mode : CardMode) : Slot1Card := { s with protocol := { s.protocol with mode } }

def setAddress (address : BitVec 32) : Slot1Card := { s with protocol := { s.protocol with address } }

def writeCommandRaw (command : GcCommand) : Slot1Card :=
  let cmd := command 0
  if cmd = 0x9F then s.setOperation .dummy9F
  else if cmd = 0x90 then s.setOperation .chipId90
  else if cmd = 0x3C then s.setMode .key1
  else if cmd = 0x00 then (s.setOperation .readHeader).startOperation e .readHeader
  else s

/-- The argument is the command as it comes over the bus; the decrypted one is not stored. -/
def writeCommandKey1 (command : GcCommand) : Slot1Card :=
  let command := e.key1Decrypt command
  let cmd := command 0 &&& 0xF0#8
  if cmd = 0x10 then s.setOperation .chipId1x
  else if cmd = 0x20 then
    let blocknumber := (command.cmd64 >>> 44).setWidth 32 &&& 0xFFFF#32
    ((s.setOperation .secureAreaLoad).setAddress (blocknumber * 0x1000)).startOperation e .secureAreaLoad
  else if cmd = 0xA0 then s.setMode .normal
  else s

def writeCommandNormal (command : GcCommand) : Slot1Card :=
  let cmd := command 0
  if cmd = 0xB7 then
    let address := (command.cmd64 >>> 24).setWidth 32
    ((s.setOperation .b7Read).setAddress address).startOperation e .b7Read
  else if cmd = 0xB8 then s.setOperation .chipIdB8
  else (s.setOperation .unknown).startOperation e .unknown

def writeCommand (command : GcCommand) : Slot1Card :=
  let s := { s with protocol := { s.protocol with command, address := 0 } }
  match s.protocol.mode with
  | .raw => s.writeCommandRaw e command
  | .key1 => s.writeCommandKey1 e command
  | .normal => s.writeCommandNormal e command

/-- The status that the NAND card gives for `0xD6`. -/
def nandStatus (mode : BitVec 8) : BitVec 32 :=
  if mode = 0x84 then 0x20202020
  else if mode = 0x85 then 0x20202020#32 ||| 0x10101010#32
  else if mode = 0x8B then 0x60606060#32 ||| 0x10101010#32
  else if mode = 0xB2 then 0x20202020
  else 0x60606060

/-- A read of the ROM component, which may end the process. -/
def readRom : Option (BitVec 32 × Slot1Card) :=
  (s.rom.read e.game).value.map fun value => (value, { s with rom := (s.rom.read e.game).next })

/-- `slot1client_read_GCDATAIN` of the NAND card. `saved` is what the save device has at the cursor. -/
def nandRead (n : NandState) (saved : BitVec 32) : Option (BitVec 32 × Slot1Card) :=
  if s.protocol.operation = .readHeader ∨ s.protocol.operation = .secureAreaLoad then s.readRom e
  else
    let cmd := s.protocol.command 0
    if cmd = 0x94 then some (0, { s with nand := some { n with mode := 0 } })
    else if cmd = 0xB7 then
      if n.handleSave then some (saved, { s with nand := some { n with saveAdr := n.saveAdr + 4 } })
      else s.readRom e
    else if cmd = 0xD6 then some (nandStatus n.mode, s)
    else some (0, s)

/-- `read_GCDATAIN`: the word, unless the process ends. -/
def readGcDataIn (saved : BitVec 32) : Option (BitVec 32 × Slot1Card) :=
  match s.protocol.operation with
  | .dummy9F => some (0xFFFFFFFF, s)
  | .chipId1x | .chipId90 | .chipIdB8 => some (e.chipId, s)
  | _ =>
    match s.nand with
    | none => s.readRom e
    | some n => s.nandRead e n saved

/-- `write_GCDATAIN`: only the page write of the NAND card moves its cursor. -/
def writeGcDataIn : Slot1Card :=
  match s.nand with
  | none => s
  | some n =>
    if s.protocol.operation = .unknown ∧ s.protocol.command 0 = 0x81 then
      { s with nand := some { n with saveAdr := n.saveAdr + 4 } }
    else s

/-- A read of the card is one of the ROM component. -/
def ReadsRom : Prop :=
  match s.protocol.operation with
  | .readHeader | .secureAreaLoad => True
  | .b7Read | .unknown =>
    match s.nand with
    | none => True
    | some n => s.protocol.command 0 = 0xB7 ∧ n.handleSave = false
  | _ => False

end Slot1Card

/-- What the guest does on the card bus. -/
inductive Slot1Op where
  | command (command : GcCommand)
  | readData (saved : BitVec 32)
  | writeData

def slot1Step (e : CardEnv) (s : Slot1Card) : Slot1Op → Option Slot1Card
  | .command command => some (s.writeCommand e command)
  | .readData saved => (s.readGcDataIn e saved).map Prod.snd
  | .writeData => some s.writeGcDataIn

/-! ### What the reads are to be -/

section Spec

variable (g : GameInfo) (start : BitVec 32) (k : ℕ)

/-- The address of a word of the header. -/
def headerAddress : ℕ := if k = 0 then start.toNat else (start.toNat + 4 * k) % 0x1000

/-- The start masked to the card size, redirected when it is below `0x8000`. -/
def b7Start : ℕ :=
  let m := (start &&& g.mask).toNat
  if m < 0x8000 then 0x8000 + m % 0x200 else m

/-- The address of a word, wrapped within the block. -/
def b7Address : ℕ := b7Start g start / 0x1000 * 0x1000 + (b7Start g start + 4 * k) % 0x1000

def b7Word : BitVec 32 :=
  if g.Inside (b7Address g start k) then g.word (b7Address g start k) else 0xFFFFFFFF

variable (c : Slot1CompRom)

/-- A read as it should be. -/
structure ReadLaw : Prop where
  rom : ∀ pos, (c.read g).asked = some pos → g.Inside pos.toNat
  secure : ∀ i, (c.read g).secure = some i → i + 4 ≤ 0x4000
  b7 : c.operation = .b7Read → (c.read g).value = some (b7Word g c.started c.words)

/-- The four bytes end behind the address space, and the wrapped end is in the ROM. -/
def WrapsInto (pos : ℕ) : Prop := 2 ^ 32 ≤ pos + 4 ∧ pos + 4 ≤ 2 ^ 32 + g.romsize.toNat

instance (pos : ℕ) : Decidable (WrapsInto g pos) := inferInstanceAs (Decidable (_ ∧ _))

/-- A B7 transfer that has not left the ROM must not be at the end of the address space; one that has
left it must not have come back to it. -/
def B7Stays : Prop :=
  if ∀ j < k, g.Inside (b7Address g start j) then ¬ WrapsInto g (b7Address g start k)
  else g.Inside (b7Address g start k) → g.word (b7Address g start k) = 0xFFFFFFFF

def ReadStays : Prop :=
  match c.operation with
  | .readHeader => g.Inside (headerAddress c.started c.words)
  | .b7Read => B7Stays g c.started c.words
  | _ => True

end Spec

/-! ### The component -/

section Component

variable {g : GameInfo} {start address : BitVec 32} {k : ℕ} {c : Slot1CompRom}

theorem cardSize_cases (g : GameInfo) :
    (∃ n < 15, g.cardSize = 0x20000#32 <<< n) ∨ g.cardSize = 0 := by
  have hsize : (∃ n < 15, 0x20000#32 <<< g.headerCardSize.toNat = 0x20000#32 <<< n) ∨
      0x20000#32 <<< g.headerCardSize.toNat = 0 := by
    rcases Nat.lt_or_ge g.headerCardSize.toNat 15 with hlt | hge
    · exact Or.inl ⟨_, hlt, rfl⟩
    · refine Or.inr (BitVec.eq_of_toNat_eq ?_)
      obtain ⟨d, hd⟩ := Nat.exists_eq_add_of_le hge
      rw [BitVec.toNat_shiftLeft, hd, Nat.shiftLeft_add, Nat.shiftLeft_eq, Nat.shiftLeft_eq]
      exact Nat.mod_eq_zero_of_dvd (Dvd.dvd.mul_right (by decide) _)
  rw [GameInfo.cardSize]
  split_ifs
  · split
    · rename_i i hfind
      have hmem := List.mem_filter.mp (List.mem_of_find?_eq_some hfind)
      exact Or.inl ⟨i, List.mem_range.mp hmem.1, rfl⟩
    · exact hsize
  · exact hsize

/-- The mask is one of the low bits, and of 17 of them at least. -/
theorem mask_eq (g : GameInfo) : ∃ n, 17 ≤ n ∧ n ≤ 32 ∧ g.mask.toNat = 2 ^ n - 1 := by
  rcases cardSize_cases g with ⟨n, hn, hsize⟩ | hsize
  · have hall : ∀ m : Fin 15, ([1, 2, 4, 8, 16].foldl (fun mask i => mask ||| mask >>> i)
        (0x20000#32 <<< m.val - 1)).toNat = 2 ^ (17 + m.val) - 1 := by
      decide
    exact ⟨17 + n, by omega, by omega, by rw [GameInfo.mask, hsize]; exact hall ⟨n, hn⟩⟩
  · exact ⟨32, by decide, by decide, by rw [GameInfo.mask, hsize]; rfl⟩

theorem toNat_nextInBlock (address : BitVec 32) : (nextInBlock address).toNat =
    address.toNat / 0x1000 * 0x1000 + (address.toNat + 4) % 0x1000 := by
  have hblock : (address &&& ~~~0xFFF#32).toNat = address.toNat / 0x1000 * 0x1000 := by
    have hmask : (~~~0xFFF#32).toNat = 2 ^ 32 - 2 ^ 12 := by
      decide
    rw [BitVec.toNat_and, and_rangeMask _ (by decide) hmask]
    omega
  have hlow : ((address + 4) &&& 0xFFF#32).toNat = (address.toNat + 4) % 0x1000 := by
    rw [toNat_and_mask (n := 12) _ rfl, BitVec.toNat_add]
    change (address.toNat + 4) % _ % _ = _
    omega
  rw [nextInBlock, BitVec.toNat_add, hblock, hlow]
  omega

theorem toNat_redirect (g : GameInfo) (address : BitVec 32) :
    (redirect g address).toNat = b7Start g address := by
  have hlow (m : BitVec 32) : (m &&& 0x1FF#32).toNat = m.toNat % 0x200 := toNat_and_mask (n := 9) m rfl
  rw [redirect, b7Start]
  by_cases h : (address &&& g.mask).toNat < 0x8000
  · have hlt : (address &&& g.mask) < 0x8000 := h
    rw [if_pos h, if_pos hlt, BitVec.toNat_add, hlow]
    change (0x8000 + _) % _ = _
    omega
  · have hge : ¬ (address &&& g.mask) < 0x8000 := h
    rw [if_neg h, if_neg hge]

/-- An address of the card behind `0x8000` is left as it is. -/
theorem redirect_of_le {n : ℕ} (hmask : g.mask.toNat = 2 ^ n - 1) (hlt : address.toNat < 2 ^ n)
    (hle : 0x8000 ≤ address.toNat) : redirect g address = address := by
  apply BitVec.eq_of_toNat_eq
  rw [toNat_redirect, b7Start, toNat_and_mask _ hmask, Nat.mod_eq_of_lt hlt]
  exact if_neg (by omega)

theorem b7Start_spec (g : GameInfo) (start : BitVec 32) : ∃ n, 17 ≤ n ∧ n ≤ 32 ∧
    g.mask.toNat = 2 ^ n - 1 ∧ 0x8000 ≤ b7Start g start ∧ b7Start g start < 2 ^ n := by
  obtain ⟨n, hlow, hhigh, hmask⟩ := mask_eq g
  refine ⟨n, hlow, hhigh, hmask, ?_⟩
  have hbig : 2 ^ 17 ≤ 2 ^ n := Nat.pow_le_pow_right (by decide) hlow
  have hlt : (start &&& g.mask).toNat < 2 ^ n := by
    rw [toNat_and_mask _ hmask]
    exact Nat.mod_lt _ (Nat.two_pow_pos n)
  rw [b7Start]
  split_ifs with h <;> omega

theorem b7Address_zero (g : GameInfo) (start : BitVec 32) : b7Address g start 0 = b7Start g start := by
  rw [b7Address]
  omega

theorem b7Address_succ (g : GameInfo) (start : BitVec 32) (k : ℕ) : b7Address g start (k + 1) =
    b7Address g start k / 0x1000 * 0x1000 + (b7Address g start k + 4) % 0x1000 := by
  rw [b7Address, b7Address]
  omega

/-- All words of a transfer have addresses of the card. -/
theorem redirect_b7Address (h : address.toNat = b7Address g start k) : redirect g address = address := by
  obtain ⟨n, hlow, hhigh, hmask, hle, hlt⟩ := b7Start_spec g start
  have hdvd : 2 ^ n = 2 ^ (n - 12) * 0x1000 := by
    rw [show 0x1000 = 2 ^ 12 from rfl, ← Nat.pow_add]
    congr 1
    omega
  have hblock : b7Start g start / 0x1000 < 2 ^ (n - 12) := by
    rw [hdvd] at hlt
    exact Nat.div_lt_of_lt_mul (by rwa [Nat.mul_comm] at hlt)
  refine redirect_of_le hmask ?_ ?_ <;> rw [h, b7Address]
  · rw [hdvd]
    have := Nat.mul_le_mul_right 0x1000 hblock
    omega
  · omega

/-- The check in front of a B7 read. -/
theorem romsize_lt_iff : g.romsize < address + 4 ↔
    ¬ g.Inside address.toNat ∧ ¬ WrapsInto g address.toNat := by
  have hsize := g.romsize.isLt
  have haddress := address.isLt
  rw [BitVec.lt_def, BitVec.toNat_add, GameInfo.Inside, WrapsInto]
  change _ < (address.toNat + 4) % 2 ^ 32 ↔ _
  omega

theorem readROM_of_inside (h : g.Inside address.toNat) :
    g.readROM address = some (g.word address.toNat) := by
  have hcheck : ¬ address + 4 > g.romsize := fun hlt => (romsize_lt_iff.mp hlt).1 h
  rw [GameInfo.readROM, if_neg hcheck, if_pos h]

theorem inside_of_readROM {value : BitVec 32} (h : g.readROM address = some value) :
    g.Inside address.toNat := by
  rw [GameInfo.readROM] at h
  split_ifs at h with _ hin
  exact hin

end Component

/-! ### The invariant of the component -/

/-- After `n` words in the ROM a B7 transfer stands at the next one, for good if its check fails. -/
def B7At (g : GameInfo) (c : Slot1CompRom) (n : ℕ) : Prop :=
  (redirect g c.address).toNat = b7Address g c.started n ∧
    (∀ j < n, g.Inside (b7Address g c.started j)) ∧
    (n < c.words → g.romsize < redirect g c.address + 4)

/-- Where the address register is after the reads since the last start. -/
def RomInv (g : GameInfo) (c : Slot1CompRom) : Prop :=
  match c.operation with
  | .readHeader => c.address.toNat = headerAddress c.started c.words
  | .secureAreaLoad => c.address.toNat % 4 = 0
  | .b7Read => ∃ n ≤ c.words, B7At g c n
  | _ => True

section Invariant

variable {g : GameInfo} {c : Slot1CompRom}

theorem romInv_start {operation : Slot1Operation} {addr : BitVec 32}
    (h : operation = .secureAreaLoad → addr.toNat % 4 = 0) :
    RomInv g (Slot1CompRom.start operation addr) := by
  cases operation with
  | readHeader => rfl
  | secureAreaLoad => exact h rfl
  | b7Read =>
    refine ⟨0, Nat.le_refl 0, ?_, fun j hj => absurd hj (Nat.not_lt_zero j),
      fun h => absurd h (Nat.not_lt_zero 0)⟩
    exact (toNat_redirect g addr).trans (b7Address_zero g addr).symm
  | _ => exact trivial

/-- A B7 read that returns moves on in the ROM, or stays at the word behind it. -/
theorem B7At.read {n : ℕ} (hop : c.operation = .b7Read) (h : B7At g c n) (hn : n ≤ c.words)
    {value : BitVec 32} (hvalue : (c.read g).value = some value) :
    ∃ m ≤ c.words + 1, B7At g (c.read g).next m := by
  obtain ⟨haddress, hinside, hstuck⟩ := h
  rw [Slot1CompRom.read, hop] at hvalue ⊢
  dsimp only at hvalue ⊢
  by_cases hlt : g.romsize < redirect g c.address + 4
  · rw [if_pos hlt]
    refine ⟨n, by omega, ?_, hinside, fun _ => ?_⟩
    · rw [redirect_b7Address haddress, haddress]
    · rwa [redirect_b7Address haddress]
  · rw [if_neg hlt] at hvalue ⊢
    have hin : g.Inside (redirect g c.address).toNat := inside_of_readROM hvalue
    have hlast : n = c.words := by
      have := mt hstuck hlt
      omega
    have hnext : (nextInBlock (redirect g c.address)).toNat = b7Address g c.started (n + 1) := by
      rw [toNat_nextInBlock, haddress, b7Address_succ]
    refine ⟨n + 1, by omega, ?_, fun j hj => ?_, fun h => ?_⟩
    · rw [redirect_b7Address hnext, hnext]
    · rcases Nat.lt_succ_iff_lt_or_eq.mp hj with hj | rfl
      · exact hinside j hj
      · rwa [← haddress]
    · dsimp only at h
      omega

theorem RomInv.read (h : RomInv g c) {value : BitVec 32} (hvalue : (c.read g).value = some value) :
    RomInv g (c.read g).next := by
  cases hop : c.operation with
  | readHeader =>
    simp only [RomInv, hop] at h
    have hmask : ((c.address + 4) &&& 0xFFF#32).toNat = (c.address.toNat + 4) % 0x1000 := by
      rw [toNat_and_mask (n := 12) _ rfl, BitVec.toNat_add]
      change (c.address.toNat + 4) % _ % _ = _
      omega
    simp only [RomInv, Slot1CompRom.read, hop]
    rw [hmask, h, headerAddress, headerAddress]
    rw [if_neg (Nat.succ_ne_zero c.words)]
    split_ifs <;> omega
  | secureAreaLoad =>
    simp only [RomInv, hop] at h
    simp only [RomInv, Slot1CompRom.read, hop, toNat_nextInBlock]
    omega
  | b7Read =>
    have hnext : (c.read g).next.operation = .b7Read := by
      simp only [Slot1CompRom.read, hop]
      split_ifs <;> rfl
    have hwords : (c.read g).next.words = c.words + 1 := by
      simp only [Slot1CompRom.read, hop]
      split_ifs <;> rfl
    simp only [RomInv, hop] at h
    obtain ⟨n, hn, hat⟩ := h
    simp only [RomInv, hnext, hwords]
    exact hat.read hop hn hvalue
  | _ => simp only [RomInv, Slot1CompRom.read, hop]

theorem b7_law_iff (hop : c.operation = .b7Read) {n : ℕ} (hn : n ≤ c.words) (h : B7At g c n) :
    ReadLaw g c ↔ B7Stays g c.started c.words := by
  obtain ⟨haddress, hinside, hstuck⟩ := h
  have hsecure (i : ℕ) : (c.read g).secure = some i → i + 4 ≤ 0x4000 := by
    simp only [Slot1CompRom.read, hop]
    split_ifs <;> exact nofun
  by_cases hlt : g.romsize < redirect g c.address + 4
  · -- the check fails: the word is all ones
    have hread : c.read g =
        ⟨none, none, some 0xFFFFFFFF, { c with address := redirect g c.address, words := c.words + 1 }⟩ := by
      simp only [Slot1CompRom.read, hop]
      exact if_pos hlt
    obtain ⟨hout, hwrap⟩ := romsize_lt_iff.mp hlt
    rw [haddress] at hout hwrap
    have hlaw : ReadLaw g c ↔ b7Word g c.started c.words = 0xFFFFFFFF := by
      refine ⟨fun hlaw => ?_, fun hword => ⟨by simp [hread], hsecure, fun _ => by rw [hread, hword]⟩⟩
      have hb7 := hlaw.b7 hop
      rw [hread] at hb7
      exact (Option.some.inj hb7).symm
    rw [hlaw, b7Word, B7Stays]
    rcases Nat.lt_or_ge n c.words with hleft | hge
    · have hnot : ¬ ∀ j < c.words, g.Inside (b7Address g c.started j) := fun hall => hout (hall n hleft)
      rw [if_neg hnot]
      by_cases hin : g.Inside (b7Address g c.started c.words)
      · simp [hin]
      · simp [hin]
    · obtain rfl : n = c.words := by omega
      rw [if_pos hinside, if_neg hout]
      exact iff_of_true rfl hwrap
  · -- the check succeeds, and the ROM is asked for the word
    have hread : c.read g = ⟨some (redirect g c.address), none, g.readROM (redirect g c.address),
        { c with address := nextInBlock (redirect g c.address), words := c.words + 1 }⟩ := by
      simp only [Slot1CompRom.read, hop]
      exact if_neg hlt
    obtain rfl : n = c.words := by
      have := mt hstuck hlt
      omega
    rw [B7Stays, if_pos hinside]
    by_cases hin : g.Inside (redirect g c.address).toNat
    · have hnowrap : ¬ WrapsInto g (b7Address g c.started c.words) := by
        have hsize := g.romsize.isLt
        rw [← haddress]
        rw [GameInfo.Inside] at hin
        rw [WrapsInto]
        omega
      refine iff_of_true ⟨?_, hsecure, fun _ => ?_⟩ hnowrap
      · intro pos hpos
        rw [hread] at hpos
        rwa [← Option.some.inj hpos]
      · rw [hread, readROM_of_inside hin, b7Word, ← haddress, if_pos hin]
    · have hwrap : WrapsInto g (b7Address g c.started c.words) := by
        by_contra hno
        rw [← haddress] at hno
        exact hlt (romsize_lt_iff.mpr ⟨hin, hno⟩)
      refine iff_of_false (fun hlaw => hin (hlaw.rom _ ?_)) (not_not_intro hwrap)
      rw [hread]

/-- In a state that the reads since the last start lead to, the next read is as it should be exactly
if the transfer has stayed where it may be. -/
theorem RomInv.law_iff (h : RomInv g c) : ReadLaw g c ↔ ReadStays g c := by
  cases hop : c.operation with
  | readHeader =>
    simp only [RomInv, hop] at h
    simp only [ReadStays, hop, ← h]
    have hread : (c.read g).asked = some c.address := by simp only [Slot1CompRom.read, hop]
    have hsecure : (c.read g).secure = none := by simp only [Slot1CompRom.read, hop]
    refine ⟨fun hlaw => hlaw.rom _ hread, fun hin => ⟨fun pos hpos => ?_, by simp [hsecure], by simp [hop]⟩⟩
    rwa [← Option.some.inj (hread.symm.trans hpos)]
  | secureAreaLoad =>
    simp only [RomInv, hop] at h
    simp only [ReadStays, hop, iff_true]
    refine ⟨by simp [Slot1CompRom.read, hop], fun i hi => ?_, by simp [hop]⟩
    simp only [Slot1CompRom.read, hop, Option.some.injEq] at hi
    have hlow : ((c.address - 0x4000) &&& 0x3FFF#32).toNat = (c.address.toNat + (2 ^ 32 - 0x4000)) % 0x4000 := by
      rw [toNat_and_mask (n := 14) _ rfl, BitVec.toNat_sub]
      change (2 ^ 32 - 0x4000 + c.address.toNat) % _ % _ = _
      omega
    omega
  | b7Read =>
    simp only [RomInv, hop] at h
    obtain ⟨n, hn, hat⟩ := h
    simp only [ReadStays, hop]
    exact b7_law_iff hop hn hat
  | _ =>
    simp only [ReadStays, hop, iff_true]
    exact ⟨by simp [Slot1CompRom.read, hop], by simp [Slot1CompRom.read, hop], by simp [hop]⟩

end Invariant

/-! ### The invariant of the card -/

/-- B7 and what is unknown come in normal mode only, and a ROM component that is read was started with
the last command. -/
structure CardInv (e : CardEnv) (s : Slot1Card) : Prop where
  normal : s.protocol.operation = .b7Read ∨ s.protocol.operation = .unknown → s.protocol.mode = .normal
  rom : s.ReadsRom → RomInv e.game s.rom

section Card

variable {e : CardEnv} {s t : Slot1Card} {operation : Slot1Operation}

theorem cardInv_connect (e : CardEnv) (mode : CardMode) (rom : Slot1CompRom) (nand : Option NandState) :
    CardInv e (.connect mode rom nand) := ⟨nofun, fun h => h.elim⟩

theorem readsRom_iff
    (h : ¬ (s.protocol.operation = .b7Read ∨ s.protocol.operation = .unknown)) :
    s.ReadsRom ↔ s.protocol.operation = .readHeader ∨ s.protocol.operation = .secureAreaLoad := by
  rw [Slot1Card.ReadsRom]
  cases hop : s.protocol.operation <;> simp [hop] at h ⊢

theorem readsRom_nand {n : NandState} (hnand : s.nand = some n)
    (hop : s.protocol.operation ≠ .readHeader ∧ s.protocol.operation ≠ .secureAreaLoad)
    (h : s.ReadsRom) : s.protocol.command 0 = 0xB7 ∧ n.handleSave = false := by
  rw [Slot1Card.ReadsRom] at h
  cases hcase : s.protocol.operation <;> simp_all

/-- Outside of normal mode a command that starts nothing leaves the reads as they are. -/
theorem CardInv.of_eq (h : CardInv e s) (hmode : s.protocol.mode ≠ .normal)
    (hop : t.protocol.operation = s.protocol.operation) (hrom : t.rom = s.rom) : CardInv e t := by
  have hnot := mt h.normal hmode
  refine ⟨fun hnormal => absurd (hop ▸ hnormal) hnot, fun hread => ?_⟩
  rw [readsRom_iff (hop ▸ hnot), hop] at hread
  rw [hrom]
  exact h.rom ((readsRom_iff hnot).mpr hread)

theorem cardInv_of_not_readsRom (hread : ¬ s.ReadsRom)
    (hop : ¬ (s.protocol.operation = .b7Read ∨ s.protocol.operation = .unknown)) : CardInv e s :=
  ⟨fun h => absurd h hop, fun h => absurd h hread⟩

theorem nandCommand_protocol (e : CardEnv) (s : Slot1Card) (operation : Slot1Operation) (n : NandState) :
    (s.nandCommand e operation n).protocol = s.protocol := by
  dsimp only [Slot1Card.nandCommand]
  split_ifs <;> rfl

/-- A B7 command that is not a read of the save starts the ROM component. -/
theorem nandCommand_rom {n m : NandState} (hcmd : s.protocol.command 0 = 0xB7)
    (hnand : (s.nandCommand e operation n).nand = some m) (hsave : m.handleSave = false) :
    (s.nandCommand e operation n).rom = .start operation s.addressFromProtocol := by
  simp only [Slot1Card.nandCommand, hcmd, BitVec.reduceEq, reduceIte, or_self] at hnand ⊢
  split_ifs at hnand ⊢ with h
  · obtain rfl := Option.some.inj hnand
    rw [Slot1Card.moveSaveStart] at hsave
    split_ifs at hsave <;> simp_all [Slot1Card.setSaveStart]
  · rfl

theorem nandCommand_nand {n : NandState} (hnand : s.nand = some n) :
    ∃ m, (s.nandCommand e operation n).nand = some m := by
  dsimp only [Slot1Card.nandCommand]
  split_ifs <;> exact ⟨_, by first | rfl | exact hnand⟩

theorem cardInv_startOperation (hop : s.protocol.operation = operation)
    (hnormal : operation = .b7Read ∨ operation = .unknown → s.protocol.mode = .normal)
    (haddress : operation = .secureAreaLoad → s.protocol.address.toNat % 4 = 0) :
    CardInv e (s.startOperation e operation) := by
  subst hop
  cases hnand : s.nand with
  | none =>
    have hstart : s.startOperation e s.protocol.operation =
        { s with rom := .start s.protocol.operation s.protocol.address } := by
      rw [Slot1Card.startOperation, hnand]
    rw [hstart]
    exact ⟨hnormal, fun _ => romInv_start haddress⟩
  | some n =>
    by_cases hheader : s.protocol.operation = .readHeader
    · have hstart : s.startOperation e s.protocol.operation =
          { s with rom := .start s.protocol.operation s.addressFromProtocol } := by
        rw [Slot1Card.startOperation, hnand, hheader]
      rw [hstart]
      exact ⟨hnormal, fun _ => romInv_start (by simp [hheader])⟩
    by_cases hsecure : s.protocol.operation = .secureAreaLoad
    · have hstart : s.startOperation e s.protocol.operation =
          { s with rom := .start s.protocol.operation s.protocol.address } := by
        rw [Slot1Card.startOperation, hnand, hsecure]
      rw [hstart]
      exact ⟨hnormal, fun _ => romInv_start haddress⟩
    · have hstart : s.startOperation e s.protocol.operation =
          s.nandCommand e s.protocol.operation n := by
        simp only [Slot1Card.startOperation, hnand]
      have hprotocol := nandCommand_protocol e s s.protocol.operation n
      obtain ⟨m, hm⟩ : ∃ m, (s.nandCommand e s.protocol.operation n).nand = some m :=
        nandCommand_nand hnand
      rw [hstart]
      refine ⟨fun h => ?_, fun h => ?_⟩
      · rw [hprotocol] at h ⊢
        exact hnormal h
      · obtain ⟨hcmd, hsave⟩ := readsRom_nand hm (by rw [hprotocol]; exact ⟨hheader, hsecure⟩) h
        rw [hprotocol] at hcmd
        rw [nandCommand_rom hcmd hm hsave]
        exact romInv_start fun h => absurd h hsecure

theorem CardInv.writeCommand (h : CardInv e s) (command : GcCommand) :
    CardInv e (s.writeCommand e command) := by
  rw [Slot1Card.writeCommand]
  cases hmode : s.protocol.mode with
  | raw =>
    have hraw : s.protocol.mode ≠ .normal := by simp [hmode]
    dsimp only [Slot1Card.writeCommandRaw]
    split_ifs
    · exact cardInv_of_not_readsRom id nofun
    · exact cardInv_of_not_readsRom id nofun
    · exact h.of_eq hraw rfl rfl
    · exact cardInv_startOperation rfl nofun nofun
    · exact h.of_eq hraw rfl rfl
  | key1 =>
    have hkey1 : s.protocol.mode ≠ .normal := by simp [hmode]
    dsimp only [Slot1Card.writeCommandKey1]
    split_ifs
    · exact cardInv_of_not_readsRom id nofun
    · refine cardInv_startOperation rfl nofun fun _ => ?_
      -- a block number times the size of a block
      rw [Slot1Card.setAddress, BitVec.toNat_mul]
      change _ * 0x1000 % _ % 4 = 0
      omega
    · exact h.of_eq hkey1 rfl rfl
    · exact h.of_eq hkey1 rfl rfl
  | normal =>
    dsimp only [Slot1Card.writeCommandNormal]
    split_ifs
    · exact cardInv_startOperation rfl (fun _ => hmode) nofun
    · exact cardInv_of_not_readsRom id nofun
    · exact cardInv_startOperation rfl (fun _ => hmode) nofun

theorem readsRom_congr (hprotocol : t.protocol = s.protocol)
    (hnand : t.nand.map NandState.handleSave = s.nand.map NandState.handleSave) :
    t.ReadsRom ↔ s.ReadsRom := by
  rw [Slot1Card.ReadsRom, Slot1Card.ReadsRom, hprotocol]
  cases ht : t.nand <;> cases hs : s.nand <;> simp_all

/-- Nothing but the start of an operation changes what is read next. -/
theorem CardInv.of_reads (h : CardInv e s) (hprotocol : t.protocol = s.protocol)
    (hnand : t.nand.map NandState.handleSave = s.nand.map NandState.handleSave)
    (hrom : RomInv e.game s.rom → RomInv e.game t.rom) : CardInv e t := by
  refine ⟨fun hop => ?_, fun hread => hrom (h.rom ((readsRom_congr hprotocol hnand).mp hread))⟩
  rw [hprotocol] at hop ⊢
  exact h.normal hop

theorem CardInv.readRom (h : CardInv e s) {value : BitVec 32} (hread : s.readRom e = some (value, t)) :
    CardInv e t := by
  obtain ⟨x, hvalue, heq⟩ := Option.map_eq_some_iff.mp hread
  cases heq
  exact h.of_reads rfl rfl fun hrom => hrom.read hvalue

theorem CardInv.nandRead (h : CardInv e s) {n : NandState} (hnand : s.nand = some n)
    {saved value : BitVec 32} (hread : s.nandRead e n saved = some (value, t)) : CardInv e t := by
  have hsame {m : NandState} (hm : m.handleSave = n.handleSave) :
      CardInv e { s with nand := some m } := h.of_reads rfl (by simp [hnand, hm]) id
  dsimp only [Slot1Card.nandRead] at hread
  split_ifs at hread
  · exact h.readRom hread
  · cases hread
    exact hsame rfl
  · cases hread
    exact hsame rfl
  · exact h.readRom hread
  · cases hread
    exact h
  · cases hread
    exact h

theorem CardInv.readGcDataIn (h : CardInv e s) {saved value : BitVec 32}
    (hread : s.readGcDataIn e saved = some (value, t)) : CardInv e t := by
  rw [Slot1Card.readGcDataIn] at hread
  split at hread
  iterate 4
    · cases hread
      exact h
  · split at hread
    · exact h.readRom hread
    · exact h.nandRead (by assumption) hread

theorem CardInv.writeGcDataIn (h : CardInv e s) : CardInv e s.writeGcDataIn := by
  rw [Slot1Card.writeGcDataIn]
  split
  · exact h
  · rename_i n hnand
    split_ifs
    · exact h.of_reads rfl (by simp [hnand]) id
    · exact h

theorem cardInv_step (s : Slot1Card) (op : Slot1Op) (t : Slot1Card) (h : CardInv e s)
    (hstep : slot1Step e s op = some t) : CardInv e t := by
  cases op with
  | command command =>
    cases hstep
    exact h.writeCommand command
  | readData saved =>
    obtain ⟨⟨value, t'⟩, hread, rfl⟩ := Option.map_eq_some_iff.mp hstep
    exact h.readGcDataIn hread
  | writeData =>
    cases hstep
    exact h.writeGcDataIn

/-- Such a read is one of the ROM component. -/
theorem readGcDataIn_of_readsRom (h : s.ReadsRom) (saved : BitVec 32) :
    s.readGcDataIn e saved = s.readRom e := by
  rw [Slot1Card.ReadsRom] at h
  rw [Slot1Card.readGcDataIn]
  cases hop : s.protocol.operation <;> cases hnand : s.nand <;>
    simp_all [Slot1Card.nandRead]

end Card

/-! ### The reads of a card -/

/-- A word that is read through the ROM component is as it should be. -/
def CardReadLaw (e : CardEnv) (s : Slot1Card) : Slot1Op → Prop
  | .readData _ => s.ReadsRom → ReadLaw e.game s.rom
  | _ => True

def CardReadStays (e : CardEnv) (s : Slot1Card) : Slot1Op → Prop
  | .readData _ => s.ReadsRom → ReadStays e.game s.rom
  | _ => True

/-- In every run of commands and data accesses all reads of the ROM are as they should be exactly if
the header is read inside of the ROM, and no B7 transfer runs into the end of the address space or
comes back to the ROM after it has left it. -/
theorem slot1Reads_iff (e : CardEnv) (mode : CardMode) (rom : Slot1CompRom) (nand : Option NandState)
    (ops : List Slot1Op) :
    AtEachM (slot1Step e) (CardReadLaw e) (.connect mode rom nand) ops ↔
      AtEachM (slot1Step e) (CardReadStays e) (.connect mode rom nand) ops := by
  have hiff (s : Slot1Card) (op : Slot1Op) (h : CardInv e s) :
      CardReadLaw e s op ↔ CardReadStays e s op := by
    cases op with
    | readData saved => exact imp_congr_right fun hread => (h.rom hread).law_iff
    | _ => exact Iff.rfl
  have hstart := cardInv_connect e mode rom nand
  exact ⟨fun h => h.imp_of_invariant (fun s op hs => (hiff s op hs).mp) cardInv_step hstart,
    fun h => h.imp_of_invariant (fun s op hs => (hiff s op hs).mpr) cardInv_step hstart⟩

/-- The header of a NAND card is read at the address that the command has, which may be anywhere. -/
theorem nand_header_outside : ∃ (e : CardEnv) (rom : Slot1CompRom) (n : NandState) (ops : List Slot1Op),
    ¬ AtEachM (slot1Step e) (CardReadLaw e) (.connect .raw rom (some n)) ops := by
  refine ⟨⟨⟨0x100000, 3, fun _ => 0, fun _ => 0⟩, id, 0⟩, ⟨.readHeader, 0, 0, 0⟩,
    ⟨0, false, 0, 0, 0⟩, [.command fun i => if i = 2 then 0x20 else 0, .readData 0], fun h => ?_⟩
  have hread := (h.2 _ rfl).1 trivial
  exact absurd (hread.rom 0x200000 (by decide)) (by decide)

end Desmume.Card
