import Desmume.Library.FlatMemory
import Desmume.Library.LittleEndian
import Desmume.Vram.LcdMap

/-! The memory accesses of the two processors: the inline paths over DTCM and main memory and the
slow paths over everything else. Device registers are behind handlers. -/

namespace Desmume.Memory
open Library Vram

abbrev Byte := BitVec 8

inductive Width where
  | w8 | w16 | w32
  deriving DecidableEq, Repr

def Width.bytes : Width → ℕ
  | .w8 => 1
  | .w16 => 2
  | .w32 => 4

/-- `MMU_ACCESS_TYPE`. -/
inductive AccessType where
  | code | data | gpu | dma | debug
  deriving DecidableEq

inductive Block where
  | arm9Itcm | arm9Dtcm | mainMem | swiram | arm9Reg | arm9Vmem | arm9Lcd | arm9Oam | arm9Bios
  | arm7Bios | arm7Eram | arm7Reg | arm7Wiram | unusedRam
  deriving DecidableEq, Repr

/-- The sizes of the arrays. -/
def Block.size : Block → ℕ
  | .arm9Itcm => 0x8000
  | .arm9Dtcm => 0x4000
  | .mainMem => 0x1000000
  | .swiram => 0x8000
  | .arm9Reg => 0x1000000
  | .arm9Vmem => 0x800
  | .arm9Lcd => 0xA4000
  | .arm9Oam => 0x800
  | .arm9Bios => 0x8000
  | .arm7Bios => 0x4000
  | .arm7Eram => 0x10000
  | .arm7Reg => 0x10000
  | .arm7Wiram => 0x10000
  | .unusedRam => 4

/-- `MMU_MEM`, with no block where the table holds a null pointer. -/
def mmuMem : Proc → ℕ → Option Block
  | .arm9, i =>
    match i / 16 with
    | 0 => some .arm9Itcm
    | 2 => some .mainMem
    | 3 => some .swiram
    | 4 => some .arm9Reg
    | 5 => some .arm9Vmem
    | 6 => some .arm9Lcd
    | 7 => some .arm9Oam
    | 8 | 9 => none
    | 15 => some .arm9Bios
    | _ => some .unusedRam
  | .arm7, i =>
    match i / 16 with
    | 0 => some .arm7Bios
    | 2 => some .mainMem
    | 3 => if i % 16 < 8 then some .swiram else some .arm7Eram
    | 4 => if i % 16 < 8 then some .arm7Reg else some .arm7Wiram
    | 6 => some .arm9Lcd
    | 8 | 9 => none
    | _ => some .unusedRam

/-- `MMU_MASK`. -/
def mmuMask : Proc → ℕ → ℕ
  | .arm9, i =>
    match i / 16 with
    | 0 => 0x7FFF
    | 2 => 0x3FFFFF
    | 3 => 0x7FFF
    | 4 => 0xFFFFFF
    | 5 => 0x7FF
    | 6 => 0xFFFFFF
    | 7 => 0x7FF
    | 15 => 0x7FFF
    | _ => 3
  | .arm7, i =>
    match i / 16 with
    | 0 => 0x3FFF
    | 2 => 0x3FFFFF
    | 3 => if i % 16 < 8 then 0x7FFF else 0xFFFF
    | 4 => if i % 16 < 8 then 0xFFFFFF else 0xFFFF
    | 6 => 0xFFFFFF
    | _ => 3

/-- The machines that `SetupMMU` distinguishes. -/
inductive Console where
  | retail | debug | dsi

/-- `_MMU_MAIN_MEM_MASK`, `_MMU_MAIN_MEM_MASK16` and `_MMU_MAIN_MEM_MASK32`. -/
def mainMemMask : Console → Width → ℕ
  | .retail, .w8 => 0x3FFFFF
  | .retail, .w16 => 0x3FFFFE
  | .retail, .w32 => 0x3FFFFC
  | .debug, .w8 => 0x7FFFFF
  | .debug, .w16 => 0x7FFFFE
  | .debug, .w32 => 0x7FFFFC
  | .dsi, .w8 => 0xFFFFFF
  | .dsi, .w16 => 0xFFFFFE
  | .dsi, .w32 => 0xFFFFFC

def dtcmMask : Width → ℕ
  | .w8 => 0x3FFF
  | .w16 => 0x3FFE
  | .w32 => 0x3FFC

def itcmMask : Width → ℕ
  | .w8 => 0x7FFF
  | .w16 => 0x7FFE
  | .w32 => 0x7FFC

/-- What the slow paths cut an address to. -/
def adrMask : Width → ℕ
  | .w8 => 0x0FFFFFFF
  | .w16 => 0x0FFFFFFE
  | .w32 => 0x0FFFFFFC

structure MmuState (δ : Type) where
  mem : Block → ℕ → Byte
  vram : VramState
  dtcmRegion : ℕ
  console : Console
  arm7InstructAdr : ℕ
  dev : δ

/-- The handlers of device registers and of the slot 2 cartridge. -/
structure Devices (δ : Type) where
  slot2Read : Proc → Width → ℕ → MmuState δ → ℕ × MmuState δ
  slot2Write : Proc → Width → ℕ → ℕ → MmuState δ → MmuState δ
  ioRead : Proc → Width → ℕ → MmuState δ → ℕ × MmuState δ
  ioWrite : Proc → Width → ℕ → ℕ → MmuState δ → MmuState δ
  spuRead : Width → ℕ → MmuState δ → ℕ × MmuState δ
  spuWrite : Width → ℕ → ℕ → MmuState δ → MmuState δ
  wifiRead : Width → ℕ → MmuState δ → ℕ × MmuState δ
  wifiWrite : Width → ℕ → ℕ → MmuState δ → MmuState δ

section Access

variable {δ : Type} (dev : Devices δ)

/-- `T1ReadByte`, `T1ReadWord_guaranteedAligned` and `T1ReadLong_guaranteedAligned`; no result
when the assertion on the alignment fails. -/
def t1Read (w : Width) (blk : Block) (off : ℕ) (s : MmuState δ) : Option (ℕ × MmuState δ) :=
  if off % w.bytes = 0 then some (ofLeBytes (load (s.mem blk) off w.bytes), s) else none

/-- `T1WriteByte`, `T1WriteWord` and `T1WriteLong`. -/
def t1Write (w : Width) (blk : Block) (off val : ℕ) (s : MmuState δ) : MmuState δ :=
  { s with mem := Function.update s.mem blk (store (s.mem blk) off (leBytes w.bytes val)) }

def isSlot2 (adr : ℕ) : Prop := 0x08000000 ≤ adr ∧ adr < 0x0A010000

def isSpu (adr : ℕ) : Prop := 0x04000400 ≤ adr ∧ adr < 0x04000520

def isWifi (adr : ℕ) : Prop := adr &&& 0xFFFF0000 = 0x04800000

instance (adr : ℕ) : Decidable (isSlot2 adr) := inferInstanceAs (Decidable (_ ∧ _))
instance (adr : ℕ) : Decidable (isSpu adr) := inferInstanceAs (Decidable (_ ∧ _))
instance (adr : ℕ) : Decidable (isWifi adr) := inferInstanceAs (Decidable (_ = _))

/-- The end of the slow reads: the address goes through `MMU_LCDmap` and the tables. -/
def readMapped (proc : Proc) (w : Width) (adr : ℕ) (s : MmuState δ) :
    Option (ℕ × MmuState δ) := do
  let r ← mmuLcdmap proc s.vram adr
  if r.unmapped then return (0, s)
  else
    let blk ← mmuMem proc (r.addr >>> 20)
    t1Read w blk (r.addr &&& mmuMask proc (r.addr >>> 20)) s

def writeMapped (proc : Proc) (w : Width) (adr val : ℕ) (s : MmuState δ) :
    Option (MmuState δ) := do
  let r ← mmuLcdmap proc s.vram adr
  if r.unmapped then return s
  else
    let blk ← mmuMem proc (r.addr >>> 20)
    return t1Write w blk (r.addr &&& mmuMask proc (r.addr >>> 20)) val s

/-- The end of the slow 8-bit write of the ARM9, which leaves restricted memory alone. -/
def writeMappedUnrestricted (adr val : ℕ) (s : MmuState δ) : Option (MmuState δ) := do
  let r ← mmuLcdmap .arm9 s.vram adr
  if r.unmapped || r.restricted then return s
  else writeMapped .arm9 .w8 adr val s

/-- `_MMU_ARM9_read08`, `_MMU_ARM9_read16` and `_MMU_ARM9_read32`. -/
def mmuArm9Read (w : Width) (adr : ℕ) (s : MmuState δ) : Option (ℕ × MmuState δ) :=
  let adr := adr &&& adrMask w
  if adr < 0x02000000 then t1Read w .arm9Itcm (adr &&& itcmMask w) s
  else if isSlot2 adr then some (dev.slot2Read .arm9 w adr s)
  else if adr >>> 24 = 4 then some (dev.ioRead .arm9 w adr s)
  else readMapped .arm9 w adr s

/-- `_MMU_ARM9_write08`. -/
def mmuArm9Write08 (adr val : ℕ) (s : MmuState δ) : Option (MmuState δ) :=
  let adr := adr &&& 0x0FFFFFFF
  if adr < 0x02000000 then some (t1Write .w8 .arm9Itcm (adr &&& 0x7FFF) val s)
  else if isSlot2 adr then some (dev.slot2Write .arm9 .w8 adr val s)
  else if adr &&& 0x0F000000 = 0x07000000 then some s
  else if adr &&& 0x0F000000 = 0x05000000 then some s
  else if adr >>> 24 = 4 then some (dev.ioWrite .arm9 .w8 adr val s)
  else writeMappedUnrestricted adr val s

/-- `_MMU_ARM9_write16` and `_MMU_ARM9_write32`. -/
def mmuArm9WriteWide (w : Width) (adr val : ℕ) (s : MmuState δ) : Option (MmuState δ) :=
  let adr := adr &&& adrMask w
  if adr < 0x02000000 then some (t1Write w .arm9Itcm (adr &&& 0x7FFF) val s)
  else if isSlot2 adr then some (dev.slot2Write .arm9 w adr val s)
  else if adr >>> 24 = 4 then some (dev.ioWrite .arm9 w adr val s)
  else writeMapped .arm9 w adr val s

def mmuArm9Write (w : Width) (adr val : ℕ) (s : MmuState δ) : Option (MmuState δ) :=
  match w with
  | .w8 => mmuArm9Write08 dev adr val s
  | .w16 => mmuArm9WriteWide dev .w16 adr val s
  | .w32 => mmuArm9WriteWide dev .w32 adr val s

/-- `_MMU_ARM7_read08`, `_MMU_ARM7_read16` and `_MMU_ARM7_read32`; the BIOS reads as ones from
outside of it. -/
def mmuArm7Read (w : Width) (adr : ℕ) (s : MmuState δ) : Option (ℕ × MmuState δ) :=
  let adr := adr &&& adrMask w
  if adr < 0x4000 ∧ s.arm7InstructAdr > 0x3FFF then some (256 ^ w.bytes - 1, s)
  else if isWifi adr then some (dev.wifiRead w adr s)
  else if isSlot2 adr then some (dev.slot2Read .arm7 w adr s)
  else if isSpu adr then some (dev.spuRead w adr s)
  else if adr >>> 24 = 4 then some (dev.ioRead .arm7 w adr s)
  else readMapped .arm7 w adr s

/-- `_MMU_ARM7_write08`, `_MMU_ARM7_write16` and `_MMU_ARM7_write32`; the handler of the wireless
hardware ignores 8-bit writes. -/
def mmuArm7Write (w : Width) (adr val : ℕ) (s : MmuState δ) : Option (MmuState δ) :=
  let adr := adr &&& adrMask w
  if adr < 0x02000000 then some s
  else if isSlot2 adr then some (dev.slot2Write .arm7 w adr val s)
  else if isSpu adr then some (dev.spuWrite w adr val s)
  else if isWifi adr then
    if w = .w8 then some s else some (dev.wifiWrite w adr val s)
  else if adr >>> 24 = 4 then some (dev.ioWrite .arm7 w adr val s)
  else writeMapped .arm7 w adr val s

/-- The address lies in the DTCM of the ARM9. -/
def dtcmHit (proc : Proc) (addr : ℕ) (s : MmuState δ) : Prop :=
  proc = .arm9 ∧ addr &&& 0xFFFFC000 = s.dtcmRegion

instance (proc : Proc) (addr : ℕ) (s : MmuState δ) : Decidable (dtcmHit proc addr s) :=
  inferInstanceAs (Decidable (_ ∧ _))

/-- The tail of `_MMU_read08`, `_MMU_read16` and `_MMU_read32`. -/
def mmuReadSlow (proc : Proc) (w : Width) (addr : ℕ) (s : MmuState δ) :
    Option (ℕ × MmuState δ) :=
  match proc with
  | .arm9 => mmuArm9Read dev w addr s
  | .arm7 => mmuArm7Read dev w addr s

/-- Instruction fetches of the ARM9 look at main memory and ITCM only. -/
def mmuFetchArm9 (w : Width) (addr : ℕ) (s : MmuState δ) : Option (ℕ × MmuState δ) :=
  if addr &&& 0x0F000000 = 0x02000000 then t1Read w .mainMem (addr &&& mainMemMask s.console w) s
  else if addr < 0x02000000 then t1Read w .arm9Itcm (addr &&& itcmMask w) s
  else mmuArm9Read dev w addr s

/-- `_MMU_read08`, `_MMU_read16` and `_MMU_read32`. -/
def mmuRead (proc : Proc) (at_ : AccessType) (w : Width) (addr : ℕ) (s : MmuState δ) :
    Option (ℕ × MmuState δ) :=
  if proc = .arm7 ∧ at_ = .debug ∧ addr < 0x4000 then t1Read w .arm7Bios addr s
  else if proc = .arm9 ∧ at_ = .dma ∧ (addr < 0x02000000 ∨ dtcmHit proc addr s) then some (0, s)
  else if proc = .arm9 ∧ at_ = .code ∧ w ≠ .w8 then mmuFetchArm9 dev w addr s
  else if dtcmHit proc addr s then t1Read w .arm9Dtcm (addr &&& dtcmMask w) s
  else if addr &&& 0x0F000000 = 0x02000000 then
    t1Read w .mainMem (addr &&& mainMemMask s.console w) s
  else mmuReadSlow dev proc w addr s

/-- `_MMU_write08`, `_MMU_write16` and `_MMU_write32`. -/
def mmuWrite (proc : Proc) (at_ : AccessType) (w : Width) (addr val : ℕ) (s : MmuState δ) :
    Option (MmuState δ) :=
  if proc = .arm9 ∧ at_ = .dma ∧ (addr < 0x02000000 ∨ dtcmHit proc addr s) then some s
  else if dtcmHit proc addr s then some (t1Write w .arm9Dtcm (addr &&& dtcmMask w) val s)
  else if addr &&& 0x0F000000 = 0x02000000 then
    some (t1Write w .mainMem (addr &&& mainMemMask s.console w) val s)
  else
    match proc with
    | .arm9 => mmuArm9Write dev w addr val s
    | .arm7 => mmuArm7Write dev w addr val s

end Access

end Desmume.Memory
