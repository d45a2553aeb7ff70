import Desmume.Library.Table
import Desmume.Machine.Types
import Mathlib.Data.Fin.VecNotation
import Mathlib.Logic.Function.Basic

/-! The VRAM bank control registers and the tables derived from them: the page maps of the two
processors and of LCDC, the texture and extended palette slots and the bank configuration. Every write
rebuilds the whole mapping from the nine control bytes, bank after bank in a fixed order. -/

namespace Desmume.Vram
open Library

inductive VramBank where
  | a | b | c | d | e | f | g | h | i
  deriving DecidableEq, Repr

def vramPageUnmapped : ℕ := 41
def vramPageAbg : ℕ := 0
def vramPageBbg : ℕ := 128
def vramPageAobj : ℕ := 256
def vramPageBobj : ℕ := 384

structure TVramBankInfo where
  pageAddr : ℕ
  numPages : ℕ

def vramBankInfo : VramBank → TVramBankInfo
  | .a => ⟨0, 8⟩
  | .b => ⟨8, 8⟩
  | .c => ⟨16, 8⟩
  | .d => ⟨24, 8⟩
  | .e => ⟨32, 4⟩
  | .f => ⟨36, 1⟩
  | .g => ⟨37, 1⟩
  | .h => ⟨38, 2⟩
  | .i => ⟨40, 1⟩

/-- The offset of a bank's control byte from 0x240; the seventh byte is WRAMCNT. -/
def bankBlock : VramBank → Fin 10
  | .a => 0
  | .b => 1
  | .c => 2
  | .d => 3
  | .e => 4
  | .f => 5
  | .g => 6
  | .h => 8
  | .i => 9

inductive Purpose where
  | off | invalid | abg | bbg | aobj | bobj | lcdc | arm7 | tex | texpal
  | abgextpal | bbgextpal | aobjextpal | bobjextpal
  deriving DecidableEq, Repr

structure BankConfig where
  purpose : Purpose
  ofs : ℕ
  deriving DecidableEq

/-- Pointers into the host memory of the emulated VRAM. -/
inductive HostPtr where
  | arm9Lcd (offset : ℕ)
  | blankMemory (offset : ℕ)
  deriving DecidableEq

def HostPtr.add8kb : HostPtr → HostPtr
  | .arm9Lcd o => .arm9Lcd (o + 0x2000)
  | .blankMemory o => .blankMemory (o + 0x2000)

def vramPhysical (page : ℕ) : HostPtr := .arm9Lcd (page * 0x4000)

/-- What the refresh derives from the control bytes; `arm7Vramstat` is the byte at 0x240 of the
ARM7 register page. -/
structure VramMapping where
  lcdcMap : Vector ℕ 41
  arm9Map : Vector ℕ 512
  arm7Map : Vector ℕ 2
  extPal : Fin 2 → Fin 4 → HostPtr
  objExtPal : Fin 2 → Fin 2 → HostPtr
  texPalSlot : Fin 6 → HostPtr
  textureSlotAddr : Fin 4 → HostPtr
  banks : VramBank → BankConfig
  arm7Vramstat : BitVec 8

namespace VramMapping

variable (m : VramMapping)

def setPurpose (bank : VramBank) (p : Purpose) : VramMapping :=
  { m with banks := Function.update m.banks bank { m.banks bank with purpose := p } }

def setOfs (bank : VramBank) (ofs : ℕ) : VramMapping :=
  { m with banks := Function.update m.banks bank { m.banks bank with ofs := ofs } }

def setTextureSlot (slot : Fin 4) (p : HostPtr) : VramMapping :=
  { m with textureSlotAddr := Function.update m.textureSlotAddr slot p }

def setTexPalSlot (slot : Fin 6) (p : HostPtr) : VramMapping :=
  { m with texPalSlot := Function.update m.texPalSlot slot p }

def setExtPal (x : Fin 2) (slot : Fin 4) (p : HostPtr) : VramMapping :=
  { m with extPal := Function.update m.extPal x (Function.update (m.extPal x) slot p) }

def setObjExtPal (x : Fin 2) (slot : Fin 2) (p : HostPtr) : VramMapping :=
  { m with objExtPal := Function.update m.objExtPal x (Function.update (m.objExtPal x) slot p) }

/-- `MMU_vram_lcdc`. -/
def vramLcdc (bank : VramBank) : Option VramMapping := do
  let info := vramBankInfo bank
  let t ← putAll m.lcdcMap ((List.range info.numPages).map fun i =>
    (info.pageAddr + i, info.pageAddr + i))
  return { m with lcdcMap := t }

/-- `MMU_vram_arm9`. -/
def vramArm9 (bank : VramBank) (offset : ℕ) : Option VramMapping := do
  let info := vramBankInfo bank
  let t ← putAll m.arm9Map ((List.range info.numPages).map fun i =>
    (i + offset, info.pageAddr + i))
  return { m with arm9Map := t }

/-- `vram_arm7_map[ofs] = page`. -/
def vramArm7 (ofs page : ℕ) : Option VramMapping := do
  let t ← putEntry m.arm7Map (ofs, page)
  return { m with arm7Map := t }

/-- Four consecutive 8KB slots of an extended palette. -/
def extPalBank (x : Fin 2) (page : ℕ) : VramMapping :=
  let m := m.setExtPal x 0 (vramPhysical page)
  let m := m.setExtPal x 1 (m.extPal x 0).add8kb
  let m := m.setExtPal x 2 (m.extPal x 1).add8kb
  m.setExtPal x 3 (m.extPal x 2).add8kb

/-- The second slot is taken from itself, as the source has it. -/
def objExtPalBank (x : Fin 2) (page : ℕ) : VramMapping :=
  let m := m.setObjExtPal x 0 (vramPhysical page)
  m.setObjExtPal x 1 (m.objExtPal x 1).add8kb

/-- `MMU_VRAM_unmap_all`. -/
def unmapAll : VramMapping :=
  { m with
    banks := fun _ => ⟨.off, 0⟩
    arm7Map := .replicate 2 vramPageUnmapped
    lcdcMap := .replicate 41 vramPageUnmapped
    arm9Map := .replicate 512 vramPageUnmapped
    extPal := fun _ _ => .blankMemory 0
    objExtPal := fun _ _ => .blankMemory 0
    texPalSlot := fun _ => .blankMemory 0
    textureSlotAddr := fun _ => .blankMemory 0 }

/-- Everything unmapped, C and D taken from the ARM7. -/
def cleared : VramMapping := { m.unmapAll with arm7Vramstat := 0 }

end VramMapping

/-- `(VRAMBankCnt>>3) & 3`. -/
def ofsField (cnt : BitVec 8) : Fin 4 := (cnt.extractLsb' 3 2).toFin

def pageofslut : Fin 4 → Fin 6 := ![0, 1, 4, 5]

/-! ### Writes to the control registers -/

open VramMapping

/-! The modes of the banks. A mode gives the new mapping and the offset to record, or no offset
when the mode is not supported. -/

section Modes

variable (bank : VramBank) (cnt : BitVec 8) (m : VramMapping)

def lcdcMode (ofs : ℕ) : Option (VramMapping × Option ℕ) :=
  ((m.setPurpose bank .lcdc).vramLcdc bank).map fun m => (m, some ofs)

/-- Map a bank for the ARM9 at an offset. -/
def arm9Mode (p : Purpose) (offset ofs : ℕ) : Option (VramMapping × Option ℕ) :=
  ((m.setPurpose bank p).vramArm9 bank offset).map fun m => (m, some ofs)

/-- Map a bank for the ARM9 at an offset and, as a mirror, at another one. -/
def arm9MirrorMode (p : Purpose) (offset mirror ofs : ℕ) : Option (VramMapping × Option ℕ) := do
  let m ← (m.setPurpose bank p).vramArm9 bank offset
  let m ← m.vramArm9 bank mirror
  return (m, some ofs)

def unsupportedMst : Option (VramMapping × Option ℕ) := some (m, none)

def refreshBankAB : Option (VramMapping × Option ℕ) :=
  let ofs := ofsField cnt
  match (cnt &&& 3).toNat with
  | 0 => lcdcMode bank m ofs
  | 1 => arm9Mode bank m .abg (vramPageAbg + ofs * 8) ofs
  | 2 =>
    if ofs.val < 2 then arm9Mode bank m .aobj (vramPageAobj + ofs * 8) ofs
    else some (m.setPurpose bank .aobj, some ofs.val)
  | 3 =>
    some ((m.setPurpose bank .tex).setTextureSlot ofs
      (vramPhysical (vramBankInfo bank).pageAddr), some ofs.val)
  | _ => unsupportedMst m

/-- The bits of the status byte that tell the ARM7 which of C and D it has. -/
def arm7VramstatBit : VramBank → BitVec 8
  | .c => 1
  | .d => 2
  | _ => 0

def refreshBankCD : Option (VramMapping × Option ℕ) :=
  let ofs := ofsField cnt
  match (cnt &&& 7).toNat with
  | 0 => lcdcMode bank m ofs
  | 1 => arm9Mode bank m .abg (vramPageAbg + ofs * 8) ofs
  | 2 =>
    let m := m.setPurpose bank .arm7
    let m := { m with arm7Vramstat := m.arm7Vramstat ||| arm7VramstatBit bank }
    if ofs.val < 2 then
      (m.vramArm7 ofs (vramBankInfo bank).pageAddr).map fun m => (m, some ofs.val)
    else some (m, some ofs.val)
  | 3 =>
    some ((m.setPurpose bank .tex).setTextureSlot ofs
      (vramPhysical (vramBankInfo bank).pageAddr), some ofs.val)
  | 4 =>
    if bank = .c then arm9Mode bank m .bbg vramPageBbg ofs
    else arm9Mode bank m .bobj vramPageBobj ofs
  | _ => unsupportedMst m

def refreshBankE : Option (VramMapping × Option ℕ) :=
  let page := (vramBankInfo bank).pageAddr
  match (cnt &&& 7).toNat with
  | 0 => lcdcMode bank m 0
  | 1 => arm9Mode bank m .abg vramPageAbg 0
  | 2 => arm9Mode bank m .aobj vramPageAobj 0
  | 3 =>
    some (((((m.setPurpose bank .texpal).setTexPalSlot 0 (vramPhysical page)).setTexPalSlot 1
      (vramPhysical (page + 1))).setTexPalSlot 2 (vramPhysical (page + 2))).setTexPalSlot 3
      (vramPhysical (page + 3)), some 0)
  | 4 => some ((m.setPurpose bank .abgextpal).extPalBank 0 page, some 0)
  | _ => unsupportedMst m

def refreshBankFG : Option (VramMapping × Option ℕ) :=
  let ofs := ofsField cnt
  let pageofs := pageofslut ofs
  let page := (vramBankInfo bank).pageAddr
  match (cnt &&& 7).toNat with
  | 0 => lcdcMode bank m ofs
  | 1 => arm9MirrorMode bank m .abg (vramPageAbg + pageofs) (vramPageAbg + pageofs + 2) ofs
  | 2 => arm9MirrorMode bank m .aobj (vramPageAobj + pageofs) (vramPageAobj + pageofs + 2) ofs
  | 3 => some ((m.setPurpose bank .texpal).setTexPalSlot pageofs (vramPhysical page), some ofs.val)
  | 4 =>
    if ofs.val < 2 then
      let lo : Fin 4 := Fin.ofNat 4 (ofs * 2)
      let m := (m.setPurpose bank .abgextpal).setExtPal 0 lo (vramPhysical page)
      some (m.setExtPal 0 (lo + 1) (m.extPal 0 lo).add8kb, some ofs.val)
    else some (m.setPurpose bank .invalid, some ofs.val)
  | 5 => some ((m.setPurpose bank .aobjextpal).objExtPalBank 0 page, some ofs.val)
  | _ => unsupportedMst m

def refreshBankH : Option (VramMapping × Option ℕ) :=
  match (cnt &&& 3).toNat with
  | 0 => lcdcMode bank m 0
  | 1 => arm9MirrorMode bank m .bbg vramPageBbg (vramPageBbg + 4) 0
  | 2 => some ((m.setPurpose bank .bbgextpal).extPalBank 1 (vramBankInfo bank).pageAddr, some 0)
  | _ => unsupportedMst m

def refreshBankI : Option (VramMapping × Option ℕ) :=
  match (cnt &&& 3).toNat with
  | 0 => lcdcMode bank m 0
  | 1 => arm9MirrorMode bank m .bbg (vramPageBbg + 2) (vramPageBbg + 3) 0
  | 2 => arm9MirrorMode bank m .bobj vramPageBobj (vramPageBobj + 1) 0
  | 3 => some ((m.setPurpose bank .bobjextpal).objExtPalBank 1 (vramBankInfo bank).pageAddr, some 0)
  | _ => unsupportedMst m

def refreshMode : Option (VramMapping × Option ℕ) :=
  match bank with
  | .a | .b => refreshBankAB bank cnt m
  | .c | .d => refreshBankCD bank cnt m
  | .e => refreshBankE bank cnt m
  | .f | .g => refreshBankFG bank cnt m
  | .h => refreshBankH bank cnt m
  | .i => refreshBankI bank cnt m

/-- `MMU_VRAMmapRefreshBank`. -/
def vramMapRefreshBank : Option VramMapping :=
  if cnt &&& 0x80 = 0 then some m
  else
    (refreshMode bank cnt m).map fun r =>
      match r.2 with
      | some ofs => r.1.setOfs bank ofs
      | none => r.1.setPurpose bank .invalid

end Modes

/-- The order of the refresh, which decides whose pages win. -/
def refreshOrder : List VramBank := [.i, .h, .g, .f, .e, .a, .b, .c, .d]

/-- The areas of the ARM9 map and the sizes they repeat with. -/
def mirrorings : List (ℕ × ℕ) :=
  [(vramPageAbg, 32), (vramPageBbg, 8), (vramPageAobj, 16), (vramPageBobj, 8)]

/-- Pad an area out to 128 pages with copies of its first ones. -/
def mirrorArea (m : VramMapping) (area : ℕ × ℕ) : Option VramMapping := do
  let t ← copyAll m.arm9Map ((List.range' area.2 (128 - area.2)).map fun i =>
    (area.1 + i, area.1 + (i &&& (area.2 - 1))))
  return { m with arm9Map := t }

structure VramState where
  vramcnt : Fin 10 → BitVec 8
  wramcnt : Fin 4
  map : VramMapping

/-- The control byte of a bank. -/
def VramState.cnt (s : VramState) (bank : VramBank) : BitVec 8 := s.vramcnt (bankBlock bank)

def VramState.setVramcnt (s : VramState) (block : Fin 10) (val : BitVec 8) : VramState :=
  { s with vramcnt := Function.update s.vramcnt block val }

/-- The part of `MMU_VRAMmapControl` that maps the banks. -/
def remap (cnt : VramBank → BitVec 8) (m : VramMapping) : Option VramMapping := do
  let m ← refreshOrder.foldlM (fun m bank => vramMapRefreshBank bank (cnt bank) m) m.cleared
  mirrorings.foldlM mirrorArea m

/-- `MMU_VRAMmapControl`. -/
def vramMapControl (s : VramState) (w : Fin 10 × BitVec 8) : Option VramState :=
  if w.1 = 7 then some { s with wramcnt := (w.2.extractLsb' 0 2).toFin }
  else
    (remap (s.setVramcnt w.1 w.2).cnt s.map).map fun map =>
      { s.setVramcnt w.1 w.2 with map := map }

/-- The state that `MMU_Reset` leaves, whatever the tables held. -/
def vramReset (m : VramMapping) : VramState :=
  ⟨fun _ => 0, 0, m.cleared⟩

/-- The tables before the first reset. -/
def zeroMapping : VramMapping where
  lcdcMap := .replicate 41 0
  arm9Map := .replicate 512 0
  arm7Map := .replicate 2 0
  extPal := fun _ _ => .blankMemory 0
  objExtPal := fun _ _ => .blankMemory 0
  texPalSlot := fun _ => .blankMemory 0
  textureSlotAddr := fun _ => .blankMemory 0
  banks := fun _ => ⟨.off, 0⟩
  arm7Vramstat := 0

/-- A sequence of control writes after a reset. -/
def vramRun (m : VramMapping) (ws : List (Fin 10 × BitVec 8)) : Option VramState :=
  ws.foldlM vramMapControl (vramReset m)

theorem vramRun_nil (m : VramMapping) : vramRun m [] = some (vramReset m) := rfl

end Desmume.Vram
