import Desmume.Memory.MmuAccess

/-! The 16-bit writes of the ARM9 to the registers of the 3D display and what they leave of the
register file. -/

namespace Desmume.Video
open Library Memory

def eng3DEdgeColor : ℕ := 0x04000330
def eng3DAlphaTestRef : ℕ := 0x04000340
def eng3DClearColor : ℕ := 0x04000350
def eng3DClearDepth : ℕ := 0x04000354
def eng3DClrimageOffset : ℕ := 0x04000356
def eng3DFogColor : ℕ := 0x04000358
def eng3DFogOffset : ℕ := 0x0400035C
def eng3DFogTable : ℕ := 0x04000360
def eng3DToonTable : ℕ := 0x04000380

/-- The fields of `gfx3d.state` that the registers set, and `nds.power1.gfx3d_render`. -/
structure Display3D where
  gfx3dRender : Bool
  alphaTestRef : BitVec 8
  clearDepth : BitVec 32
  clearColor : BitVec 32
  fogColor : BitVec 32
  fogOffset : BitVec 32
  invalidateToon : Bool
  u16ToonTable : Fin 32 → BitVec 16

namespace Display3D

variable (d : Display3D)

/-- `dsDepthExtend_15bit_to_24bit`. -/
def depthExtend15To24 (i : ℕ) : ℕ := i * 0x200 + ((i + 1) >>> 15) * 0x01FF

def glAlphaFunc (v : ℕ) : Display3D := { d with alphaTestRef := BitVec.ofNat 8 (v &&& 0x1F) }

def glClearDepth (v : ℕ) : Display3D :=
  { d with clearDepth := BitVec.ofNat 32 (depthExtend15To24 (v &&& 0x7FFF)) }

def glFogColor (v : ℕ) : Display3D := { d with fogColor := BitVec.ofNat 32 v }

def glFogOffset (v : ℕ) : Display3D := { d with fogOffset := BitVec.ofNat 32 (v &&& 0x7FFF) }

def updateToonTable (offset v : ℕ) : Display3D :=
  { d with
    invalidateToon := true
    u16ToonTable := Function.update d.u16ToonTable (Fin.ofNat 32 offset) (BitVec.ofNat 16 v) }

/-- A half of the clear color, at its byte offset. -/
def setClearColor (offset v : ℕ) : Display3D :=
  { d with
    clearColor :=
      if offset = 0 then d.clearColor &&& 0xFFFF0000 ||| BitVec.ofNat 32 v
      else d.clearColor &&& 0x0000FFFF ||| BitVec.ofNat 32 v <<< 16 }

end Display3D

/-- `validateIORegsWrite` on the registers of the 3D display. -/
def validateIoRegsWrite (addr : ℕ) : Bool :=
  addr &&& 0x0FFFFFFC ∈
    [0x00, 0x04, 0x08, 0x0C].map (eng3DEdgeColor + ·) ++
    [eng3DAlphaTestRef, eng3DClearColor, eng3DClearDepth, eng3DClrimageOffset, eng3DFogColor,
      eng3DFogOffset] ++
    [0x00, 0x04, 0x08, 0x0C, 0x10, 0x14, 0x18, 0x1C].map (eng3DFogTable + ·) ++
    [0x00, 0x04, 0x08, 0x0C, 0x10, 0x14, 0x18, 0x1C, 0x20, 0x24, 0x28, 0x2C, 0x30, 0x34, 0x38,
      0x3C].map (eng3DToonTable + ·)

section Write16

variable (s : MmuState Display3D)

/-- `((u16 *)(MMU.MMU_MEM[ARMCPU_ARM9][0x40]))[i] = val`. -/
def setU16 (i val : ℕ) : MmuState Display3D := t1Write .w16 .arm9Reg (i * 2) val s

/-- `((u32 *)(MMU.MMU_MEM[ARMCPU_ARM9][0x40]))[i] = val`. -/
def setU32 (i val : ℕ) : MmuState Display3D := t1Write .w32 .arm9Reg (i * 4) val s

/-- The end of the function: the write goes to the page. -/
def writePage (adr val : ℕ) : MmuState Display3D :=
  t1Write .w16 .arm9Reg (adr &&& mmuMask .arm9 (adr >>> 20)) val s

def setDisplay (d : Display3D) : MmuState Display3D := { s with dev := d }

/-- The part of `_MMU_ARM9_write16` that the registers from 0x04000330 to 0x040003BF reach. -/
def write16Display3D (adr val : ℕ) : MmuState Display3D :=
  if !validateIoRegsWrite adr then s
  else if s.dev.gfx3dRender = false ∧ 0x04000320 ≤ adr ∧ adr ≤ 0x040003FF then s
  else if adr >>> 4 ∈ [0x0400038, 0x0400039, 0x040003A, 0x040003B] then
    setDisplay (setU16 s ((adr &&& 0xFFF) >>> 1) val)
      (s.dev.updateToonTable ((adr &&& 0x3F) >>> 1) val)
  else if adr ∈ [0x00, 0x02, 0x04, 0x06, 0x08, 0x0A, 0x0C, 0x0E, 0x10, 0x12, 0x14, 0x16, 0x18, 0x1A,
      0x1C, 0x1E].map (eng3DFogTable + ·) then
    writePage s adr (val &&& 0x7F7F)
  else if adr = eng3DAlphaTestRef then
    setDisplay (setU16 s (0x340 >>> 1) val) (s.dev.glAlphaFunc val)
  else if adr = eng3DClearColor ∨ adr = eng3DClearColor + 2 then
    writePage (setDisplay s (s.dev.setClearColor (adr - eng3DClearColor) val)) adr val
  else if adr = eng3DClearDepth then
    setDisplay (setU16 s (0x354 >>> 1) val) (s.dev.glClearDepth val)
  else if adr = eng3DFogColor then
    setDisplay (setU16 s (0x358 >>> 1) val) (s.dev.glFogColor val)
  else if adr = eng3DFogOffset then
    -- the index of a 16-bit element in an array of 32-bit elements
    setDisplay (setU32 s (0x35C >>> 1) val) (s.dev.glFogOffset val)
  else writePage s adr val

end Write16

/-- The devices of a machine whose 3D display is the one above. -/
def display3D (rest : Devices Display3D) : Devices Display3D :=
  { rest with
    ioWrite := fun proc w adr val s =>
      if proc = .arm9 ∧ w = .w16 ∧ 0x04000330 ≤ adr ∧ adr ≤ 0x040003BF then write16Display3D s adr val
      else rest.ioWrite proc w adr val s }

/-- The bytes of the register file other than the two at `adr` are as before. -/
def KeepsOthers (adr : ℕ) (s s' : MmuState Display3D) : Prop :=
  ∀ a, a ≠ adr - 0x04000000 → a ≠ adr - 0x04000000 + 1 → s'.mem .arm9Reg a = s.mem .arm9Reg a

/-- The two bytes that a 16-bit write addresses got a value, or nothing changed. -/
def WritesHalf (adr : ℕ) (s s' : MmuState Display3D) : Prop :=
  s'.mem .arm9Reg = s.mem .arm9Reg ∨
    ∃ val, s'.mem .arm9Reg = store (s.mem .arm9Reg) (adr - 0x04000000) (leBytes 2 val)

section Frame

variable {s s' : MmuState Display3D} {adr val : ℕ}

theorem WritesHalf.keepsOthers (h : WritesHalf adr s s') : KeepsOthers adr s s' := by
  intro a hne hne'
  rcases h with h | ⟨v, h⟩
  · rw [h]
  · rw [h]
    rcases Nat.lt_or_ge a (adr - 0x04000000) with hlt | hge
    · exact store_of_lt _ _ hlt
    · apply store_of_le
      rw [length_leBytes]
      omega

theorem t1Write_regs (w : Width) (off val : ℕ) (s : MmuState Display3D) :
    (t1Write w .arm9Reg off val s).mem .arm9Reg =
      store (s.mem .arm9Reg) off (leBytes w.bytes val) := by
  unfold t1Write
  dsimp only
  rw [Function.update_self]

theorem writesHalf_setU16 {i : ℕ} (h : i * 2 = adr - 0x04000000) (d : Display3D) :
    WritesHalf adr s (setDisplay (setU16 s i val) d) := by
  refine .inr ⟨val, ?_⟩
  rw [← h]
  exact t1Write_regs .w16 _ val s

theorem writesHalf_writePage (hlo : 0x04000330 ≤ adr) (hhi : adr ≤ 0x040003BF) (d : Display3D) :
    WritesHalf adr s (writePage (setDisplay s d) adr val) := by
  have hpage : adr >>> 20 = 0x40 := by
    rw [Nat.shiftRight_eq_div_pow]
    omega
  have hoff : adr &&& mmuMask .arm9 (adr >>> 20) = adr - 0x04000000 := by
    rw [hpage, show mmuMask .arm9 0x40 = 0xFFFFFF from rfl,
      and_lowMask (n := 24) adr (by decide)]
    omega
  refine .inr ⟨val, ?_⟩
  rw [← hoff]
  exact t1Write_regs .w16 _ val _

/-- Every write but one to the fog offset goes to the bytes it addresses. -/
theorem write16Display3D_half (hlo : 0x04000330 ≤ adr) (hhi : adr ≤ 0x040003BF)
    (heven : adr % 2 = 0) (h : ¬ (adr = eng3DFogOffset ∧ s.dev.gfx3dRender = true)) :
    WritesHalf adr s (write16Display3D s adr val) := by
  have hpage : ∀ v d, WritesHalf adr s (writePage (setDisplay s d) adr v) := fun _ d =>
    writesHalf_writePage hlo hhi d
  unfold write16Display3D
  split_ifs with hvalid hpower htoon hfog halpha hcolor hdepth hfogColor hfogOffset
  · exact .inl rfl
  · exact .inl rfl
  · apply writesHalf_setU16
    rw [and_lowMask (n := 12) adr (by decide), Nat.shiftRight_eq_div_pow]
    omega
  · exact hpage (val &&& 0x7F7F) s.dev
  · exact writesHalf_setU16 (by rw [halpha]; rfl) _
  · exact hpage val _
  · exact writesHalf_setU16 (by rw [hdepth]; rfl) _
  · exact writesHalf_setU16 (by rw [hfogColor]; rfl) _
  · refine absurd ⟨hfogOffset, ?_⟩ h
    by_contra hoff
    exact hpower ⟨Bool.eq_false_of_not_eq_true hoff, by omega, by omega⟩
  · exact hpage val s.dev

/-- The fog offset is written as a word, at twice its offset in the page. -/
theorem write16Display3D_fogOffset (h : s.dev.gfx3dRender = true) :
    (write16Display3D s eng3DFogOffset val).mem .arm9Reg =
      store (s.mem .arm9Reg) 0x6B8 (leBytes 4 val) := by
  have hpower : ¬ (s.dev.gfx3dRender = false ∧ 0x04000320 ≤ eng3DFogOffset ∧
      eng3DFogOffset ≤ 0x040003FF) := by
    rintro ⟨hoff, -⟩
    rw [h] at hoff
    cases hoff
  unfold write16Display3D
  rw [if_neg (by decide), if_neg hpower, if_neg (by decide), if_neg (by decide),
    if_neg (by decide), if_neg (by decide), if_neg (by decide), if_neg (by decide), if_pos rfl]
  exact t1Write_regs .w32 _ val s

theorem keepsOthers_word (h : s'.mem .arm9Reg = store (s.mem .arm9Reg) 0x6B8 (leBytes 4 val)) :
    KeepsOthers eng3DFogOffset s s' ↔ load (s.mem .arm9Reg) 0x6B8 4 = leBytes 4 val := by
  have hself := store_eq_self_iff (s.mem .arm9Reg) 0x6B8 (leBytes 4 val)
  rw [length_leBytes] at hself
  rw [← hself, KeepsOthers, h]
  constructor
  · intro hkeeps
    funext a
    by_cases ha : a < 0x6B8
    · exact store_of_lt _ _ ha
    · apply hkeeps
      · unfold eng3DFogOffset
        omega
      · unfold eng3DFogOffset
        omega
  · intro hsame a _ _
    rw [hsame]

/-- A 16-bit write of the ARM9 to a register of the 3D display keeps the other bytes of the register
file exactly if it is not to the fog offset, or the display is off, or the bytes at 0x6B8 hold the
value already. -/
theorem write16_keepsOthers_iff (rest : Devices Display3D) (s : MmuState Display3D) (adr : ℕ)
    (val : BitVec 16) (hlo : 0x04000330 ≤ adr &&& 0x0FFFFFFE) (hhi : adr &&& 0x0FFFFFFE ≤ 0x040003BF) :
    ∃ s', mmuArm9Write (display3D rest) .w16 adr val.toNat s = some s' ∧
      (KeepsOthers (adr &&& 0x0FFFFFFE) s s' ↔
        (adr &&& 0x0FFFFFFE = eng3DFogOffset ∧ s.dev.gfx3dRender = true →
          load (s.mem .arm9Reg) 0x6B8 4 = leBytes 4 val.toNat)) := by
  have heven : (adr &&& 0x0FFFFFFE) % 2 = 0 := by
    have halign := and_adrMask .w16 adr
    rw [adrMask, align, Width.bytes] at halign
    omega
  unfold mmuArm9Write mmuArm9WriteWide
  dsimp only [adrMask]
  generalize adr &&& 0x0FFFFFFE = reg at hlo hhi heven
  have hslot2 : ¬ isSlot2 reg := by
    unfold isSlot2
    omega
  have hio : reg >>> 24 = 4 := by
    rw [Nat.shiftRight_eq_div_pow]
    omega
  refine ⟨write16Display3D s reg val.toNat, ?_, ?_⟩
  · rw [if_neg (by omega), if_neg hslot2, if_pos hio]
    exact congrArg some (if_pos ⟨rfl, rfl, hlo, hhi⟩)
  · by_cases hfog : reg = eng3DFogOffset ∧ s.dev.gfx3dRender = true
    · obtain ⟨rfl, hon⟩ := hfog
      rw [keepsOthers_word (write16Display3D_fogOffset hon)]
      exact ⟨fun h _ => h, fun h => h ⟨rfl, hon⟩⟩
    · refine iff_of_true ?_ (fun h => absurd h hfog)
      exact (write16Display3D_half hlo hhi heven hfog).keepsOthers

end Frame

/-- Handlers of other devices that are not there. -/
def bareDevices : Devices Display3D where
  slot2Read := fun _ _ _ s => (0, s)
  slot2Write := fun _ _ _ _ s => s
  ioRead := fun _ _ _ s => (0, s)
  ioWrite := fun _ _ _ _ s => s
  spuRead := fun _ _ s => (0, s)
  spuWrite := fun _ _ _ s => s
  wifiRead := fun _ _ s => (0, s)
  wifiWrite := fun _ _ _ s => s

/-- Cleared memory and a display that is switched on. -/
def clearedDisplay : MmuState Display3D where
  mem := fun _ _ => 0
  vram := Vram.vramReset Vram.zeroMapping
  dtcmRegion := 0x027C0000
  console := .retail
  arm7InstructAdr := 0
  dev := ⟨true, 0, 1, 0, 0, 0, true, fun _ => 0⟩

/-- The first edge color. -/
theorem write16_keepsOthers_edgeColor :
    ∃ s', mmuArm9Write (display3D bareDevices) .w16 0x04000330 (0x7FFF#16).toNat clearedDisplay =
        some s' ∧
      (KeepsOthers (0x04000330 &&& 0x0FFFFFFE) clearedDisplay s' ↔
        (0x04000330 &&& 0x0FFFFFFE = eng3DFogOffset ∧ clearedDisplay.dev.gfx3dRender = true →
          load (clearedDisplay.mem .arm9Reg) 0x6B8 4 = leBytes 4 (0x7FFF#16).toNat)) :=
  write16_keepsOthers_iff bareDevices clearedDisplay 0x04000330 0x7FFF (by decide) (by decide)

/-- A fog offset of 0x1234 ends up at 0x6B8, and its own two bytes stay as they are. -/
theorem write16_fogOffset_misplaced :
    ∃ s', mmuArm9Write (display3D bareDevices) .w16 0x0400035C 0x1234 clearedDisplay = some s' ∧
      clearedDisplay.mem .arm9Reg 0x6B8 = 0 ∧ s'.mem .arm9Reg 0x6B8 = 0x34 ∧
      s'.mem .arm9Reg 0x35C = 0 ∧ ¬ KeepsOthers 0x0400035C clearedDisplay s' := by
  refine ⟨_, rfl, rfl, rfl, rfl, fun h => ?_⟩
  have hbyte := h 0x6B8 (by decide) (by decide)
  cases hbyte

end Desmume.Video
