import Desmume.Library.BitFields
import Desmume.Vram.VramInvariant

/-! `MMU_LCDmap`: CPU addresses of the shared WRAM and VRAM windows, taken to addresses of the
blocks that hold the data. -/

namespace Desmume.Vram
open Library

def vramArm9Pages : ℕ := 512
def lcdcHackyLocation : ℕ := 0x06000000
def arm7HackyIwramLocation : ℕ := 0x03800000
def arm7HackySiwramLocation : ℕ := 0x03000000

def arm7SiwramBlocks : Fin 2 → Fin 4 → Fin 4 → ℕ :=
  ![![![0, 1, 2, 3], ![4, 4, 4, 4], ![5, 5, 5, 5], ![4, 5, 4, 5]],
    ![![0, 1, 2, 3], ![0, 1, 2, 3], ![0, 1, 2, 3], ![0, 1, 2, 3]]]

def arm9SiwramBlocks : Fin 4 → Fin 4 → ℕ :=
  ![![4, 5, 4, 5], ![5, 5, 5, 5], ![4, 4, 4, 4], ![8, 8, 8, 8]]

/-- The address that `MMU_LCDmap` returns and its two flags. -/
structure LcdMapped where
  addr : ℕ
  unmapped : Bool
  restricted : Bool
  deriving DecidableEq

/-- The 16KB block that the WRAM window shows at an address. -/
def iwramBlock16k (proc : Proc) (s : VramState) (addr : ℕ) : ℕ :=
  let block := Fin.ofNat 4 (addr >>> 14)
  match proc with
  | .arm7 => arm7SiwramBlocks (Fin.ofNat 2 (addr >>> 23)) s.wramcnt block
  | .arm9 => arm9SiwramBlocks s.wramcnt block

/-- The WRAM window of `MMU_LCDmap`; no result when its assertion fails. -/
def wramMap (proc : Proc) (s : VramState) (addr : ℕ) : Option LcdMapped :=
  let iwramOffset := addr &&& 0x3FFF
  let block := iwramBlock16k proc s (addr &&& 0x00FFFFFF)
  match block >>> 2 with
  | 0 => some ⟨arm7HackyIwramLocation + (block <<< 14) + iwramOffset, false, false⟩
  | 1 => some ⟨arm7HackySiwramLocation + ((block &&& 3) <<< 14) + iwramOffset, false, false⟩
  | 2 => some ⟨0, true, false⟩
  | _ => none

def arm7VramMap (s : VramState) (addr : ℕ) : Option LcdMapped := do
  let ofs := addr &&& 0x1FFFF
  let page ← s.map.arm7Map[(addr >>> 17) &&& 1]?
  if page = vramPageUnmapped then return ⟨0, true, false⟩
  else return ⟨lcdcHackyLocation + (page <<< 14) + ofs, false, false⟩

/-- Addresses behind the last LCDC page fall back to one of two pages. -/
def lcdMirror (addr : ℕ) : ℕ :=
  if addr ≥ 0x068A4000 then 0x06800000 + (addr &&& 0x80000) else addr

/-- The page behind an address of the LCDC or of the BG and OBJ range. -/
def arm9VramPage (s : VramState) (addr : ℕ) : Option ℕ :=
  if addr ≥ 0x06800000 then s.map.lcdcMap[(addr >>> 14) &&& 63]?
  else s.map.arm9Map[(addr >>> 14) &&& (vramArm9Pages - 1)]?

def arm9VramMap (s : VramState) (addr : ℕ) : Option LcdMapped := do
  let addr := lcdMirror addr
  let ofs := addr &&& 0x3FFF
  let page ← arm9VramPage s addr
  if page = vramPageUnmapped then return ⟨0, true, true⟩
  else return ⟨lcdcHackyLocation + (page <<< 14) + ofs, false, true⟩

/-- `MMU_LCDmap`; no result when an assertion fails. -/
def mmuLcdmap (proc : Proc) (s : VramState) (addr : ℕ) : Option LcdMapped :=
  if 0x03000000 ≤ addr ∧ addr < 0x04000000 then wramMap proc s addr
  else if addr < 0x06000000 then some ⟨addr, false, false⟩
  else if addr ≥ 0x07000000 then some ⟨addr, false, false⟩
  else
    match proc with
    | .arm7 => arm7VramMap s addr
    | .arm9 => arm9VramMap s addr

/-! Where the result lies. -/

/-- An address of the shared WRAM or of the WRAM of the ARM7. -/
def InWram (addr : ℕ) : Prop :=
  (∃ off < 0x8000, addr = arm7HackySiwramLocation + off) ∨
    ∃ off < 0x10000, addr = arm7HackyIwramLocation + off

/-- An address of the 656KB of VRAM. -/
def InLcd (addr : ℕ) : Prop := ∃ off < 0xA4000, addr = lcdcHackyLocation + off

theorem iwramBlock16k_cases (proc : Proc) (s : VramState) (addr : ℕ) :
    iwramBlock16k proc s addr < 6 ∨ iwramBlock16k proc s addr = 8 := by
  have h7 : ∀ r w b, arm7SiwramBlocks r w b < 6 := by decide
  have h9 : ∀ w b, arm9SiwramBlocks w b < 6 ∨ arm9SiwramBlocks w b = 8 := by decide
  cases proc with
  | arm7 => exact .inl (h7 ..)
  | arm9 => exact h9 ..

theorem wramMap_inWram (proc : Proc) (s : VramState) (addr : ℕ) :
    ∃ r, wramMap proc s addr = some r ∧ (r.unmapped = true ∨ InWram r.addr) := by
  have hofs : addr &&& 0x3FFF = addr % 2 ^ 14 := and_lowMask addr rfl
  unfold wramMap
  generalize hblock : iwramBlock16k proc s (addr &&& 0x00FFFFFF) = block
  have hcases := iwramBlock16k_cases proc s (addr &&& 0x00FFFFFF)
  rw [hblock] at hcases
  have hlt : addr &&& 0x3FFF < 0x4000 := by omega
  have hsome : block = 0 ∨ block = 1 ∨ block = 2 ∨ block = 3 ∨ block = 4 ∨ block = 5 ∨
      block = 8 := by omega
  rcases hsome with rfl | rfl | rfl | rfl | rfl | rfl | rfl
  · exact ⟨_, rfl, .inr (.inr ⟨(0 <<< 14) + (addr &&& 0x3FFF), by omega, Nat.add_assoc ..⟩)⟩
  · exact ⟨_, rfl, .inr (.inr ⟨(1 <<< 14) + (addr &&& 0x3FFF), by omega, Nat.add_assoc ..⟩)⟩
  · exact ⟨_, rfl, .inr (.inr ⟨(2 <<< 14) + (addr &&& 0x3FFF), by omega, Nat.add_assoc ..⟩)⟩
  · exact ⟨_, rfl, .inr (.inr ⟨(3 <<< 14) + (addr &&& 0x3FFF), by omega, Nat.add_assoc ..⟩)⟩
  · exact ⟨_, rfl, .inr (.inl ⟨(0 <<< 14) + (addr &&& 0x3FFF), by omega, Nat.add_assoc ..⟩)⟩
  · exact ⟨_, rfl, .inr (.inl ⟨(1 <<< 14) + (addr &&& 0x3FFF), by omega, Nat.add_assoc ..⟩)⟩
  · exact ⟨_, rfl, .inl rfl⟩

variable {s : VramState}

theorem arm7VramMap_inLcd (hs : MapValid s.map) (addr : ℕ) :
    ∃ r, arm7VramMap s addr = some r ∧ (r.unmapped = true ∨ InLcd r.addr) := by
  have hofs : addr &&& 0x1FFFF = addr % 2 ^ 17 := and_lowMask addr rfl
  have hbank : (addr >>> 17) &&& 1 < 2 := by
    have := and_lowMask (addr >>> 17) (show 1 = 2 ^ 1 - 1 from rfl)
    omega
  have hpage := hs.arm7 _ hbank
  simp only [arm7VramMap, Vector.getElem?_eq_getElem hbank, Option.bind_eq_bind, Option.bind_some]
  split_ifs with hun
  · exact ⟨_, rfl, .inl rfl⟩
  · refine ⟨_, rfl, .inr ⟨_, ?_, Nat.add_assoc ..⟩⟩
    rw [Nat.shiftLeft_eq, hofs]
    rcases hpage with h | h | h
    · rw [h]
      omega
    · rw [h]
      omega
    · exact absurd h hun

theorem lcdMirror_lt {addr : ℕ} (h : addr < 0x07000000) : lcdMirror addr < 0x068A4000 := by
  unfold lcdMirror
  split_ifs with hge
  · have hle : addr &&& 0x80000 ≤ 0x80000 := Nat.and_le_right
    omega
  · omega

theorem arm9VramPage_le (hs : MapValid s.map) {addr : ℕ} (hlt : addr < 0x068A4000) :
    ∃ page, arm9VramPage s addr = some page ∧ page ≤ vramPageUnmapped := by
  unfold arm9VramPage
  split_ifs with hge
  · have hmask := and_lowMask (addr >>> 14) (show 63 = 2 ^ 6 - 1 from rfl)
    rw [Nat.shiftRight_eq_div_pow] at hmask ⊢
    have hi : (addr / 2 ^ 14) &&& 63 < 41 := by omega
    exact ⟨_, Vector.getElem?_eq_getElem hi, hs.lcdc _ hi⟩
  · have hmask := and_lowMask (addr >>> 14) (show vramArm9Pages - 1 = 2 ^ 9 - 1 from rfl)
    have hi : (addr >>> 14) &&& (vramArm9Pages - 1) < 512 := by omega
    exact ⟨_, Vector.getElem?_eq_getElem hi, hs.arm9 _ hi⟩

theorem arm9VramMap_inLcd (hs : MapValid s.map) {addr : ℕ} (hlt : addr < 0x07000000) :
    ∃ r, arm9VramMap s addr = some r ∧ (r.unmapped = true ∨ InLcd r.addr) := by
  have hmirror := lcdMirror_lt hlt
  have hofs : lcdMirror addr &&& 0x3FFF = lcdMirror addr % 2 ^ 14 := and_lowMask _ rfl
  obtain ⟨page, hpage, hle⟩ := arm9VramPage_le hs hmirror
  simp only [arm9VramMap, hpage, Option.bind_eq_bind, Option.bind_some]
  split_ifs with hun
  · exact ⟨_, rfl, .inl rfl⟩
  · refine ⟨_, rfl, .inr ⟨_, ?_, Nat.add_assoc ..⟩⟩
    rw [Nat.shiftLeft_eq, hofs]
    simp only [vramPageUnmapped] at hle hun
    omega

/-- What `MMU_LCDmap` gives for an address, by the window it lies in. -/
def LcdMapGood (addr : ℕ) (r : LcdMapped) : Prop :=
  r.unmapped = true ∨
    if 0x03000000 ≤ addr ∧ addr < 0x04000000 then InWram r.addr
    else if 0x06000000 ≤ addr ∧ addr < 0x07000000 then InLcd r.addr
    else r.addr = addr

theorem mmuLcdmap_good (hs : MapValid s.map) (proc : Proc) (addr : ℕ) :
    ∃ r, mmuLcdmap proc s addr = some r ∧ LcdMapGood addr r := by
  unfold mmuLcdmap LcdMapGood
  split_ifs with hw hlo hv hhi hv hv
  · exact wramMap_inWram proc s addr
  · exact absurd hv (by omega)
  · exact ⟨_, rfl, .inr rfl⟩
  · exact absurd hv (by omega)
  · exact ⟨_, rfl, .inr rfl⟩
  · cases proc with
    | arm7 => exact arm7VramMap_inLcd hs addr
    | arm9 => exact arm9VramMap_inLcd hs hv.2
  · exact absurd (And.intro (by omega) (by omega)) hv

/-- After any sequence of control writes no assertion fails, the page tables hold valid pages,
and every CPU address is unmapped or is taken to a byte of a block that exists. -/
theorem vramRun_lcdmap (m : VramMapping) (ws : List (Fin 10 × BitVec 8)) :
    ∃ s, vramRun m ws = some s ∧
      AllEntries (· ≤ vramPageUnmapped) s.map.arm9Map ∧
      AllEntries (· ≤ vramPageUnmapped) s.map.arm7Map ∧
      AllEntries (· ≤ vramPageUnmapped) s.map.lcdcMap ∧
      ∀ proc addr, ∃ r, mmuLcdmap proc s addr = some r ∧ LcdMapGood addr r := by
  obtain ⟨s, hs, hinv⟩ := vramRun_inv m ws
  have harm7 : AllEntries (· ≤ vramPageUnmapped) s.map.arm7Map := fun i hi => by
    rcases hinv.valid.arm7 i hi with h | h | h <;> rw [h] <;> decide
  exact ⟨s, hs, hinv.valid.arm9, harm7, hinv.valid.lcdc, mmuLcdmap_good hinv.valid⟩

end Desmume.Vram
