import Desmume.Memory.MmuAccess

/-! Plain memory as an array of bytes, for every pair of access widths. -/

namespace Desmume.Memory
open Library Vram

variable {δ : Type}

/-- There is mapped plain memory at an address. -/
def Plain (proc : Proc) (s : MmuState δ) (addr : ℕ) : Prop := ∃ l, byteCell proc s addr = some l

/-- The cells behind the bytes of an access. -/
def accessCells (proc : Proc) (s : MmuState δ) (w : Width) (addr : ℕ) : List (Option Cell) :=
  (List.range' (align w addr) w.bytes).map (byteCell proc s)

def readCells (m : Block → ℕ → Byte) (cs : List Cell) : List Byte := cs.map fun c => m c.1 c.2

def writeCells (m : Block → ℕ → Byte) : List Cell → List Byte → Block → ℕ → Byte
  | c :: cs, b :: bs => writeCells (Function.update m c.1 (Function.update (m c.1) c.2 b)) cs bs
  | _, _ => m

/-- A write at `a`, whatever the value and the contents of memory, changes the cells behind its
bytes and no others, unless it is one of the ignored ones; a read at `b` after it returns what the
cells behind its bytes then hold. -/
def MemoryLaw (dev : Devices δ) (proc : Proc) (s : MmuState δ) (w : Width) (a : ℕ) (w' : Width)
    (b : ℕ) : Prop :=
  ∀ (mem : Block → ℕ → Byte) (val : ℕ), ∃ ca cb : List Cell,
    accessCells proc s w a = ca.map some ∧ accessCells proc s w' b = cb.map some ∧
    let mem' := if ByteWriteIgnored proc s w a then mem
      else writeCells mem ca (leBytes w.bytes val)
    mmuWrite dev proc .data w a val { s with mem := mem } = some { s with mem := mem' } ∧
      mmuRead dev proc .data w' b { s with mem := mem' } =
        some (ofLeBytes (readCells mem' cb), { s with mem := mem' })

/-! Runs of cells. -/

def cellRun (l : Cell) (n : ℕ) : List Cell := (List.range' l.2 n).map (Prod.mk l.1)

theorem readCells_cellRun (m : Block → ℕ → Byte) (l : Cell) (n : ℕ) :
    readCells m (cellRun l n) = load (m l.1) l.2 n := by
  rw [readCells, cellRun, List.map_map, load]
  rfl

theorem writeCells_cellRun (m : Block → ℕ → Byte) (l : Cell) (bs : List Byte) :
    writeCells m (cellRun l bs.length) bs =
      Function.update m l.1 (store (m l.1) l.2 bs) := by
  induction bs generalizing m l with
  | nil =>
    rw [store_nil, Function.update_eq_self]
    rfl
  | cons b bs ih =>
    have hrun : cellRun l (b :: bs).length = l :: cellRun (l.1, l.2 + 1) bs.length := rfl
    rw [hrun, writeCells, ih, store_cons, Function.update_self, Function.update_idem]

variable {proc : Proc} {s : MmuState δ} {addr : ℕ}

/-- Outside of the mirror the cells of an access are a run from an aligned cell on. -/
theorem accessCells_eq_run (hp : Plain proc s addr) (hm : ¬ InLcdMirror proc s addr) (w : Width) :
    ∃ l, byteCell proc s (align w addr) = some l ∧ l.2 % w.bytes = 0 ∧
      accessCells proc s w addr = (cellRun l w.bytes).map some := by
  obtain ⟨c, i, hc, haddr, halign, hi, hib⟩ := align_word w addr
  have hmod : addr % 4 < 4 := Nat.mod_lt _ (by decide)
  have hmc : ¬ InLcdMirror proc s c := by
    rw [haddr] at hm
    exact (inLcdMirror_word hc hmod).not.mp hm
  have hword (j : ℕ) (hj : j < 4) : byteCell proc s (c + j) =
      (byteCell proc s c).map fun l => (l.1, l.2 + j) := byteCell_word hc hj hmc
  obtain ⟨x, hx⟩ := hp
  rw [haddr, hword _ hmod] at hx
  obtain ⟨l, hl, -⟩ := Option.map_eq_some_iff.mp hx
  have hl4 := byteCell_aligned hc hl
  have hcell (j : ℕ) (hj : j < 4) : byteCell proc s (c + j) = some (l.1, l.2 + j) := by
    rw [hword j hj, hl]
    rfl
  refine ⟨(l.1, l.2 + i), ?_, ?_, ?_⟩
  · have hpos : 0 < w.bytes := by cases w <;> decide
    rw [halign, hcell i (by omega)]
  · cases w <;> simp only [Width.bytes] at hib ⊢ <;> omega
  · rw [accessCells, cellRun, List.map_map, List.range'_eq_map_range, List.range'_eq_map_range,
      List.map_map, List.map_map]
    refine List.map_congr_left fun j hj => ?_
    have hjw := List.mem_range.mp hj
    simp only [Function.comp_apply]
    rw [halign, Nat.add_assoc, hcell (i + j) (by omega), Nat.add_assoc]

theorem accessCells_mirror (hp : Plain proc s addr) (hm : InLcdMirror proc s addr) (w : Width) :
    ∃ l, l.2 % 4 = 0 ∧ byteCell proc s (align w addr) = some l ∧
      accessCells proc s w addr = (List.replicate w.bytes l).map some := by
  have hmod : addr % 4 < 4 := Nat.mod_lt _ (by decide)
  obtain ⟨c, i, hc, haddr, halign, hi, -⟩ := align_word w addr
  have hmc : InLcdMirror proc s c := by
    rw [haddr] at hm
    exact (inLcdMirror_word hc hmod).mp hm
  obtain ⟨l, hl⟩ := hp
  rw [haddr, byteCell_mirror hc hmod hmc] at hl
  have hpos : 0 < w.bytes := by cases w <;> decide
  have hcell (j : ℕ) (hj : j < w.bytes) : byteCell proc s (align w addr + j) = some l := by
    rw [halign, Nat.add_assoc, byteCell_mirror hc (by omega) hmc, hl]
  refine ⟨l, byteCell_aligned hc hl, hcell 0 hpos, ?_⟩
  rw [accessCells, List.range'_eq_map_range, List.map_map, List.map_replicate]
  refine List.eq_replicate_iff.mpr ⟨by rw [List.length_map, List.length_range], fun x hx => ?_⟩
  obtain ⟨j, hj, rfl⟩ := List.mem_map.mp hx
  exact hcell j (List.mem_range.mp hj)

/-- A byte is a run also in the mirror. -/
theorem accessCells_run (hp : Plain proc s addr) {w : Width}
    (hm : InLcdMirror proc s addr → w = .w8) :
    ∃ l, byteCell proc s (align w addr) = some l ∧ l.2 % w.bytes = 0 ∧
      accessCells proc s w addr = (cellRun l w.bytes).map some := by
  by_cases hmirror : InLcdMirror proc s addr
  · obtain ⟨l, -, hl, hcells⟩ := accessCells_mirror hp hmirror w
    rw [hm hmirror] at hl hcells ⊢
    exact ⟨l, hl, Nat.mod_one _, hcells⟩
  · exact accessCells_eq_run hp hmirror w

/-! The law holds but for the wide accesses to the mirror. -/

variable (dev : Devices δ) {a b : ℕ} {w w' : Width}

/-- Where the cells are does not depend on what they hold. -/
theorem mmuWrite_setMem (mem : Block → ℕ → Byte) (val : ℕ) {l : Cell}
    (h : byteCell proc s (align w a) = some l) :
    mmuWrite dev proc .data w a val { s with mem := mem } =
      some (if ByteWriteIgnored proc s w a then { s with mem := mem }
        else t1Write w l.1 l.2 val { s with mem := mem }) :=
  mmuWrite_of_cell dev (s := { s with mem := mem }) val h

theorem mmuRead_setMem (mem : Block → ℕ → Byte) {l : Cell}
    (h : byteCell proc s (align w b) = some l) (hl : l.2 % w.bytes = 0) :
    mmuRead dev proc .data w b { s with mem := mem } =
      some (ofLeBytes (load (mem l.1) l.2 w.bytes), { s with mem := mem }) :=
  mmuRead_of_cell dev (s := { s with mem := mem }) h hl

theorem memoryLaw_of_not_mirror (ha : Plain proc s a) (hb : Plain proc s b)
    (hma : InLcdMirror proc s a → w = .w8) (hmb : InLcdMirror proc s b → w' = .w8) :
    MemoryLaw dev proc s w a w' b := by
  intro mem val
  obtain ⟨la, hla, -, hca⟩ := accessCells_run ha hma
  obtain ⟨lb, hlb, hlb0, hcb⟩ := accessCells_run hb hmb
  refine ⟨_, _, hca, hcb, ?_, ?_⟩
  · rw [mmuWrite_setMem dev mem val hla]
    split_ifs
    · rfl
    · have hwrite := writeCells_cellRun mem la (leBytes w.bytes val)
      rw [length_leBytes] at hwrite
      rw [t1Write, hwrite]
  · rw [readCells_cellRun]
    exact mmuRead_setMem dev _ hlb hlb0

theorem cells_eq {cs ds : List Cell} (h : cs.map some = ds.map some) : cs = ds :=
  List.map_injective_iff.mpr (Option.some_injective _) h

/-- A wide write to the mirror also writes the cell behind the one that its bytes share. -/
theorem not_memoryLaw_of_write_mirror (ha : Plain proc s a) (hma : InLcdMirror proc s a)
    (hw : w ≠ .w8) : ¬ MemoryLaw dev proc s w a w' b := by
  intro hlaw
  obtain ⟨l, -, hcell, hcells⟩ := accessCells_mirror ha hma w
  obtain ⟨ca, cb, hca, -, hwrite, -⟩ := hlaw (fun _ _ => 0) 0x100
  have hl := cells_eq (hca.symm.trans hcells)
  have hign : ¬ ByteWriteIgnored proc s w a := fun hi => hw hi.2.1
  rw [mmuWrite_setMem dev _ 0x100 hcell, if_neg hign, if_neg hign, hl] at hwrite
  have hnext := congrFun (congrFun (congrArg MmuState.mem (Option.some.inj hwrite)) l.1) (l.2 + 1)
  rw [t1Write] at hnext
  cases w with
  | w8 => exact hw rfl
  | w16 => simp [store, leBytes, Width.bytes, writeCells] at hnext
  | w32 => simp [store, leBytes, Width.bytes, writeCells, List.replicate] at hnext

theorem writeCells_same (mem : Block → ℕ → Byte) (l : Cell) (n : ℕ) :
    writeCells mem (cellRun l n) (leBytes n (ofLeBytes (load (mem l.1) l.2 n))) = mem := by
  have hbytes := leBytes_ofLeBytes (load (mem l.1) l.2 n)
  rw [length_load] at hbytes
  have hwrite := writeCells_cellRun mem l (load (mem l.1) l.2 n)
  rw [length_load, store_load, Function.update_eq_self] at hwrite
  rw [hbytes, hwrite]

/-- A wide read from the mirror returns the cell behind the one that its bytes share. -/
theorem not_memoryLaw_of_read_mirror (ha : Plain proc s a) (hma : InLcdMirror proc s a → w = .w8)
    (hb : Plain proc s b) (hmb : InLcdMirror proc s b) (hw' : w' ≠ .w8) :
    ¬ MemoryLaw dev proc s w a w' b := by
  intro hlaw
  obtain ⟨l, hl4, hcell, hcells⟩ := accessCells_mirror hb hmb w'
  obtain ⟨la, -, -, hla⟩ := accessCells_run ha hma
  let mem : Block → ℕ → Byte := fun _ off => if off = l.2 + 1 then 1 else 0
  obtain ⟨ca, cb, hca, hcb, -, hread⟩ := hlaw mem (ofLeBytes (load (mem la.1) la.2 w.bytes))
  have hsame : (if ByteWriteIgnored proc s w a then mem
      else writeCells mem ca (leBytes w.bytes (ofLeBytes (load (mem la.1) la.2 w.bytes)))) =
      mem := by
    rw [cells_eq (hca.symm.trans hla), writeCells_same, ite_self]
  simp only [hsame] at hread
  have hl0 : l.2 % w'.bytes = 0 := by cases w' <;> simp only [Width.bytes] <;> omega
  rw [mmuRead_setMem dev mem hcell hl0, cells_eq (hcb.symm.trans hcells)] at hread
  have hval := congrArg Prod.fst (Option.some.inj hread)
  cases w' with
  | w8 => exact hw' rfl
  | w16 => simp [load, readCells, ofLeBytes, Width.bytes, mem, List.range'] at hval
  | w32 => simp [load, readCells, ofLeBytes, Width.bytes, mem, List.range', List.replicate] at hval

/-- In a reachable configuration plain memory lies within its blocks, and it is an array of bytes
to a write and a read after it exactly when neither is a wide access to the LCDC mirror of the
ARM9. -/
theorem mmu_memoryLaw_iff {m : VramMapping} {ws : List (Fin 10 × BitVec 8)}
    (hreach : vramRun m ws = some s.vram) (ha : Plain proc s a) (hb : Plain proc s b) :
    (∀ addr l, byteCell proc s addr = some l → l.2 < l.1.size) ∧
      (MemoryLaw dev proc s w a w' b ↔
        (InLcdMirror proc s a → w = .w8) ∧ (InLcdMirror proc s b → w' = .w8)) := by
  obtain ⟨v, hv, hinv⟩ := vramRun_inv m ws
  obtain rfl := Option.some.inj (hreach.symm.trans hv)
  refine ⟨fun addr l hl => byteCell_lt hinv.valid hl, fun hlaw => ?_,
    fun h => memoryLaw_of_not_mirror dev ha hb h.1 h.2⟩
  have hma : InLcdMirror proc s a → w = .w8 := fun hma => by
    by_contra hw
    exact not_memoryLaw_of_write_mirror dev ha hma hw hlaw
  refine ⟨hma, fun hmb => ?_⟩
  by_contra hw'
  exact not_memoryLaw_of_read_mirror dev ha hma hb hmb hw' hlaw

/-! The law and its failure right after a reset. -/

/-- Handlers of devices that are not there. -/
def noDevices : Devices Unit where
  slot2Read := fun _ _ _ s => (0, s)
  slot2Write := fun _ _ _ _ s => s
  ioRead := fun _ _ _ s => (0, s)
  ioWrite := fun _ _ _ _ s => s
  spuRead := fun _ _ s => (0, s)
  spuWrite := fun _ _ _ s => s
  wifiRead := fun _ _ s => (0, s)
  wifiWrite := fun _ _ _ s => s

/-- Cleared memory, the DTCM at its usual place. -/
def clearedState (v : VramState) : MmuState Unit where
  mem := fun _ _ => 0
  vram := v
  dtcmRegion := 0x027C0000
  console := .retail
  arm7InstructAdr := 0
  dev := ()

theorem mmu_memoryLaw_sample :
    ∃ v, vramRun zeroMapping [] = some v ∧
      MemoryLaw noDevices .arm9 (clearedState v) .w32 0x02000000 .w8 0x02000002 := by
  refine ⟨vramReset zeroMapping, rfl, ?_⟩
  exact (mmu_memoryLaw_iff noDevices (vramRun_nil zeroMapping) ⟨(.mainMem, 0), rfl⟩
    ⟨(.mainMem, 2), rfl⟩).2.mpr ⟨by decide, fun _ => rfl⟩

/-- Bank E alone, in LCDC mode. -/
def bankELcdc (bank : VramBank) : BitVec 8 := if bank = .e then 0x80 else 0

theorem remap_bankELcdc {m m' : VramMapping} (h : remap bankELcdc m = some m') :
    m'.lcdcMap[32] = 32 := by
  obtain ⟨m₁, h₁, hmap⟩ := remap_lcdcMap h
  have hpage : (refreshOrder.foldlM (fun m bank => vramMapRefreshBank bank (bankELcdc bank) m)
      m.cleared).map (fun m => m.lcdcMap[32]) = some 32 := rfl
  rw [h₁] at hpage
  rw [hmap]
  exact Option.some.inj hpage

theorem not_dtcmHit_cleared {v : VramState} {addr : ℕ} (h : addr &&& 0xFFFFC000 ≠ 0x027C0000) :
    ¬ dtcmHit .arm9 addr (clearedState v) := fun hd => h hd.2

/-- With bank E mapped there, its first cell is behind the upper half of the mirror. -/
theorem byteCell_bankELcdc {v : VramState} (h : v.map.lcdcMap[32] = 32) (addr : ℕ)
    (hd : addr &&& 0xFFFFC000 ≠ 0x027C0000)
    (hrange : 0x06000000 ≤ addr % 2 ^ 28 ∧ addr % 2 ^ 28 < 0x07000000)
    (hmirror : lcdMirror (addr % 2 ^ 28) = 0x06880000) :
    byteCell .arm9 (clearedState v) addr = some (.arm9Lcd, 0x80000) := by
  have hpage : arm9VramPage (clearedState v).vram 0x06880000 = some 32 :=
    (Vector.getElem?_eq_getElem (by decide)).trans (congrArg some h)
  rw [byteCell_of_slow (not_dtcmHit_cleared hd) (.inr (.inl hrange)), lcdAddr_arm9 _ hrange,
    hmirror, hpage]
  rfl

/-- The halfword 0x0201 written at the start of the mirror reads back as the byte 0x01 at the
address of its second byte. -/
theorem mmu_mirror_shows_first_byte :
    ∃ v, vramRun zeroMapping [(4, 0x80)] = some v ∧
      (∃ s', mmuWrite noDevices .arm9 .data .w16 0x068A4000 0x0201 (clearedState v) = some s' ∧
        mmuRead noDevices .arm9 .data .w8 0x068A4001 s' = some (0x01, s')) ∧
      ¬ MemoryLaw noDevices .arm9 (clearedState v) .w16 0x068A4000 .w8 0x068A4001 := by
  obtain ⟨v, hv, hinv⟩ := vramRun_inv zeroMapping [(4, 0x80)]
  have hcnt : v.cnt = bankELcdc := by
    funext bank
    rw [VramState.cnt, foldlM_vramcnt hv]
    cases bank <;> rfl
  have hpage := remap_bankELcdc (hcnt ▸ hinv.derived zeroMapping)
  have hcell := byteCell_bankELcdc hpage 0x068A4000 (by decide) (by decide) (by decide)
  have hnext := byteCell_bankELcdc hpage 0x068A4001 (by decide) (by decide) (by decide)
  have hwide : ¬ ByteWriteIgnored .arm9 (clearedState v) .w16 0x068A4000 := fun hi => by
    cases hi.2.1
  refine ⟨v, hv, ⟨_, mmuWrite_of_cell noDevices (w := .w16) (l := (.arm9Lcd, 0x80000)) 0x0201 hcell,
    ?_⟩, ?_⟩
  · rw [if_neg hwide, t1Write, mmuRead_setMem noDevices _ (l := (.arm9Lcd, 0x80000)) hnext rfl,
      Function.update_self]
    rfl
  · exact not_memoryLaw_of_write_mirror noDevices ⟨_, hcell⟩
      ⟨rfl, not_dtcmHit_cleared (by decide), by decide, by decide⟩ (by decide)

end Desmume.Memory
