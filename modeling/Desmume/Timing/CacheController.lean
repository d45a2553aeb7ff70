import Desmume.Library.Run
import Desmume.Machine.Types
import Desmume.Memory.MmuDefs
import Mathlib.Data.Fin.Basic
import Mathlib.Logic.Function.Basic

/-! The cache that the timing model keeps to tell hits from misses, the shortcut it takes when an access
falls where the last one fell, and what an access of a processor to its data costs. -/

namespace Desmume.Timing
open Library Memory

/-- `MMU_ACCESS_DIRECTION`. -/
inductive AccessDirection where
  | read | write
  deriving DecidableEq, Repr

/-- The template parameters of `CacheController`, within what its shifts are defined for. -/
structure CacheShape where
  sizeShift : ℕ
  associativeShift : ℕ
  blockSizeShift : ℕ
  word : 2 ≤ blockSizeShift
  fits : associativeShift + blockSizeShift ≤ sizeShift
  range : sizeShift < 31

namespace CacheShape

variable (c : CacheShape)

def size : ℕ := 1 <<< c.sizeShift
def associativity : ℕ := 1 <<< c.associativeShift
def tagShift : ℕ := c.sizeShift - c.associativeShift
def tagMask : BitVec 32 := BitVec.allOnes 32 <<< c.tagShift
def blockMask : BitVec 32 :=
  (BitVec.allOnes 32 >>> (32 - c.tagShift)) &&& (BitVec.allOnes 32 <<< c.blockSizeShift)
def wordSize : ℕ := 4
def wordsPerBlock : ℕ := (1 <<< c.blockSizeShift) / wordSize
def dataPerWord : ℕ := wordSize * c.associativity
def dataPerBlock : ℕ := c.dataPerWord * c.wordsPerBlock
def numBlocks : ℕ := c.size / c.dataPerBlock

end CacheShape

/-- `arm9codeCache`: 8192 bytes, 4-way associative, 32-byte blocks. -/
def arm9CodeCache : CacheShape := ⟨13, 2, 5, by decide, by decide, by decide⟩

/-- `arm9dataCache`: 4096 bytes, 4-way associative, 32-byte blocks. -/
def arm9DataCache : CacheShape := ⟨12, 2, 5, by decide, by decide, by decide⟩

structure CacheBlock (c : CacheShape) where
  tag : Fin c.associativity → BitVec 32
  nextWay : Fin c.associativity

structure CacheController (c : CacheShape) where
  cacheCache : BitVec 32
  blocks : Fin c.numBlocks → CacheBlock c

namespace CacheShape

variable (c : CacheShape)

theorem associativity_pos : 0 < c.associativity := by
  rw [associativity, Nat.one_shiftLeft]
  exact Nat.two_pow_pos _

theorem numBlocks_eq : c.numBlocks = 2 ^ (c.tagShift - c.blockSizeShift) := by
  have hword := c.word
  have hfits := c.fits
  have hwords : c.wordsPerBlock = 2 ^ (c.blockSizeShift - 2) := by
    rw [wordsPerBlock, Nat.one_shiftLeft, wordSize, show (4 : ℕ) = 2 ^ 2 from rfl,
      Nat.pow_div hword (by decide)]
  have hdata : c.dataPerBlock = 2 ^ (c.associativeShift + c.blockSizeShift) := by
    rw [dataPerBlock, dataPerWord, hwords, associativity, Nat.one_shiftLeft, wordSize,
      show (4 : ℕ) = 2 ^ 2 from rfl, ← Nat.pow_add, ← Nat.pow_add]
    congr 1
    omega
  rw [numBlocks, hdata, size, Nat.one_shiftLeft, Nat.pow_div hfits (by decide), tagShift]
  congr 1
  omega

/-- The block that a masked address selects. -/
theorem blockIndex_lt (addr : BitVec 32) :
    ((addr &&& c.blockMask) >>> c.blockSizeShift).toNat < c.numBlocks := by
  have hrange := c.range
  have hfits := c.fits
  have hle : (addr &&& c.blockMask).toNat ≤ (BitVec.allOnes 32 >>> (32 - c.tagShift)).toNat := by
    rw [blockMask, BitVec.toNat_and, BitVec.toNat_and]
    exact Nat.and_le_right.trans Nat.and_le_left
  have hones : (BitVec.allOnes 32 >>> (32 - c.tagShift)).toNat < 2 ^ c.tagShift := by
    rw [BitVec.toNat_ushiftRight, BitVec.toNat_allOnes, Nat.shiftRight_eq_div_pow]
    apply Nat.div_lt_of_lt_mul
    rw [← Nat.pow_add, Nat.sub_add_cancel (by rw [tagShift]; omega)]
    exact Nat.sub_lt (Nat.two_pow_pos _) Nat.one_pos
  rw [numBlocks_eq, BitVec.toNat_ushiftRight, Nat.shiftRight_eq_div_pow]
  apply Nat.div_lt_of_lt_mul
  rw [← Nat.pow_add, Nat.add_sub_cancel' (by rw [tagShift]; omega)]
  exact Nat.lt_of_le_of_lt hle hones

def blockIndex (addr : BitVec 32) : Fin c.numBlocks :=
  ⟨((addr &&& c.blockMask) >>> c.blockSizeShift).toNat, c.blockIndex_lt addr⟩

end CacheShape

namespace CacheController

variable {c : CacheShape}

/-- The state after `Reset`. -/
def reset : CacheController c where
  cacheCache := ~~~0
  blocks := fun _ => { tag := fun _ => 0, nextWay := ⟨0, c.associativity_pos⟩ }

/-- `block.tag[block.nextWay++] = addr`, where the way wraps around. -/
def allocate (block : CacheBlock c) (addr : BitVec 32) : CacheBlock c where
  tag := Function.update block.tag block.nextWay addr
  nextWay := ⟨(block.nextWay + 1) % c.associativity, Nat.mod_lt _ c.associativity_pos⟩

theorem allocate_tag (block : CacheBlock c) (addr : BitVec 32) :
    (allocate block addr).tag block.nextWay = addr :=
  Function.update_self ..

def cachedInternal (dir : AccessDirection) (addr : BitVec 32) (s : CacheController c) :
    Bool × CacheController c :=
  let blockMasked := addr &&& c.blockMask
  let block := s.blocks (c.blockIndex addr)
  let tag := addr &&& c.tagMask
  if ∃ way, tag = block.tag way then (true, { s with cacheCache := blockMasked })
  else
    match dir with
    | .read =>
      (false,
        { cacheCache := blockMasked
          blocks := Function.update s.blocks (c.blockIndex addr) (allocate block tag) })
    | .write => (false, s)

def cached (dir : AccessDirection) (addr : BitVec 32) (s : CacheController c) :
    Bool × CacheController c :=
  if addr &&& c.blockMask = s.cacheCache then (true, s) else cachedInternal dir addr s

/-- The access of a run: its direction and its address. -/
abbrev Access := AccessDirection × BitVec 32

def lookup (a : Access) : CacheController c → Bool × CacheController c := cachedInternal a.1 a.2

def shortLookup (a : Access) : CacheController c → Bool × CacheController c := cached a.1 a.2

/-- The access falls in the block that is remembered. -/
def Remembered (s : CacheController c) (a : Access) : Prop := a.2 &&& c.blockMask = s.cacheCache

/-- One of the ways of its block holds the tag of the access. -/
def Resident (s : CacheController c) (a : Access) : Prop :=
  ∃ way, a.2 &&& c.tagMask = (s.blocks (c.blockIndex a.2)).tag way

instance (s : CacheController c) (a : Access) : Decidable (Remembered s a) :=
  inferInstanceAs (Decidable (_ = _))

instance (s : CacheController c) (a : Access) : Decidable (Resident s a) :=
  inferInstanceAs (Decidable (∃ _, _))

theorem lookup_resident {s : CacheController c} {a : Access} (h : Resident s a) :
    lookup a s = (true, { s with cacheCache := a.2 &&& c.blockMask }) := by
  unfold lookup cachedInternal
  exact if_pos h

theorem lookup_read {s : CacheController c} {addr : BitVec 32} (h : ¬ Resident s (.read, addr)) :
    lookup (.read, addr) s =
      (false,
        { cacheCache := addr &&& c.blockMask
          blocks := Function.update s.blocks (c.blockIndex addr)
            (allocate (s.blocks (c.blockIndex addr)) (addr &&& c.tagMask)) }) := by
  unfold lookup cachedInternal
  exact if_neg h

theorem lookup_write {s : CacheController c} {addr : BitVec 32} (h : ¬ Resident s (.write, addr)) :
    lookup (.write, addr) s = (false, s) := by
  unfold lookup cachedInternal
  exact if_neg h

theorem lookup_hit_iff (s : CacheController c) (a : Access) :
    (lookup a s).1 = true ↔ Resident s a := by
  by_cases h : Resident s a
  · rw [lookup_resident h]
    exact iff_of_true rfl h
  · refine iff_of_false (fun hhit => ?_) h
    obtain ⟨dir, addr⟩ := a
    cases dir with
    | read =>
      rw [lookup_read h] at hhit
      cases hhit
    | write =>
      rw [lookup_write h] at hhit
      cases hhit

theorem isShortcut :
    IsShortcut (lookup (c := c)) shortLookup Remembered true where
  outside s a h := if_neg h
  inside s a h := if_pos h
  idle s a h hhit := by
    have hmask : a.2 &&& c.blockMask = s.cacheCache := h
    rw [lookup_resident ((lookup_hit_iff s a).mp hhit), hmask]

/-- The shortcut gives the same answers and leaves the same tags as the full lookup on every access
exactly if no access falls in the remembered block with a tag that no way of the block holds. -/
theorem run_shortLookup_iff (s : CacheController c) (accesses : List Access) :
    (answers shortLookup s accesses = answers lookup s accesses ∧
        (run (next shortLookup) s accesses).blocks = (run (next lookup) s accesses).blocks) ↔
      AtEach (next shortLookup) (fun s a => Remembered s a → Resident s a) s accesses := by
  have hiff := (isShortcut (c := c)).answers_iff s accesses
  have hrun : _ → run (next shortLookup) s accesses = run (next lookup) s accesses :=
    (isShortcut (c := c)).run_eq
  simp only [lookup_hit_iff] at hiff hrun
  constructor
  · rintro ⟨hanswers, -⟩
    exact hiff.mp hanswers
  · intro h
    exact ⟨hiff.mpr h, congrArg blocks (hrun h)⟩

/-- Two tags in one block of the data cache: the second read hits by the shortcut and misses
otherwise, and only otherwise its tag is stored. -/
theorem shortLookup_otherTag :
    ∃ accesses : List Access, accesses = [(.read, 0x02000000), (.read, 0x02000400)] ∧
      answers shortLookup (reset (c := arm9DataCache)) accesses = [false, true] ∧
      answers lookup (reset (c := arm9DataCache)) accesses = [false, false] ∧
      ¬ Resident (run (next shortLookup) (reset (c := arm9DataCache)) accesses)
        (.read, 0x02000400) ∧
      Resident (run (next lookup) (reset (c := arm9DataCache)) accesses) (.read, 0x02000400) := by
  refine ⟨_, rfl, ?_⟩
  decide

/-! ### Accesses with one tag to a block -/

theorem masked_ne (addr : BitVec 32) : addr &&& c.blockMask ≠ ~~~0 := by
  intro h
  have hword := c.word
  have hbit : (addr &&& c.blockMask).getLsbD 0 = false := by
    rw [BitVec.getLsbD_and, CacheShape.blockMask, BitVec.getLsbD_and, BitVec.getLsbD_shiftLeft]
    simp
    omega
  rw [h] at hbit
  cases hbit

theorem reset_remembers_nothing (a : Access) : ¬ Remembered (reset (c := c)) a :=
  masked_ne a.2

/-- After an access the block that is remembered is as before, or it is that of the access and holds
its tag. -/
theorem next_shortLookup (s : CacheController c) (a : Access) :
    next shortLookup s a = s ∨
      Remembered (next shortLookup s a) a ∧ Resident (next shortLookup s a) a := by
  rcases Classical.em (Remembered s a) with hrem | hrem
  · left
    rw [next, isShortcut.inside s a hrem]
  · rw [next, isShortcut.outside s a hrem]
    rcases Classical.em (Resident s a) with hres | hres
    · right
      rw [lookup_resident hres]
      exact ⟨rfl, hres⟩
    · obtain ⟨dir, addr⟩ := a
      cases dir with
      | read =>
        right
        rw [lookup_read hres]
        refine ⟨rfl, (s.blocks (c.blockIndex addr)).nextWay, ?_⟩
        show addr &&& c.tagMask = CacheBlock.tag (Function.update s.blocks (c.blockIndex addr) _
          (c.blockIndex addr)) _
        rw [Function.update_self, allocate_tag]
      | write =>
        left
        rw [lookup_write hres]

/-- Where no two accesses bring different tags to one block, the line last remembered is resident
whenever the shortcut is taken. -/
theorem atEach_of_oneTag {accesses : List Access}
    (htag : ∀ a ∈ accesses, ∀ b ∈ accesses, a.2 &&& c.blockMask = b.2 &&& c.blockMask →
      a.2 &&& c.tagMask = b.2 &&& c.tagMask) :
    AtEach (next shortLookup) (fun s a => Remembered s a → Resident s a) (reset (c := c))
      accesses := by
  have hall : ∀ (rest : List Access) (s : CacheController c), (∀ a ∈ rest, a ∈ accesses) →
      (∀ a, Remembered s a → ∃ b ∈ accesses, Remembered s b ∧ Resident s b) →
      AtEach (next shortLookup) (fun s a => Remembered s a → Resident s a) s rest := by
    intro rest
    induction rest with
    | nil => exact fun _ _ _ => trivial
    | cons a rest ih =>
      intro s hmem hline
      have ha := hmem a List.mem_cons_self
      refine ⟨fun hrem => ?_, ih _ (fun b hb => hmem b (List.mem_cons_of_mem a hb)) ?_⟩
      · obtain ⟨b, hb, hremb, way, hway⟩ := hline a hrem
        have hblock : a.2 &&& c.blockMask = b.2 &&& c.blockMask := hrem.trans hremb.symm
        have hindex : c.blockIndex a.2 = c.blockIndex b.2 := by
          unfold CacheShape.blockIndex
          simp only [hblock]
        refine ⟨way, ?_⟩
        rw [htag a ha b hb hblock, hindex]
        exact hway
      · rcases next_shortLookup s a with hsame | hnew
        · rw [hsame]
          exact hline
        · exact fun _ _ => ⟨a, ha, hnew⟩
  exact hall accesses reset (fun _ h => h) fun a ha => absurd ha (reset_remembers_nothing a)

end CacheController

/-! ### The cost of an access -/

/-- The part of `MMU_timing` that data accesses go through, and the settings that it reads. -/
structure DataTiming where
  advanced_timing : Bool
  DTCMRegion : BitVec 32
  arm9dataCache : CacheController arm9DataCache
  /-- `m_lastAddress` of `armDataFetch<PROCNUM>`. -/
  lastAddress : Proc → BitVec 32

/-- An access to data: `READSIZE`, `DIRECTION` and the address. -/
structure MemAccess where
  size : Width
  dir : AccessDirection
  adr : BitVec 32
  deriving DecidableEq

/-- `MC`. -/
def waitMC : ℕ := 1

/-- `M32`. -/
def waitM32 : Proc → ℕ
  | .arm9 => 2
  | .arm7 => 1

/-- `M16`. -/
def waitM16 (proc : Proc) (size : Width) : ℕ := waitM32 proc * if size = .w32 then 2 else 1

/-- `MSLW`. -/
def waitMSLW (proc : Proc) (size : Width) : ℕ := waitM16 proc size * 8

/-- `MMU_WAIT`. -/
def mmuWait (proc : Proc) (size : Width) (region : ℕ) : ℕ :=
  match region % 16 with
  | 0 | 1 => waitMC
  | 2 | 5 | 6 => waitM16 proc size
  | 8 | 9 | 10 => waitMSLW proc size
  | _ => waitM32 proc

/-- `_MMU_accesstime` for `MMU_AT_DATA`. -/
def accesstime (proc : Proc) (size : Width) (dir : AccessDirection) (timing : Bool)
    (addr : BitVec 32) (sequential : Bool) (t : DataTiming) : ℕ × DataTiming :=
  if timing ∧ proc = .arm9 ∧ addr &&& ~~~0x3FFF = t.DTCMRegion then (waitMC, t)
  else if timing ∧ proc = .arm9 ∧ addr &&& 0x0F000000 = 0x02000000 then
    let (cached, arm9dataCache) := t.arm9dataCache.cached dir addr
    let t := { t with arm9dataCache }
    if cached then (waitMC, t)
    else
      let c :=
        if sequential then waitM16 proc size
        else
          match dir with
          | .read => waitM16 proc size * 5
          | .write => waitM16 proc size * 2
      match dir with
      | .read => (c + 8 * waitM32 proc * 2, t)
      | .write => (c, t)
  else
    let c := mmuWait proc size (addr >>> 24).toNat
    if timing && !sequential then (c + (if proc = .arm9 then 3 * 2 else 1), t) else (c, t)

/-- `FetchAccessUnit::Fetch` for `MMU_AT_DATA`. -/
def fetch (proc : Proc) (size : Width) (dir : AccessDirection) (timing : Bool) (address : BitVec 32)
    (t : DataTiming) : ℕ × DataTiming :=
  let sequential :=
    if timing then address == t.lastAddress proc + BitVec.ofNat 32 size.bytes else true
  let (time, t) := accesstime proc size dir timing address sequential t
  (time, { t with lastAddress := Function.update t.lastAddress proc address })

/-- `addr & ~((READSIZE>>3)-1)`. -/
def align (size : Width) (addr : BitVec 32) : BitVec 32 := addr &&& ~~~(BitVec.ofNat 32 size.bytes - 1)

/-- `MMU_memAccessCycles`. -/
def memAccessCycles (proc : Proc) (a : MemAccess) (t : DataTiming) : ℕ × DataTiming :=
  fetch proc a.size a.dir t.advanced_timing (align a.size a.adr) t

/-- `MMU_aluMemCycles`. -/
def aluMemCycles (proc : Proc) (aluCycles memCycles : ℕ) : ℕ :=
  if proc = .arm9 then max aluCycles memCycles else aluCycles + memCycles

theorem align_align (size : Width) (addr : BitVec 32) : align size (align size addr) = align size addr := by
  rw [align, align, BitVec.and_assoc, BitVec.and_self]

theorem lastAddress_memAccessCycles (proc : Proc) (a : MemAccess) (t : DataTiming) :
    (memAccessCycles proc a t).2.lastAddress proc = align a.size a.adr := Function.update_self ..

/-- Off the ARM9 there are the wait states and nothing else. -/
theorem memAccessCycles_arm7 {t : DataTiming} (h : t.advanced_timing = true) (a : MemAccess) :
    memAccessCycles .arm7 a t =
      (mmuWait .arm7 a.size (align a.size a.adr >>> 24).toNat +
          (if align a.size a.adr = t.lastAddress .arm7 + BitVec.ofNat 32 a.size.bytes then 0 else 1),
        { t with lastAddress := Function.update t.lastAddress .arm7 (align a.size a.adr) }) := by
  obtain ⟨timing, region, cache, lastAddress⟩ := t
  obtain rfl : timing = true := h
  simp only [memAccessCycles, fetch, accesstime, reduceCtorEq, false_and, and_false, if_false,
    if_true, Bool.true_and, Bool.not_eq_true', beq_eq_false_iff_ne, ne_eq, ite_not]
  split_ifs <;> rfl

end Desmume.Timing
