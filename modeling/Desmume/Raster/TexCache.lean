import Desmume.Library.Run
import Desmume.Raster.TexSpans

/-! The texture cache as a store: what it keeps of a texture to recognise it again, and what it does when
the memory of the textures is configured anew. The decoder reads no more than what the cache compares. -/

namespace Desmume.Raster
open Library

/-- What is in the slots of the textures and of their palettes. -/
structure TexMemory where
  texture : ℕ → ℕ → BitVec 8
  palette : ℕ → ℕ → BitVec 8

/-! ### The spans -/

section MemSpan

variable (mem : ℕ → ℕ → BitVec 8)

/-- The loop of `MemSpan::dump`, with so many bytes to copy. -/
def dumpItems : List SpanItem → ℕ → List (BitVec 8)
  | [], _ => []
  | item :: items, size =>
    let todo := min item.len size
    ((List.range todo).map fun x => mem item.slot (item.start + x)) ++
      if size - todo = 0 then [] else dumpItems items (size - todo)

/-- `MemSpan::dump`. -/
def MemSpan.dump (ms : MemSpan) (size : ℕ) : List (BitVec 8) := dumpItems mem ms.items (min ms.size size)

/-- The loop of `MemSpan::memcmp`: whether it finds no difference. -/
def sameItems (buf : ℕ → BitVec 8) : List SpanItem → ℕ → Bool
  | [], _ => true
  | item :: items, size =>
    let todo := min item.len size
    if (List.range todo).all fun x => mem item.slot (item.start + x) == buf (item.ofs + x) then
      if size - todo = 0 then true else sameItems buf items (size - todo)
    else false

/-- `MemSpan::memcmp(buf, size) == 0`. -/
def MemSpan.same (ms : MemSpan) (buf : ℕ → BitVec 8) (size : ℕ) : Bool :=
  sameItems mem buf ms.items (min ms.size size)

end MemSpan

/-! ### What is decoded -/

section Inputs

variable (m : TexMemory) (format texpal : BitVec 32)

/-- `pal`, the copy of the palette. -/
def palCopy : List (BitVec 8) :=
  (paletteSpan format texpal).dump m.palette (paletteSpan format texpal).size

/-- The bytes that a read of a decoder brings. -/
def TexMemory.value (pal : List (BitVec 8)) : TexRead → List (BitVec 8)
  | .texture slot off len => (List.range len).map fun x => m.texture slot (off + x)
  | .palette slot off len => (List.range len).map fun x => m.palette slot (off + x)
  | .entry i => (List.range 2).map fun x => pal.getD (2 * i + x) 0

/-- All that the decoder sees, in its order. -/
def decodeInputs : List (List (BitVec 8)) :=
  (decodeReads m.texture format texpal).map (m.value (palCopy m format texpal))

end Inputs

/-! ### The store -/

/-- `TexCache_TexFormat`. -/
inductive TexFormat where
  | bpp32 | bpp15
  deriving DecidableEq

/-- `TexCacheItem::Dump`. -/
structure TexDump where
  textureSize : ℕ
  indexSize : ℕ
  texture : ℕ → BitVec 8
  palette : List (BitVec 8)

/-- `TexCacheItem`, with the decoded texture as the decoder makes it. -/
structure TexCacheItem (α : Type*) where
  decodeLen : ℕ
  decoded : α
  suspectedInvalid : Bool
  assumedInvalid : Bool
  texformat : BitVec 32
  texpal : BitVec 32
  cacheFormat : TexFormat
  dump : TexDump

/-- `TexCache`. The items of the multimap are in its order. -/
structure TexCache (α : Type*) where
  index : List (TexCacheItem α)
  cacheSize : BitVec 32
  paletteDump : ℕ → BitVec 8

/-- How the loop of `scan` ends: it finds nothing, or an item to return or to throw away. -/
inductive Found (α : Type*) where
  | nothing
  | accepted (item : TexCacheItem α)
  | rejected (item : TexCacheItem α)

def maxTextureSize : ℕ := 128 * 1024

def kMaxCacheSize : BitVec 32 := 16 * 1024 * 1024

def PALETTE_DUMP_SIZE : ℕ := (64 + 16 + 16) * 1024

namespace TexCache

section Scan

variable {α : Type*} (decode : TexFormat → BitVec 32 → BitVec 32 → List (List (BitVec 8)) → α)
  (m : TexMemory) (texFormat : TexFormat) (format texpal : BitVec 32)

/-- The comparisons with the copies that an item has, where it is suspected. -/
def sameDump (curr : TexCacheItem α) : Bool :=
  let mspal := paletteSpan format texpal
  (mspal.size == 0 || curr.dump.palette.take mspal.size == (palCopy m format texpal).take mspal.size) &&
    (textureSpan format).same m.texture curr.dump.texture curr.dump.textureSize &&
      (textureMode format != texmode4X4 ||
        (indexSpan format).same m.texture (fun i => curr.dump.texture (curr.dump.textureSize + i))
          curr.dump.indexSize)

/-- The conditions that lead to `REJECT`. -/
def reject (curr : TexCacheItem α) : Bool :=
  curr.cacheFormat != texFormat || curr.assumedInvalid ||
    (curr.suspectedInvalid && !sameDump m format texpal curr)

/-- The loop of `scan` over the items of the format. -/
def scanItems : List (TexCacheItem α) → List (TexCacheItem α) × Found α
  | [] => ([], .nothing)
  | curr :: rest =>
    if curr.texformat ≠ format ∨ curr.texpal ≠ texpal then
      let (rest, found) := scanItems rest
      (curr :: rest, found)
    else if reject m texFormat format texpal curr then (rest, .rejected curr)
    else
      let curr := { curr with suspectedInvalid := false }
      (curr :: rest, .accepted curr)

/-- The copies of a new item. What `new` brings is in the rest of the buffer. -/
def newDump (heap : ℕ → BitVec 8) : TexDump :=
  let ms := textureSpan format
  let msIndex := indexSpan format
  let texture := ms.dump m.texture maxTextureSize
  let index := msIndex.dump m.texture msIndex.size
  { textureSize := ms.size
    indexSize := msIndex.size
    texture := fun i =>
      if i < texture.length then texture.getD i 0
      else if ms.size ≤ i ∧ i < ms.size + index.length then index.getD (i - ms.size) 0
      else heap i
    palette := (palCopy m format texpal).take (palSize format * 2) }

def newItem (heap : ℕ → BitVec 8) : TexCacheItem α where
  decodeLen := sizeX format * sizeY format * 4
  decoded := decode texFormat format texpal (decodeInputs m format texpal)
  suspectedInvalid := false
  assumedInvalid := false
  texformat := format
  texpal := texpal
  cacheFormat := texFormat
  dump := newDump m format texpal heap

variable (cache : TexCache α)

/-- `list_remove`, for an item that is out of the index already. -/
def listRemove (item : TexCacheItem α) : TexCache α :=
  { cache with cacheSize := cache.cacheSize - BitVec.ofNat 32 item.decodeLen }

/-- `list_push_front`: behind the items of the same format. -/
def listPushFront (item : TexCacheItem α) : TexCache α :=
  { cache with
    index := cache.index.takeWhile (fun other => decide (other.texformat ≤ item.texformat)) ++
      item :: cache.index.dropWhile fun other => decide (other.texformat ≤ item.texformat)
    cacheSize := cache.cacheSize + BitVec.ofNat 32 item.decodeLen }

/-- `scan`, which `TexCache_SetTexture` calls: the cache and the item that is returned. -/
def scan (heap : ℕ → BitVec 8) : TexCache α × TexCacheItem α :=
  let (index, found) := scanItems m texFormat format texpal cache.index
  let cache := { cache with index }
  let item := newItem decode m texFormat format texpal heap
  match found with
  | .accepted curr => (cache, curr)
  | .rejected curr => ((cache.listRemove curr).listPushFront item, item)
  | .nothing => (cache.listPushFront item, item)

/-- The span that `invalidate` has a copy of. -/
def mspal : MemSpan := memSpanTexPalette 0 PALETTE_DUMP_SIZE true

def paletteDirty : Bool := !mspal.same m.palette cache.paletteDump mspal.size

/-- `invalidate`. -/
def invalidate : TexCache α where
  index := cache.index.map fun item => { item with
    suspectedInvalid := true
    assumedInvalid :=
      if textureMode item.texformat = texmode4X4 ∧ cache.paletteDirty m then true
      else item.assumedInvalid }
  cacheSize := cache.cacheSize
  paletteDump :=
    if cache.paletteDirty m then
      fun i => (mspal.dump m.palette mspal.size).getD i (cache.paletteDump i)
    else cache.paletteDump

/-- The loop of `evict`. -/
def evictItems (target : BitVec 32) :
    List (TexCacheItem α) → BitVec 32 → List (TexCacheItem α) × BitVec 32
  | [], cacheSize => ([], cacheSize)
  | item :: items, cacheSize =>
    if cacheSize > target then evictItems target items (cacheSize - BitVec.ofNat 32 item.decodeLen)
    else (item :: items, cacheSize)

/-- `evict`. -/
def evict (target : BitVec 32) : TexCache α :=
  if cache.cacheSize < target then cache
  else
    let (index, cacheSize) := evictItems (target / 2) cache.index cache.cacheSize
    { cache with index, cacheSize }

end Scan

end TexCache

/-- The calls of the cache. The memory changes when the banks are mapped anew, and the renderer gets a
signal then. -/
inductive TexAct where
  | reconfigure (m : TexMemory)
  | setTexture (texFormat : TexFormat) (format texpal : BitVec 32) (heap : ℕ → BitVec 8)
  | evictFrame
  | reset

structure TexSystem (α : Type*) where
  cache : TexCache α
  mem : TexMemory

section System

variable {α : Type*} (decode : TexFormat → BitVec 32 → BitVec 32 → List (List (BitVec 8)) → α)

/-- The constructor, with all slots at `blank_memory`. -/
def TexSystem.initial : TexSystem α := ⟨⟨[], 0, fun _ => 0⟩, ⟨fun _ _ => 0, fun _ _ => 0⟩⟩

def TexSystem.step (s : TexSystem α) : TexAct → TexSystem α
  | .reconfigure m => ⟨s.cache.invalidate m, m⟩
  | .setTexture texFormat format texpal heap =>
    { s with cache := (s.cache.scan decode s.mem texFormat format texpal heap).1 }
  | .evictFrame => { s with cache := s.cache.evict kMaxCacheSize }
  | .reset => { s with cache := s.cache.evict 0 }

end System

/-! ### Copies of spans -/

section Copies

variable {mem mem' : ℕ → ℕ → BitVec 8} {buf : ℕ → BitVec 8} {ms : MemSpan}

/-- The buffer holds what is in the span. -/
def MemSpan.Holds (ms : MemSpan) (mem : ℕ → ℕ → BitVec 8) (buf : ℕ → BitVec 8) : Prop :=
  ∀ item ∈ ms.items, ∀ x < item.len, mem item.slot (item.start + x) = buf (item.ofs + x)

/-- Two memories have the same bytes in the span. -/
def MemSpan.Agree (ms : MemSpan) (mem mem' : ℕ → ℕ → BitVec 8) : Prop :=
  ∀ item ∈ ms.items, ∀ x < item.len, mem item.slot (item.start + x) = mem' item.slot (item.start + x)

theorem MemSpan.Holds.agree (h : ms.Holds mem buf) (h' : ms.Holds mem' buf) : ms.Agree mem mem' :=
  fun item hitem x hx => (h item hitem x hx).trans (h' item hitem x hx).symm

section Items

variable (k : ℕ) (slot : BitVec 32 → ℕ) (ofs : BitVec 32) (len currofs : ℕ)

theorem spanItems_zero : spanItems k slot ofs 0 currofs = [] := by rw [spanItems, dif_pos rfl]

theorem length_dumpItems : (dumpItems mem (spanItems k slot ofs len currofs) len).length = len := by
  fun_induction spanItems k slot ofs len currofs with
  | case1 ofs currofs => rfl
  | case2 ofs len currofs hlen start n ih =>
    have hn : min n len = n := Nat.min_eq_left (Nat.min_le_left ..)
    have hle : n ≤ len := Nat.min_le_left ..
    simp only [dumpItems, hn, List.length_append, List.length_map, List.length_range]
    split_ifs with hlast
    · rw [List.length_nil]
      omega
    · rw [ih]
      omega

theorem dumpItems_getD (d : BitVec 8) : ∀ item ∈ spanItems k slot ofs len currofs, ∀ x < item.len,
    (dumpItems mem (spanItems k slot ofs len currofs) len).getD (item.ofs - currofs + x) d =
      mem item.slot (item.start + x) := by
  fun_induction spanItems k slot ofs len currofs with
  | case1 ofs currofs => exact fun item hitem => absurd hitem List.not_mem_nil
  | case2 ofs len currofs hlen start n ih =>
    have hn : min n len = n := Nat.min_eq_left (Nat.min_le_left ..)
    intro item hitem x hx
    simp only [dumpItems, hn]
    rcases List.mem_cons.mp hitem with rfl | hitem
    · rw [Nat.sub_self, Nat.zero_add, List.getD_append _ _ _ _ (by simpa using hx)]
      simp [List.getD_eq_getElem?_getD, List.getElem?_map, List.getElem?_range hx]
    · have hspec := spanItems_spec k slot (ofs + BitVec.ofNat 32 n) (len - n) (currofs + n) item hitem
      have hlow := hspec.low
      have hlast : len - n ≠ 0 := by
        intro hzero
        rw [hzero, spanItems_zero] at hitem
        exact absurd hitem List.not_mem_nil
      have hpos : item.ofs - currofs + x - n = item.ofs - (currofs + n) + x := by omega
      rw [if_neg hlast, List.getD_append_right _ _ _ _ (by simp; omega), List.length_map,
        List.length_range, hpos]
      exact ih item hitem x hx

theorem sameItems_iff : sameItems mem buf (spanItems k slot ofs len currofs) len = true ↔
    ∀ item ∈ spanItems k slot ofs len currofs, ∀ x < item.len,
      mem item.slot (item.start + x) = buf (item.ofs + x) := by
  fun_induction spanItems k slot ofs len currofs with
  | case1 ofs currofs => simp [sameItems]
  | case2 ofs len currofs hlen start n ih =>
    have hn : min n len = n := Nat.min_eq_left (Nat.min_le_left ..)
    rw [List.forall_mem_cons, ← ih]
    simp only [sameItems, hn]
    by_cases hlast : len - n = 0
    · rw [hlast, spanItems_zero]
      simp [sameItems, List.all_eq_true]
    · simp [hlast, List.all_eq_true]

end Items

end Copies

/-! ### What the decoder sees -/

section Seen

variable {m m' : TexMemory} {format texpal : BitVec 32}

/-- All that the comparisons of a scan look at, and the palettes of the compressed textures. -/
structure SameSeen (m m' : TexMemory) (format texpal : BitVec 32) : Prop where
  pal : palCopy m format texpal = palCopy m' format texpal
  texture : (textureSpan format).Agree m.texture m'.texture
  index : textureMode format = texmode4X4 → (indexSpan format).Agree m.texture m'.texture
  palette : textureMode format = texmode4X4 →
    ∀ slot < 6, ∀ off < 2 ^ 14, m.palette slot off = m'.palette slot off

/-- The two memories have the same bytes for a read. -/
def SameRead (m m' : TexMemory) : TexRead → Prop
  | .texture slot off len => ∀ x < len, m.texture slot (off + x) = m'.texture slot (off + x)
  | .palette slot off len => ∀ x < len, m.palette slot (off + x) = m'.palette slot (off + x)
  | .entry _ => True

theorem value_congr (pal : List (BitVec 8)) {r : TexRead} (h : SameRead m m' r) :
    m.value pal r = m'.value pal r := by
  cases r with
  | texture slot off len => exact List.map_congr_left fun x hx => h x (List.mem_range.mp hx)
  | palette slot off len => exact List.map_congr_left fun x hx => h x (List.mem_range.mp hx)
  | entry i => rfl

theorem byteReads_congr {ms : MemSpan} (h : ms.Agree m.texture m'.texture)
    (indices : BitVec 8 → List (BitVec 8)) :
    byteReads m.texture indices ms = byteReads m'.texture indices ms ∧
      ∀ r ∈ byteReads m.texture indices ms, SameRead m m' r := by
  constructor
  · refine List.flatMap_congr fun item hitem => List.flatMap_congr fun x hx => ?_
    rw [h item hitem x (List.mem_range.mp hx)]
  · intro r hr
    obtain ⟨item, hitem, hr⟩ := List.mem_flatMap.mp hr
    obtain ⟨x, hx, hr⟩ := List.mem_flatMap.mp hr
    rcases List.mem_cons.mp hr with rfl | hr
    · intro y hy
      rw [Nat.lt_one_iff.mp hy]
      exact h item hitem x (List.mem_range.mp hx)
    · obtain ⟨i, -, rfl⟩ := List.mem_map.mp hr
      exact trivial

theorem reads16BPP_same {ms : MemSpan} (h : ms.Agree m.texture m'.texture) :
    ∀ r ∈ reads16BPP ms, SameRead m m' r := by
  intro r hr
  obtain ⟨item, hitem, hr⟩ := List.mem_flatMap.mp hr
  obtain ⟨x, hx, rfl⟩ := List.mem_map.mp hr
  have hx := List.mem_range.mp hx
  intro y hy
  rw [Nat.add_assoc]
  exact h item hitem (2 * x + y) (by omega)

section Compressed

variable (hmode : textureMode format = texmode4X4)
include hmode

/-- The index data of a texture that does not leave its slot is all in the first item of its span. -/
theorem slot1_same (h : (indexSpan format).Agree m.texture m'.texture)
    (hfits : textureStart format + texSize format ≤ 2 ^ 17) {d : ℕ} (hd : d < blocks format) :
    ∀ x < 2, m.texture 1 (slot1Offset format d + x) = m'.texture 1 (slot1Offset format d + x) := by
  obtain ⟨htex, hpos⟩ := texSize_4X4 hmode
  have himage : indexSize format = 2 * blocks format := by
    have hsize : texSizes.getD (textureMode format) 0 = 1 := by
      rw [hmode]
      rfl
    obtain ⟨a, b, -, -, -, -, hx, hy⟩ := exists_sides format
    rw [texSize, hsize] at htex
    rw [indexSize, if_pos hmode]
    have hfour : imageSize format = 64 * (a * b) := by
      rw [imageSize, hx, hy]
      ring
    omega
  obtain ⟨items, hitems⟩ := spanItems_cons 17 texSlot (indexOffset format + indexBase format) 0
    (show indexSize format ≠ 0 by omega)
  have hhead : (indexSpan format).items = _ :: items := hitems
  have hagree := h _ (hhead ▸ List.mem_cons_self)
  have hoffset := indexOffset_eq format
  have hstart : (indexOffset format + indexBase format).toNat % 2 ^ 17 + 2 * d = slot1Offset format d := by
    rw [BitVec.toNat_add, indexBase, slot1Offset]
    split_ifs
    · change (_ + 0x30000) % 2 ^ 32 % 2 ^ 17 + _ = _
      omega
    · change (_ + 0x20000) % 2 ^ 32 % 2 ^ 17 + _ = _
      omega
  have hle : slot1Offset format d + 2 ≤ 2 ^ 17 := slot1Offset_le (by omega)
  intro x hx
  have hin := hagree (2 * d + x) (lt_min (by omega) (by omega))
  dsimp only at hin
  rwa [index_slot, ← Nat.add_assoc, hstart] at hin

theorem reads4X4_congr (h : SameSeen m m' format texpal) (hfits : CompressedFits m.texture format texpal) :
    reads4X4 m.texture format texpal = reads4X4 m'.texture format texpal ∧
      ∀ r ∈ reads4X4 m.texture format texpal, SameRead m m' r := by
  obtain ⟨htex, hpos⟩ := texSize_4X4 hmode
  obtain ⟨items, hitems⟩ := spanItems_cons 17 texSlot ((format &&& 0xFFFF#32) <<< 3) 0
    (show texSize format ≠ 0 by omega)
  have hhead : (textureSpan format).items = _ :: items := hitems
  have hstart : textureStart format + texSize format ≤ 2 ^ 17 := hfits.1
  have hslot1 (d : ℕ) (hd : d ∈ List.range (blocks format)) :=
    slot1_same hmode (h.index hmode) hstart (List.mem_range.mp hd)
  constructor
  · rw [reads4X4, reads4X4, hhead]
    refine List.flatMap_congr fun d hd => ?_
    have hpal1 : pal1At m.texture format d = pal1At m'.texture format d := by
      refine readWord_congr fun a ha ha' => ?_
      have hin := hslot1 d hd (a - slot1Offset format d) (by omega)
      rwa [Nat.add_sub_cancel' ha] at hin
    rw [blockReads, blockReads, hpal1]
  · intro r hr
    rw [reads4X4, hhead] at hr
    obtain ⟨d, hd, hr⟩ := List.mem_flatMap.mp hr
    have hlt := List.mem_range.mp hd
    split_ifs at hr with hlimit
    · exact absurd hr List.not_mem_nil
    · rcases List.mem_cons.mp hr with rfl | hr
      · intro x hx
        have hlast : 4 * d + x < min (texSize format) (2 ^ 17 - textureStart format) :=
          lt_min (by omega) (by omega)
        rw [Nat.add_assoc]
        exact h.texture _ (hhead ▸ List.mem_cons_self) (4 * d + x) hlast
      · rcases List.mem_cons.mp hr with rfl | hr
        · exact hslot1 d hd
        · obtain ⟨offset, hoffset, rfl⟩ := List.mem_map.mp hr
          have hin : (pal4X4 format texpal offset).Inside format :=
            (inside_pal4X4_iff format texpal offset).mpr (hfits.2 d hlt offset hoffset)
          exact fun x hx => h.palette hmode _ hin.1 _ (by have := hin.2; omega)

end Compressed

/-- The decoder reads no more than what is compared. -/
theorem decodeInputs_congr (h : SameSeen m m' format texpal)
    (hfits : textureMode format = texmode4X4 → CompressedFits m.texture format texpal) :
    decodeInputs m format texpal = decodeInputs m' format texpal := by
  have hreads : decodeReads m.texture format texpal = decodeReads m'.texture format texpal ∧
      ∀ r ∈ decodeReads m.texture format texpal, SameRead m m' r := by
    have hbytes (indices : BitVec 8 → List (BitVec 8)) := byteReads_congr h.texture indices
    simp only [decodeReads]
    split_ifs with hA3I5 hI2 hI4 hI8 h4X4 hA5I3 h16BPP
    · exact hbytes indicesA3I5
    · exact hbytes indicesI2
    · exact hbytes indicesI4
    · exact hbytes indicesI8
    · exact reads4X4_congr h4X4 h (hfits h4X4)
    · exact hbytes indicesA5I3
    · exact ⟨rfl, reads16BPP_same h.texture⟩
    · exact ⟨rfl, fun r hr => absurd hr List.not_mem_nil⟩
  rw [decodeInputs, decodeInputs, h.pal, ← hreads.1]
  exact List.map_congr_left fun r hr => value_congr _ (hreads.2 r hr)

end Seen

end Desmume.Raster
