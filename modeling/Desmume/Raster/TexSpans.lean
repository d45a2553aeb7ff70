import Desmume.Library.BitFields
import Desmume.Library.FlatMemory

/-! The texture cache: the spans of memory slots that a texture and its palette lie in, and what the
decoders read of them. -/

namespace Desmume.Raster
open Library

/-- `MemSpan::Item`, with the number of the slot instead of the pointer to its memory. -/
structure SpanItem where
  slot : ℕ
  start : ℕ
  len : ℕ
  ofs : ℕ
  deriving DecidableEq

/-- `MemSpan`. -/
structure MemSpan where
  size : ℕ
  items : List SpanItem

/-- `MemSpan::MAXSIZE`. -/
def memSpanMaxSize : ℕ := 17

/-- The loop of the two constructors: memory in banks of `2 ^ k` bytes, up to the end of a bank at a
time. -/
def spanItems (k : ℕ) (slot : BitVec 32 → ℕ) (ofs : BitVec 32) (len currofs : ℕ) : List SpanItem :=
  if _ : len = 0 then []
  else
    let start := ofs.toNat % 2 ^ k
    let n := min len (2 ^ k - start)
    ⟨slot ofs, start, n, currofs⟩ ::
      spanItems k slot (ofs + BitVec.ofNat 32 n) (len - n) (currofs + n)
termination_by len
decreasing_by
  have hstart := Nat.mod_lt ofs.toNat (Nat.two_pow_pos k)
  omega

def texSlot (ofs : BitVec 32) : ℕ := ((ofs >>> 17) &&& 3#32).toNat

/-- The slot that a palette address is in: two more than there are. -/
def texPalSlotNumber (ofs : BitVec 32) : ℕ := ((ofs >>> 14) &&& 7#32).toNat

/-- `MemSpan_TexMem`. -/
def memSpanTexMem (ofs : BitVec 32) (len : ℕ) : MemSpan := ⟨len, spanItems 17 texSlot ofs len 0⟩

/-- The slot as the loop adjusts it. -/
def texPalSlot (silent : Bool) (ofs : BitVec 32) : ℕ :=
  let slot := texPalSlotNumber ofs
  if slot > 5 ∧ silent = false then slot - 5 else slot

/-- `MemSpan_TexPalette`. -/
def memSpanTexPalette (ofs : BitVec 32) (len : ℕ) (silent : Bool) : MemSpan :=
  ⟨len, spanItems 14 (texPalSlot silent) ofs len 0⟩

/-! ### The scan for a texture -/

section Scan

variable (format texpal : BitVec 32)

/-- `TEXMODE_*`. -/
def textureMode : ℕ := ((format >>> 26) &&& 7#32).toNat

def texmodeA3I5 : ℕ := 1
def texmodeI2 : ℕ := 2
def texmodeI4 : ℕ := 3
def texmodeI8 : ℕ := 4
def texmode4X4 : ℕ := 5
def texmodeA5I3 : ℕ := 6
def texmode16BPP : ℕ := 7

def sizeX : ℕ := 8 * 2 ^ ((format >>> 20) &&& 7#32).toNat

def sizeY : ℕ := 8 * 2 ^ ((format >>> 23) &&& 7#32).toNat

def imageSize : ℕ := sizeX format * sizeY format

def palSizes : List ℕ := [0, 32, 4, 16, 256, 0, 8, 0]

/-- In quarters of a byte for each texel. -/
def texSizes : List ℕ := [0, 4, 1, 2, 4, 1, 4, 8]

def palSize : ℕ := palSizes.getD (textureMode format) 0

def texSize : ℕ := imageSize format * texSizes.getD (textureMode format) 0 / 4

def paletteAddress : BitVec 32 := if textureMode format = texmodeI2 then texpal <<< 3 else texpal <<< 4

def textureSpan : MemSpan := memSpanTexMem ((format &&& 0xFFFF#32) <<< 3) (texSize format)

def paletteSpan : MemSpan := memSpanTexPalette (paletteAddress format texpal) (palSize format * 2) false

def indexBase : BitVec 32 := if format &&& 0xC000#32 = 0x8000#32 then 0x30000 else 0x20000

def indexOffset : BitVec 32 := (format &&& 0x3FFF#32) <<< 2

def indexSize : ℕ := if textureMode format = texmode4X4 then imageSize format / 8 else 0

/-- The index data of a compressed texture; other textures have none. -/
def indexSpan : MemSpan := memSpanTexMem (indexOffset format + indexBase format) (indexSize format)

end Scan

/-! ### The reads -/

/-- A read behind the pointer of a texture slot or a palette slot, or of the copy of the palette. -/
inductive TexRead where
  | texture (slot off len : ℕ)
  | palette (slot off len : ℕ)
  | entry (i : ℕ)

/-- `MemSpan::dump`. -/
def MemSpan.dumpReads (read : ℕ → ℕ → ℕ → TexRead) (ms : MemSpan) : List TexRead :=
  ms.items.map fun item => read item.slot item.start item.len

section Decoders

variable (mem : ℕ → ℕ → BitVec 8) (format texpal : BitVec 32)

/-- The decoders of the modes with a palette: each byte has indices for some texels. -/
def byteReads (indices : BitVec 8 → List (BitVec 8)) (ms : MemSpan) : List TexRead :=
  ms.items.flatMap fun item => (List.range item.len).flatMap fun x =>
    .texture item.slot (item.start + x) 1 ::
      (indices (mem item.slot (item.start + x))).map fun i => .entry i.toNat

def indicesA3I5 (b : BitVec 8) : List (BitVec 8) := [b &&& 31]

def indicesI2 (b : BitVec 8) : List (BitVec 8) :=
  [b &&& 0x3, (b >>> 2) &&& 0x3, (b >>> 4) &&& 0x3, (b >>> 6) &&& 0x3]

def indicesI4 (b : BitVec 8) : List (BitVec 8) := [b &&& 0xF, b >>> 4]

def indicesI8 (b : BitVec 8) : List (BitVec 8) := [b]

def indicesA5I3 (b : BitVec 8) : List (BitVec 8) := [b &&& 0x07]

def reads16BPP (ms : MemSpan) : List TexRead :=
  ms.items.flatMap fun item => (List.range (item.len / 2)).map fun x =>
    .texture item.slot (item.start + 2 * x) 2

/-- `PAL4X4`. -/
def pal4X4 (offset : BitVec 32) : TexRead :=
  let address := paletteAddress format texpal + offset * 2
  .palette (texPalSlotNumber address) (address.toNat % 2 ^ 14) 2

/-- The address of `slot1[d]` in the second texture slot. -/
def slot1Offset (d : ℕ) : ℕ :=
  (indexOffset format).toNat + (if format &&& 0xC000#32 = 0x8000#32 then 0x10000 else 0) + 2 * d

/-- The colours that the index data of a block asks for. -/
def blockOffsets (pal1 : BitVec 16) : List (BitVec 32) :=
  let pal1offset := ((pal1 &&& 0x3FFF#16) <<< 1).setWidth 32
  let mode := (pal1 >>> 14).toNat
  [pal1offset, pal1offset + 1] ++
    (if mode = 0 then [pal1offset + 2] else if mode = 2 then [pal1offset + 2, pal1offset + 3] else [])

def pal1At (d : ℕ) : BitVec 16 := readWord 2 (mem 1) (slot1Offset format d)

/-- A block of 4x4 texels: its texels, its index data and its colours. -/
def blockReads (item : SpanItem) (d : ℕ) : List TexRead :=
  .texture item.slot (item.start + 4 * d) 4 :: .texture 1 (slot1Offset format d) 2 ::
    (blockOffsets (pal1At mem format d)).map (pal4X4 format texpal)

def blocks : ℕ := (sizeY format / 4) * (sizeX format / 4)

/-- The compressed textures. Once the limit is reached the blocks stay black, as `d` counts up. -/
def reads4X4 : List TexRead :=
  match (textureSpan format).items with
  | [] => []
  | item :: _ =>
    let limit := item.len * 4
    (List.range (blocks format)).flatMap fun d =>
      if d ≥ limit then [] else blockReads mem format texpal item d

def decodeReads : List TexRead :=
  let mode := textureMode format
  let ms := textureSpan format
  if mode = texmodeA3I5 then byteReads mem indicesA3I5 ms
  else if mode = texmodeI2 then byteReads mem indicesI2 ms
  else if mode = texmodeI4 then byteReads mem indicesI4 ms
  else if mode = texmodeI8 then byteReads mem indicesI8 ms
  else if mode = texmode4X4 then reads4X4 mem format texpal
  else if mode = texmodeA5I3 then byteReads mem indicesA5I3 ms
  else if mode = texmode16BPP then reads16BPP ms
  else []

/-- All that a scan which decodes the texture reads. -/
def scanReads : List TexRead :=
  (paletteSpan format texpal).dumpReads .palette ++ (textureSpan format).dumpReads .texture ++
    (indexSpan format).dumpReads .texture ++ decodeReads mem format texpal

end Decoders

/-! ### What they are to be -/

/-- A span as it should be. -/
structure MemSpanLaw (span : MemSpan) (slots : ℕ) : Prop where
  count : span.items.length ≤ memSpanMaxSize
  total : (span.items.map SpanItem.len).sum = span.size
  slot : ∀ item ∈ span.items, item.slot < slots

/-- Behind the last of the six slots the palette goes on in the first one. -/
def wrappedPalSlot (ofs : BitVec 32) : ℕ :=
  if texPalSlotNumber ofs > 5 then texPalSlotNumber ofs - 6 else texPalSlotNumber ofs

section Law

variable (mem : ℕ → ℕ → BitVec 8) (format texpal : BitVec 32)

/-- A read of bytes of a slot that is spanned, or of the palette. -/
def TexRead.Inside : TexRead → Prop
  | .texture slot off len =>
    (∃ item ∈ (textureSpan format).items ++ (indexSpan format).items, item.slot = slot) ∧
      off + len ≤ 2 ^ 17
  | .palette slot off len => slot < 6 ∧ off + len ≤ 2 ^ 14
  | .entry i => i < palSize format

structure TexLaw : Prop where
  texture : MemSpanLaw (textureSpan format) 4
  index : MemSpanLaw (indexSpan format) 4
  palette : MemSpanLaw (paletteSpan format texpal) 6
  wraps : ∀ item ∈ (paletteSpan format texpal).items,
    item.slot = wrappedPalSlot (paletteAddress format texpal + BitVec.ofNat 32 item.ofs)
  reads : ∀ r ∈ scanReads mem format texpal, r.Inside format

/-- No byte of the palette is behind the sixth slot. -/
def PaletteFits : Prop :=
  ∀ j < palSize format * 2,
    texPalSlotNumber (paletteAddress format texpal + BitVec.ofNat 32 j) ≤ 5

/-- A compressed texture ends in the slot that it begins in, and no colour of a block is behind the
sixth palette slot. -/
def CompressedFits : Prop :=
  ((format &&& 0xFFFF#32) <<< 3).toNat % 2 ^ 17 + texSize format ≤ 2 ^ 17 ∧
    ∀ d < blocks format, ∀ offset ∈ blockOffsets (pal1At mem format d),
      texPalSlotNumber (paletteAddress format texpal + offset * 2) ≤ 5

def TexFits : Prop :=
  PaletteFits format texpal ∧ (textureMode format = texmode4X4 → CompressedFits mem format texpal)

end Law

/-! ### Spans -/

section Spans

variable {k : ℕ} {slot : BitVec 32 → ℕ} {ofs : BitVec 32} {len currofs : ℕ}

theorem toNat_add_ofNat_mod (hk : k ≤ 32) (ofs : BitVec 32) (n : ℕ) :
    (ofs + BitVec.ofNat 32 n).toNat % 2 ^ k = (ofs.toNat % 2 ^ k + n) % 2 ^ k := by
  have hdvd : 2 ^ k ∣ 2 ^ 32 := Nat.pow_dvd_pow 2 hk
  rw [BitVec.toNat_add, BitVec.toNat_ofNat, Nat.mod_mod_of_dvd _ hdvd, Nat.add_mod,
    Nat.mod_mod_of_dvd _ hdvd, ← Nat.add_mod, Nat.mod_add_mod]

/-- An item as the loop makes it. -/
structure ItemSpec (k : ℕ) (slot : BitVec 32 → ℕ) (ofs : BitVec 32) (len currofs : ℕ)
    (item : SpanItem) : Prop where
  pos : 0 < item.len
  low : currofs ≤ item.ofs
  high : item.ofs + item.len ≤ currofs + len
  bank : item.start + item.len ≤ 2 ^ k
  slot : item.slot = slot (ofs + BitVec.ofNat 32 (item.ofs - currofs))
  start : item.start = (ofs + BitVec.ofNat 32 (item.ofs - currofs)).toNat % 2 ^ k

theorem spanItems_spec (k : ℕ) (slot : BitVec 32 → ℕ) (ofs : BitVec 32) (len currofs : ℕ) :
    ∀ item ∈ spanItems k slot ofs len currofs, ItemSpec k slot ofs len currofs item := by
  fun_induction spanItems k slot ofs len currofs with
  | case1 ofs currofs => simp
  | case2 ofs len currofs hlen start n ih =>
    have hstart : start < 2 ^ k := Nat.mod_lt _ (Nat.two_pow_pos k)
    have hn : n ≤ len ∧ 0 < n ∧ start + n ≤ 2 ^ k := by omega
    intro item hitem
    rcases List.mem_cons.mp hitem with rfl | hitem
    · refine ⟨hn.2.1, Nat.le_refl _, ?_, hn.2.2, ?_, ?_⟩
      · dsimp only
        omega
      · simp
      · simp [start]
    · obtain ⟨hpos, hlow, hhigh, hbank, hslot, hstart⟩ := ih item hitem
      have hofs : ofs + BitVec.ofNat 32 n + BitVec.ofNat 32 (item.ofs - (currofs + n)) =
          ofs + BitVec.ofNat 32 (item.ofs - currofs) := by
        have hsum : n + (item.ofs - (currofs + n)) = item.ofs - currofs := by omega
        rw [BitVec.add_assoc, ← BitVec.ofNat_add, hsum]
      rw [hofs] at hslot hstart
      exact ⟨hpos, by omega, by omega, hbank, hslot, hstart⟩

theorem spanItems_sum (k : ℕ) (slot : BitVec 32 → ℕ) (ofs : BitVec 32) (len currofs : ℕ) :
    ((spanItems k slot ofs len currofs).map SpanItem.len).sum = len := by
  fun_induction spanItems k slot ofs len currofs with
  | case1 ofs currofs => rfl
  | case2 ofs len currofs hlen start n ih =>
    have hn : n ≤ len := Nat.min_le_left ..
    rw [List.map_cons, List.sum_cons, ih]
    exact Nat.add_sub_cancel' hn

/-- Only the first and the last item are shorter than a bank. -/
theorem spanItems_count (hk : k ≤ 32) (slot : BitVec 32 → ℕ) (ofs : BitVec 32) (len currofs : ℕ) :
    (spanItems k slot ofs len currofs).length * 2 ^ k ≤ ofs.toNat % 2 ^ k + len + (2 ^ k - 1) := by
  fun_induction spanItems k slot ofs len currofs with
  | case1 ofs currofs => simp
  | case2 ofs len currofs hlen start n ih =>
    have hpos := Nat.two_pow_pos k
    have hstart : start < 2 ^ k := Nat.mod_lt _ hpos
    rw [List.length_cons, Nat.succ_mul]
    rw [toNat_add_ofNat_mod hk] at ih
    change _ * 2 ^ k ≤ (start + n) % 2 ^ k + _ + _ at ih
    rcases Nat.le_total len (2 ^ k - start) with hlast | hmore
    · have hn : n = len := Nat.min_eq_left hlast
      have hnil : spanItems k slot (ofs + BitVec.ofNat 32 n) (len - n) (currofs + n) = [] := by
        rw [hn, Nat.sub_self, spanItems]
        rfl
      rw [hnil, List.length_nil]
      omega
    · have hn : n = 2 ^ k - start := Nat.min_eq_right hmore
      have hfull : (start + n) % 2 ^ k = 0 := by
        rw [hn, Nat.add_sub_cancel' hstart.le, Nat.mod_self]
      rw [hfull] at ih
      omega

theorem spanItems_cover (k : ℕ) (slot : BitVec 32 → ℕ) (ofs : BitVec 32) (len currofs : ℕ) :
    ∀ j < len, ∃ item ∈ spanItems k slot ofs len currofs,
      item.ofs ≤ currofs + j ∧ currofs + j < item.ofs + item.len := by
  fun_induction spanItems k slot ofs len currofs with
  | case1 ofs currofs => simp
  | case2 ofs len currofs hlen start n ih =>
    intro j hj
    rcases Nat.lt_or_ge j n with hin | hout
    · exact ⟨_, List.mem_cons_self, Nat.le_add_right .., Nat.add_lt_add_left hin currofs⟩
    · obtain ⟨item, hitem, hlow, hhigh⟩ := ih (j - n) (by omega)
      exact ⟨item, List.mem_cons_of_mem _ hitem, by omega, by omega⟩

end Spans

/-! ### The spans of a scan -/

section ScanSpans

variable {format texpal ofs : BitVec 32} {len : ℕ}

theorem texSlot_lt (ofs : BitVec 32) : texSlot ofs < 4 := by
  rw [texSlot, toNat_and_mask (n := 2) _ rfl]
  exact Nat.mod_lt _ (by decide)

theorem texPalSlotNumber_lt (ofs : BitVec 32) : texPalSlotNumber ofs < 8 := by
  rw [texPalSlotNumber, toNat_and_mask (n := 3) _ rfl]
  exact Nat.mod_lt _ (by decide)

theorem texPalSlot_eq (ofs : BitVec 32) : texPalSlot false ofs =
    if texPalSlotNumber ofs > 5 then texPalSlotNumber ofs - 5 else texPalSlotNumber ofs := by
  simp only [texPalSlot, and_true]

theorem texPalSlot_lt (ofs : BitVec 32) : texPalSlot false ofs < 6 := by
  have hlt := texPalSlotNumber_lt ofs
  rw [texPalSlot_eq]
  split_ifs <;> omega

theorem memSpanLaw_texMem (ofs : BitVec 32) (hlen : len ≤ 2 ^ 21) : MemSpanLaw (memSpanTexMem ofs len) 4 := by
  refine ⟨?_, spanItems_sum .., fun item hitem => ?_⟩
  · have hcount := spanItems_count (k := 17) (by decide) texSlot ofs len 0
    have hstart := Nat.mod_lt ofs.toNat (Nat.two_pow_pos 17)
    change (spanItems 17 texSlot ofs len 0).length ≤ 17
    omega
  · rw [(spanItems_spec 17 texSlot ofs len 0 item hitem).slot]
    exact texSlot_lt _

theorem memSpanLaw_texPalette (ofs : BitVec 32) (hlen : len ≤ 2 ^ 14) :
    MemSpanLaw (memSpanTexPalette ofs len false) 6 := by
  refine ⟨?_, spanItems_sum .., fun item hitem => ?_⟩
  · have hcount := spanItems_count (k := 14) (by decide) (texPalSlot false) ofs len 0
    have hstart := Nat.mod_lt ofs.toNat (Nat.two_pow_pos 14)
    change (spanItems 14 (texPalSlot false) ofs len 0).length ≤ 17
    omega
  · rw [(spanItems_spec 14 (texPalSlot false) ofs len 0 item hitem).slot]
    exact texPalSlot_lt _

theorem textureMode_lt (format : BitVec 32) : textureMode format < 8 := by
  rw [textureMode, toNat_and_mask (n := 3) _ rfl]
  exact Nat.mod_lt _ (by decide)

/-- The sides are powers of two from 8 to 1024. -/
theorem exists_sides (format : BitVec 32) : ∃ a b, a ≤ 2 ^ 7 ∧ b ≤ 2 ^ 7 ∧ 0 < a ∧ 0 < b ∧
    sizeX format = 8 * a ∧ sizeY format = 8 * b := by
  have hx : ((format >>> 20) &&& 7#32).toNat < 8 := by
    rw [toNat_and_mask (n := 3) _ rfl]
    exact Nat.mod_lt _ (by decide)
  have hy : ((format >>> 23) &&& 7#32).toNat < 8 := by
    rw [toNat_and_mask (n := 3) _ rfl]
    exact Nat.mod_lt _ (by decide)
  exact ⟨_, _, Nat.pow_le_pow_right (by decide) (Nat.le_of_lt_succ hx),
    Nat.pow_le_pow_right (by decide) (Nat.le_of_lt_succ hy), Nat.two_pow_pos _, Nat.two_pow_pos _,
    rfl, rfl⟩

theorem imageSize_le (format : BitVec 32) : imageSize format ≤ 2 ^ 20 := by
  obtain ⟨a, b, ha, hb, -, -, hx, hy⟩ := exists_sides format
  have hab := Nat.mul_le_mul ha hb
  rw [imageSize, hx, hy]
  calc 8 * a * (8 * b) = 64 * (a * b) := by ring
    _ ≤ 2 ^ 20 := by omega

theorem texSize_le (format : BitVec 32) : texSize format ≤ 2 ^ 21 := by
  have hmode : ∀ mode < 8, texSizes.getD mode 0 ≤ 8 := by decide
  have hmul := Nat.mul_le_mul (imageSize_le format) (hmode _ (textureMode_lt format))
  rw [texSize]
  omega

theorem indexSize_le (format : BitVec 32) : indexSize format ≤ 2 ^ 21 := by
  have himage := imageSize_le format
  rw [indexSize]
  split_ifs <;> omega

theorem palSize_le (format : BitVec 32) : palSize format ≤ 2 ^ 8 := by
  have hmode : ∀ mode < 8, palSizes.getD mode 0 ≤ 2 ^ 8 := by decide
  exact hmode _ (textureMode_lt format)

/-- The bytes of an item are in its slot. -/
theorem texPalSlotNumber_add {j : ℕ} (h : ofs.toNat % 2 ^ 14 + j < 2 ^ 14) :
    texPalSlotNumber (ofs + BitVec.ofNat 32 j) = texPalSlotNumber ofs := by
  have hlt := ofs.isLt
  rw [texPalSlotNumber, texPalSlotNumber, toNat_and_mask (n := 3) _ rfl, toNat_and_mask (n := 3) _ rfl,
    BitVec.toNat_ushiftRight, BitVec.toNat_ushiftRight, BitVec.toNat_add, BitVec.toNat_ofNat,
    Nat.shiftRight_eq_div_pow, Nat.shiftRight_eq_div_pow]
  omega

theorem wrappedPalSlot_iff (ofs : BitVec 32) :
    texPalSlot false ofs = wrappedPalSlot ofs ↔ texPalSlotNumber ofs ≤ 5 := by
  rw [texPalSlot_eq, wrappedPalSlot]
  split_ifs <;> omega

/-- The items of a palette wrap as they should exactly if it has no byte behind the sixth slot. -/
theorem wraps_iff (format texpal : BitVec 32) :
    (∀ item ∈ (paletteSpan format texpal).items,
      item.slot = wrappedPalSlot (paletteAddress format texpal + BitVec.ofNat 32 item.ofs)) ↔
      PaletteFits format texpal := by
  have hspec := spanItems_spec 14 (texPalSlot false) (paletteAddress format texpal) (palSize format * 2) 0
  constructor
  · intro hwraps j hj
    obtain ⟨item, hitem, hlow, hhigh⟩ :=
      spanItems_cover 14 (texPalSlot false) (paletteAddress format texpal) (palSize format * 2) 0 j hj
    have hi := hspec item hitem
    have hslot := hi.slot
    have hstart := hi.start
    have hbank := hi.bank
    rw [Nat.sub_zero] at hslot hstart
    rw [hwraps item hitem, eq_comm, wrappedPalSlot_iff] at hslot
    have hofs : paletteAddress format texpal + BitVec.ofNat 32 j =
        paletteAddress format texpal + BitVec.ofNat 32 item.ofs + BitVec.ofNat 32 (j - item.ofs) := by
      have hsum : item.ofs + (j - item.ofs) = j := by omega
      rw [BitVec.add_assoc, ← BitVec.ofNat_add, hsum]
    rw [hofs, texPalSlotNumber_add (by omega)]
    exact hslot
  · intro hfits item hitem
    have hi := hspec item hitem
    have hpos := hi.pos
    have hhigh := hi.high
    have hslot := hi.slot
    rw [Nat.sub_zero] at hslot
    rw [hslot, wrappedPalSlot_iff]
    exact hfits item.ofs (by omega)

end ScanSpans

/-! ### The reads of a scan -/

section Reads

variable {mem : ℕ → ℕ → BitVec 8} {format texpal : BitVec 32}

/-- Bytes of an item of a texture span are inside. -/
theorem inside_item {ofs : BitVec 32} {len : ℕ} {span : MemSpan} (hspan : span = memSpanTexMem ofs len)
    (hmem : span.items ⊆ (textureSpan format).items ++ (indexSpan format).items) {item : SpanItem}
    (hitem : item ∈ span.items) {off n : ℕ} (hoff : off + n ≤ item.start + item.len) :
    (TexRead.texture item.slot off n).Inside format := by
  subst hspan
  exact ⟨⟨item, hmem hitem, rfl⟩,
    le_trans hoff (spanItems_spec 17 texSlot ofs len 0 item hitem).bank⟩

theorem inside_textureItem {item : SpanItem} (hitem : item ∈ (textureSpan format).items) {off n : ℕ}
    (hoff : off + n ≤ item.start + item.len) : (TexRead.texture item.slot off n).Inside format :=
  inside_item rfl (List.subset_append_left _ _) hitem hoff

theorem inside_dumps {r : TexRead} (hr : r ∈ (paletteSpan format texpal).dumpReads .palette ++
    (textureSpan format).dumpReads .texture ++ (indexSpan format).dumpReads .texture) :
    r.Inside format := by
  rcases List.mem_append.mp hr with hr | hr
  · rcases List.mem_append.mp hr with hr | hr
    · obtain ⟨item, hitem, rfl⟩ := List.mem_map.mp hr
      have hi := spanItems_spec 14 (texPalSlot false) _ _ 0 item hitem
      refine ⟨?_, hi.bank⟩
      rw [hi.slot]
      exact texPalSlot_lt _
    · obtain ⟨item, hitem, rfl⟩ := List.mem_map.mp hr
      exact inside_textureItem hitem le_rfl
  · obtain ⟨item, hitem, rfl⟩ := List.mem_map.mp hr
    exact inside_item rfl (List.subset_append_right _ _) hitem le_rfl

theorem inside_byteReads {indices : BitVec 8 → List (BitVec 8)}
    (hindices : ∀ b, ∀ i ∈ indices b, i.toNat < palSize format) {r : TexRead}
    (hr : r ∈ byteReads mem indices (textureSpan format)) : r.Inside format := by
  obtain ⟨item, hitem, hr⟩ := List.mem_flatMap.mp hr
  obtain ⟨x, hx, hr⟩ := List.mem_flatMap.mp hr
  have hx := List.mem_range.mp hx
  rcases List.mem_cons.mp hr with rfl | hr
  · exact inside_textureItem hitem (by omega)
  · obtain ⟨i, hi, rfl⟩ := List.mem_map.mp hr
    exact hindices _ i hi

theorem inside_reads16BPP {r : TexRead} (hr : r ∈ reads16BPP (textureSpan format)) :
    r.Inside format := by
  obtain ⟨item, hitem, hr⟩ := List.mem_flatMap.mp hr
  obtain ⟨x, hx, rfl⟩ := List.mem_map.mp hr
  have hx := List.mem_range.mp hx
  exact inside_textureItem hitem (by omega)

/-- A palette address is even, and so is one of a colour. -/
theorem inside_pal4X4_iff (format texpal offset : BitVec 32) :
    (pal4X4 format texpal offset).Inside format ↔
      texPalSlotNumber (paletteAddress format texpal + offset * 2) ≤ 5 := by
  have heven : (paletteAddress format texpal).toNat % 2 = 0 := by
    rw [paletteAddress]
    split_ifs <;> rw [BitVec.toNat_shiftLeft, Nat.shiftLeft_eq] <;> omega
  have hoff : (paletteAddress format texpal + offset * 2).toNat % 2 = 0 := by
    rw [BitVec.toNat_add, BitVec.toNat_mul]
    change (_ + _ * 2 % 2 ^ 32) % 2 ^ 32 % 2 = 0
    omega
  rw [pal4X4, TexRead.Inside]
  omega

theorem spanItems_cons (k : ℕ) (slot : BitVec 32 → ℕ) (ofs : BitVec 32) {len : ℕ} (currofs : ℕ)
    (h : len ≠ 0) : ∃ items, spanItems k slot ofs len currofs =
      ⟨slot ofs, ofs.toNat % 2 ^ k, min len (2 ^ k - ofs.toNat % 2 ^ k), currofs⟩ :: items := by
  rw [spanItems, dif_neg h]
  exact ⟨_, rfl⟩

/-- Where a texture begins in its slot. -/
def textureStart (format : BitVec 32) : ℕ := ((format &&& 0xFFFF#32) <<< 3).toNat % 2 ^ 17

theorem textureStart_eq (format : BitVec 32) : textureStart format = format.toNat % 2 ^ 14 * 8 := by
  rw [textureStart, BitVec.toNat_shiftLeft, toNat_and_mask (n := 16) _ rfl, Nat.shiftLeft_eq]
  omega

theorem indexOffset_eq (format : BitVec 32) : (indexOffset format).toNat = format.toNat % 2 ^ 14 * 4 := by
  rw [indexOffset, BitVec.toNat_shiftLeft, toNat_and_mask (n := 14) _ rfl, Nat.shiftLeft_eq]
  omega

theorem index_slot (format : BitVec 32) : texSlot (indexOffset format + indexBase format) = 1 := by
  have hbase : (indexBase format).toNat = 0x20000 ∨ (indexBase format).toNat = 0x30000 := by
    rw [indexBase]
    split_ifs
    · exact .inr rfl
    · exact .inl rfl
  have hoffset := indexOffset_eq format
  rw [texSlot, toNat_and_mask (n := 2) _ rfl, BitVec.toNat_ushiftRight, BitVec.toNat_add,
    Nat.shiftRight_eq_div_pow]
  omega

section Compressed

variable (hmode : textureMode format = texmode4X4)
include hmode

theorem texSize_4X4 : texSize format = 4 * blocks format ∧ 0 < blocks format := by
  obtain ⟨a, b, -, -, ha, hb, hx, hy⟩ := exists_sides format
  have hsize : texSizes.getD (textureMode format) 0 = 1 := by
    rw [hmode]
    rfl
  have hab := Nat.mul_pos ha hb
  have hblocks : blocks format = 4 * (a * b) := by
    have hxq : 8 * a / 4 = 2 * a := by omega
    have hyq : 8 * b / 4 = 2 * b := by omega
    rw [blocks, hx, hy, hxq, hyq]
    ring
  have himage : imageSize format = 64 * (a * b) := by
    rw [imageSize, hx, hy]
    ring
  rw [texSize, hsize, himage, hblocks]
  omega

theorem exists_indexItem :
    ∃ item ∈ (textureSpan format).items ++ (indexSpan format).items, item.slot = 1 := by
  obtain ⟨htex, hpos⟩ := texSize_4X4 hmode
  have hsize : texSizes.getD (textureMode format) 0 = 1 := by
    rw [hmode]
    rfl
  have himage : indexSize format ≠ 0 := by
    rw [texSize, hsize] at htex
    rw [indexSize, if_pos hmode]
    omega
  obtain ⟨items, hitems⟩ := spanItems_cons 17 texSlot (indexOffset format + indexBase format) 0 himage
  have hhead : (indexSpan format).items = _ :: items := hitems
  exact ⟨_, List.mem_append_right _ (hhead ▸ List.mem_cons_self), index_slot format⟩

/-- The texels that the first item has of a compressed texture, and where they begin. -/
theorem reads4X4_eq (mem : ℕ → ℕ → BitVec 8) (texpal : BitVec 32) :
    ∃ item ∈ (textureSpan format).items, item.start = textureStart format ∧
      item.len = min (texSize format) (2 ^ 17 - textureStart format) ∧
      reads4X4 mem format texpal = (List.range (blocks format)).flatMap fun d =>
        if d ≥ item.len * 4 then [] else blockReads mem format texpal item d := by
  obtain ⟨htex, hpos⟩ := texSize_4X4 hmode
  obtain ⟨items, hitems⟩ := spanItems_cons 17 texSlot ((format &&& 0xFFFF#32) <<< 3) 0
    (show texSize format ≠ 0 by omega)
  have hhead : (textureSpan format).items = _ :: items := hitems
  refine ⟨_, hhead ▸ List.mem_cons_self, rfl, rfl, ?_⟩
  rw [reads4X4, hhead]

omit hmode in
theorem slot1Offset_le {d : ℕ} (hd : textureStart format + 4 * d + 4 ≤ 2 ^ 17) :
    slot1Offset format d + 2 ≤ 2 ^ 17 := by
  rw [textureStart_eq] at hd
  rw [slot1Offset, indexOffset_eq]
  split_ifs <;> omega

/-- The reads of a block that is in the slot. -/
theorem inside_block_iff (mem : ℕ → ℕ → BitVec 8) (texpal : BitVec 32) {item : SpanItem} {d : ℕ}
    (hitem : item ∈ (textureSpan format).items) (hstart : item.start = textureStart format)
    (hd : textureStart format + 4 * d + 4 ≤ 2 ^ 17) :
    (∀ r ∈ blockReads mem format texpal item d, r.Inside format) ↔
      ∀ offset ∈ blockOffsets (pal1At mem format d),
        texPalSlotNumber (paletteAddress format texpal + offset * 2) ≤ 5 := by
  have hmap : (TexRead.texture item.slot (item.start + 4 * d) 4).Inside format :=
    ⟨⟨item, List.mem_append_left _ hitem, rfl⟩, by omega⟩
  have hindex : (TexRead.texture 1 (slot1Offset format d) 2).Inside format :=
    ⟨exists_indexItem hmode, slot1Offset_le hd⟩
  rw [blockReads, List.forall_mem_cons, List.forall_mem_cons, List.forall_mem_map]
  simp only [hmap, hindex, true_and, inside_pal4X4_iff]

theorem reads4X4_iff (mem : ℕ → ℕ → BitVec 8) (texpal : BitVec 32) :
    (∀ r ∈ reads4X4 mem format texpal, r.Inside format) ↔ CompressedFits mem format texpal := by
  obtain ⟨htex, hpos⟩ := texSize_4X4 hmode
  obtain ⟨item, hitem, hstart, hlen, hreads⟩ := reads4X4_eq hmode mem texpal
  have haligned := textureStart_eq format
  have hlt : textureStart format < 2 ^ 17 := Nat.mod_lt _ (by decide)
  have hmem (d : ℕ) (hd : d < blocks format) (hlimit : d < item.len * 4) :
      (∀ r ∈ reads4X4 mem format texpal, r.Inside format) →
        ∀ r ∈ blockReads mem format texpal item d, r.Inside format := by
    intro hall r hr
    refine hall r ?_
    rw [hreads]
    refine List.mem_flatMap.mpr ⟨d, List.mem_range.mpr hd, ?_⟩
    rwa [if_neg (by omega)]
  rw [CompressedFits]
  change _ ↔ textureStart format + texSize format ≤ 2 ^ 17 ∧ _
  constructor
  · intro hall
    have hfits : textureStart format + texSize format ≤ 2 ^ 17 := by
      by_contra hover
      -- the first block behind the slot
      have hblock := hmem (item.len / 4) (by omega) (by omega) hall _ List.mem_cons_self
      have hend : item.start + 4 * (item.len / 4) + 4 ≤ 2 ^ 17 := hblock.2
      omega
    refine ⟨hfits, fun d hd => ?_⟩
    exact (inside_block_iff hmode mem texpal hitem hstart (by omega)).mp
      (hmem d hd (by omega) hall)
  · rintro ⟨hfits, hcolors⟩ r hr
    rw [hreads] at hr
    obtain ⟨d, hd, hr⟩ := List.mem_flatMap.mp hr
    have hd := List.mem_range.mp hd
    rw [if_neg (by omega)] at hr
    exact (inside_block_iff hmode mem texpal hitem hstart (by omega)).mpr (hcolors d hd) r hr

end Compressed

theorem inside_decodeReads (mem : ℕ → ℕ → BitVec 8) (texpal : BitVec 32)
    (hmode : textureMode format ≠ texmode4X4) {r : TexRead}
    (hr : r ∈ decodeReads mem format texpal) : r.Inside format := by
  have hand (b mask : BitVec 8) : (b &&& mask).toNat ≤ mask.toNat := by
    rw [BitVec.toNat_and]
    exact Nat.and_le_right
  have hpal {m : ℕ} (hm : textureMode format = m) : palSize format = palSizes.getD m 0 := by
    rw [palSize, hm]
  rw [decodeReads] at hr
  split_ifs at hr with hA3I5 hI2 hI4 hI8 hA5I3 h16BPP
  · refine inside_byteReads (fun b i hi => ?_) hr
    rw [List.mem_singleton.mp hi, hpal hA3I5]
    exact Nat.lt_succ_of_le (hand b 31#8)
  · refine inside_byteReads (fun b i hi => ?_) hr
    have hmask : ∃ c : BitVec 8, i = c &&& 3#8 := by
      simp only [indicesI2, List.mem_cons, List.not_mem_nil, or_false] at hi
      rcases hi with rfl | rfl | rfl | rfl <;> exact ⟨_, rfl⟩
    obtain ⟨c, rfl⟩ := hmask
    rw [hpal hI2]
    exact Nat.lt_succ_of_le (hand c 3#8)
  · refine inside_byteReads (fun b i hi => ?_) hr
    rw [hpal hI4]
    simp only [indicesI4, List.mem_cons, List.not_mem_nil, or_false] at hi
    rcases hi with rfl | rfl
    · exact Nat.lt_succ_of_le (hand b 0xF#8)
    · have hb := b.isLt
      rw [BitVec.toNat_ushiftRight, Nat.shiftRight_eq_div_pow]
      change b.toNat / 16 < 16
      omega
  · refine inside_byteReads (fun b i hi => ?_) hr
    rw [List.mem_singleton.mp hi, hpal hI8]
    exact b.isLt
  · refine inside_byteReads (fun b i hi => ?_) hr
    rw [List.mem_singleton.mp hi, hpal hA5I3]
    exact Nat.lt_succ_of_le (hand b 0x07#8)
  · exact inside_reads16BPP hr
  · exact absurd hr List.not_mem_nil

theorem decodeReads_iff (mem : ℕ → ℕ → BitVec 8) (format texpal : BitVec 32) :
    (∀ r ∈ decodeReads mem format texpal, r.Inside format) ↔
      (textureMode format = texmode4X4 → CompressedFits mem format texpal) := by
  by_cases hmode : textureMode format = texmode4X4
  · have hreads : decodeReads mem format texpal = reads4X4 mem format texpal := by
      rw [decodeReads, hmode]
      rfl
    rw [hreads, reads4X4_iff hmode, forall_prop_of_true hmode]
  · exact iff_of_true (fun r hr => inside_decodeReads mem texpal hmode hr)
      (fun h => absurd h hmode)

end Reads

/-! ### The law -/

theorem texLaw_iff (mem : ℕ → ℕ → BitVec 8) (format texpal : BitVec 32) :
    TexLaw mem format texpal ↔ TexFits mem format texpal := by
  rw [TexFits, ← wraps_iff, ← decodeReads_iff]
  constructor
  · intro law
    exact ⟨law.wraps, fun r hr => law.reads r (List.mem_append_right _ hr)⟩
  · rintro ⟨hwraps, hdecode⟩
    refine ⟨memSpanLaw_texMem _ (texSize_le format), memSpanLaw_texMem _ (indexSize_le format),
      memSpanLaw_texPalette _ (le_trans (Nat.mul_le_mul_right 2 (palSize_le format)) (by decide)), hwraps, fun r hr => ?_⟩
    rcases List.mem_append.mp hr with hdump | hr
    · exact inside_dumps hdump
    · exact hdecode r hr

/-- Behind the sixth palette slot a palette goes on in the second one. -/
theorem palette_skips_slot_zero : ¬ TexLaw (fun _ _ => 0) 0x10000000 0x1800 := by
  intro law
  have hpalette := (wraps_iff _ _).mp law.wraps 0 (by decide)
  revert hpalette
  decide

end Desmume.Raster
