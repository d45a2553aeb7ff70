import Desmume.Raster.TexCache

/-! What the texture cache brings: the texture as the memory has it, and never one that is out of date.
What it counts of its items. -/

namespace Desmume.Raster
open Library

/-! ### What an item keeps -/

section Kept

variable {α : Type*} {decode : TexFormat → BitVec 32 → BitVec 32 → List (List (BitVec 8)) → α}
  {m m₀ : TexMemory} {texFormat : TexFormat} {format texpal : BitVec 32} {heap : ℕ → BitVec 8}
  {item : TexCacheItem α} {s : TexSystem α}

/-- A texture that the copy of an item has room for. A compressed one stays in its slot, and its colours in
the palette slots. -/
def TexMemory.Fits (m : TexMemory) (format texpal : BitVec 32) : Prop :=
  texSize format ≤ maxTextureSize ∧
    (textureMode format = texmode4X4 → CompressedFits m.texture format texpal)

/-- The copy of all palettes is right. -/
def SamePalette (palette : ℕ → ℕ → BitVec 8) (paletteDump : ℕ → BitVec 8) : Prop :=
  ∀ slot < 6, ∀ off < 2 ^ 14, palette slot off = paletteDump (slot * 2 ^ 14 + off)

/-- An item that was made from the memory `m₀`. -/
structure Recorded (decode : TexFormat → BitVec 32 → BitVec 32 → List (List (BitVec 8)) → α)
    (m₀ : TexMemory) (item : TexCacheItem α) : Prop where
  fits : m₀.Fits item.texformat item.texpal
  decoded : item.decoded =
    decode item.cacheFormat item.texformat item.texpal (decodeInputs m₀ item.texformat item.texpal)
  textureSize : item.dump.textureSize = texSize item.texformat
  indexSize : item.dump.indexSize = indexSize item.texformat
  texture : (textureSpan item.texformat).Holds m₀.texture item.dump.texture
  index : (indexSpan item.texformat).Holds m₀.texture
    fun i => item.dump.texture (item.dump.textureSize + i)
  palette : item.dump.palette = palCopy m₀ item.texformat item.texpal

theorem Recorded.marked (h : Recorded decode m₀ item) (suspected assumed : Bool) :
    Recorded decode m₀ { item with suspectedInvalid := suspected, assumedInvalid := assumed } :=
  ⟨h.fits, h.decoded, h.textureSize, h.indexSize, h.texture, h.index, h.palette⟩

theorem length_palCopy (m : TexMemory) (format texpal : BitVec 32) :
    (palCopy m format texpal).length = palSize format * 2 := by
  rw [palCopy, MemSpan.dump, Nat.min_self]
  exact length_dumpItems ..

/-- The copy of a span from its beginning. -/
theorem holds_dump {ofs : BitVec 32} {len : ℕ} {mem : ℕ → ℕ → BitVec 8} {buf : ℕ → BitVec 8}
    (h : ∀ i < len, buf i = (dumpItems mem (spanItems 17 texSlot ofs len 0) len).getD i 0) :
    (memSpanTexMem ofs len).Holds mem buf := by
  intro item hitem x hx
  have hhigh := (spanItems_spec 17 texSlot ofs len 0 item hitem).high
  rw [h (item.ofs + x) (by omega), ← @dumpItems_getD mem 17 texSlot ofs len 0 0 item hitem x hx,
    Nat.sub_zero]

theorem recorded_newItem (hfits : m.Fits format texpal) :
    Recorded decode m (TexCache.newItem decode m texFormat format texpal heap) := by
  have hdump : (textureSpan format).dump m.texture maxTextureSize =
      dumpItems m.texture (textureSpan format).items (texSize format) :=
    congrArg (dumpItems m.texture _) (Nat.min_eq_left hfits.1)
  have hlength : ((textureSpan format).dump m.texture maxTextureSize).length = texSize format := by
    rw [hdump]
    exact length_dumpItems ..
  have hindex : (indexSpan format).dump m.texture (indexSpan format).size =
      dumpItems m.texture (indexSpan format).items (indexSize format) :=
    congrArg (dumpItems m.texture _) (Nat.min_self _)
  have hindexLength : ((indexSpan format).dump m.texture (indexSpan format).size).length =
      indexSize format := by
    rw [hindex]
    exact length_dumpItems ..
  refine ⟨hfits, rfl, rfl, rfl, ?_, ?_, ?_⟩
  · apply holds_dump
    intro i hi
    simp only [TexCache.newItem, TexCache.newDump]
    rw [if_pos (hlength.symm ▸ hi), hdump]
    rfl
  · apply holds_dump
    intro i hi
    have hsize : (textureSpan format).size = texSize format := rfl
    change i < indexSize format at hi
    simp only [TexCache.newItem, TexCache.newDump]
    rw [hsize, if_neg (by omega), if_pos (by omega), Nat.add_sub_cancel_left, hindex]
    rfl
  · exact List.take_of_length_le (length_palCopy ..).le

/-- The memory that an item was made from is seen as the one that it is compared with. -/
theorem seen_of_sameDump (h : Recorded decode m₀ item)
    (hsame : TexCache.sameDump m item.texformat item.texpal item = true)
    (hpalette : textureMode item.texformat = texmode4X4 →
      ∀ slot < 6, ∀ off < 2 ^ 14, m₀.palette slot off = m.palette slot off) :
    SameSeen m₀ m item.texformat item.texpal := by
  simp only [TexCache.sameDump, Bool.and_eq_true, Bool.or_eq_true, beq_iff_eq, bne_iff_ne, Ne,
    ← imp_iff_not_or] at hsame
  obtain ⟨⟨hpal, htexture⟩, hindex⟩ := hsame
  have hlength := length_palCopy m₀ item.texformat item.texpal
  have hlength' := length_palCopy m item.texformat item.texpal
  refine ⟨?_, ?_, fun hmode => ?_, hpalette⟩
  · have hsize : (paletteSpan item.texformat item.texpal).size = palSize item.texformat * 2 := rfl
    rw [hsize, h.palette] at hpal
    rcases hpal with hzero | hpal
    · rw [List.eq_nil_of_length_eq_zero (hlength.trans hzero),
        List.eq_nil_of_length_eq_zero (hlength'.trans hzero)]
    · rwa [List.take_of_length_le hlength.le, List.take_of_length_le hlength'.le] at hpal
  · apply h.texture.agree
    have hsize : (textureSpan item.texformat).size = texSize item.texformat := rfl
    rw [MemSpan.same, h.textureSize, hsize, Nat.min_self] at htexture
    exact (sameItems_iff 17 texSlot _ _ 0).mp htexture
  · apply h.index.agree
    have hsize : (indexSpan item.texformat).size = indexSize item.texformat := rfl
    have hindex := hindex hmode
    rw [MemSpan.same, h.indexSize, hsize, Nat.min_self] at hindex
    exact (sameItems_iff 17 texSlot _ _ 0).mp hindex

/-- The span of all palettes has the six slots one behind the other. -/
theorem samePalette_of_holds {palette : ℕ → ℕ → BitVec 8} {paletteDump : ℕ → BitVec 8}
    (h : TexCache.mspal.Holds palette paletteDump) :
    SamePalette palette paletteDump := by
  intro slot hslot off hoff
  have hsize : PALETTE_DUMP_SIZE = 6 * 2 ^ 14 := rfl
  obtain ⟨item, hitem, hlow, hhigh⟩ :=
    spanItems_cover 14 (texPalSlot true) 0 PALETTE_DUMP_SIZE 0 (slot * 2 ^ 14 + off) (by omega)
  have hspec := spanItems_spec 14 (texPalSlot true) 0 PALETTE_DUMP_SIZE 0 item hitem
  have hpos := hspec.pos
  have hend := hspec.high
  have hbank := hspec.bank
  have hstart := hspec.start
  have hitemSlot := hspec.slot
  have hofs : (0 + BitVec.ofNat 32 (item.ofs - 0) : BitVec 32).toNat = item.ofs := by
    have hzero : (0 : BitVec 32) + BitVec.ofNat 32 item.ofs = BitVec.ofNat 32 item.ofs := BitVec.zero_add _
    rw [Nat.sub_zero, hzero, BitVec.toNat_ofNat]
    omega
  rw [hofs] at hstart
  have hnumber : item.slot = item.ofs / 2 ^ 14 := by
    have hsilent : texPalSlot true (0 + BitVec.ofNat 32 (item.ofs - 0)) =
        texPalSlotNumber (0 + BitVec.ofNat 32 (item.ofs - 0)) := by
      simp only [texPalSlot, Bool.true_eq_false, and_false, if_false]
    rw [hitemSlot, hsilent, texPalSlotNumber, toNat_and_mask (n := 3) _ rfl, BitVec.toNat_ushiftRight,
      hofs, Nat.shiftRight_eq_div_pow]
    omega
  have hin := h item hitem (slot * 2 ^ 14 + off - item.ofs) (by omega)
  have hslotEq : item.slot = slot := by omega
  have hoffEq : item.start + (slot * 2 ^ 14 + off - item.ofs) = off := by omega
  rwa [hslotEq, hoffEq, Nat.add_sub_cancel' (by omega)] at hin

end Kept

/-! ### The calls -/

section Calls

variable {α : Type*} {decode : TexFormat → BitVec 32 → BitVec 32 → List (List (BitVec 8)) → α}
  {m m₀ : TexMemory} {texFormat : TexFormat} {format texpal : BitVec 32} {heap : ℕ → BitVec 8}
  {item : TexCacheItem α} {s : TexSystem α}

def TexCacheItem.HasKey (item : TexCacheItem α) (format texpal : BitVec 32) : Prop :=
  item.texformat = format ∧ item.texpal = texpal

/-- An item that stands the comparisons. -/
def TexCacheItem.trusted (item : TexCacheItem α) : TexCacheItem α := { item with suspectedInvalid := false }

/-- The first item of the key, if there is one, is returned or thrown away. -/
theorem scanItems_cases (m : TexMemory) (texFormat : TexFormat) (format texpal : BitVec 32)
    (items : List (TexCacheItem α)) :
    (TexCache.scanItems m texFormat format texpal items = (items, .nothing) ∧
      ∀ item ∈ items, ¬ item.HasKey format texpal) ∨
    ∃ before curr after, items = before ++ curr :: after ∧ curr.HasKey format texpal ∧
      if TexCache.reject m texFormat format texpal curr then
        TexCache.scanItems m texFormat format texpal items = (before ++ after, .rejected curr)
      else TexCache.scanItems m texFormat format texpal items =
        (before ++ curr.trusted :: after, .accepted curr.trusted) := by
  induction items with
  | nil => exact .inl ⟨rfl, fun item hitem => absurd hitem List.not_mem_nil⟩
  | cons curr rest ih =>
    by_cases hkey : curr.HasKey format texpal
    · refine .inr ⟨[], curr, rest, rfl, hkey, ?_⟩
      have hother : ¬ (curr.texformat ≠ format ∨ curr.texpal ≠ texpal) := by
        rintro (h | h)
        · exact h hkey.1
        · exact h hkey.2
      rw [TexCache.scanItems, if_neg hother]
      split_ifs <;> rfl
    · have hother : curr.texformat ≠ format ∨ curr.texpal ≠ texpal := not_and_or.mp hkey
      rw [TexCache.scanItems, if_pos hother]
      rcases ih with ⟨hscan, hnone⟩ | ⟨before, found, after, hrest, hfound, hscan⟩
      · refine .inl ⟨?_, ?_⟩
        · rw [hscan]
        · exact List.forall_mem_cons.mpr ⟨hkey, hnone⟩
      · refine .inr ⟨curr :: before, found, after, congrArg (curr :: ·) hrest, hfound, ?_⟩
        split_ifs at hscan ⊢ with hreject
        · rw [hscan]
          rfl
        · rw [hscan]
          rfl

theorem perm_listPushFront (cache : TexCache α) (item : TexCacheItem α) :
    (cache.listPushFront item).index.Perm (item :: cache.index) := by
  refine List.perm_middle.trans (List.Perm.cons item ?_)
  rw [List.takeWhile_append_dropWhile]

theorem suffix_evictItems (target : BitVec 32) (items : List (TexCacheItem α)) (cacheSize : BitVec 32) :
    (TexCache.evictItems target items cacheSize).1 <:+ items := by
  induction items generalizing cacheSize with
  | nil => exact List.suffix_rfl
  | cons item items ih =>
    rw [TexCache.evictItems]
    split_ifs
    · exact (ih _).trans (List.suffix_cons item items)
    · exact List.suffix_rfl

theorem suffix_evict (cache : TexCache α) (target : BitVec 32) :
    (cache.evict target).index <:+ cache.index := by
  rw [TexCache.evict]
  split_ifs
  · exact List.suffix_rfl
  · exact suffix_evictItems ..

/-! ### The invariant -/

/-- An item of the index, which was made from the memory `m₀`. -/
structure Sound (decode : TexFormat → BitVec 32 → BitVec 32 → List (List (BitVec 8)) → α)
    (s : TexSystem α) (m₀ : TexMemory) (item : TexCacheItem α) : Prop where
  recorded : Recorded decode m₀ item
  compressed : textureMode item.texformat = texmode4X4 → item.assumedInvalid = false →
    SamePalette m₀.palette s.cache.paletteDump
  fresh : item.suspectedInvalid = false →
    decodeInputs m₀ item.texformat item.texpal = decodeInputs s.mem item.texformat item.texpal

structure Coherent (decode : TexFormat → BitVec 32 → BitVec 32 → List (List (BitVec 8)) → α)
    (s : TexSystem α) : Prop where
  palette : SamePalette s.mem.palette s.cache.paletteDump
  items : ∀ item ∈ s.cache.index, ∃ m₀, Sound decode s m₀ item

theorem coherent_initial : Coherent decode TexSystem.initial :=
  ⟨fun _ _ _ _ => rfl, fun _ hitem => absurd hitem List.not_mem_nil⟩

/-- An item that is accepted is as the decoder would make it now. -/
theorem Sound.trusted (h : Sound decode s m₀ item)
    (hpalette : SamePalette s.mem.palette s.cache.paletteDump)
    (haccept : TexCache.reject s.mem texFormat item.texformat item.texpal item = false) :
    Sound decode s m₀ item.trusted := by
  obtain ⟨hrecorded, hcompressed, hfresh⟩ := h
  refine ⟨hrecorded.marked .., hcompressed, fun _ => ?_⟩
  change decodeInputs m₀ item.texformat item.texpal = decodeInputs s.mem item.texformat item.texpal
  simp only [TexCache.reject, Bool.or_eq_false_iff, Bool.and_eq_false_imp, Bool.not_eq_false'] at haccept
  obtain ⟨⟨-, hassumed⟩, hsame⟩ := haccept
  rcases hsuspected : item.suspectedInvalid with _ | _
  · exact hfresh hsuspected
  · refine decodeInputs_congr (seen_of_sameDump hrecorded (hsame hsuspected) ?_) hrecorded.fits.2
    intro hmode slot hslot off hoff
    rw [hcompressed hmode hassumed slot hslot off hoff, hpalette slot hslot off hoff]

theorem Sound.of_system {s' : TexSystem α} (h : Sound decode s m₀ item) (hmem : s'.mem = s.mem)
    (hdump : s'.cache.paletteDump = s.cache.paletteDump) : Sound decode s' m₀ item := by
  refine ⟨h.recorded, ?_, ?_⟩
  · rw [hdump]
    exact h.compressed
  · rw [hmem]
    exact h.fresh

/-- A scan keeps the invariant, and what it returns is up to date. -/
theorem Coherent.scan (h : Coherent decode s) (hfits : s.mem.Fits format texpal) :
    Coherent decode (s.step decode (.setTexture texFormat format texpal heap)) := by
  obtain ⟨hpalette, hitems⟩ := h
  have hnew (cache : TexCache α) (hdump : cache.paletteDump = s.cache.paletteDump)
      (hcache : ∀ item ∈ cache.index, item ∈ s.cache.index) :
      Coherent decode { s with
        cache := cache.listPushFront (TexCache.newItem decode s.mem texFormat format texpal heap) } := by
    refine ⟨hdump ▸ hpalette, fun item hitem => ?_⟩
    rcases List.mem_cons.mp ((perm_listPushFront cache _).mem_iff.mp hitem) with rfl | hitem
    · refine ⟨s.mem, recorded_newItem hfits, fun _ _ => ?_, fun _ => rfl⟩
      change SamePalette s.mem.palette cache.paletteDump
      rwa [hdump]
    · obtain ⟨m₀, hsound⟩ := hitems item (hcache item hitem)
      exact ⟨m₀, hsound.of_system rfl hdump⟩
  rw [TexSystem.step, TexCache.scan]
  rcases scanItems_cases s.mem texFormat format texpal s.cache.index with
    ⟨hscan, -⟩ | ⟨before, curr, after, hindex, ⟨rfl, rfl⟩, hscan⟩
  · rw [hscan]
    exact hnew _ rfl fun item hitem => hitem
  · rw [hindex, List.forall_mem_append, List.forall_mem_cons] at hitems
    split_ifs at hscan with hreject
    · rw [hscan]
      refine hnew _ rfl fun item hitem => ?_
      rw [hindex]
      exact (List.sublist_cons_self curr after).append_left before |>.subset hitem
    · rw [hscan]
      refine ⟨hpalette, ?_⟩
      rw [List.forall_mem_append, List.forall_mem_cons]
      obtain ⟨hbefore, ⟨m₀, hcurr⟩, hafter⟩ := hitems
      have haccept := Bool.not_eq_true _ ▸ hreject
      refine ⟨fun item hitem => ?_, ⟨m₀, (hcurr.trusted hpalette haccept).of_system rfl rfl⟩,
        fun item hitem => ?_⟩
      · obtain ⟨m₀, hsound⟩ := hbefore item hitem
        exact ⟨m₀, hsound.of_system rfl rfl⟩
      · obtain ⟨m₀, hsound⟩ := hafter item hitem
        exact ⟨m₀, hsound.of_system rfl rfl⟩

theorem Coherent.evict (h : Coherent decode s) (target : BitVec 32) :
    Coherent decode { s with cache := s.cache.evict target } := by
  have hdump : (s.cache.evict target).paletteDump = s.cache.paletteDump := by
    rw [TexCache.evict]
    split_ifs <;> rfl
  refine ⟨hdump ▸ h.palette, fun item hitem => ?_⟩
  obtain ⟨m₀, hsound⟩ := h.items item ((suffix_evict s.cache target).subset hitem)
  exact ⟨m₀, hsound.of_system rfl hdump⟩

theorem samePalette_invalidate (cache : TexCache α) (m : TexMemory) :
    SamePalette m.palette (cache.invalidate m).paletteDump := by
  apply samePalette_of_holds
  rw [TexCache.invalidate]
  split_ifs with hdirty
  · have hdump : TexCache.mspal.dump m.palette TexCache.mspal.size =
        dumpItems m.palette TexCache.mspal.items PALETTE_DUMP_SIZE :=
      congrArg (dumpItems m.palette _) (Nat.min_self _)
    intro item hitem x hx
    rw [hdump]
    exact (@dumpItems_getD m.palette 14 (texPalSlot true) 0 PALETTE_DUMP_SIZE 0 _ item hitem x hx).symm
  · have hsame : TexCache.mspal.same m.palette cache.paletteDump TexCache.mspal.size = true := by
      simpa [TexCache.paletteDirty] using hdirty
    rw [MemSpan.same, Nat.min_self] at hsame
    exact (sameItems_iff 14 (texPalSlot true) _ _ 0).mp hsame

/-- Once the memory is another one every item is suspected. A compressed texture is given up if a palette
is another one. -/
theorem Coherent.reconfigure (h : Coherent decode s) (m : TexMemory) :
    Coherent decode (s.step decode (.reconfigure m)) := by
  refine ⟨samePalette_invalidate s.cache m, fun item hitem => ?_⟩
  obtain ⟨old, hold, rfl⟩ := List.mem_map.mp hitem
  obtain ⟨m₀, hrecorded, hcompressed, -⟩ := h.items old hold
  refine ⟨m₀, hrecorded.marked .., fun hmode hassumed => ?_, fun hsuspected => ?_⟩
  · dsimp only at hmode hassumed
    have hclean : ¬ s.cache.paletteDirty m = true := by
      intro hdirty
      rw [if_pos ⟨hmode, hdirty⟩] at hassumed
      exact absurd hassumed Bool.true_eq_false_eq_False
    rw [if_neg (not_and_of_not_right _ hclean)] at hassumed
    rw [TexSystem.step, TexCache.invalidate, if_neg hclean]
    exact hcompressed hmode hassumed
  · exact absurd hsuspected Bool.true_eq_false_eq_False

/-- What is asked for fits when it may be decoded. -/
def TexAct.Admissible (s : TexSystem α) : TexAct → Prop
  | .setTexture _ format texpal _ => s.mem.Fits format texpal
  | _ => True

theorem Coherent.step (act : TexAct) (hact : act.Admissible s) (h : Coherent decode s) :
    Coherent decode (s.step decode act) := by
  cases act with
  | reconfigure m => exact h.reconfigure m
  | setTexture texFormat format texpal heap => exact h.scan hact
  | evictFrame => exact h.evict kMaxCacheSize
  | reset => exact h.evict 0

/-- What a scan returns is what the decoder makes of the memory as it is. -/
structure UpToDate (decode : TexFormat → BitVec 32 → BitVec 32 → List (List (BitVec 8)) → α)
    (m : TexMemory) (texFormat : TexFormat) (format texpal : BitVec 32) (item : TexCacheItem α) : Prop where
  ofFormat : item.texformat = format
  ofPalette : item.texpal = texpal
  ofPixels : item.cacheFormat = texFormat
  decoded : item.decoded = decode texFormat format texpal (decodeInputs m format texpal)

theorem Coherent.upToDate (h : Coherent decode s) (texFormat : TexFormat) (format texpal : BitVec 32)
    (heap : ℕ → BitVec 8) : UpToDate decode s.mem texFormat format texpal
      (s.cache.scan decode s.mem texFormat format texpal heap).2 := by
  obtain ⟨hpalette, hitems⟩ := h
  rw [TexCache.scan]
  rcases scanItems_cases s.mem texFormat format texpal s.cache.index with
    ⟨hscan, -⟩ | ⟨before, curr, after, hindex, ⟨rfl, rfl⟩, hscan⟩
  · rw [hscan]
    exact ⟨rfl, rfl, rfl, rfl⟩
  · split_ifs at hscan with hreject
    · rw [hscan]
      exact ⟨rfl, rfl, rfl, rfl⟩
    · rw [hscan]
      have haccept := Bool.not_eq_true _ ▸ hreject
      have hcurr : curr ∈ s.cache.index := hindex ▸ List.mem_append_right _ List.mem_cons_self
      obtain ⟨m₀, hsound⟩ := hitems curr hcurr
      have htrusted := hsound.trusted hpalette haccept
      have hformat : curr.cacheFormat = texFormat := by
        simp only [TexCache.reject, Bool.or_eq_false_iff, bne_eq_false_iff_eq] at haccept
        exact haccept.1.1
      refine ⟨rfl, rfl, hformat, ?_⟩
      have hfresh := htrusted.fresh rfl
      rw [htrusted.recorded.decoded, hfresh]
      exact congrArg (decode · _ _ _) hformat

/-- The cache never brings a texture that is out of date. -/
theorem scan_upToDate (decode : TexFormat → BitVec 32 → BitVec 32 → List (List (BitVec 8)) → α)
    (acts : List TexAct)
    (hacts : AtEach (TexSystem.step decode) TexAct.Admissible TexSystem.initial acts)
    (texFormat : TexFormat) (format texpal : BitVec 32) (heap : ℕ → BitVec 8) :
    let s := run (TexSystem.step decode) TexSystem.initial acts
    UpToDate decode s.mem texFormat format texpal
      (s.cache.scan decode s.mem texFormat format texpal heap).2 :=
  (run_invariant_of_atEach (fun _ act hact h => h.step act hact) coherent_initial hacts).upToDate ..

/-- A texture with a palette and a compressed one, before and after the banks are mapped anew. -/
theorem scan_upToDate_anew :
    let decode := fun (_ : TexFormat) (_ _ : BitVec 32) (inputs : List (List (BitVec 8))) => inputs
    let acts : List TexAct :=
      [.reconfigure ⟨fun _ _ => 7, fun _ _ => 3⟩, .setTexture .bpp15 0x10000000 0 fun _ => 0,
        .setTexture .bpp32 0x14000000 0 fun _ => 0, .evictFrame,
        .reconfigure ⟨fun _ _ => 7, fun _ _ => 4⟩]
    let s := run (TexSystem.step decode) TexSystem.initial acts
    UpToDate decode s.mem .bpp32 0x14000000 0
      (s.cache.scan decode s.mem .bpp32 0x14000000 0 fun _ => 0).2 := by
  have hplain : TexMemory.Fits ⟨fun _ _ => 7, fun _ _ => 3⟩ 0x10000000 0 :=
    ⟨by decide, fun hmode => absurd hmode (by decide)⟩
  have hcompressed : TexMemory.Fits ⟨fun _ _ => 7, fun _ _ => 3⟩ 0x14000000 0 := by
    refine ⟨by decide, fun _ => ⟨by decide, fun d _ => ?_⟩⟩
    have hword (v : ℕ) : readWord 2 (fun _ => (7 : BitVec 8)) v = 0x0707 := rfl
    have hoffsets : blockOffsets 0x0707 = [0xe0e, 0xe0f, 0xe10] := rfl
    rw [pal1At, hword, hoffsets, List.forall_mem_cons, List.forall_mem_cons, List.forall_mem_singleton]
    decide
  refine scan_upToDate _ _ ?_ _ _ _ _
  exact ⟨trivial, hplain, hcompressed, trivial, trivial, trivial⟩

end Calls

/-! ### What the cache counts -/

section Counts

variable {α : Type*} {decode : TexFormat → BitVec 32 → BitVec 32 → List (List (BitVec 8)) → α}
  {m : TexMemory} {texFormat : TexFormat} {format texpal : BitVec 32} {heap : ℕ → BitVec 8}
  {item : TexCacheItem α} {cache : TexCache α}

/-- The bytes of the decoded textures. -/
def TexCache.total (cache : TexCache α) : ℕ := (cache.index.map TexCacheItem.decodeLen).sum

/-- The order of the index, with one item of a key at most. -/
def KeyOrder (a b : TexCacheItem α) : Prop :=
  a.texformat ≤ b.texformat ∧ ¬ b.HasKey a.texformat a.texpal

structure Accounted (cache : TexCache α) : Prop where
  size : cache.cacheSize = BitVec.ofNat 32 cache.total
  order : cache.index.Pairwise KeyOrder
  pos : ∀ item ∈ cache.index, 0 < item.decodeLen

theorem ofNat_add_sub (a b : ℕ) : BitVec.ofNat 32 (a + b) - BitVec.ofNat 32 a = BitVec.ofNat 32 b := by
  rw [BitVec.ofNat_add, BitVec.add_comm, BitVec.add_sub_cancel]

theorem keyOrder_insert {items : List (TexCacheItem α)} (h : items.Pairwise KeyOrder)
    (hkey : ∀ other ∈ items, ¬ other.HasKey item.texformat item.texpal) :
    (items.takeWhile (fun other => decide (other.texformat ≤ item.texformat)) ++
      item :: items.dropWhile fun other =>
        decide (other.texformat ≤ item.texformat)).Pairwise KeyOrder := by
  induction items with
  | nil => exact List.pairwise_singleton _ _
  | cons first rest ih =>
    obtain ⟨hfirst, hrest⟩ := List.pairwise_cons.mp h
    obtain ⟨hfirstKey, hrestKey⟩ := List.forall_mem_cons.mp hkey
    by_cases hle : first.texformat ≤ item.texformat
    · rw [List.takeWhile_cons_of_pos (by simpa using hle), List.dropWhile_cons_of_pos (by simpa using hle),
        List.cons_append, List.pairwise_cons]
      refine ⟨fun other hother => ?_, ih hrest hrestKey⟩
      have hmem := (List.perm_middle.mem_iff).mp hother
      rw [List.takeWhile_append_dropWhile] at hmem
      rcases List.mem_cons.mp hmem with rfl | hmem
      · exact ⟨hle, fun hsame => hfirstKey ⟨hsame.1.symm, hsame.2.symm⟩⟩
      · exact hfirst other hmem
    · rw [List.takeWhile_cons_of_neg (by simpa using hle), List.dropWhile_cons_of_neg (by simpa using hle),
        List.nil_append, List.pairwise_cons]
      refine ⟨fun other hother => ⟨?_, hkey other hother⟩, h⟩
      -- the items behind the first one are no lower than it
      have hlt : item.texformat ≤ first.texformat := BitVec.le_of_lt (BitVec.not_le.mp hle)
      rcases List.mem_cons.mp hother with rfl | hother
      · exact hlt
      · exact BitVec.le_trans hlt (hfirst other hother).1

theorem Accounted.listPushFront (h : Accounted cache) (hpos : 0 < item.decodeLen)
    (hkey : ∀ other ∈ cache.index, ¬ other.HasKey item.texformat item.texpal) :
    Accounted (cache.listPushFront item) := by
  have hperm := perm_listPushFront cache item
  refine ⟨?_, keyOrder_insert h.order hkey, fun other hother => ?_⟩
  · have htotal : (cache.listPushFront item).total = cache.total + item.decodeLen := by
      rw [TexCache.total, (hperm.map _).sum_nat, List.map_cons, List.sum_cons, Nat.add_comm]
      rfl
    rw [htotal, BitVec.ofNat_add, ← h.size]
    rfl
  · rcases List.mem_cons.mp (hperm.mem_iff.mp hother) with rfl | hother
    · exact hpos
    · exact h.pos other hother

/-- The items of one key are one at most, so a scan that throws one away leaves none. -/
theorem Accounted.scan (h : Accounted cache) :
    Accounted (cache.scan decode m texFormat format texpal heap).1 := by
  have hpos : 0 < (TexCache.newItem decode m texFormat format texpal heap).decodeLen := by
    obtain ⟨a, b, -, -, ha, hb, hx, hy⟩ := exists_sides format
    change 0 < sizeX format * sizeY format * 4
    rw [hx, hy]
    exact Nat.mul_pos (Nat.mul_pos (by omega) (by omega)) (by decide)
  rw [TexCache.scan]
  rcases scanItems_cases m texFormat format texpal cache.index with
    ⟨hscan, hnone⟩ | ⟨before, curr, after, hindex, hcurr, hscan⟩
  · rw [hscan]
    exact h.listPushFront hpos hnone
  · obtain ⟨hsize, horder, hall⟩ := h
    rw [hindex] at horder hall
    split_ifs at hscan with hreject
    · rw [hscan]
      refine Accounted.listPushFront ⟨?_, ?_, fun item hitem => ?_⟩ hpos ?_
      · have htotal : cache.total = curr.decodeLen + (before.map TexCacheItem.decodeLen ++
            after.map TexCacheItem.decodeLen).sum := by
          rw [TexCache.total, hindex, List.map_append, List.map_cons, List.sum_append, List.sum_append,
            List.sum_cons]
          omega
        rw [TexCache.listRemove, hsize, htotal, ofNat_add_sub, ← List.map_append]
        rfl
      · exact horder.sublist ((List.sublist_cons_self curr after).append_left before)
      · exact hall item (((List.sublist_cons_self curr after).append_left before).subset hitem)
      · obtain ⟨-, hcons, hacross⟩ := List.pairwise_append.mp horder
        intro other hother hkey
        rcases List.mem_append.mp hother with hother | hother
        · refine (hacross other hother curr List.mem_cons_self).2 ?_
          exact ⟨hcurr.1.trans hkey.1.symm, hcurr.2.trans hkey.2.symm⟩
        · refine ((List.pairwise_cons.mp hcons).1 other hother).2 ?_
          exact ⟨hkey.1.trans hcurr.1.symm, hkey.2.trans hcurr.2.symm⟩
    · rw [hscan]
      obtain ⟨hbefore, hcons, hacross⟩ := List.pairwise_append.mp horder
      refine ⟨?_, List.pairwise_append.mpr ⟨hbefore, ?_, fun a ha b hb => ?_⟩, ?_⟩
      · rw [hsize, TexCache.total, TexCache.total, hindex, List.map_append, List.map_append]
        rfl
      · obtain ⟨hafter, hrest⟩ := List.pairwise_cons.mp hcons
        exact List.pairwise_cons.mpr ⟨hafter, hrest⟩
      · rcases List.mem_cons.mp hb with rfl | hb
        · exact hacross a ha curr List.mem_cons_self
        · exact hacross a ha b (List.mem_cons_of_mem _ hb)
      · rw [List.forall_mem_append, List.forall_mem_cons] at hall ⊢
        exact hall

/-- The loop ends at the target, or with nothing left to throw away. -/
theorem evictItems_spec (target : BitVec 32) (items : List (TexCacheItem α)) :
    let size (items : List (TexCacheItem α)) := BitVec.ofNat 32 (items.map TexCacheItem.decodeLen).sum
    let left := TexCache.evictItems target items (size items)
    left.2 = size left.1 ∧ left.2 ≤ target := by
  induction items with
  | nil => exact ⟨rfl, Nat.zero_le _⟩
  | cons item items ih =>
    dsimp only at ih ⊢
    rw [TexCache.evictItems, List.map_cons, List.sum_cons]
    split_ifs with hover
    · rw [ofNat_add_sub]
      exact ih
    · exact ⟨rfl, BitVec.not_lt.mp hover⟩

theorem Accounted.evict (h : Accounted cache) (target : BitVec 32) : Accounted (cache.evict target) := by
  have hsuffix := suffix_evict cache target
  refine ⟨?_, h.order.sublist hsuffix.sublist, fun item hitem => h.pos item (hsuffix.subset hitem)⟩
  rw [TexCache.evict]
  split_ifs
  · exact h.size
  · rw [h.size]
    exact (evictItems_spec (target / 2) cache.index).1

theorem Accounted.invalidate (h : Accounted cache) (m : TexMemory) : Accounted (cache.invalidate m) := by
  refine ⟨?_, List.pairwise_map.mpr h.order, ?_⟩
  · rw [TexCache.total, TexCache.invalidate, List.map_map]
    exact h.size
  · exact List.forall_mem_map.mpr h.pos

theorem Accounted.step {s : TexSystem α} (h : Accounted s.cache) (act : TexAct) :
    Accounted (s.step decode act).cache := by
  cases act with
  | reconfigure m => exact h.invalidate m
  | setTexture texFormat format texpal heap => exact h.scan
  | evictFrame => exact h.evict kMaxCacheSize
  | reset => exact h.evict 0

/-- Below the target there is nothing to do, and else the cache is cut to half of it. -/
theorem Accounted.cacheSize_evict (h : Accounted cache) (target : BitVec 32) :
    (cache.evict target).cacheSize < target ∨ (cache.evict target).cacheSize ≤ target / 2 := by
  rw [TexCache.evict]
  split_ifs with hsmall
  · exact .inl hsmall
  · right
    rw [h.size]
    exact (evictItems_spec (target / 2) cache.index).2

/-- `evict(0)` leaves nothing, unless the count has gone round. -/
theorem Accounted.index_reset (h : Accounted cache) (hsmall : cache.total < 2 ^ 32) :
    (cache.evict 0).index = [] := by
  have hafter := h.evict 0
  have hzero : (cache.evict 0).cacheSize = 0 := by
    rcases h.cacheSize_evict 0 with hlt | hle
    · exact absurd hlt BitVec.not_lt_zero
    · exact BitVec.le_zero_iff.mp hle
  obtain ⟨gone, hgone⟩ := suffix_evict cache 0
  have htotal : (cache.evict 0).total ≤ cache.total := by
    rw [TexCache.total, TexCache.total, ← hgone, List.map_append, List.sum_append]
    exact Nat.le_add_left ..
  have hnone : (cache.evict 0).total = 0 := by
    have hmod := congrArg BitVec.toNat (hafter.size.symm.trans hzero)
    rw [BitVec.toNat_ofNat] at hmod
    change _ = 0 at hmod
    omega
  rcases hindex : (cache.evict 0).index with _ | ⟨item, items⟩
  · rfl
  · have hpos := hafter.pos item (hindex ▸ List.mem_cons_self)
    rw [TexCache.total, hindex, List.map_cons, List.sum_cons] at hnone
    omega

/-- What holds of the cache all along: its count is right, up to where it goes round, and no key is there
twice. After a frame it is below its limit, and empty after a reset. -/
structure CacheLaw (cache : TexCache α) : Prop where
  size : cache.cacheSize.toNat = cache.total % 2 ^ 32
  order : cache.index.Pairwise KeyOrder
  frame : (cache.evict kMaxCacheSize).cacheSize < kMaxCacheSize
  reset : cache.total < 2 ^ 32 → (cache.evict 0).index = []

theorem cacheLaw_run (decode : TexFormat → BitVec 32 → BitVec 32 → List (List (BitVec 8)) → α)
    (acts : List TexAct) : CacheLaw (run (TexSystem.step decode) TexSystem.initial acts).cache := by
  have h : Accounted (run (TexSystem.step decode) TexSystem.initial acts).cache := by
    refine @run_invariant _ _ (TexSystem.step decode) (fun s => Accounted s.cache)
      (fun s act h => h.step act) _ ?_ acts
    exact ⟨rfl, List.Pairwise.nil, fun _ hitem => absurd hitem List.not_mem_nil⟩
  refine ⟨?_, h.order, ?_, h.index_reset⟩
  · rw [h.size, BitVec.toNat_ofNat]
  · rcases h.cacheSize_evict kMaxCacheSize with hlt | hle
    · exact hlt
    · exact lt_of_le_of_lt (BitVec.le_def.mp hle) (by decide)

end Counts

end Desmume.Raster
