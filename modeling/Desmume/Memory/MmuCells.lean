import Desmume.Memory.MmuDefs

/-! The byte behind an address: plain memory as a map from addresses to cells of the blocks. -/

namespace Desmume.Memory
open Library Vram

/-- A byte of the emulated memory: a block and an offset in it. -/
abbrev Cell := Block × ℕ

/-- Outside of main memory and the TCMs, the windows that hold plain memory. -/
def SlowWindow (proc : Proc) (adr : ℕ) : Prop :=
  (0x03000000 ≤ adr ∧ adr < 0x04000000) ∨ (0x06000000 ≤ adr ∧ adr < 0x07000000) ∨
    proc = .arm9 ∧ (0x05000000 ≤ adr ∧ adr < 0x06000000 ∨ 0x07000000 ≤ adr ∧ adr < 0x08000000)

instance (proc : Proc) (adr : ℕ) : Decidable (SlowWindow proc adr) :=
  inferInstanceAs (Decidable (_ ∨ _ ∨ _))

/-- The address `MMU_LCDmap` gives, when it is mapped. -/
def lcdAddr (proc : Proc) (v : VramState) (adr : ℕ) : Option ℕ :=
  (mmuLcdmap proc v adr).bind fun r => if r.unmapped then none else some r.addr

def tableCell (proc : Proc) (adr : ℕ) : Option Cell :=
  (mmuMem proc (adr >>> 20)).map fun blk => (blk, adr &&& mmuMask proc (adr >>> 20))

def mainMemSize : Console → ℕ
  | .retail => 2 ^ 22
  | .debug => 2 ^ 23
  | .dsi => 2 ^ 24

variable {δ : Type}

/-- The cell behind a byte address, where there is plain memory that is mapped. -/
def byteCell (proc : Proc) (s : MmuState δ) (addr : ℕ) : Option Cell :=
  if dtcmHit proc addr s then some (.arm9Dtcm, addr % 2 ^ 14)
  else if addr / 2 ^ 24 % 16 = 2 then some (.mainMem, addr % mainMemSize s.console)
  else if proc = .arm9 ∧ addr % 2 ^ 28 < 0x02000000 then some (.arm9Itcm, addr % 2 ^ 15)
  else if SlowWindow proc (addr % 2 ^ 28) then
    (lcdAddr proc s.vram (addr % 2 ^ 28)).bind (tableCell proc)
  else none

/-- The LCDC addresses behind the last page, which all fall back to the start of a page. -/
def InLcdMirror (proc : Proc) (s : MmuState δ) (addr : ℕ) : Prop :=
  proc = .arm9 ∧ ¬ dtcmHit proc addr s ∧ 0x068A4000 ≤ addr % 2 ^ 28 ∧ addr % 2 ^ 28 < 0x07000000

instance (proc : Proc) (s : MmuState δ) (addr : ℕ) : Decidable (InLcdMirror proc s addr) :=
  inferInstanceAs (Decidable (_ ∧ _ ∧ _ ∧ _))

/-! Words: the four bytes of an aligned word lie next to each other. -/

section Word

variable {c i : ℕ}

theorem low_word (hc : c % 4 = 0) (hi : i < 4) {n mask : ℕ} (hn : 2 ≤ n) (h : mask = 2 ^ n - 1) :
    (c + i) &&& mask = (c &&& mask) + i := by
  obtain ⟨m, rfl⟩ := Nat.exists_eq_add_of_le hn
  rw [and_lowMask _ h, and_lowMask _ h, Nat.pow_add, Nat.mod_mul, Nat.mod_mul (x := c)]
  have hdiv : (c + i) / 2 ^ 2 = c / 2 ^ 2 := by omega
  rw [hdiv]
  omega

theorem shift_word (hc : c % 4 = 0) (hi : i < 4) {n : ℕ} (hn : 2 ≤ n) :
    (c + i) >>> n = c >>> n := by
  obtain ⟨m, rfl⟩ := Nat.exists_eq_add_of_le hn
  rw [Nat.shiftRight_eq_div_pow, Nat.shiftRight_eq_div_pow, Nat.pow_add, ← Nat.div_div_eq_div_mul,
    ← Nat.div_div_eq_div_mul, show (c + i) / 2 ^ 2 = c / 2 ^ 2 by omega]

theorem low_mod_four (x : ℕ) {n mask : ℕ} (hn : 2 ≤ n) (h : mask = 2 ^ n - 1) :
    (x &&& mask) % 4 = x % 4 := by
  rw [and_lowMask _ h]
  exact Nat.mod_mod_of_dvd x (Nat.pow_dvd_pow 2 hn)

theorem mmuMask_eq (proc : Proc) (i : ℕ) : ∃ n, 2 ≤ n ∧ mmuMask proc i = 2 ^ n - 1 := by
  have h : mmuMask proc i ∈ [0x7FFF, 0x3FFFFF, 0xFFFFFF, 0x7FF, 3, 0x3FFF, 0xFFFF] := by
    unfold mmuMask
    cases proc <;> simp only <;> split <;> (try split) <;> simp
  simp only [List.mem_cons, List.not_mem_nil, or_false] at h
  rcases h with h | h | h | h | h | h | h <;> rw [h]
  exacts [⟨15, by decide⟩, ⟨22, by decide⟩, ⟨24, by decide⟩, ⟨11, by decide⟩, ⟨2, by decide⟩,
    ⟨14, by decide⟩, ⟨16, by decide⟩]

theorem tableCell_word (proc : Proc) (hc : c % 4 = 0) (hi : i < 4) :
    tableCell proc (c + i) = (tableCell proc c).map fun l => (l.1, l.2 + i) := by
  obtain ⟨n, hn, hmask⟩ := mmuMask_eq proc (c >>> 20)
  rw [tableCell, shift_word hc hi (by decide), tableCell, low_word hc hi hn hmask, Option.map_map]
  rfl

theorem tableCell_aligned (proc : Proc) (hc : c % 4 = 0) {l : Cell}
    (h : tableCell proc c = some l) : l.2 % 4 = 0 := by
  obtain ⟨n, hn, hmask⟩ := mmuMask_eq proc (c >>> 20)
  obtain ⟨blk, -, rfl⟩ := Option.map_eq_some_iff.mp h
  rw [low_mod_four c hn hmask, hc]

end Word

/-- A partial map of addresses that takes an aligned word to an aligned word. -/
structure KeepsWord (f : ℕ → Option ℕ) (c : ℕ) : Prop where
  next : ∀ i < 4, f (c + i) = (f c).map (· + i)
  aligned : ∀ a, f c = some a → a % 4 = 0

theorem KeepsWord.congr {f g : ℕ → Option ℕ} {c : ℕ} (h : KeepsWord g c)
    (hfg : ∀ i < 4, f (c + i) = g (c + i)) : KeepsWord f c := by
  have h0 : f c = g c := hfg 0 (by decide)
  exact ⟨fun i hi => by rw [hfg i hi, h.next i hi, h0], fun a ha => h.aligned a (h0 ▸ ha)⟩

/-- A fixed base for the page and the low bits of the address. -/
theorem keepsWord_page (base : Option ℕ) {c n mask : ℕ} (hc : c % 4 = 0) (hn : 2 ≤ n)
    (h : mask = 2 ^ n - 1) (hbase : ∀ a, base = some a → a % 4 = 0) :
    KeepsWord (fun adr => base.map (· + (adr &&& mask))) c where
  next := fun i hi => by
    simp only [low_word hc hi hn h, Option.map_map, ← Nat.add_assoc]
    rfl
  aligned := fun a ha => by
    obtain ⟨b, hb, rfl⟩ := Option.map_eq_some_iff.mp ha
    have hlow := low_mod_four c hn h
    have hb4 := hbase b hb
    omega

/-- The base of a 16KB block of the WRAM window. -/
def wramBase (block : ℕ) : Option ℕ :=
  if block >>> 2 = 0 then some (arm7HackyIwramLocation + (block <<< 14))
  else if block >>> 2 = 1 then some (arm7HackySiwramLocation + ((block &&& 3) <<< 14))
  else none

def pageBase (page : ℕ) : Option ℕ :=
  if page = vramPageUnmapped then none else some (lcdcHackyLocation + (page <<< 14))

theorem wramBase_aligned {block a : ℕ} (h : wramBase block = some a) : a % 4 = 0 := by
  unfold wramBase arm7HackyIwramLocation arm7HackySiwramLocation at h
  split_ifs at h <;> obtain rfl := Option.some.inj h <;> rw [Nat.shiftLeft_eq] <;> omega

theorem pageBase_aligned {page a : ℕ} (h : pageBase page = some a) : a % 4 = 0 := by
  unfold pageBase lcdcHackyLocation at h
  split_ifs at h
  obtain rfl := Option.some.inj h
  rw [Nat.shiftLeft_eq]
  omega

theorem lcdAddr_wram (proc : Proc) (v : VramState) {adr : ℕ}
    (h : 0x03000000 ≤ adr ∧ adr < 0x04000000) :
    lcdAddr proc v adr =
      (wramBase (iwramBlock16k proc v (adr &&& 0xFFFFFF))).map (· + (adr &&& 0x3FFF)) := by
  unfold lcdAddr mmuLcdmap
  rw [if_pos h, wramMap]
  generalize hblock : iwramBlock16k proc v (adr &&& 0xFFFFFF) = block
  have hcases := iwramBlock16k_cases proc v (adr &&& 0xFFFFFF)
  rw [hblock] at hcases
  have hsome : block = 0 ∨ block = 1 ∨ block = 2 ∨ block = 3 ∨ block = 4 ∨ block = 5 ∨
      block = 8 := by omega
  rcases hsome with rfl | rfl | rfl | rfl | rfl | rfl | rfl <;> rfl

theorem lcdAddr_arm7 (v : VramState) {adr : ℕ} (h : 0x06000000 ≤ adr ∧ adr < 0x07000000) :
    lcdAddr .arm7 v adr =
      (v.map.arm7Map[(adr >>> 17) &&& 1]?.bind pageBase).map (· + (adr &&& 0x1FFFF)) := by
  unfold lcdAddr mmuLcdmap
  rw [if_neg (by omega), if_neg (by omega), if_neg (by omega)]
  simp only [arm7VramMap]
  cases v.map.arm7Map[(adr >>> 17) &&& 1]? with
  | none => rfl
  | some page =>
    simp only [Option.bind_eq_bind, Option.bind_some, pageBase]
    split_ifs <;> rfl

theorem lcdAddr_arm9 (v : VramState) {adr : ℕ} (h : 0x06000000 ≤ adr ∧ adr < 0x07000000) :
    lcdAddr .arm9 v adr =
      ((arm9VramPage v (lcdMirror adr)).bind pageBase).map (· + (lcdMirror adr &&& 0x3FFF)) := by
  unfold lcdAddr mmuLcdmap
  rw [if_neg (by omega), if_neg (by omega), if_neg (by omega)]
  simp only [arm9VramMap]
  cases arm9VramPage v (lcdMirror adr) with
  | none => rfl
  | some page =>
    simp only [Option.bind_eq_bind, Option.bind_some, pageBase]
    split_ifs <;> rfl

theorem lcdAddr_direct (proc : Proc) (v : VramState) {adr : ℕ}
    (h : 0x05000000 ≤ adr ∧ adr < 0x06000000 ∨ 0x07000000 ≤ adr) :
    lcdAddr proc v adr = some adr := by
  unfold lcdAddr mmuLcdmap
  rw [if_neg (by omega)]
  rcases h with h | h
  · rw [if_pos (by omega)]
    rfl
  · rw [if_neg (by omega), if_pos h]
    rfl

/-- The page of the LCDC or of the ARM9 area is the same for the bytes of a word. -/
theorem arm9VramPage_word (v : VramState) {c i : ℕ} (hc : c % 4 = 0) (hi : i < 4) :
    arm9VramPage v (c + i) = arm9VramPage v c := by
  unfold arm9VramPage
  rw [shift_word hc hi (by decide)]
  have hside : c + i ≥ 0x06800000 ↔ c ≥ 0x06800000 := by omega
  simp only [hside]

theorem iwramBlock16k_word (proc : Proc) (v : VramState) {c i : ℕ} (hc : c % 4 = 0) (hi : i < 4) :
    iwramBlock16k proc v ((c + i) &&& 0xFFFFFF) = iwramBlock16k proc v (c &&& 0xFFFFFF) := by
  have hlow := low_word (n := 24) hc hi (by decide) (by decide : 0xFFFFFF = 2 ^ 24 - 1)
  have hmod : (c &&& 0xFFFFFF) % 4 = 0 :=
    (low_mod_four (n := 24) c (by decide) (by decide)).trans hc
  cases proc <;>
    simp only [iwramBlock16k, hlow, shift_word hmod hi (show 2 ≤ 14 by decide),
      shift_word hmod hi (show 2 ≤ 23 by decide)]

/-- The windows map whole words, the mirror of the LCDC excepted. -/
theorem lcdAddr_keepsWord (proc : Proc) (v : VramState) {c : ℕ} (hc : c % 4 = 0)
    (hwin : SlowWindow proc c)
    (hmir : proc = .arm9 → 0x06000000 ≤ c → c < 0x07000000 → c < 0x068A4000) :
    KeepsWord (lcdAddr proc v) c := by
  rcases hwin with hw | hv | ⟨rfl, hdirect⟩
  · refine (keepsWord_page (wramBase (iwramBlock16k proc v (c &&& 0xFFFFFF))) (n := 14) hc (by decide)
      (by decide : 0x3FFF = 2 ^ 14 - 1) fun a ha => wramBase_aligned ha).congr
        fun i hi => ?_
    rw [lcdAddr_wram proc v (by omega), iwramBlock16k_word proc v hc hi]
  · cases proc with
    | arm7 =>
      refine (keepsWord_page (v.map.arm7Map[(c >>> 17) &&& 1]?.bind pageBase) (n := 17) hc
        (by decide) (by decide : 0x1FFFF = 2 ^ 17 - 1) fun a ha => ?_).congr fun i hi => ?_
      · obtain ⟨page, -, hpage⟩ := Option.bind_eq_some_iff.mp ha
        exact pageBase_aligned hpage
      · rw [lcdAddr_arm7 v (by omega), shift_word hc hi (by decide)]
    | arm9 =>
      have hlt := hmir rfl hv.1 hv.2
      refine (keepsWord_page ((arm9VramPage v c).bind pageBase) (n := 14) hc
        (by decide) (by decide : 0x3FFF = 2 ^ 14 - 1) fun a ha => ?_).congr fun i hi => ?_
      · obtain ⟨page, -, hpage⟩ := Option.bind_eq_some_iff.mp ha
        exact pageBase_aligned hpage
      · rw [lcdAddr_arm9 v (by omega), lcdMirror, if_neg (by omega), arm9VramPage_word v hc hi]
  · refine KeepsWord.congr (g := some) ⟨fun i _ => rfl, fun a ha => ?_⟩ fun i hi => ?_
    · rw [← Option.some.inj ha, hc]
    · exact lcdAddr_direct .arm9 v (by omega)

/-! The same for the cells of all plain memory. -/

section Cells

variable {proc : Proc} {s : MmuState δ} {c i : ℕ}

theorem dtcmHit_word (hc : c % 4 = 0) (hi : i < 4) : dtcmHit proc (c + i) s ↔ dtcmHit proc c s := by
  have hmask : (c + i) &&& 0xFFFFC000 = c &&& 0xFFFFC000 := by
    rw [and_rangeMask (j := 14) (k := 32) (c + i) (by decide) (by decide),
      and_rangeMask (j := 14) (k := 32) c (by decide) (by decide)]
    omega
  rw [dtcmHit, hmask, dtcmHit]

theorem slowWindow_word (proc : Proc) (hc : c % 4 = 0) (hi : i < 4) :
    SlowWindow proc (c + i) ↔ SlowWindow proc c := by
  refine or_congr ?_ (or_congr ?_ (and_congr_right fun _ => ?_)) <;> omega

theorem mainMemSize_eq (k : Console) : ∃ n, 4 * n = mainMemSize k := by
  cases k
  exacts [⟨2 ^ 20, rfl⟩, ⟨2 ^ 21, rfl⟩, ⟨2 ^ 22, rfl⟩]

theorem mod_word {n : ℕ} (hc : c % 4 = 0) (hi : i < 4) (hn : ∃ k, 4 * k = n) :
    (c + i) % n = c % n + i := by
  obtain ⟨k, rfl⟩ := hn
  rw [Nat.mod_mul, Nat.mod_mul (x := c), show (c + i) / 4 = c / 4 by omega]
  omega

theorem inLcdMirror_word (hc : c % 4 = 0) (hi : i < 4) :
    InLcdMirror proc s (c + i) ↔ InLcdMirror proc s c := by
  rw [InLcdMirror, InLcdMirror, dtcmHit_word hc hi]
  refine and_congr_right fun _ => and_congr_right fun _ => ?_
  omega

theorem byteCell_word (hc : c % 4 = 0) (hi : i < 4) (hm : ¬ InLcdMirror proc s c) :
    byteCell proc s (c + i) = (byteCell proc s c).map fun l => (l.1, l.2 + i) := by
  have h28 : (c + i) % 2 ^ 28 = c % 2 ^ 28 + i := mod_word hc hi ⟨2 ^ 26, rfl⟩
  have hc28 : c % 2 ^ 28 % 4 = 0 := by omega
  unfold byteCell
  rw [if_congr (dtcmHit_word hc hi) rfl rfl, h28,
    if_congr (slowWindow_word proc hc28 hi) rfl rfl]
  have hbank : (c + i) / 2 ^ 24 % 16 = 2 ↔ c / 2 ^ 24 % 16 = 2 := by omega
  have hitcm : proc = .arm9 ∧ c % 2 ^ 28 + i < 0x02000000 ↔
      proc = .arm9 ∧ c % 2 ^ 28 < 0x02000000 := and_congr_right fun _ => by omega
  rw [if_congr hbank rfl rfl, if_congr hitcm rfl rfl]
  split_ifs with hd hmain hi9 hslow
  · rw [mod_word (n := 2 ^ 14) hc hi ⟨2 ^ 12, rfl⟩]
    rfl
  · rw [mod_word hc hi (mainMemSize_eq s.console)]
    rfl
  · rw [mod_word (n := 2 ^ 15) hc hi ⟨2 ^ 13, rfl⟩]
    rfl
  · have hkeeps := lcdAddr_keepsWord proc s.vram hc28 hslow fun hp _ hlt => by
      by_contra hge
      exact hm ⟨hp, hd, by omega, hlt⟩
    rw [hkeeps.next i hi]
    cases hmap : lcdAddr proc s.vram (c % 2 ^ 28) with
    | none => rfl
    | some a => exact tableCell_word proc (hkeeps.aligned a hmap) hi
  · rfl

theorem byteCell_of_slow {addr : ℕ} (hd : ¬ dtcmHit proc addr s)
    (hslow : SlowWindow proc (addr % 2 ^ 28)) :
    byteCell proc s addr = (lcdAddr proc s.vram (addr % 2 ^ 28)).bind (tableCell proc) := by
  have hbank : ¬ addr / 2 ^ 24 % 16 = 2 := by
    unfold SlowWindow at hslow
    omega
  have hitcm : ¬ (proc = .arm9 ∧ addr % 2 ^ 28 < 0x02000000) := by
    unfold SlowWindow at hslow
    omega
  rw [byteCell, if_neg hd, if_neg hbank, if_neg hitcm, if_pos hslow]

theorem lcdMirror_low {adr : ℕ} (h : 0x068A4000 ≤ adr) : lcdMirror adr &&& 0x3FFF = 0 := by
  rw [lcdMirror, if_pos h, and_rangeMask (j := 19) (k := 20) adr (by decide) (by decide),
    and_lowMask (n := 14) _ (by decide)]
  omega

theorem lcdMirror_word {adr : ℕ} (h4 : adr % 4 = 0) (hi : i < 4) (h : 0x068A4000 ≤ adr) :
    lcdMirror (adr + i) = lcdMirror adr := by
  rw [lcdMirror, if_pos (by omega), lcdMirror, if_pos h,
    and_rangeMask (j := 19) (k := 20) _ (by decide) (by decide),
    and_rangeMask (j := 19) (k := 20) _ (by decide) (by decide)]
  omega

/-- In the mirror all bytes of a word are one cell. -/
theorem byteCell_mirror (hc : c % 4 = 0) (hi : i < 4) (hm : InLcdMirror proc s c) :
    byteCell proc s (c + i) = byteCell proc s c := by
  have hmi := (inLcdMirror_word hc hi).mpr hm
  obtain ⟨rfl, hd, hlo, hhi⟩ := hm
  obtain ⟨-, hdi, hloi, hhii⟩ := hmi
  have h28 : (c + i) % 2 ^ 28 = c % 2 ^ 28 + i := mod_word hc hi ⟨2 ^ 26, rfl⟩
  have hsame : lcdAddr .arm9 s.vram (c % 2 ^ 28 + i) = lcdAddr .arm9 s.vram (c % 2 ^ 28) := by
    rw [lcdAddr_arm9 _ (by omega), lcdAddr_arm9 _ (by omega), lcdMirror_word (by omega) hi hlo]
  rw [byteCell_of_slow hdi (.inr (.inl (by omega))), byteCell_of_slow hd (.inr (.inl (by omega))),
    h28, hsame]

theorem byteCell_aligned (hc : c % 4 = 0) {l : Cell} (h : byteCell proc s c = some l) :
    l.2 % 4 = 0 := by
  unfold byteCell at h
  split_ifs at h with hd hmain hi9 hslow
  · rw [← Option.some.inj h]
    omega
  · rw [← Option.some.inj h]
    obtain ⟨n, hn⟩ := mainMemSize_eq s.console
    rw [← hn]
    exact (Nat.mod_mul_right_mod ..).trans hc
  · rw [← Option.some.inj h]
    omega
  · obtain ⟨a, ha, hl⟩ := Option.bind_eq_some_iff.mp h
    refine tableCell_aligned proc ?_ hl
    by_cases hm : InLcdMirror proc s c
    · obtain ⟨rfl, -, hlo, hhi⟩ := hm
      rw [lcdAddr_arm9 _ (by omega), lcdMirror_low hlo] at ha
      obtain ⟨b, hb, rfl⟩ := Option.map_eq_some_iff.mp ha
      obtain ⟨page, -, hpage⟩ := Option.bind_eq_some_iff.mp hb
      exact pageBase_aligned hpage
    · refine (lcdAddr_keepsWord proc s.vram (by omega) hslow fun hp _ hlt => ?_).aligned a ha
      by_contra hge
      exact hm ⟨hp, hd, by omega, hlt⟩

end Cells

/-! Cells lie within their blocks. -/

theorem tableCell_of_shift {proc : Proc} {a i : ℕ} (hi : a >>> 20 = i) {l : Cell}
    (h : tableCell proc a = some l) : mmuMem proc i = some l.1 ∧ l.2 = a &&& mmuMask proc i := by
  rw [tableCell, hi] at h
  obtain ⟨blk, hblk, rfl⟩ := Option.map_eq_some_iff.mp h
  exact ⟨hblk, rfl⟩

theorem tableCell_lt_of_inWram {proc : Proc} {a : ℕ} (ha : InWram a) {l : Cell}
    (h : tableCell proc a = some l) : l.2 < l.1.size := by
  rcases ha with ⟨off, hoff, rfl⟩ | ⟨off, hoff, rfl⟩
  · have hshift : (arm7HackySiwramLocation + off) >>> 20 = 0x30 := by
      rw [Nat.shiftRight_eq_div_pow, arm7HackySiwramLocation]
      omega
    obtain ⟨hblk, hl⟩ := tableCell_of_shift hshift h
    cases proc <;> obtain hb := Option.some.inj hblk <;> rw [hl, ← hb] <;>
      exact Nat.lt_succ_of_le Nat.and_le_right
  · have hshift : (arm7HackyIwramLocation + off) >>> 20 = 0x38 := by
      rw [Nat.shiftRight_eq_div_pow, arm7HackyIwramLocation]
      omega
    obtain ⟨hblk, hl⟩ := tableCell_of_shift hshift h
    cases proc <;> obtain hb := Option.some.inj hblk <;> rw [hl, ← hb] <;>
      exact Nat.lt_succ_of_le Nat.and_le_right

theorem tableCell_lt_of_inLcd {proc : Proc} {a : ℕ} (ha : InLcd a) {l : Cell}
    (h : tableCell proc a = some l) : l.2 < l.1.size := by
  obtain ⟨off, hoff, rfl⟩ := ha
  have hshift : (lcdcHackyLocation + off) >>> 20 = 0x60 := by
    rw [Nat.shiftRight_eq_div_pow, lcdcHackyLocation]
    omega
  obtain ⟨hblk, hl⟩ := tableCell_of_shift hshift h
  have hlow : (lcdcHackyLocation + off) &&& 0xFFFFFF = off := by
    rw [and_lowMask (n := 24) _ (by decide), lcdcHackyLocation]
    omega
  rw [← hlow] at hoff
  cases proc <;> obtain hb := Option.some.inj hblk <;> rw [hl, ← hb] <;> exact hoff

theorem tableCell_lt_of_direct {a : ℕ}
    (ha : 0x05000000 ≤ a ∧ a < 0x06000000 ∨ 0x07000000 ≤ a ∧ a < 0x08000000) {l : Cell}
    (h : tableCell .arm9 a = some l) : l.2 < l.1.size := by
  obtain ⟨blk, hblk, rfl⟩ := Option.map_eq_some_iff.mp h
  rw [Nat.shiftRight_eq_div_pow] at hblk ⊢
  rcases ha with ha | ha
  · have hi : a / 2 ^ 20 / 16 = 5 := by omega
    simp only [mmuMem, mmuMask, hi] at hblk ⊢
    rw [← Option.some.inj hblk]
    exact Nat.lt_succ_of_le Nat.and_le_right
  · have hi : a / 2 ^ 20 / 16 = 7 := by omega
    simp only [mmuMem, mmuMask, hi] at hblk ⊢
    rw [← Option.some.inj hblk]
    exact Nat.lt_succ_of_le Nat.and_le_right

theorem byteCell_lt {proc : Proc} {s : MmuState δ} (hs : MapValid s.vram.map) {addr : ℕ} {l : Cell}
    (h : byteCell proc s addr = some l) : l.2 < l.1.size := by
  unfold byteCell at h
  split_ifs at h with hd hmain hi9 hslow
  · rw [← Option.some.inj h]
    exact Nat.mod_lt _ (by decide)
  · rw [← Option.some.inj h]
    have hsize : 0 < mainMemSize s.console ∧ mainMemSize s.console ≤ Block.mainMem.size := by
      cases s.console <;> decide
    exact (Nat.mod_lt _ hsize.1).trans_le hsize.2
  · rw [← Option.some.inj h]
    exact Nat.mod_lt _ (by decide)
  · obtain ⟨a, ha, hl⟩ := Option.bind_eq_some_iff.mp h
    obtain ⟨r, hr, hra⟩ := Option.bind_eq_some_iff.mp ha
    split_ifs at hra with hun
    obtain rfl := Option.some.inj hra
    obtain ⟨r', hr', hgood⟩ := mmuLcdmap_good hs proc (addr % 2 ^ 28)
    obtain rfl := Option.some.inj (hr.symm.trans hr')
    have hmapped := hgood.resolve_left hun
    rcases hslow with hw | hv | ⟨rfl, hdirect⟩
    · rw [if_pos hw] at hmapped
      exact tableCell_lt_of_inWram hmapped hl
    · rw [if_neg (by omega), if_pos hv] at hmapped
      exact tableCell_lt_of_inLcd hmapped hl
    · rw [if_neg (by omega), if_neg (by omega)] at hmapped
      exact tableCell_lt_of_direct (hmapped ▸ hdirect) hl

end Desmume.Memory
