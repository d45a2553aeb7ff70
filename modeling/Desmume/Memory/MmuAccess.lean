import Desmume.Memory.MmuCells

/-! Every access to plain memory is an access to the cell of its aligned address. -/

namespace Desmume.Memory
open Library Vram

variable {δ : Type} (dev : Devices δ) {proc : Proc} {w : Width} {s : MmuState δ} {addr : ℕ}

/-- The address an access is aligned down to. -/
def align (w : Width) (addr : ℕ) : ℕ := addr - addr % w.bytes

theorem align_word (w : Width) (addr : ℕ) : ∃ c i, c % 4 = 0 ∧ addr = c + addr % 4 ∧
    align w addr = c + i ∧ i + w.bytes ≤ 4 ∧ i % w.bytes = 0 := by
  refine ⟨addr - addr % 4, addr % 4 - addr % w.bytes, by omega, by omega, ?_, ?_, ?_⟩ <;>
    cases w <;> simp only [align, Width.bytes] <;> omega

theorem and_alignMask (w : Width) (addr : ℕ) {k mask : ℕ} (hk : 2 ≤ k)
    (h : mask = 2 ^ k - w.bytes) : addr &&& mask = align w addr % 2 ^ k := by
  obtain ⟨j, hj, hbytes⟩ : ∃ j ≤ 2, w.bytes = 2 ^ j := by
    cases w
    exacts [⟨0, by decide, rfl⟩, ⟨1, by decide, rfl⟩, ⟨2, by decide, rfl⟩]
  have hmod : addr % 2 ^ j = addr % 2 ^ k % 2 ^ j :=
    (Nat.mod_mod_of_dvd addr (Nat.pow_dvd_pow 2 (hj.trans hk))).symm
  have hle : addr % 2 ^ j ≤ addr % 2 ^ k := hmod ▸ Nat.mod_le ..
  have hlt : addr % 2 ^ k < 2 ^ k := Nat.mod_lt _ (Nat.two_pow_pos k)
  rw [hbytes] at h
  calc addr &&& mask = addr % 2 ^ k - addr % 2 ^ j := and_rangeMask addr (hj.trans hk) h
    _ = (2 ^ k * (addr / 2 ^ k) + (addr % 2 ^ k - addr % 2 ^ j)) % 2 ^ k := by
        rw [Nat.mul_add_mod, Nat.mod_eq_of_lt (a := addr % 2 ^ k - addr % 2 ^ j) (by omega)]
    _ = align w addr % 2 ^ k := by
        rw [align, hbytes, ← Nat.add_sub_assoc hle, Nat.div_add_mod]

theorem and_dtcmMask (w : Width) (addr : ℕ) : addr &&& dtcmMask w = align w addr % 2 ^ 14 := by
  cases w <;> exact and_alignMask _ addr (by decide) (by decide)

theorem and_itcmMask (w : Width) (addr : ℕ) : addr &&& itcmMask w = align w addr % 2 ^ 15 := by
  cases w <;> exact and_alignMask _ addr (by decide) (by decide)

theorem and_adrMask (w : Width) (addr : ℕ) : addr &&& adrMask w = align w addr % 2 ^ 28 := by
  cases w <;> exact and_alignMask _ addr (by decide) (by decide)

theorem and_mainMemMask (k : Console) (w : Width) (addr : ℕ) :
    addr &&& mainMemMask k w = align w addr % mainMemSize k := by
  cases k <;> cases w <;> exact and_alignMask _ addr (by decide) (by decide)

theorem dtcmHit_align : dtcmHit proc (align w addr) s ↔ dtcmHit proc addr s := by
  obtain ⟨c, i, hc, haddr, halign, hi, -⟩ := align_word w addr
  have hpos : 0 < w.bytes := by cases w <;> decide
  rw [halign, haddr, dtcmHit_word hc (by omega), dtcmHit_word hc (by omega)]

theorem mainMem_align (w : Width) (addr : ℕ) :
    addr &&& 0x0F000000 = 0x02000000 ↔ align w addr / 2 ^ 24 % 16 = 2 := by
  obtain ⟨c, i, hc, haddr, halign, hi, -⟩ := align_word w addr
  have hpos : 0 < w.bytes := by cases w <;> decide
  rw [and_rangeMask (j := 24) (k := 28) addr (by decide) (by decide), halign]
  omega

/-! The end of the slow paths. -/

theorem readMapped_of_cell {adr : ℕ} {l : Cell}
    (h : (lcdAddr proc s.vram adr).bind (tableCell proc) = some l) :
    readMapped proc w adr s = t1Read w l.1 l.2 s := by
  obtain ⟨a, ha, hl⟩ := Option.bind_eq_some_iff.mp h
  obtain ⟨r, hr, hra⟩ := Option.bind_eq_some_iff.mp ha
  obtain ⟨blk, hblk, rfl⟩ := Option.map_eq_some_iff.mp hl
  split_ifs at hra with hun
  obtain rfl := Option.some.inj hra
  simp [readMapped, hr, hun, hblk]

theorem writeMapped_of_cell {adr v : ℕ} {l : Cell}
    (h : (lcdAddr proc s.vram adr).bind (tableCell proc) = some l) :
    writeMapped proc w adr v s = some (t1Write w l.1 l.2 v s) := by
  obtain ⟨a, ha, hl⟩ := Option.bind_eq_some_iff.mp h
  obtain ⟨r, hr, hra⟩ := Option.bind_eq_some_iff.mp ha
  obtain ⟨blk, hblk, rfl⟩ := Option.map_eq_some_iff.mp hl
  split_ifs at hra with hun
  obtain rfl := Option.some.inj hra
  simp [writeMapped, hr, hun, hblk]

/-- The VRAM of the ARM9 is restricted, the WRAM window is not. -/
theorem wramMap_restricted {v : VramState} {adr : ℕ} {r : LcdMapped}
    (h : wramMap proc v adr = some r) : r.restricted = false := by
  unfold wramMap at h
  simp only at h
  split at h
  · rw [← Option.some.inj h]
  · rw [← Option.some.inj h]
  · rw [← Option.some.inj h]
  · cases h

theorem arm9VramMap_restricted {v : VramState} {adr : ℕ} {r : LcdMapped}
    (h : arm9VramMap v adr = some r) : r.restricted = true := by
  obtain ⟨page, -, hr⟩ := Option.bind_eq_some_iff.mp h
  split_ifs at hr
  · rw [← Option.some.inj hr]
  · rw [← Option.some.inj hr]

theorem writeMappedUnrestricted_wram {adr val : ℕ} {l : Cell}
    (hwin : 0x03000000 ≤ adr ∧ adr < 0x04000000)
    (h : (lcdAddr .arm9 s.vram adr).bind (tableCell .arm9) = some l) :
    writeMappedUnrestricted adr val s = some (t1Write .w8 l.1 l.2 val s) := by
  rw [← writeMapped_of_cell (w := .w8) (v := val) h]
  obtain ⟨a, ha, -⟩ := Option.bind_eq_some_iff.mp h
  obtain ⟨r, hr, hra⟩ := Option.bind_eq_some_iff.mp ha
  split_ifs at hra with hun
  have hres : r.restricted = false := by
    unfold mmuLcdmap at hr
    rw [if_pos hwin] at hr
    exact wramMap_restricted hr
  simp [writeMappedUnrestricted, hr, hun, hres]

theorem writeMappedUnrestricted_vram {adr val : ℕ} {l : Cell}
    (hwin : 0x06000000 ≤ adr ∧ adr < 0x07000000)
    (h : (lcdAddr .arm9 s.vram adr).bind (tableCell .arm9) = some l) :
    writeMappedUnrestricted adr val s = some s := by
  obtain ⟨a, ha, -⟩ := Option.bind_eq_some_iff.mp h
  obtain ⟨r, hr, -⟩ := Option.bind_eq_some_iff.mp ha
  have hres : r.restricted = true := by
    unfold mmuLcdmap at hr
    rw [if_neg (by omega), if_neg (by omega), if_neg (by omega)] at hr
    exact arm9VramMap_restricted hr
  simp [writeMappedUnrestricted, hr, hres]

/-! The accesses. -/

theorem not_isWifi {adr : ℕ} (h : SlowWindow proc adr) : ¬ isWifi adr := by
  rw [isWifi, and_rangeMask (j := 16) (k := 32) adr (by decide) (by decide)]
  unfold SlowWindow at h
  omega

theorem mmuArm9Read_of_cell {l : Cell} (hd : ¬ dtcmHit .arm9 addr s)
    (hmain : ¬ align w addr / 2 ^ 24 % 16 = 2)
    (h : byteCell .arm9 s (align w addr) = some l) :
    mmuArm9Read dev w addr s = t1Read w l.1 l.2 s := by
  unfold byteCell at h
  rw [if_neg (dtcmHit_align.not.mpr hd), if_neg hmain] at h
  unfold mmuArm9Read
  simp only [and_adrMask, and_itcmMask]
  split_ifs at h with hitcm hslow
  · rw [if_pos hitcm.2, ← Option.some.inj h]
    have hoff : align w (align w addr % 2 ^ 28) % 2 ^ 15 = align w addr % 2 ^ 15 := by
      cases w <;> simp only [align, Width.bytes] <;> omega
    rw [hoff]
  · have hwin := hslow
    unfold SlowWindow at hwin
    rw [if_neg (by omega), if_neg (by unfold isSlot2; omega), if_neg (by
      rw [Nat.shiftRight_eq_div_pow]
      omega), readMapped_of_cell h]

theorem mmuArm7Read_of_cell {l : Cell} (hd : ¬ dtcmHit .arm7 addr s)
    (hmain : ¬ align w addr / 2 ^ 24 % 16 = 2)
    (h : byteCell .arm7 s (align w addr) = some l) :
    mmuArm7Read dev w addr s = t1Read w l.1 l.2 s := by
  unfold byteCell at h
  rw [if_neg (dtcmHit_align.not.mpr hd), if_neg hmain, if_neg (fun hi => by cases hi.1)] at h
  unfold mmuArm7Read
  simp only [and_adrMask]
  split_ifs at h with hslow
  have hwin := hslow
  unfold SlowWindow at hwin
  have h7 : ¬ Proc.arm7 = .arm9 := by decide
  rw [if_neg (by omega), if_neg (not_isWifi hslow), if_neg (by unfold isSlot2; omega),
    if_neg (by unfold isSpu; omega), if_neg (by
      rw [Nat.shiftRight_eq_div_pow]
      omega), readMapped_of_cell h]

/-- A read of plain memory reads the bytes from the cell of its aligned address on. -/
theorem mmuRead_of_cell {l : Cell} (h : byteCell proc s (align w addr) = some l)
    (hl : l.2 % w.bytes = 0) : mmuRead dev proc .data w addr s =
      some (ofLeBytes (load (s.mem l.1) l.2 w.bytes), s) := by
  have hread (blk : Block) (off : ℕ) (hcell : l = (blk, off)) : t1Read w blk off s =
      some (ofLeBytes (load (s.mem l.1) l.2 w.bytes), s) := by
    subst hcell
    exact if_pos hl
  unfold mmuRead
  rw [if_neg (fun hc => by cases hc.2.1), if_neg (fun hc => by cases hc.2.1),
    if_neg (fun hc => by cases hc.2.1)]
  by_cases hd : dtcmHit proc addr s
  · rw [if_pos hd, and_dtcmMask]
    rw [byteCell, if_pos (dtcmHit_align.mpr hd)] at h
    exact hread _ _ (Option.some.inj h).symm
  · rw [if_neg hd]
    by_cases hmain : align w addr / 2 ^ 24 % 16 = 2
    · rw [if_pos ((mainMem_align w addr).mpr hmain), and_mainMemMask]
      rw [byteCell, if_neg (dtcmHit_align.not.mpr hd), if_pos hmain] at h
      exact hread _ _ (Option.some.inj h).symm
    · rw [if_neg ((mainMem_align w addr).not.mpr hmain)]
      cases proc with
      | arm9 => exact (mmuArm9Read_of_cell dev hd hmain h).trans (hread _ _ rfl)
      | arm7 => exact (mmuArm7Read_of_cell dev hd hmain h).trans (hread _ _ rfl)

/-- The 8-bit writes of the ARM9 to palette, VRAM and OAM. -/
def ByteWriteIgnored (proc : Proc) (s : MmuState δ) (w : Width) (addr : ℕ) : Prop :=
  proc = .arm9 ∧ w = .w8 ∧ ¬ dtcmHit proc addr s ∧ 0x05000000 ≤ addr % 2 ^ 28 ∧
    addr % 2 ^ 28 < 0x08000000

instance (proc : Proc) (s : MmuState δ) (w : Width) (addr : ℕ) :
    Decidable (ByteWriteIgnored proc s w addr) :=
  inferInstanceAs (Decidable (_ ∧ _ ∧ _ ∧ _ ∧ _))

theorem mmuArm9Write08_of_cell {l : Cell} {val : ℕ} (hd : ¬ dtcmHit .arm9 addr s)
    (hmain : ¬ addr / 2 ^ 24 % 16 = 2) (h : byteCell .arm9 s addr = some l) :
    mmuArm9Write08 dev addr val s =
      some (if ByteWriteIgnored .arm9 s .w8 addr then s else t1Write .w8 l.1 l.2 val s) := by
  unfold byteCell at h
  rw [if_neg hd, if_neg hmain] at h
  unfold mmuArm9Write08
  have hlow : addr &&& 0x0FFFFFFF = addr % 2 ^ 28 := and_lowMask addr (by decide)
  have hregion : addr % 2 ^ 28 &&& 0x0F000000 = addr % 2 ^ 28 - addr % 2 ^ 24 := by
    rw [and_rangeMask (j := 24) (k := 28) _ (by decide) (by decide)]
    omega
  simp only [hlow, hregion]
  split_ifs at h with hitcm hslow
  · have hign : ¬ ByteWriteIgnored .arm9 s .w8 addr := fun hi => by
      have := hi.2.2.2
      omega
    have hoff : addr % 2 ^ 28 &&& 0x7FFF = addr % 2 ^ 15 := by
      rw [and_lowMask (n := 15) _ (by decide)]
      omega
    rw [if_pos hitcm.2, if_neg hign, hoff, ← Option.some.inj h]
  · have hwin := hslow
    unfold SlowWindow at hwin
    rw [if_neg (by omega), if_neg (by unfold isSlot2; omega)]
    by_cases hign : ByteWriteIgnored .arm9 s .w8 addr
    · have hrange := hign.2.2.2
      rw [if_pos hign]
      split_ifs with h7 h5 h4
      · rfl
      · rfl
      · rw [Nat.shiftRight_eq_div_pow] at h4
        omega
      · exact writeMappedUnrestricted_vram (by omega) h
    · have hout : ¬ (0x05000000 ≤ addr % 2 ^ 28 ∧ addr % 2 ^ 28 < 0x08000000) :=
        fun hr => hign ⟨rfl, rfl, hd, hr⟩
      rw [if_neg hign, if_neg (by omega), if_neg (by omega), if_neg (by
        rw [Nat.shiftRight_eq_div_pow]
        omega), writeMappedUnrestricted_wram (by omega) h]

theorem mmuArm9WriteWide_of_cell {l : Cell} {val : ℕ} (hd : ¬ dtcmHit .arm9 addr s)
    (hmain : ¬ align w addr / 2 ^ 24 % 16 = 2)
    (h : byteCell .arm9 s (align w addr) = some l) :
    mmuArm9WriteWide dev w addr val s = some (t1Write w l.1 l.2 val s) := by
  unfold byteCell at h
  rw [if_neg (dtcmHit_align.not.mpr hd), if_neg hmain] at h
  unfold mmuArm9WriteWide
  simp only [and_adrMask]
  split_ifs at h with hitcm hslow
  · have hoff : align w addr % 2 ^ 28 &&& 0x7FFF = align w addr % 2 ^ 15 := by
      rw [and_lowMask (n := 15) _ (by decide)]
      omega
    rw [if_pos hitcm.2, hoff, ← Option.some.inj h]
  · have hwin := hslow
    unfold SlowWindow at hwin
    rw [if_neg (by omega), if_neg (by unfold isSlot2; omega), if_neg (by
      rw [Nat.shiftRight_eq_div_pow]
      omega), writeMapped_of_cell h]

theorem mmuArm7Write_of_cell {l : Cell} {val : ℕ} (hd : ¬ dtcmHit .arm7 addr s)
    (hmain : ¬ align w addr / 2 ^ 24 % 16 = 2)
    (h : byteCell .arm7 s (align w addr) = some l) :
    mmuArm7Write dev w addr val s = some (t1Write w l.1 l.2 val s) := by
  unfold byteCell at h
  rw [if_neg (dtcmHit_align.not.mpr hd), if_neg hmain, if_neg (fun hi => by cases hi.1)] at h
  unfold mmuArm7Write
  simp only [and_adrMask]
  split_ifs at h with hslow
  have hwin := hslow
  unfold SlowWindow at hwin
  have h7 : ¬ Proc.arm7 = .arm9 := by decide
  rw [if_neg (by omega), if_neg (by unfold isSlot2; omega), if_neg (by unfold isSpu; omega),
    if_neg (not_isWifi hslow), if_neg (by
      rw [Nat.shiftRight_eq_div_pow]
      omega), writeMapped_of_cell h]

/-- A write to plain memory writes the bytes from the cell of its aligned address on, the
ignored 8-bit writes excepted. -/
theorem mmuWrite_of_cell {l : Cell} (val : ℕ) (h : byteCell proc s (align w addr) = some l) :
    mmuWrite dev proc .data w addr val s =
      some (if ByteWriteIgnored proc s w addr then s else t1Write w l.1 l.2 val s) := by
  unfold mmuWrite
  rw [if_neg (fun hc => by cases hc.2.1)]
  by_cases hd : dtcmHit proc addr s
  · rw [if_pos hd, and_dtcmMask, if_neg (fun hi => hi.2.2.1 hd)]
    rw [byteCell, if_pos (dtcmHit_align.mpr hd)] at h
    rw [← Option.some.inj h]
  · rw [if_neg hd]
    by_cases hmain : align w addr / 2 ^ 24 % 16 = 2
    · have hbank := (mainMem_align w addr).mpr hmain
      have hign : ¬ ByteWriteIgnored proc s w addr := fun hi => by
        have hrange := hi.2.2.2
        rw [and_rangeMask (j := 24) (k := 28) addr (by decide) (by decide)] at hbank
        omega
      rw [if_pos hbank, and_mainMemMask, if_neg hign]
      rw [byteCell, if_neg (dtcmHit_align.not.mpr hd), if_pos hmain] at h
      rw [← Option.some.inj h]
    · rw [if_neg ((mainMem_align w addr).not.mpr hmain)]
      have hwide (hw : w ≠ .w8) : ¬ ByteWriteIgnored .arm9 s w addr := fun hi => hw hi.2.1
      cases proc with
      | arm9 =>
        cases w with
        | w8 =>
          have hself : align .w8 addr = addr := by simp only [align, Width.bytes, Nat.mod_one]; rfl
          rw [hself] at h hmain
          exact mmuArm9Write08_of_cell dev hd hmain h
        | w16 => exact (if_neg (hwide (by decide))).symm ▸ mmuArm9WriteWide_of_cell dev hd hmain h
        | w32 => exact (if_neg (hwide (by decide))).symm ▸ mmuArm9WriteWide_of_cell dev hd hmain h
      | arm7 =>
        rw [if_neg (fun hi => by cases hi.1)]
        exact mmuArm7Write_of_cell dev hd hmain h

end Desmume.Memory
