import Desmume.Vram.VramDefs

/-! Every sequence of control writes leaves page maps that hold valid pages, and a mapping that
depends on the nine control bytes alone. -/

namespace Desmume.Vram
open Library VramMapping

/-- The starting pages that C and D give the ARM7. -/
def IsArm7Page (page : ℕ) : Prop := page = 16 ∨ page = 24 ∨ page = vramPageUnmapped

structure TablesValid (lcdcMap : Vector ℕ 41) (arm9Map : Vector ℕ 512) (arm7Map : Vector ℕ 2) :
    Prop where
  lcdc : AllEntries (· ≤ vramPageUnmapped) lcdcMap
  arm9 : AllEntries (· ≤ vramPageUnmapped) arm9Map
  arm7 : AllEntries IsArm7Page arm7Map

def MapValid (m : VramMapping) : Prop := TablesValid m.lcdcMap m.arm9Map m.arm7Map

theorem bankPages_le (bank : VramBank) :
    (vramBankInfo bank).pageAddr + (vramBankInfo bank).numPages ≤ 41 := by
  cases bank <;> decide

theorem numPages_le (bank : VramBank) : (vramBankInfo bank).numPages ≤ 8 := by
  cases bank <;> decide

variable {m : VramMapping} (bank : VramBank)

theorem vramLcdc_valid (hm : MapValid m) : ∃ m', m.vramLcdc bank = some m' ∧ MapValid m' := by
  have hle := bankPages_le bank
  have hpages : ∀ w ∈ (List.range (vramBankInfo bank).numPages).map fun i =>
      ((vramBankInfo bank).pageAddr + i, (vramBankInfo bank).pageAddr + i),
      w.1 < 41 ∧ w.2 ≤ vramPageUnmapped := by
    simp only [List.mem_map, List.mem_range, forall_exists_index, and_imp, vramPageUnmapped]
    rintro _ i hi rfl
    omega
  obtain ⟨t, ht, hvalid⟩ := hm.lcdc.putAll hpages
  exact ⟨{ m with lcdcMap := t }, by simp [vramLcdc, ht], hvalid, hm.arm9, hm.arm7⟩

theorem vramArm9_valid (hm : MapValid m) (offset : ℕ)
    (hoff : offset + (vramBankInfo bank).numPages ≤ 512) :
    ∃ m', m.vramArm9 bank offset = some m' ∧ MapValid m' := by
  have hle := bankPages_le bank
  have hpages : ∀ w ∈ (List.range (vramBankInfo bank).numPages).map fun i =>
      (i + offset, (vramBankInfo bank).pageAddr + i), w.1 < 512 ∧ w.2 ≤ vramPageUnmapped := by
    simp only [List.mem_map, List.mem_range, forall_exists_index, and_imp, vramPageUnmapped]
    rintro _ i hi rfl
    omega
  obtain ⟨t, ht, hvalid⟩ := hm.arm9.putAll hpages
  exact ⟨{ m with arm9Map := t }, by simp [vramArm9, ht], hm.lcdc, hvalid, hm.arm7⟩

theorem vramArm7_valid (hm : MapValid m) {ofs page : ℕ} (hofs : ofs < 2) (hpage : IsArm7Page page) :
    ∃ m', m.vramArm7 ofs page = some m' ∧ MapValid m' := by
  obtain ⟨t, ht, hvalid⟩ := hm.arm7.putEntry (w := (ofs, page)) hofs hpage
  exact ⟨{ m with arm7Map := t }, by simp [vramArm7, ht], hm.lcdc, hm.arm9, hvalid⟩

/-! The tables are all that counts. -/

section Unrelated

variable (hm : MapValid m)
include hm

theorem MapValid.setPurpose (p : Purpose) : MapValid (m.setPurpose bank p) := hm

theorem MapValid.setTexPalSlot (slot : Fin 6) (p : HostPtr) : MapValid (m.setTexPalSlot slot p) :=
  hm

theorem MapValid.setExtPal (x : Fin 2) (slot : Fin 4) (p : HostPtr) :
    MapValid (m.setExtPal x slot p) := hm

theorem MapValid.extPalBank (x : Fin 2) (page : ℕ) : MapValid (m.extPalBank x page) :=
  (((hm.setExtPal _ _ _).setExtPal _ _ _).setExtPal _ _ _).setExtPal _ _ _

end Unrelated

/-- A mode ends well: within the tables and with valid pages. -/
def ModeValid (r : Option (VramMapping × Option ℕ)) : Prop := ∃ x, r = some x ∧ MapValid x.1

theorem lcdcMode_valid (hm : MapValid m) (ofs : ℕ) : ModeValid (lcdcMode bank m ofs) := by
  obtain ⟨m', h, hm'⟩ := vramLcdc_valid (m := m.setPurpose bank .lcdc) bank hm
  exact ⟨(m', some ofs), by rw [lcdcMode, h]; rfl, hm'⟩

theorem arm9Mode_valid (hm : MapValid m) (p : Purpose) {offset : ℕ} (ofs : ℕ)
    (hoff : offset ≤ 504) : ModeValid (arm9Mode bank m p offset ofs) := by
  have hle := numPages_le bank
  obtain ⟨m', h, hm'⟩ := vramArm9_valid (m := m.setPurpose bank p) bank hm offset
    (by omega)
  exact ⟨(m', some ofs), by rw [arm9Mode, h]; rfl, hm'⟩

theorem arm9MirrorMode_valid (hm : MapValid m) (p : Purpose) {offset mirror : ℕ} (ofs : ℕ)
    (hoff : offset ≤ 504) (hmir : mirror ≤ 504) :
    ModeValid (arm9MirrorMode bank m p offset mirror ofs) := by
  have hle := numPages_le bank
  obtain ⟨m₁, h₁, hm₁⟩ := vramArm9_valid (m := m.setPurpose bank p) bank hm offset
    (by omega)
  obtain ⟨m₂, h₂, hm₂⟩ := vramArm9_valid bank hm₁ mirror (by omega)
  exact ⟨(m₂, some ofs), by simp [arm9MirrorMode, h₁, h₂], hm₂⟩

theorem refreshBankAB_valid (cnt : BitVec 8) (hm : MapValid m) :
    ModeValid (refreshBankAB bank cnt m) := by
  have hofs := (ofsField cnt).isLt
  unfold refreshBankAB
  simp only
  split
  · exact lcdcMode_valid bank hm _
  · exact arm9Mode_valid bank hm _ _ (by simp only [vramPageAbg]; omega)
  · split_ifs
    · exact arm9Mode_valid bank hm _ _ (by simp only [vramPageAobj]; omega)
    · exact ⟨_, rfl, hm⟩
  · exact ⟨_, rfl, hm⟩
  · exact ⟨_, rfl, hm⟩

theorem refreshBankCD_valid (cnt : BitVec 8) (hbank : IsArm7Page (vramBankInfo bank).pageAddr)
    (hm : MapValid m) : ModeValid (refreshBankCD bank cnt m) := by
  have hofs := (ofsField cnt).isLt
  unfold refreshBankCD
  simp only
  split
  · exact lcdcMode_valid bank hm _
  · exact arm9Mode_valid bank hm _ _ (by simp only [vramPageAbg]; omega)
  · split_ifs with hlt
    · obtain ⟨m', h, hm'⟩ := vramArm7_valid
        (m := { m.setPurpose bank .arm7 with
          arm7Vramstat := (m.setPurpose bank .arm7).arm7Vramstat ||| arm7VramstatBit bank })
        hm hlt hbank
      exact ⟨(m', some _), by rw [h]; rfl, hm'⟩
    · exact ⟨_, rfl, hm⟩
  · exact ⟨_, rfl, hm⟩
  · split_ifs
    · exact arm9Mode_valid bank hm _ _ (by decide)
    · exact arm9Mode_valid bank hm _ _ (by decide)
  · exact ⟨_, rfl, hm⟩

theorem refreshBankE_valid (cnt : BitVec 8) (hm : MapValid m) :
    ModeValid (refreshBankE bank cnt m) := by
  unfold refreshBankE
  simp only
  split
  · exact lcdcMode_valid bank hm _
  · exact arm9Mode_valid bank hm _ _ (by decide)
  · exact arm9Mode_valid bank hm _ _ (by decide)
  · have hpurpose := hm.setPurpose bank .texpal
    refine ⟨_, rfl, ?_⟩
    exact (((hpurpose.setTexPalSlot _ _).setTexPalSlot _ _).setTexPalSlot _ _).setTexPalSlot _ _
  · exact ⟨_, rfl, (hm.setPurpose bank .abgextpal).extPalBank _ _⟩
  · exact ⟨_, rfl, hm⟩

theorem refreshBankFG_valid (cnt : BitVec 8) (hm : MapValid m) :
    ModeValid (refreshBankFG bank cnt m) := by
  have hofs := (pageofslut (ofsField cnt)).isLt
  unfold refreshBankFG
  simp only
  split
  · exact lcdcMode_valid bank hm _
  · exact arm9MirrorMode_valid bank hm _ _ (by simp only [vramPageAbg]; omega)
      (by simp only [vramPageAbg]; omega)
  · exact arm9MirrorMode_valid bank hm _ _ (by simp only [vramPageAobj]; omega)
      (by simp only [vramPageAobj]; omega)
  · exact ⟨_, rfl, hm⟩
  · split_ifs
    · exact ⟨_, rfl, hm⟩
    · exact ⟨_, rfl, hm⟩
  · exact ⟨_, rfl, hm⟩
  · exact ⟨_, rfl, hm⟩

theorem refreshBankH_valid (cnt : BitVec 8) (hm : MapValid m) :
    ModeValid (refreshBankH bank cnt m) := by
  unfold refreshBankH
  split
  · exact lcdcMode_valid bank hm _
  · exact arm9MirrorMode_valid bank hm _ _ (by decide) (by decide)
  · exact ⟨_, rfl, (hm.setPurpose bank .bbgextpal).extPalBank _ _⟩
  · exact ⟨_, rfl, hm⟩

theorem refreshBankI_valid (cnt : BitVec 8) (hm : MapValid m) :
    ModeValid (refreshBankI bank cnt m) := by
  unfold refreshBankI
  split
  · exact lcdcMode_valid bank hm _
  · exact arm9MirrorMode_valid bank hm _ _ (by decide) (by decide)
  · exact arm9MirrorMode_valid bank hm _ _ (by decide) (by decide)
  · exact ⟨_, rfl, hm⟩
  · exact ⟨_, rfl, hm⟩

theorem refreshMode_valid (cnt : BitVec 8) (hm : MapValid m) :
    ModeValid (refreshMode bank cnt m) := by
  cases bank with
  | a => exact refreshBankAB_valid .a cnt hm
  | b => exact refreshBankAB_valid .b cnt hm
  | c => exact refreshBankCD_valid .c cnt (.inl rfl) hm
  | d => exact refreshBankCD_valid .d cnt (.inr (.inl rfl)) hm
  | e => exact refreshBankE_valid .e cnt hm
  | f => exact refreshBankFG_valid .f cnt hm
  | g => exact refreshBankFG_valid .g cnt hm
  | h => exact refreshBankH_valid .h cnt hm
  | i => exact refreshBankI_valid .i cnt hm

theorem vramMapRefreshBank_valid (cnt : BitVec 8) (hm : MapValid m) :
    ∃ m', vramMapRefreshBank bank cnt m = some m' ∧ MapValid m' := by
  unfold vramMapRefreshBank
  split_ifs
  · exact ⟨m, rfl, hm⟩
  · obtain ⟨⟨m', ofs⟩, h, hm'⟩ := refreshMode_valid bank cnt hm
    rw [h]
    cases ofs with
    | none => exact ⟨_, rfl, hm'⟩
    | some ofs => exact ⟨_, rfl, hm'⟩

theorem mirrorCopies_lt {area : ℕ × ℕ} (harea : area ∈ mirrorings) {c : ℕ × ℕ}
    (hc : c ∈ (List.range' area.2 (128 - area.2)).map fun i =>
      (area.1 + i, area.1 + (i &&& (area.2 - 1)))) : c.1 < 512 ∧ c.2 < 512 := by
  have hsize : area.1 ≤ 384 ∧ area.2 ≤ 128 := by
    simp only [mirrorings, List.mem_cons, List.not_mem_nil, or_false] at harea
    rcases harea with rfl | rfl | rfl | rfl <;> decide
  obtain ⟨i, hi, rfl⟩ := List.mem_map.mp hc
  rw [List.mem_range'_1] at hi
  have hmask : i &&& (area.2 - 1) ≤ i := Nat.and_le_left
  simp only
  omega

theorem mirrorArea_valid (hm : MapValid m) {area : ℕ × ℕ} (harea : area ∈ mirrorings) :
    ∃ m', mirrorArea m area = some m' ∧ MapValid m' := by
  obtain ⟨t, ht, hvalid⟩ := hm.arm9.copyAll fun c hc => mirrorCopies_lt harea hc
  exact ⟨{ m with arm9Map := t }, by simp [mirrorArea, ht], hm.lcdc, hvalid, hm.arm7⟩

theorem cleared_valid (m : VramMapping) : MapValid m.cleared where
  lcdc := AllEntries.replicate le_rfl
  arm9 := AllEntries.replicate le_rfl
  arm7 := AllEntries.replicate (.inr (.inr rfl))

theorem remap_valid (cnt : VramBank → BitVec 8) (m : VramMapping) :
    ∃ m', remap cnt m = some m' ∧ MapValid m' := by
  have hrefresh : ∀ bank ∈ refreshOrder, ∀ m, MapValid m →
      ∃ m', vramMapRefreshBank bank (cnt bank) m = some m' ∧ MapValid m' :=
    fun bank _ m hm => vramMapRefreshBank_valid bank (cnt bank) hm
  have hmirror : ∀ area ∈ mirrorings, ∀ m, MapValid m →
      ∃ m', mirrorArea m area = some m' ∧ MapValid m' :=
    fun area harea m hm => mirrorArea_valid hm harea
  obtain ⟨m₁, h₁, hm₁⟩ := foldlM_invariant hrefresh (cleared_valid m)
  obtain ⟨m₂, h₂, hm₂⟩ := foldlM_invariant hmirror hm₁
  exact ⟨m₂, Option.bind_eq_some_iff.mpr ⟨m₁, h₁, h₂⟩, hm₂⟩

theorem mirrorArea_lcdcMap {m' : VramMapping} {area : ℕ × ℕ} (h : mirrorArea m area = some m') :
    m'.lcdcMap = m.lcdcMap := by
  obtain ⟨t, -, ht⟩ := Option.bind_eq_some_iff.mp h
  rw [← Option.some.inj ht]

theorem remap_lcdcMap {cnt : VramBank → BitVec 8} {m' : VramMapping} (h : remap cnt m = some m') :
    ∃ m₁, refreshOrder.foldlM (fun m bank => vramMapRefreshBank bank (cnt bank) m) m.cleared =
      some m₁ ∧ m'.lcdcMap = m₁.lcdcMap := by
  obtain ⟨m₁, h₁, h₂⟩ := Option.bind_eq_some_iff.mp h
  refine ⟨m₁, h₁, ?_⟩
  have hfold : ∀ (areas : List (ℕ × ℕ)) (a b : VramMapping),
      areas.foldlM mirrorArea a = some b → b.lcdcMap = a.lcdcMap := by
    intro areas
    induction areas with
    | nil => exact fun a b hab => by rw [Option.some.inj hab]
    | cons area areas ih =>
      intro a b hab
      rw [List.foldlM_cons] at hab
      obtain ⟨a', ha', hb⟩ := Option.bind_eq_some_iff.mp hab
      rw [ih a' b hb, mirrorArea_lcdcMap ha']
  exact hfold mirrorings m₁ m' h₂

/-! The mapping is what a remap of the control bytes gives. -/

theorem cleared_eq (m m' : VramMapping) : m.cleared = m'.cleared := rfl

theorem remap_congr (cnt : VramBank → BitVec 8) (m m' : VramMapping) :
    remap cnt m = remap cnt m' := by
  rw [remap, cleared_eq m m', ← remap]

structure VramInv (s : VramState) : Prop where
  valid : MapValid s.map
  derived : ∀ m, remap s.cnt m = some s.map

theorem mirrorArea_cleared (m : VramMapping) {area : ℕ × ℕ} (harea : area ∈ mirrorings) :
    mirrorArea m.cleared area = some m.cleared := by
  have hcopy := copyAll_replicate (n := 512) (x := vramPageUnmapped)
    fun c hc => mirrorCopies_lt harea hc
  rw [mirrorArea, show m.cleared.arm9Map = .replicate 512 vramPageUnmapped from rfl, hcopy]
  rfl

theorem remap_zero (m : VramMapping) : remap (fun _ => 0) m = some m.cleared := by
  have hskip : ∀ bank m, vramMapRefreshBank bank 0 m = some m := fun _ _ => if_pos rfl
  have hrefresh : refreshOrder.foldlM (fun m bank => vramMapRefreshBank bank 0 m) m.cleared =
      some m.cleared := by
    simp only [hskip, refreshOrder, List.foldlM_cons, List.foldlM_nil, Option.bind_eq_bind,
      Option.bind_some, Option.pure_def]
  have hkeeps : ∀ area ∈ mirrorings, ∀ s, s = m.cleared →
      ∃ s', mirrorArea s area = some s' ∧ s' = m.cleared :=
    fun area harea s hs => ⟨_, by rw [hs, mirrorArea_cleared m harea], rfl⟩
  obtain ⟨_, hmirror, rfl⟩ := foldlM_invariant hkeeps rfl
  rw [remap, Option.bind_eq_bind, hrefresh, Option.bind_some, hmirror]

theorem vramReset_cnt (m : VramMapping) : (vramReset m).cnt = fun _ => 0 := rfl

theorem vramReset_inv (m : VramMapping) : VramInv (vramReset m) where
  valid := cleared_valid m
  derived := fun m' => by
    rw [vramReset_cnt, remap_congr _ m' m, remap_zero]
    rfl

theorem vramMapControl_inv {s : VramState} (hs : VramInv s) (w : Fin 10 × BitVec 8) :
    ∃ s', vramMapControl s w = some s' ∧ VramInv s' := by
  unfold vramMapControl
  split_ifs
  · exact ⟨_, rfl, hs.valid, hs.derived⟩
  · obtain ⟨m', h, hm'⟩ := remap_valid (s.setVramcnt w.1 w.2).cnt s.map
    exact ⟨{ s.setVramcnt w.1 w.2 with map := m' }, by rw [h]; rfl, hm',
      fun m => (remap_congr _ m s.map).trans h⟩

theorem vramRun_inv (m : VramMapping) (ws : List (Fin 10 × BitVec 8)) :
    ∃ s, vramRun m ws = some s ∧ VramInv s :=
  foldlM_invariant (fun w _ _ hs => vramMapControl_inv hs w) (vramReset_inv m)

/-- Two histories of control writes after which the nine bank control bytes are equal leave the
same page maps, slots, palettes, configuration and ARM7 status byte. -/
theorem vramRun_map_eq {m m' : VramMapping} {ws ws' : List (Fin 10 × BitVec 8)} {s s' : VramState}
    (h : vramRun m ws = some s) (h' : vramRun m' ws' = some s')
    (hcnt : ∀ bank, s.cnt bank = s'.cnt bank) : s.map = s'.map := by
  obtain ⟨t, ht, hinv⟩ := vramRun_inv m ws
  obtain ⟨t', ht', hinv'⟩ := vramRun_inv m' ws'
  obtain rfl := Option.some.inj (h.symm.trans ht)
  obtain rfl := Option.some.inj (h'.symm.trans ht')
  have hmap := hinv.derived m
  rw [show s.cnt = s'.cnt from funext hcnt, hinv'.derived m] at hmap
  exact (Option.some.inj hmap).symm

/-- The control bytes that a history leaves. -/
def bytesAfter (r : Fin 10 → BitVec 8) (ws : List (Fin 10 × BitVec 8)) : Fin 10 → BitVec 8 :=
  ws.foldl (fun r w => if w.1 = 7 then r else Function.update r w.1 w.2) r

theorem vramMapControl_vramcnt {s s' : VramState} {w : Fin 10 × BitVec 8}
    (h : vramMapControl s w = some s') : s'.vramcnt = bytesAfter s.vramcnt [w] := by
  unfold vramMapControl at h
  simp only [bytesAfter, List.foldl_cons, List.foldl_nil]
  split_ifs at h ⊢
  · rw [← Option.some.inj h]
  · obtain ⟨m, -, rfl⟩ := Option.map_eq_some_iff.mp h
    rfl

theorem foldlM_vramcnt {ws : List (Fin 10 × BitVec 8)} {s s' : VramState}
    (h : ws.foldlM vramMapControl s = some s') : s'.vramcnt = bytesAfter s.vramcnt ws := by
  induction ws generalizing s with
  | nil =>
    rw [List.foldlM_nil] at h
    rw [← Option.some.inj h]
    rfl
  | cons w ws ih =>
    rw [List.foldlM_cons] at h
    obtain ⟨s₁, h₁, h₂⟩ := Option.bind_eq_some_iff.mp h
    rw [ih h₂, vramMapControl_vramcnt h₁]
    rfl

/-- Bank A mapped to LCDC, at once and after a detour over other modes and another bank. -/
theorem vramRun_map_eq_sample :
    ∃ s s', vramRun zeroMapping [(0, 0x80)] = some s ∧
      vramRun zeroMapping [(0, 0x93), (2, 0x8A), (2, 0), (7, 3), (0, 0x80)] = some s' ∧
      s.map = s'.map := by
  obtain ⟨s, h, -⟩ := vramRun_inv zeroMapping [(0, 0x80)]
  obtain ⟨s', h', -⟩ := vramRun_inv zeroMapping [(0, 0x93), (2, 0x8A), (2, 0), (7, 3), (0, 0x80)]
  refine ⟨s, s', h, h', vramRun_map_eq h h' fun bank => ?_⟩
  rw [VramState.cnt, VramState.cnt, foldlM_vramcnt h, foldlM_vramcnt h']
  cases bank <;> rfl

end Desmume.Vram
