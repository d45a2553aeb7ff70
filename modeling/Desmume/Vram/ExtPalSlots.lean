import Desmume.Vram.VramInvariant

/-! The slots of the extended palettes. One step of the refresh is summed up by what it does to
these slots; in the slots of the background the banks leave consecutive 8KB blocks, and in the
second slot of the sprites they never leave more than the blank page. -/

namespace Desmume.Vram
open Library VramMapping

/-- A pointer into the pages of a bank. -/
def InBank (bank : VramBank) (p : HostPtr) : Prop :=
  ∃ o < (vramBankInfo bank).numPages * 0x4000,
    p = .arm9Lcd ((vramBankInfo bank).pageAddr * 0x4000 + o)

def IsBlank : HostPtr → Prop
  | .arm9Lcd _ => False
  | .blankMemory _ => True

/-- The screen whose sprite palettes a bank holds in the mode that a control byte selects. -/
def objExtPalScreen (cnt : BitVec 8) : VramBank → Option (Fin 2)
  | .f | .g => if cnt &&& 0x80 ≠ 0 ∧ cnt &&& 7 = 5 then some 0 else none
  | .i => if cnt &&& 0x80 ≠ 0 ∧ cnt &&& 3 = 3 then some 1 else none
  | _ => none

/-- Every bank that backs the first slot of the sprites backs the second one too, and slots of the
background that one bank backs are consecutive. -/
structure SlotsInOrder (m : VramMapping) : Prop where
  obj : ∀ x bank, InBank bank (m.objExtPal x 0) → m.objExtPal x 1 = (m.objExtPal x 0).add8kb
  bg : ∀ x bank, (∀ slot, InBank bank (m.extPal x slot)) →
    ∀ k : Fin 3, m.extPal x k.succ = (m.extPal x k.castSucc).add8kb

/-! ### What a refresh does to the slots -/

/-- The two tables of slots agree. -/
def SamePal (m m' : VramMapping) : Prop := m'.extPal = m.extPal ∧ m'.objExtPal = m.objExtPal

/-- The effects that the refresh of a bank can have on the slots. -/
inductive PalStep (bank : VramBank) (cnt : BitVec 8) (m m' : VramMapping) : Prop
  | keep (hmode : objExtPalScreen cnt bank = none) (h : SamePal m m')
  | bg (x : Fin 2) (hpages : 2 ≤ (vramBankInfo bank).numPages)
      (hmode : objExtPalScreen cnt bank = none)
      (h : SamePal (m.extPalBank x (vramBankInfo bank).pageAddr) m')
  | bgHalf (x : Fin 2) (lo : Fin 4) (hlo : lo = 0 ∨ lo = 2)
      (hmode : objExtPalScreen cnt bank = none)
      (h : SamePal ((m.setExtPal x lo (vramPhysical (vramBankInfo bank).pageAddr)).setExtPal x
        (lo + 1) (vramPhysical (vramBankInfo bank).pageAddr).add8kb) m')
  | obj (x : Fin 2) (hmode : objExtPalScreen cnt bank = some x)
      (h : SamePal (m.objExtPalBank x (vramBankInfo bank).pageAddr) m')

variable {bank : VramBank} {cnt : BitVec 8} {m m' : VramMapping} {r : VramMapping × Option ℕ}

theorem SamePal.trans {m₁ : VramMapping} (h : SamePal m m₁) (h' : SamePal m₁ m') : SamePal m m' :=
  ⟨h'.1.trans h.1, h'.2.trans h.2⟩

theorem PalStep.then {m₁ : VramMapping} (h : PalStep bank cnt m m₁) (hs : SamePal m₁ m') :
    PalStep bank cnt m m' := by
  cases h with
  | keep hmode h => exact .keep hmode (h.trans hs)
  | bg x hpages hmode h => exact .bg x hpages hmode (h.trans hs)
  | bgHalf x lo hlo hmode h => exact .bgHalf x lo hlo hmode (h.trans hs)
  | obj x hmode h => exact .obj x hmode (h.trans hs)

theorem vramLcdc_samePal (h : m.vramLcdc bank = some m') : SamePal m m' := by
  obtain ⟨t, -, ht⟩ := Option.bind_eq_some_iff.mp h
  rw [← Option.some.inj ht]
  exact ⟨rfl, rfl⟩

theorem vramArm9_samePal {offset : ℕ} (h : m.vramArm9 bank offset = some m') : SamePal m m' := by
  obtain ⟨t, -, ht⟩ := Option.bind_eq_some_iff.mp h
  rw [← Option.some.inj ht]
  exact ⟨rfl, rfl⟩

theorem vramArm7_samePal {ofs page : ℕ} (h : m.vramArm7 ofs page = some m') : SamePal m m' := by
  obtain ⟨t, -, ht⟩ := Option.bind_eq_some_iff.mp h
  rw [← Option.some.inj ht]
  exact ⟨rfl, rfl⟩

theorem mirrorArea_samePal {area : ℕ × ℕ} (h : mirrorArea m area = some m') : SamePal m m' := by
  obtain ⟨t, -, ht⟩ := Option.bind_eq_some_iff.mp h
  rw [← Option.some.inj ht]
  exact ⟨rfl, rfl⟩

theorem lcdcMode_samePal {ofs : ℕ} (h : lcdcMode bank m ofs = some r) : SamePal m r.1 := by
  obtain ⟨m', hm', rfl⟩ := Option.map_eq_some_iff.mp h
  exact vramLcdc_samePal (m := m.setPurpose bank .lcdc) hm'

theorem arm9Mode_samePal {p : Purpose} {offset ofs : ℕ}
    (h : arm9Mode bank m p offset ofs = some r) : SamePal m r.1 := by
  obtain ⟨m', hm', rfl⟩ := Option.map_eq_some_iff.mp h
  exact vramArm9_samePal (m := m.setPurpose bank p) hm'

theorem arm9MirrorMode_samePal {p : Purpose} {offset mirror ofs : ℕ}
    (h : arm9MirrorMode bank m p offset mirror ofs = some r) : SamePal m r.1 := by
  obtain ⟨m₁, h₁, h⟩ := Option.bind_eq_some_iff.mp h
  obtain ⟨m₂, h₂, h⟩ := Option.bind_eq_some_iff.mp h
  rw [← Option.some.inj h]
  have hfirst := vramArm9_samePal (m := m.setPurpose bank p) h₁
  exact SamePal.trans hfirst (vramArm9_samePal h₂)

theorem refreshBankAB_samePal (h : refreshBankAB bank cnt m = some r) : SamePal m r.1 := by
  unfold refreshBankAB at h
  simp only at h
  split at h
  · exact lcdcMode_samePal h
  · exact arm9Mode_samePal h
  · split_ifs at h
    · exact arm9Mode_samePal h
    · rw [← Option.some.inj h]
      exact ⟨rfl, rfl⟩
  · rw [← Option.some.inj h]
    exact ⟨rfl, rfl⟩
  · rw [← Option.some.inj h]
    exact ⟨rfl, rfl⟩

theorem refreshBankCD_samePal (h : refreshBankCD bank cnt m = some r) : SamePal m r.1 := by
  unfold refreshBankCD at h
  simp only at h
  split at h
  · exact lcdcMode_samePal h
  · exact arm9Mode_samePal h
  · split_ifs at h
    · obtain ⟨m', hm', rfl⟩ := Option.map_eq_some_iff.mp h
      exact vramArm7_samePal (m := { m.setPurpose bank .arm7 with
          arm7Vramstat := (m.setPurpose bank .arm7).arm7Vramstat ||| arm7VramstatBit bank }) hm'
    · rw [← Option.some.inj h]
      exact ⟨rfl, rfl⟩
  · rw [← Option.some.inj h]
    exact ⟨rfl, rfl⟩
  · split_ifs at h
    · exact arm9Mode_samePal h
    · exact arm9Mode_samePal h
  · rw [← Option.some.inj h]
    exact ⟨rfl, rfl⟩

theorem refreshBankE_palStep (h : refreshBankE .e cnt m = some r) : PalStep .e cnt m r.1 := by
  unfold refreshBankE at h
  simp only at h
  split at h
  · exact .keep rfl (lcdcMode_samePal h)
  · exact .keep rfl (arm9Mode_samePal h)
  · exact .keep rfl (arm9Mode_samePal h)
  · rw [← Option.some.inj h]
    exact .keep rfl ⟨rfl, rfl⟩
  · rw [← Option.some.inj h]
    exact .bg 0 (by decide) rfl ⟨rfl, rfl⟩
  · rw [← Option.some.inj h]
    exact .keep rfl ⟨rfl, rfl⟩

theorem refreshBankH_palStep (h : refreshBankH .h cnt m = some r) : PalStep .h cnt m r.1 := by
  unfold refreshBankH at h
  split at h
  · exact .keep rfl (lcdcMode_samePal h)
  · exact .keep rfl (arm9MirrorMode_samePal h)
  · rw [← Option.some.inj h]
    exact .bg 1 (by decide) rfl ⟨rfl, rfl⟩
  · rw [← Option.some.inj h]
    exact .keep rfl ⟨rfl, rfl⟩

/-- A mode other than the one with the sprite palettes. -/
theorem objExtPalScreen_fg (hbank : bank = .f ∨ bank = .g) {n : ℕ} (hn : n ≠ 5)
    (h : (cnt &&& 7).toNat = n) : objExtPalScreen cnt bank = none := by
  have hne : ¬ (cnt &&& 0x80 ≠ 0 ∧ cnt &&& 7 = 5) := by
    rintro ⟨-, h5⟩
    rw [h5] at h
    exact hn h.symm
  rcases hbank with rfl | rfl
  · exact if_neg hne
  · exact if_neg hne

theorem refreshBankFG_palStep (hbank : bank = .f ∨ bank = .g) (hen : cnt &&& 0x80 ≠ 0)
    (h : refreshBankFG bank cnt m = some r) : PalStep bank cnt m r.1 := by
  unfold refreshBankFG at h
  simp only at h
  split at h
  case h_1 hn => exact .keep (objExtPalScreen_fg hbank (by decide) hn) (lcdcMode_samePal h)
  case h_2 hn => exact .keep (objExtPalScreen_fg hbank (by decide) hn) (arm9MirrorMode_samePal h)
  case h_3 hn => exact .keep (objExtPalScreen_fg hbank (by decide) hn) (arm9MirrorMode_samePal h)
  case h_4 hn =>
    rw [← Option.some.inj h]
    exact .keep (objExtPalScreen_fg hbank (by decide) hn) ⟨rfl, rfl⟩
  case h_5 hn =>
    have hmode := objExtPalScreen_fg hbank (by decide) hn
    split_ifs at h with hlt
    · have hlo : Fin.ofNat 4 ((ofsField cnt).val * 2) = 0 ∨
          Fin.ofNat 4 ((ofsField cnt).val * 2) = 2 := by
        rcases (show (ofsField cnt).val = 0 ∨ (ofsField cnt).val = 1 by omega) with h0 | h1
        · exact .inl (by rw [h0]; rfl)
        · exact .inr (by rw [h1]; rfl)
      rw [← Option.some.inj h]
      refine .bgHalf 0 _ hlo hmode ⟨?_, rfl⟩
      simp only [setExtPal, setPurpose, Function.update_self]
    · rw [← Option.some.inj h]
      exact .keep hmode ⟨rfl, rfl⟩
  case h_6 hn =>
    have hmode : objExtPalScreen cnt bank = some 0 := by
      have hcond : cnt &&& 0x80 ≠ 0 ∧ cnt &&& 7 = 5 := ⟨hen, BitVec.eq_of_toNat_eq hn⟩
      rcases hbank with rfl | rfl
      · exact if_pos hcond
      · exact if_pos hcond
    rw [← Option.some.inj h]
    exact .obj 0 hmode ⟨rfl, rfl⟩
  case h_7 hn =>
    rw [← Option.some.inj h]
    exact .keep (objExtPalScreen_fg hbank hn rfl) ⟨rfl, rfl⟩

theorem objExtPalScreen_i {n : ℕ} (hn : n ≠ 3) (h : (cnt &&& 3).toNat = n) :
    objExtPalScreen cnt .i = none := by
  refine if_neg ?_
  rintro ⟨-, h3⟩
  rw [h3] at h
  exact hn h.symm

theorem refreshBankI_palStep (hen : cnt &&& 0x80 ≠ 0) (h : refreshBankI .i cnt m = some r) :
    PalStep .i cnt m r.1 := by
  unfold refreshBankI at h
  split at h
  case h_1 hn => exact .keep (objExtPalScreen_i (by decide) hn) (lcdcMode_samePal h)
  case h_2 hn => exact .keep (objExtPalScreen_i (by decide) hn) (arm9MirrorMode_samePal h)
  case h_3 hn => exact .keep (objExtPalScreen_i (by decide) hn) (arm9MirrorMode_samePal h)
  case h_4 hn =>
    rw [← Option.some.inj h]
    exact .obj 1 (if_pos ⟨hen, BitVec.eq_of_toNat_eq hn⟩) ⟨rfl, rfl⟩
  case h_5 hn =>
    rw [← Option.some.inj h]
    exact .keep (objExtPalScreen_i hn rfl) ⟨rfl, rfl⟩

theorem refreshMode_palStep (hen : cnt &&& 0x80 ≠ 0) (h : refreshMode bank cnt m = some r) :
    PalStep bank cnt m r.1 := by
  cases bank with
  | a => exact .keep rfl (refreshBankAB_samePal h)
  | b => exact .keep rfl (refreshBankAB_samePal h)
  | c => exact .keep rfl (refreshBankCD_samePal h)
  | d => exact .keep rfl (refreshBankCD_samePal h)
  | e => exact refreshBankE_palStep h
  | f => exact refreshBankFG_palStep (.inl rfl) hen h
  | g => exact refreshBankFG_palStep (.inr rfl) hen h
  | h => exact refreshBankH_palStep h
  | i => exact refreshBankI_palStep hen h

theorem objExtPalScreen_disabled (h : cnt &&& 0x80 = 0) : objExtPalScreen cnt bank = none := by
  have hne : ∀ p : Prop, ¬ (cnt &&& 0x80 ≠ 0 ∧ p) := fun p hp => hp.1 h
  cases bank with
  | f => exact if_neg (hne _)
  | g => exact if_neg (hne _)
  | i => exact if_neg (hne _)
  | _ => rfl

theorem vramMapRefreshBank_palStep (h : vramMapRefreshBank bank cnt m = some m') :
    PalStep bank cnt m m' := by
  unfold vramMapRefreshBank at h
  split_ifs at h with hen
  · rw [← Option.some.inj h]
    exact .keep (objExtPalScreen_disabled hen) ⟨rfl, rfl⟩
  · obtain ⟨r, hr, rfl⟩ := Option.map_eq_some_iff.mp h
    have hstep := refreshMode_palStep hen hr
    -- recording the offset or the invalid purpose touches no slot
    cases r.2 with
    | none => exact hstep.then ⟨rfl, rfl⟩
    | some ofs => exact hstep.then ⟨rfl, rfl⟩

/-! ### The slots over a whole refresh -/

theorem inBank_inj {bank' : VramBank} {p : HostPtr} (h : InBank bank p) (h' : InBank bank' p) :
    bank = bank' := by
  obtain ⟨o, ho, rfl⟩ := h
  obtain ⟨o', ho', heq⟩ := h'
  simp only [HostPtr.arm9Lcd.injEq] at heq
  cases bank <;> cases bank' <;> first
    | rfl
    | (simp only [vramBankInfo] at ho ho' heq; omega)

theorem numPages_pos (bank : VramBank) : 0 < (vramBankInfo bank).numPages := by
  cases bank <;> decide

theorem inBank_page {o : ℕ} (ho : o < (vramBankInfo bank).numPages * 0x4000) :
    InBank bank (.arm9Lcd ((vramBankInfo bank).pageAddr * 0x4000 + o)) := ⟨o, ho, rfl⟩

theorem inBank_first (bank : VramBank) :
    InBank bank (vramPhysical (vramBankInfo bank).pageAddr) := by
  have hpos := numPages_pos bank
  rw [vramPhysical, ← Nat.add_zero ((vramBankInfo bank).pageAddr * 0x4000)]
  exact inBank_page (by omega)

theorem not_inBank_blank {p : HostPtr} (hp : IsBlank p) : ¬ InBank bank p := by
  rintro ⟨o, -, rfl⟩
  exact hp

theorem isBlank_add8kb {p : HostPtr} (hp : IsBlank p) : IsBlank p.add8kb := by
  cases p with
  | arm9Lcd => exact hp
  | blankMemory => exact hp

/-- The slots after the refresh of some of the banks. -/
structure SlotInv (cnt : VramBank → BitVec 8) (done : List VramBank) (m : VramMapping) : Prop where
  objSecond : ∀ x, IsBlank (m.objExtPal x 1)
  objFirst : ∀ x, (∃ bank, InBank bank (m.objExtPal x 0)) ↔
    ∃ bank ∈ done, objExtPalScreen (cnt bank) bank = some x
  bgOwner : ∀ x k bank, InBank bank (m.extPal x k) → bank ∈ done
  bgNext : ∀ x bank (k : Fin 3), InBank bank (m.extPal x k.castSucc) →
    InBank bank (m.extPal x k.succ) → m.extPal x k.succ = (m.extPal x k.castSucc).add8kb

theorem extPalBank_extPal (m : VramMapping) (x x' : Fin 2) (page : ℕ) (k : Fin 4) :
    (m.extPalBank x page).extPal x' k =
      if x' = x then .arm9Lcd (page * 0x4000 + k * 0x2000) else m.extPal x' k := by
  by_cases hx : x' = x
  · subst hx
    have hk : k = 0 ∨ k = 1 ∨ k = 2 ∨ k = 3 := by omega
    rw [if_pos rfl]
    rcases hk with rfl | rfl | rfl | rfl
    · simp [extPalBank, setExtPal, vramPhysical]
    · simp [extPalBank, setExtPal, vramPhysical, HostPtr.add8kb]
    · simp [extPalBank, setExtPal, vramPhysical, HostPtr.add8kb, Nat.add_assoc]
    · simp [extPalBank, setExtPal, vramPhysical, HostPtr.add8kb, Nat.add_assoc]
  · simp [extPalBank, setExtPal, hx]

theorem objExtPalBank_objExtPal_first (m : VramMapping) (x x' : Fin 2) (page : ℕ) :
    (m.objExtPalBank x page).objExtPal x' 0 =
      if x' = x then vramPhysical page else m.objExtPal x' 0 := by
  by_cases hx : x' = x
  · subst hx
    simp [objExtPalBank, setObjExtPal]
  · simp [objExtPalBank, setObjExtPal, hx]

theorem objExtPalBank_objExtPal_second (m : VramMapping) (x x' : Fin 2) (page : ℕ) :
    (m.objExtPalBank x page).objExtPal x' 1 =
      if x' = x then (m.objExtPal x 1).add8kb else m.objExtPal x' 1 := by
  by_cases hx : x' = x
  · subst hx
    simp [objExtPalBank, setObjExtPal]
  · simp [objExtPalBank, setObjExtPal, hx]

section Step

variable {control : VramBank → BitVec 8} {done : List VramBank}

theorem SlotInv.keep (hm : SlotInv control done m) (h : SamePal m m')
    (hmode : objExtPalScreen (control bank) bank = none) : SlotInv control (bank :: done) m' where
  objSecond := by
    rw [h.2]
    exact hm.objSecond
  objFirst := by
    intro x
    rw [h.2, hm.objFirst x]
    constructor
    · rintro ⟨owner, hmem, hx⟩
      exact ⟨owner, List.mem_cons_of_mem _ hmem, hx⟩
    · rintro ⟨owner, hmem, hx⟩
      rcases List.mem_cons.mp hmem with rfl | hmem
      · rw [hmode] at hx
        cases hx
      · exact ⟨owner, hmem, hx⟩
  bgOwner := by
    rw [h.1]
    exact fun x k owner hb => List.mem_cons_of_mem _ (hm.bgOwner x k owner hb)
  bgNext := by
    rw [h.1]
    exact hm.bgNext

theorem SlotInv.extPalBank (hm : SlotInv control done m) (x : Fin 2)
    (hpages : 2 ≤ (vramBankInfo bank).numPages)
    (hmode : objExtPalScreen (control bank) bank = none) :
    SlotInv control (bank :: done) (m.extPalBank x (vramBankInfo bank).pageAddr) where
  objSecond := hm.objSecond
  objFirst := (hm.keep ⟨rfl, rfl⟩ hmode).objFirst
  bgOwner := by
    intro x' k owner hb
    rw [extPalBank_extPal] at hb
    split_ifs at hb
    · have hk : k.val * 0x2000 < (vramBankInfo bank).numPages * 0x4000 := by omega
      rw [inBank_inj hb (inBank_page hk)]
      exact List.mem_cons_self
    · exact List.mem_cons_of_mem _ (hm.bgOwner x' k owner hb)
  bgNext := by
    intro x' owner k h₁ h₂
    rw [extPalBank_extPal] at h₁ h₂ ⊢
    rw [extPalBank_extPal]
    split_ifs at h₁ h₂ ⊢
    · simp only [HostPtr.add8kb, Fin.val_succ, Fin.val_castSucc, HostPtr.arm9Lcd.injEq]
      omega
    · exact hm.bgNext x' owner k h₁ h₂

/-- Two neighbouring slots of one screen are set. -/
structure PairSet (m m' : VramMapping) (x : Fin 2) (lo : Fin 4) (p q : HostPtr) : Prop where
  first : m'.extPal x lo = p
  second : m'.extPal x (lo + 1) = q
  slots : ∀ k, k ≠ lo → k ≠ lo + 1 → m'.extPal x k = m.extPal x k
  screens : ∀ x', x' ≠ x → m'.extPal x' = m.extPal x'

theorem setExtPal_pair (m : VramMapping) (x : Fin 2) (lo : Fin 4) (p q : HostPtr) :
    PairSet m ((m.setExtPal x lo p).setExtPal x (lo + 1) q) x lo p q where
  first := by
    have hne : lo ≠ lo + 1 := by omega
    simp [setExtPal, hne]
  second := by simp [setExtPal]
  slots := fun k h h' => by simp [setExtPal, h, h']
  screens := fun x' h => by simp [setExtPal, h]

theorem SlotInv.extPalHalf (hm : SlotInv control done m) (hnew : bank ∉ done) (x : Fin 2)
    {lo : Fin 4} (hlo : lo = 0 ∨ lo = 2) (hmode : objExtPalScreen (control bank) bank = none) :
    SlotInv control (bank :: done)
      ((m.setExtPal x lo (vramPhysical (vramBankInfo bank).pageAddr)).setExtPal x (lo + 1)
        (vramPhysical (vramBankInfo bank).pageAddr).add8kb) where
  objSecond := hm.objSecond
  objFirst := (hm.keep ⟨rfl, rfl⟩ hmode).objFirst
  bgOwner := by
    have hpos := numPages_pos bank
    have hpair := setExtPal_pair m x lo (vramPhysical (vramBankInfo bank).pageAddr)
      (vramPhysical (vramBankInfo bank).pageAddr).add8kb
    intro x' k owner hb
    by_cases hx : x' = x
    · subst hx
      by_cases hfirst : k = lo
      · rw [hfirst, hpair.first] at hb
        rw [inBank_inj hb (inBank_first bank)]
        exact List.mem_cons_self
      by_cases hsecond : k = lo + 1
      · rw [hsecond, hpair.second] at hb
        rw [inBank_inj hb (inBank_page (o := 0x2000) (by omega))]
        exact List.mem_cons_self
      · rw [hpair.slots k hfirst hsecond] at hb
        exact List.mem_cons_of_mem _ (hm.bgOwner x' k owner hb)
    · rw [hpair.screens x' hx] at hb
      exact List.mem_cons_of_mem _ (hm.bgOwner x' k owner hb)
  bgNext := by
    have hpos := numPages_pos bank
    have hold : ∀ x' k, ¬ InBank bank (m.extPal x' k) :=
      fun x' k hb => hnew (hm.bgOwner x' k bank hb)
    have hfirst := inBank_first bank
    have hsecond : InBank bank (vramPhysical (vramBankInfo bank).pageAddr).add8kb :=
      inBank_page (by omega)
    have hpair := setExtPal_pair m x lo (vramPhysical (vramBankInfo bank).pageAddr)
      (vramPhysical (vramBankInfo bank).pageAddr).add8kb
    revert hpair
    generalize (m.setExtPal x lo _).setExtPal x (lo + 1) _ = m'
    intro hpair x' owner k h₁ h₂
    by_cases hx : x' = x
    · subst hx
      have hk : k = 0 ∨ k = 1 ∨ k = 2 := by omega
      rcases hlo with rfl | rfl
      · have h0 : m'.extPal x' 0 = _ := hpair.first
        have h1 : m'.extPal x' 1 = _ := hpair.second
        have h2 : m'.extPal x' 2 = m.extPal x' 2 := hpair.slots 2 (by decide) (by decide)
        have h3 : m'.extPal x' 3 = m.extPal x' 3 := hpair.slots 3 (by decide) (by decide)
        rcases hk with rfl | rfl | rfl
        · exact h1.trans (congrArg _ h0.symm)
        · -- the pair in the middle would need a bank that was refreshed before
          obtain rfl : owner = bank := inBank_inj h₁ (h1 ▸ hsecond)
          exact absurd (h2 ▸ h₂) (hold _ _)
        · exact h3.trans ((hm.bgNext x' owner 2 (h2 ▸ h₁) (h3 ▸ h₂)).trans (congrArg _ h2.symm))
      · have h0 : m'.extPal x' 0 = m.extPal x' 0 := hpair.slots 0 (by decide) (by decide)
        have h1 : m'.extPal x' 1 = m.extPal x' 1 := hpair.slots 1 (by decide) (by decide)
        have h2 : m'.extPal x' 2 = _ := hpair.first
        have h3 : m'.extPal x' 3 = _ := hpair.second
        rcases hk with rfl | rfl | rfl
        · exact h1.trans ((hm.bgNext x' owner 0 (h0 ▸ h₁) (h1 ▸ h₂)).trans (congrArg _ h0.symm))
        · obtain rfl : owner = bank := inBank_inj h₂ (h2 ▸ hfirst)
          exact absurd (h1 ▸ h₁) (hold _ _)
        · exact h3.trans (congrArg _ h2.symm)
    · rw [hpair.screens x' hx] at h₁ h₂ ⊢
      exact hm.bgNext x' owner k h₁ h₂

theorem SlotInv.objExtPalBank (hm : SlotInv control done m) (x : Fin 2)
    (hmode : objExtPalScreen (control bank) bank = some x) :
    SlotInv control (bank :: done) (m.objExtPalBank x (vramBankInfo bank).pageAddr) where
  objSecond := by
    intro x'
    rw [objExtPalBank_objExtPal_second]
    split_ifs
    · exact isBlank_add8kb (hm.objSecond x)
    · exact hm.objSecond x'
  objFirst := by
    intro x'
    rw [objExtPalBank_objExtPal_first]
    split_ifs with hx
    · subst hx
      exact iff_of_true ⟨bank, inBank_first bank⟩ ⟨bank, List.mem_cons_self, hmode⟩
    · rw [hm.objFirst x']
      constructor
      · rintro ⟨owner, hmem, howner⟩
        exact ⟨owner, List.mem_cons_of_mem _ hmem, howner⟩
      · rintro ⟨owner, hmem, howner⟩
        rcases List.mem_cons.mp hmem with rfl | hmem
        · exact absurd (Option.some.inj (howner.symm.trans hmode)) hx
        · exact ⟨owner, hmem, howner⟩
  bgOwner := fun x' k owner hb => List.mem_cons_of_mem _ (hm.bgOwner x' k owner hb)
  bgNext := hm.bgNext

/-- One bank more is refreshed. -/
theorem SlotInv.step (hm : SlotInv control done m) (hnew : bank ∉ done)
    (h : PalStep bank (control bank) m m') : SlotInv control (bank :: done) m' := by
  have hsame : ∀ {m₁ m₂ : VramMapping}, SlotInv control (bank :: done) m₁ → SamePal m₁ m₂ →
      SlotInv control (bank :: done) m₂ := by
    rintro m₁ m₂ ⟨h₁, h₂, h₃, h₄⟩ ⟨hext, hobj⟩
    rw [← hext] at h₃ h₄
    rw [← hobj] at h₁ h₂
    exact ⟨h₁, h₂, h₃, h₄⟩
  cases h with
  | keep hmode h => exact hm.keep h hmode
  | bg x hpages hmode h => exact hsame (hm.extPalBank x hpages hmode) h
  | bgHalf x lo hlo hmode h => exact hsame (hm.extPalHalf hnew x hlo hmode) h
  | obj x hmode h => exact hsame (hm.objExtPalBank x hmode) h

theorem slotInv_fold {order : List VramBank} (hnodup : order.Nodup)
    (hnew : ∀ bank ∈ order, bank ∉ done) (hm : SlotInv control done m)
    (h : order.foldlM (fun m bank => vramMapRefreshBank bank (control bank) m) m = some m') :
    SlotInv control (order.reverse ++ done) m' := by
  induction order generalizing done m with
  | nil =>
    rw [List.foldlM_nil] at h
    rw [← Option.some.inj h]
    exact hm
  | cons bank order ih =>
    rw [List.foldlM_cons] at h
    obtain ⟨m₁, h₁, h₂⟩ := Option.bind_eq_some_iff.mp h
    obtain ⟨hhead, htail⟩ := List.nodup_cons.mp hnodup
    have hm₁ := hm.step (hnew bank List.mem_cons_self) (vramMapRefreshBank_palStep h₁)
    have hnew₁ : ∀ next ∈ order, next ∉ bank :: done := by
      intro next hnext hmem
      rcases List.mem_cons.mp hmem with rfl | hmem
      · exact hhead hnext
      · exact hnew next (List.mem_cons_of_mem _ hnext) hmem
    rw [List.reverse_cons, List.append_assoc]
    exact ih htail hnew₁ hm₁ h₂

end Step

theorem cleared_slotInv (control : VramBank → BitVec 8) (m : VramMapping) :
    SlotInv control [] m.cleared where
  objSecond := fun _ => trivial
  objFirst := fun _ => by
    constructor
    · rintro ⟨bank, hb⟩
      exact absurd hb (not_inBank_blank trivial)
    · rintro ⟨bank, hb, -⟩
      cases hb
  bgOwner := fun _ _ _ hb => absurd hb (not_inBank_blank trivial)
  bgNext := fun _ _ _ hb => absurd hb (not_inBank_blank trivial)

/-! ### The slots after control writes -/

theorem mirrorings_samePal {m m' : VramMapping} (h : mirrorings.foldlM mirrorArea m = some m') :
    SamePal m m' := by
  have hfold : ∀ (areas : List (ℕ × ℕ)) (a c : VramMapping),
      areas.foldlM mirrorArea a = some c → SamePal a c := by
    intro areas
    induction areas with
    | nil =>
      intro a c hac
      rw [List.foldlM_nil] at hac
      rw [← Option.some.inj hac]
      exact ⟨rfl, rfl⟩
    | cons area areas ih =>
      intro a c hac
      rw [List.foldlM_cons] at hac
      obtain ⟨a', ha', hc⟩ := Option.bind_eq_some_iff.mp hac
      exact SamePal.trans (mirrorArea_samePal ha') (ih a' c hc)
  exact hfold mirrorings m m' h

theorem remap_slotInv {control : VramBank → BitVec 8} {m m' : VramMapping}
    (h : remap control m = some m') : SlotInv control refreshOrder.reverse m' := by
  obtain ⟨m₁, h₁, h₂⟩ := Option.bind_eq_some_iff.mp h
  have hm₁ := slotInv_fold (by decide) (fun _ _ => List.not_mem_nil) (cleared_slotInv control m) h₁
  obtain ⟨hext, hobj⟩ := mirrorings_samePal h₂
  obtain ⟨k₁, k₂, k₃, k₄⟩ := hm₁
  rw [List.append_nil] at k₂ k₃
  rw [← hext] at k₃ k₄
  rw [← hobj] at k₁ k₂
  exact ⟨k₁, k₂, k₃, k₄⟩

theorem mem_refreshOrder (bank : VramBank) : bank ∈ refreshOrder.reverse := by
  cases bank <;> decide

theorem slotsInOrder_iff {control : VramBank → BitVec 8} {m : VramMapping}
    (hm : SlotInv control refreshOrder.reverse m) :
    SlotsInOrder m ↔ ∀ bank, objExtPalScreen (control bank) bank = none := by
  constructor
  · intro h bank
    cases hmode : objExtPalScreen (control bank) bank with
    | none => rfl
    | some x =>
      -- the first slot is in a bank, the second one has not left the blank page
      obtain ⟨owner, o, ho, hfirst⟩ := (hm.objFirst x).mpr ⟨bank, mem_refreshOrder bank, hmode⟩
      have hsecond := h.obj x owner ⟨o, ho, hfirst⟩
      have hblank := hm.objSecond x
      rw [hsecond, hfirst] at hblank
      exact absurd hblank id
  · intro hnone
    refine ⟨?_, ?_⟩
    · intro x bank hb
      obtain ⟨owner, -, howner⟩ := (hm.objFirst x).mp ⟨bank, hb⟩
      rw [hnone owner] at howner
      cases howner
    · intro x bank hall k
      exact hm.bgNext x bank k (hall _) (hall _)

/-- After control writes the slots are in order exactly when the bytes last written put none of
the banks F, G and I in the mode that holds sprite palettes. -/
theorem vramRun_slotsInOrder_iff (m : VramMapping) (ws : List (Fin 10 × BitVec 8)) :
    ∃ s, vramRun m ws = some s ∧ (SlotsInOrder s.map ↔
      ∀ bank, objExtPalScreen (bytesAfter (fun _ => 0) ws (bankBlock bank)) bank = none) := by
  obtain ⟨s, hs, hinv⟩ := vramRun_inv m ws
  refine ⟨s, hs, ?_⟩
  have hbytes : s.cnt = fun bank => bytesAfter (fun _ => 0) ws (bankBlock bank) := by
    funext bank
    rw [VramState.cnt, foldlM_vramcnt hs]
    rfl
  have hslots := remap_slotInv (hinv.derived m)
  rw [slotsInOrder_iff hslots, hbytes]

/-- Bank F as sprite palette of the main screen leaves the second slot in the blank page. -/
theorem slotsInOrder_bankF : ∃ s, vramRun zeroMapping [(5, 0x85)] = some s ∧
    ¬ SlotsInOrder s.map := by
  obtain ⟨s, hs, hinv⟩ := vramRun_inv zeroMapping [(5, 0x85)]
  refine ⟨s, hs, fun h => ?_⟩
  have hcnt : s.cnt .f = 0x85 := by
    rw [VramState.cnt, foldlM_vramcnt hs]
    rfl
  have hmode := (slotsInOrder_iff (remap_slotInv (hinv.derived zeroMapping))).mp h .f
  rw [hcnt] at hmode
  exact absurd hmode (by decide)

end Desmume.Vram
