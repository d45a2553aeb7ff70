import Desmume.Firmware.FirmwareDefs
import Desmume.Library.WordParts
import Mathlib.Data.Nat.ModEq

/-! Which of the two copies of the user settings is current: the one whose counter follows the
other's. The loader compares the counters as numbers, the saving compares them modulo 0x80. -/

namespace Desmume.Firmware
open Library Bios

/-- The two copies. -/
inductive Copy | user1 | user2

namespace Copy

def other : Copy → Copy
  | user1 => user2
  | user2 => user1

def base : Copy → ℕ
  | user1 => 0
  | user2 => 0x100

theorem base_le (u : Copy) : u.base ≤ 0x100 := by
  cases u <;> decide

end Copy

/-! ### What is on an image -/

section Image

variable (data : ℕ → BitVec 8)

/-- An image of 256 KB. -/
def image : FwData := fun i => if i < 0x40000 then some (data i) else none

def halfword (a : ℕ) : BitVec 16 := data (a + 1) ++ data a

def settingsOffset : ℕ := (halfword data 0x20).toNat * 8

def area (u : Copy) : ℕ := settingsOffset data + u.base

/-- The checksum of a copy is the stored one. -/
def Valid (u : Copy) : Prop :=
  crc16 0xFFFF (load data (area data u) userSettingsMemByteCount) = halfword data (area data u + 0x72)

instance (u : Copy) : Decidable (Valid data u) := inferInstanceAs (Decidable (_ = _))

def count (u : Copy) : BitVec 16 := halfword data (area data u + 0x70)

/-- The counter of a copy follows the other's modulo 0x80. -/
def Newer (u : Copy) : Prop := (count data u).toNat ≡ (count data u.other).toNat + 1 [MOD 0x80]

instance (u : Copy) : Decidable (Newer data u) := inferInstanceAs (Decidable (_ = _))

def InRange : Prop := settingsOffset data ≤ 0x3FE00

variable {data}

theorem settingsOffset_lt : settingsOffset data < 2 ^ 19 := by
  have h := (halfword data 0x20).isLt
  rw [settingsOffset]
  omega

theorem image_eq {i : ℕ} (h : i < 0x40000) : image data i = some (data i) := if_pos h

theorem toNat_address {a : ℕ} (h : a < 0x40000) : (BitVec.ofNat 32 a).toNat = a := by
  rw [BitVec.toNat_ofNat]
  omega

theorem readPair_image {a : ℕ} (h : a + 1 < 0x40000) :
    readPair (image data) (BitVec.ofNat 32 a) = some ((halfword data a).setWidth 32) := by
  have hlow : (BitVec.ofNat 32 a).toNat = a := toNat_address (by omega)
  have hhigh : (BitVec.ofNat 32 a + 1).toNat = a + 1 := by
    rw [show BitVec.ofNat 32 a + 1 = BitVec.ofNat 32 (a + 1) from (BitVec.ofNat_add ..).symm]
    exact toNat_address h
  rw [readPair, hlow, hhigh, image_eq (by omega), image_eq h, halfword, setWidth_append_eq_or]
  rfl

theorem readBytes_image {a n : ℕ} (h : a + n ≤ 0x40000) :
    readBytes (image data) (BitVec.ofNat 32 a) n = some (load data a n) := by
  have hmap (l : List ℕ) (hl : ∀ i ∈ l, i < 0x40000) : l.mapM (image data) = some (l.map data) := by
    induction l with
    | nil => rfl
    | cons i l ih =>
      rw [List.mapM_cons, image_eq (hl i List.mem_cons_self),
        ih fun j hj => hl j (List.mem_cons_of_mem _ hj)]
      rfl
  have ha : (BitVec.ofNat 32 a).toNat = a := by
    rw [BitVec.toNat_ofNat]
    omega
  rw [readBytes, ha, hmap _ fun i hi => ?_]
  · rfl
  · rw [List.mem_range'_1] at hi
    omega

theorem userSettingsOffset_image :
    userSettingsOffset (image data) = some (BitVec.ofNat 32 (settingsOffset data)) := by
  have hshift : (halfword data 0x20).setWidth 32 <<< 3 =
      BitVec.ofNat 32 (settingsOffset data) := by
    apply BitVec.eq_of_toNat_eq
    simp only [BitVec.toNat_shiftLeft, BitVec.toNat_setWidth, BitVec.toNat_ofNat, settingsOffset,
      Nat.shiftLeft_eq]
    omega
  rw [userSettingsOffset, show (0x20 : BitVec 32) = BitVec.ofNat 32 0x20 from rfl,
    readPair_image (by decide), ← hshift]
  rfl

/-- The end of a copy, with its checksum, is on the image. -/
theorem area_lt (hrange : InRange data) (u : Copy) : area data u + 0x100 ≤ 0x40000 := by
  have hbase := u.base_le
  rw [InRange] at hrange
  rw [area]
  omega

theorem setWidth_inj {x y : BitVec 16} : x.setWidth 32 = y.setWidth 32 ↔ x = y := by
  refine ⟨fun h => ?_, fun h => h ▸ rfl⟩
  apply BitVec.eq_of_toNat_eq
  have hnat := congrArg BitVec.toNat h
  simp only [BitVec.toNat_setWidth] at hnat
  omega

theorem userValid_image (hrange : InRange data) (u : Copy) :
    userValid (image data) (BitVec.ofNat 32 (area data u)) = some (decide (Valid data u)) := by
  have harea := area_lt hrange u
  have hsum : calcCRC16 0xffff (load data (area data u) userSettingsMemByteCount) =
      (crc16 0xFFFF (load data (area data u) userSettingsMemByteCount)).setWidth 32 :=
    calcCRC16_eq ..
  have hiff (x y : BitVec 16) : (x.setWidth 32 == y.setWidth 32) = decide (x = y) := by
    rw [Bool.beq_eq_decide_eq]
    exact decide_eq_decide.2 setWidth_inj
  have haddr : BitVec.ofNat 32 (area data u) + 0x72 = BitVec.ofNat 32 (area data u + 0x72) :=
    (BitVec.ofNat_add ..).symm
  have hbytes : area data u + userSettingsMemByteCount ≤ 0x40000 := by
    rw [userSettingsMemByteCount]
    omega
  rw [userValid, readBytes_image hbytes, haddr, readPair_image (by omega)]
  simp only [Option.bind_eq_bind, Option.bind_some, Option.pure_def, hsum, hiff]
  rfl

theorem updateCount_image (hrange : InRange data) (u : Copy) :
    updateCount (image data) (BitVec.ofNat 32 (area data u)) = some (count data u) := by
  have harea := area_lt hrange u
  have haddr : BitVec.ofNat 32 (area data u) + 0x70 = BitVec.ofNat 32 (area data u + 0x70) :=
    (BitVec.ofNat_add ..).symm
  rw [updateCount, haddr, readPair_image (by omega)]
  simp only [Option.bind_eq_bind, Option.bind_some, Option.pure_def, count]
  rw [BitVec.setWidth_setWidth_of_le _ (by decide), BitVec.setWidth_eq]

end Image

/-! ### The copy that is taken -/

section Loading

variable (data : ℕ → BitVec 8)

/-- The copy that the loader takes. -/
def pick : Option Copy :=
  match decide (Valid data .user1), decide (Valid data .user2) with
  | true, true => some (if count data .user1 < count data .user2 then .user2 else .user1)
  | true, false => some .user1
  | false, true => some .user2
  | false, false => none

/-- What is left of a copy that is taken. -/
def taken (dest : ℕ → BitVec 8) : Option Copy → BitVec 32 × (ℕ → BitVec 8)
  | some u =>
    if 0 < area data u then (1, store dest 0 (load data (area data u) userSettingsMemByteCount))
    else (0, dest)
  | none => (0, dest)

variable {data} {dest : ℕ → BitVec 8}

theorem copySettingsOffset_image (hrange : InRange data) :
    copySettingsOffset (image data) (BitVec.ofNat 32 (settingsOffset data)) =
      some ((pick data).elim (-1) fun u => BitVec.ofNat 32 (area data u)) := by
  have hsecond : BitVec.ofNat 32 (settingsOffset data) + 0x100 =
      BitVec.ofNat 32 (area data .user2) := by
    rw [area, Copy.base, BitVec.ofNat_add]
    rfl
  have hfirst : BitVec.ofNat 32 (settingsOffset data) = BitVec.ofNat 32 (area data .user1) := by
    rw [area, Copy.base, Nat.add_zero]
  have hgreater : greaterCount (image data) (BitVec.ofNat 32 (settingsOffset data)) =
      some (BitVec.ofNat 32 (area data
        (if count data .user1 < count data .user2 then .user2 else .user1))) := by
    rw [greaterCount, hsecond, hfirst, updateCount_image hrange, updateCount_image hrange]
    simp only [Option.bind_eq_bind, Option.bind_some, Option.pure_def]
    split_ifs <;> rfl
  -- the validity is made a variable, lest the checksum be computed
  rw [copySettingsOffset, hgreater, hsecond, hfirst, userValid_image hrange, userValid_image hrange,
    pick]
  generalize decide (Valid data .user1) = valid1
  generalize decide (Valid data .user2) = valid2
  cases valid1 <;> cases valid2 <;> rfl

theorem copyFrom_image (hrange : InRange data) (u : Option Copy) :
    copyFrom (image data) dest (u.elim (-1) fun u => BitVec.ofNat 32 (area data u)) =
      some (taken data dest u) := by
  cases u with
  | none => rfl
  | some u =>
    have harea := area_lt hrange u
    have hbytes : area data u + userSettingsMemByteCount ≤ 0x40000 := by
      rw [userSettingsMemByteCount]
      omega
    have hslt : (0 : BitVec 32).slt (BitVec.ofNat 32 (area data u)) = decide (0 < area data u) := by
      have hnat : (BitVec.ofNat 32 (area data u)).toNat = area data u := by
        rw [BitVec.toNat_ofNat]
        omega
      have hint : (BitVec.ofNat 32 (area data u)).toInt = area data u := by
        rw [BitVec.toInt_eq_toNat_of_lt (by omega), hnat]
      have hzero : (0 : BitVec 32).toInt = 0 := by decide
      rw [BitVec.slt_eq_decide, hint, hzero]
      simp only [Int.natCast_pos]
    rw [copyFrom, Option.elim_some, hslt, readBytes_image hbytes, taken]
    simp only [decide_eq_true_eq]
    split_ifs <;> rfl

theorem settingsOffset_le_iff : BitVec.ofNat 32 (settingsOffset data) ≤ 0x3FE00 ↔ InRange data := by
  have hlt := @settingsOffset_lt data
  have hbound : (0x3FE00 : BitVec 32).toNat = 0x3FE00 := by decide
  rw [BitVec.le_def, BitVec.toNat_ofNat, Nat.mod_eq_of_lt (by omega), hbound, InRange]

theorem copyFirmwareUserData_of_offset {fwData : FwData} {offset : BitVec 32}
    (h : userSettingsOffset fwData = some offset) :
    copyFirmwareUserData fwData dest =
      if offset ≤ 0x3FE00 then (copySettingsOffset fwData offset).bind (copyFrom fwData dest)
      else some (0, dest) := by
  rw [copyFirmwareUserData, h]
  rfl

theorem copyFirmwareUserData_image (hrange : InRange data) :
    copyFirmwareUserData (image data) dest = some (taken data dest (pick data)) := by
  have hpick := copySettingsOffset_image hrange
  have hcopy := @copyFrom_image data dest hrange (pick data)
  generalize pick data = u at hpick hcopy ⊢
  rw [copyFirmwareUserData_of_offset userSettingsOffset_image,
    if_pos (settingsOffset_le_iff.2 hrange), hpick, Option.bind_some]
  exact hcopy

theorem copyFirmwareUserData_out (hrange : ¬ InRange data) :
    copyFirmwareUserData (image data) dest = some (0, dest) := by
  rw [copyFirmwareUserData_of_offset userSettingsOffset_image,
    if_neg fun h => hrange (settingsOffset_le_iff.1 h)]

variable (data dest) in
/-- The copy is what the loader takes and what is left in the destination. -/
def Copies (u : Copy) : Prop :=
  copySettingsOffset (image data) (BitVec.ofNat 32 (settingsOffset data)) =
      some (BitVec.ofNat 32 (area data u)) ∧
    copyFirmwareUserData (image data) dest =
      some (1, store dest 0 (load data (area data u) userSettingsMemByteCount))

theorem area_inj {u v : Copy} (h : area data u = area data v) : u = v := by
  cases u <;> cases v
  · rfl
  · simp [area, Copy.base] at h
  · simp [area, Copy.base] at h
  · rfl

theorem copies_iff (hrange : InRange data) (u : Copy) :
    Copies data dest u ↔ pick data = some u ∧ 0 < area data u := by
  have harea := area_lt hrange u
  rw [Copies, copySettingsOffset_image hrange, copyFirmwareUserData_image hrange]
  generalize pick data = v
  constructor
  · rintro ⟨hoffset, hcopy⟩
    have hnat := congrArg BitVec.toNat (Option.some.inj hoffset)
    rw [toNat_address (by omega)] at hnat
    cases v with
    | none =>
      have hret : (0 : BitVec 32) = 1 := congrArg Prod.fst (Option.some.inj hcopy)
      exact absurd hret (by decide)
    | some v =>
      have hv := area_lt hrange v
      rw [Option.elim_some, toNat_address (by omega)] at hnat
      obtain rfl := area_inj hnat
      refine ⟨rfl, Nat.pos_of_ne_zero fun hzero => ?_⟩
      rw [taken, if_neg (by omega)] at hcopy
      have hret : (0 : BitVec 32) = 1 := congrArg Prod.fst (Option.some.inj hcopy)
      exact absurd hret (by decide)
  · rintro ⟨rfl, hpos⟩
    exact ⟨rfl, by rw [taken, if_pos hpos]⟩

end Loading

/-! ### The copy that is saved -/

section Saving

variable (data : ℕ → BitVec 8)

/-- `userDataAddr`, as it is loaded. -/
def userDataAddr : BitVec 32 := (halfword data 0x20).setWidth 32 * 8

/-- The copy that goes over the other. -/
def kept : Copy :=
  if data (settingsOffset data + 0x170) = (data (settingsOffset data + 0x70) + 1) &&& 0x7F then .user2
  else .user1

variable {data}

theorem toNat_userDataAddr : (userDataAddr data).toNat = settingsOffset data := by
  have h := (halfword data 0x20).isLt
  rw [userDataAddr, BitVec.toNat_mul, BitVec.toNat_setWidth, settingsOffset]
  change _ * 8 % 2 ^ 32 = _
  omega

/-- After a save both copies are the one that was kept. -/
theorem load_mirrorSettings (v : Copy) :
    load (mirrorSettings data (settingsOffset data)) (area data v) 0x100 =
      load data (area data (kept data)) 0x100 := by
  rw [mirrorSettings, kept]
  split_ifs
  · cases v with
    | user1 => exact load_store_self ..
    | user2 => exact load_store_apart _ _ (.inl (by rw [length_load, area, Copy.base]))
  · cases v with
    | user1 => exact load_store_apart _ _ (.inr (by rw [area, Copy.base, Nat.add_zero]))
    | user2 => exact load_store_self ..

theorem toNat_halfword (a : ℕ) :
    (halfword data a).toNat = (data a).toNat + 256 * (data (a + 1)).toNat := by
  rw [halfword, BitVec.toNat_append, ← Nat.shiftLeft_add_eq_or_of_lt (data a).isLt,
    Nat.shiftLeft_eq]
  omega

/-- The counters of two copies that are the same bytes are the same. -/
theorem count_congr {u v : Copy}
    (h : load data (area data u) 0x100 = load data (area data v) 0x100) :
    count data u = count data v := by
  have hbyte (i : ℕ) (hi : i < 0x100) : data (area data u + i) = data (area data v + i) := by
    have hget := congrArg (fun bs => bs[i]?) h
    simpa [load, hi] using hget
  rw [count, count, halfword, halfword, hbyte 0x70 (by decide), Nat.add_assoc, Nat.add_assoc,
    hbyte 0x71 (by decide)]

theorem toNat_count (u : Copy) : (count data u).toNat =
    (data (area data u + 0x70)).toNat + 256 * (data (area data u + 0x71)).toNat :=
  toNat_halfword _

theorem newer_count_ne {u : Copy} (h : Newer data u) : count data u ≠ count data u.other := by
  intro heq
  rw [Newer, heq, Nat.ModEq] at h
  omega

theorem kept_eq_user2_iff : kept data = .user2 ↔
    (count data .user2).toNat % 256 = ((count data .user1).toNat + 1) % 0x80 := by
  have hmask (x : BitVec 8) : ((x + 1) &&& 0x7F).toNat = (x.toNat + 1) % 0x80 := by
    rw [BitVec.toNat_and, BitVec.toNat_add]
    have hmod := Nat.and_two_pow_sub_one_eq_mod ((x.toNat + 1) % 256) 7
    change (x.toNat + 1) % 256 &&& 2 ^ 7 - 1 = _
    omega
  have hiff : kept data = .user2 ↔
      data (settingsOffset data + 0x170) = (data (settingsOffset data + 0x70) + 1) &&& 0x7F := by
    rw [kept]
    split_ifs with h
    · exact iff_of_true rfl h
    · exact iff_of_false (by intro h; cases h) h
  have hlow := (data (settingsOffset data + 0x170)).isLt
  have hlow' := (data (settingsOffset data + 0x70)).isLt
  rw [hiff, ← BitVec.toNat_inj, hmask, toNat_count, toNat_count]
  simp only [area, Copy.base, Nat.add_zero, Nat.add_assoc, Nat.reduceAdd]
  omega

/-- The saving keeps the copy that follows, unless its counter has grown beyond seven bits. -/
theorem kept_newer {u : Copy} (h : Newer data u) :
    kept data = u ↔ (u = .user2 → (count data .user2).toNat % 256 < 0x80) := by
  rw [Newer, Nat.ModEq] at h
  cases u with
  | user1 =>
    refine iff_of_true ?_ (by intro h; cases h)
    cases hkept : kept data with
    | user1 => rfl
    | user2 =>
      rw [kept_eq_user2_iff] at hkept
      simp only [Copy.other] at h
      omega
  | user2 =>
    rw [kept_eq_user2_iff]
    simp only [Copy.other] at h
    refine ⟨fun heq _ => by omega, fun hlt => ?_⟩
    have hseven := hlt rfl
    omega

end Saving

/-! ### Loading and saving -/

section Current

/-- The destination gets the newer copy, which the saving keeps as well, or the only one that is
valid, and nothing else; the image is not left. -/
structure CopiesCurrent (fw : FwMemoryChip) (dest : ℕ → BitVec 8) : Prop where
  inside : ∃ r, copyFirmwareUserData (image fw.data) dest = some r
  newer : InRange fw.data → (∀ u, Valid fw.data u) → ∀ u, Newer fw.data u →
    Copies fw.data dest u ∧
      ∀ v, load (saveSettings ⟨true, true⟩ (userDataAddr fw.data) fw).2.data (area fw.data v) 0x100 =
        load fw.data (area fw.data u) 0x100
  only : InRange fw.data → ∀ u, Valid fw.data u → ¬ Valid fw.data u.other → Copies fw.data dest u
  rejected : (¬ InRange fw.data ∨ ∀ u, ¬ Valid fw.data u) →
    copyFirmwareUserData (image fw.data) dest = some (0, dest)

/-- The counters have not wrapped, and the copy that is due is not at the start of the image. -/
structure Unwrapped (data : ℕ → BitVec 8) : Prop where
  greater : (∀ u, Valid data u) → ∀ u, Newer data u → count data u.other < count data u
  seven : (∀ u, Valid data u) → Newer data .user2 → (count data .user2).toNat % 256 < 0x80
  behind : Valid data .user1 → (Valid data .user2 → Newer data .user1) → 0 < settingsOffset data

variable {data : ℕ → BitVec 8}

theorem pick_of_valid (h : ∀ u, Valid data u) :
    pick data = some (if count data .user1 < count data .user2 then .user2 else .user1) := by
  rw [pick, decide_eq_true (h .user1), decide_eq_true (h .user2)]

theorem pick_of_only {u : Copy} (h : Valid data u) (hother : ¬ Valid data u.other) :
    pick data = some u := by
  cases u with
  | user1 =>
    rw [Copy.other] at hother
    rw [pick, decide_eq_true h, decide_eq_false hother]
  | user2 =>
    rw [Copy.other] at hother
    rw [pick, decide_eq_false hother, decide_eq_true h]

theorem pick_of_none (h : ∀ u, ¬ Valid data u) : pick data = none := by
  rw [pick, decide_eq_false (h .user1), decide_eq_false (h .user2)]

/-- The greater counter is the newer one's, unless it has wrapped. -/
theorem pick_newer_iff (h : ∀ u, Valid data u) {u : Copy} (hnewer : Newer data u) :
    pick data = some u ↔ count data u.other < count data u := by
  have hne := newer_count_ne hnewer
  rw [pick_of_valid h, Option.some.injEq]
  cases u with
  | user1 =>
    simp only [Copy.other] at hne ⊢
    split_ifs with hlt
    · refine iff_of_false (by intro h; cases h) (BitVec.not_lt.2 (BitVec.le_of_lt hlt))
    · have hnat := mt BitVec.eq_of_toNat_eq hne
      rw [BitVec.lt_def] at hlt
      exact iff_of_true rfl (BitVec.lt_def.2 (by omega))
  | user2 =>
    simp only [Copy.other]
    split_ifs with hlt
    · exact iff_of_true rfl hlt
    · exact iff_of_false (by intro h; cases h) hlt

theorem saveSettings_enabled (fw : FwMemoryChip) (v : Copy) :
    load (saveSettings ⟨true, true⟩ (userDataAddr fw.data) fw).2.data (area fw.data v) 0x100 =
      load fw.data (area fw.data (kept fw.data)) 0x100 := by
  rw [← load_mirrorSettings v, ← toNat_userDataAddr]
  rfl

/-- What is saved everywhere tells which copy was kept. -/
theorem kept_of_saved {u : Copy} (hne : count data u ≠ count data u.other)
    (h : load data (area data (kept data)) 0x100 = load data (area data u) 0x100) :
    kept data = u := by
  have hcount := count_congr h
  cases u <;> cases hkept : kept data
  · rfl
  · rw [hkept] at hcount
    exact absurd hcount.symm hne
  · rw [hkept] at hcount
    exact absurd hcount.symm hne
  · rfl

theorem copiesCurrent_iff (fw : FwMemoryChip) (dest : ℕ → BitVec 8) :
    CopiesCurrent fw dest ↔ (InRange fw.data → Unwrapped fw.data) := by
  constructor
  · intro h hrange
    refine ⟨fun hvalid u hnewer => ?_, fun hvalid hnewer => ?_, fun hfirst hdue => ?_⟩
    · obtain ⟨hpick, -⟩ := (copies_iff hrange u).1 (h.newer hrange hvalid u hnewer).1
      exact (pick_newer_iff hvalid hnewer).1 hpick
    · have hsaved := (h.newer hrange hvalid .user2 hnewer).2 .user1
      rw [saveSettings_enabled] at hsaved
      have hkept := kept_of_saved (newer_count_ne hnewer) hsaved
      exact (kept_newer hnewer).1 hkept rfl
    · have hcopies : Copies fw.data dest .user1 := by
        by_cases hsecond : Valid fw.data .user2
        · have hboth : ∀ u, Valid fw.data u
            | .user1 => hfirst
            | .user2 => hsecond
          exact (h.newer hrange hboth .user1 (hdue hsecond)).1
        · exact h.only hrange .user1 hfirst hsecond
      exact ((copies_iff hrange .user1).1 hcopies).2
  · intro h
    refine ⟨?_, fun hrange hvalid u hnewer => ?_, fun hrange u hvalid hother => ?_, ?_⟩
    · by_cases hrange : InRange fw.data
      · exact ⟨_, copyFirmwareUserData_image hrange⟩
      · exact ⟨_, copyFirmwareUserData_out hrange⟩
    · have hun := h hrange
      have hkept : kept fw.data = u :=
        (kept_newer hnewer).2 fun hu => hun.seven hvalid (hu ▸ hnewer)
      refine ⟨(copies_iff hrange u).2 ⟨(pick_newer_iff hvalid hnewer).2 (hun.greater hvalid u hnewer),
        ?_⟩, fun v => by rw [saveSettings_enabled, hkept]⟩
      cases u with
      | user1 => exact hun.behind (hvalid _) fun _ => hnewer
      | user2 => exact Nat.add_pos_right _ (by decide)
    · refine (copies_iff hrange u).2 ⟨pick_of_only hvalid hother, ?_⟩
      cases u with
      | user1 => exact (h hrange).behind hvalid fun hsecond => absurd hsecond hother
      | user2 => exact Nat.add_pos_right _ (by decide)
    · rintro (hrange | hnone)
      · exact copyFirmwareUserData_out hrange
      · by_cases hrange : InRange fw.data
        · rw [copyFirmwareUserData_image hrange, pick_of_none hnone]
          rfl
        · exact copyFirmwareUserData_out hrange

/-- Empty settings whose counters are 0x7F and then 0. -/
def wrappedFw : FwMemoryChip where
  com := 0
  addr := 0
  addrShift := 0
  writeEnable := false
  data := store (store (store (fun _ => 0) 0x20 [0xC0, 0x7F]) 0x3FE70 [0x7F, 0, 0xEB, 0xF0])
    0x3FF70 [0, 0, 0xEB, 0xF0]
  size := 0x40000
  writeableBuffer := true
  fp := none
  isFirmware := true
  userfile := []

/-- The checksum of empty settings, in two parts. -/
theorem crc16_zeros : crc16 0xFFFF (List.replicate userSettingsMemByteCount 0) = 0xF0EB := by
  have hfirst : crc16 0xFFFF (List.replicate 0x38 0) = 0x0CCA := by decide +kernel
  have hsecond : crc16 0x0CCA (List.replicate 0x38 0) = 0xF0EB := by decide +kernel
  calc crc16 0xFFFF (List.replicate userSettingsMemByteCount 0)
      = crc16 (crc16 0xFFFF (List.replicate 0x38 0)) (List.replicate 0x38 0) :=
        crcBytes_append crc16Poly 0xFFFF (List.replicate 0x38 0) (List.replicate 0x38 0)
    _ = 0xF0EB := by rw [hfirst, hsecond]

theorem wrapped_not_current : ¬ CopiesCurrent wrappedFw fun _ => 0 := by
  have hrange : InRange wrappedFw.data := by
    rw [InRange]
    decide +kernel
  have hvalid : ∀ u, Valid wrappedFw.data u := by
    intro u
    have hzeros : load wrappedFw.data (area wrappedFw.data u) userSettingsMemByteCount =
        List.replicate userSettingsMemByteCount 0 := by
      cases u <;> decide +kernel
    rw [Valid, hzeros, crc16_zeros]
    cases u <;> decide +kernel
  have hnewer : Newer wrappedFw.data .user2 := by decide +kernel
  have hgreater : count wrappedFw.data .user2 < count wrappedFw.data .user1 := by decide +kernel
  intro h
  obtain ⟨hpick, -⟩ := (copies_iff hrange _).1 (h.newer hrange hvalid .user2 hnewer).1
  exact BitVec.lt_asymm hgreater ((pick_newer_iff hvalid hnewer).1 hpick)

end Current

end Desmume.Firmware
