import Desmume.Geometry.Gfx3dRestore
import Mathlib.Data.List.TakeWhile

/-! The geometry engine behind a save and a load is the one that was saved exactly if the engine
that was loaded into already had what the save leaves out. -/

namespace Desmume.Geometry
open Library SaveState

/-- The engine `t` has the stacks, the lists and the vertex coordinates of `s`. -/
structure Restores (l : Gfx3dLayout) (s t : Gfx3d) : Prop where
  slot : ∀ k j, Writable k j → (t.mtxStack k).slot j = (s.mtxStack k).slot j
  position : ∀ k, (t.mtxStack k).position = (s.mtxStack k).position
  vertCount : t.vertlist.count = s.vertlist.count
  vert : ∀ i < s.vertlist.count, t.vertlist.list i = s.vertlist.list i
  polyCount : t.polylist.count = s.polylist.count
  poly : ∀ i < s.polylist.count, t.polylist.list i = s.polylist.list i
  coord : ∀ i < 3, t.s16coord l i = s.s16coord l i

/-- What the save leaves out: the last slot of the deep stacks, the third coordinate and the
formats of the polygons. -/
structure Agrees (l : Gfx3dLayout) (s t : Gfx3d) : Prop where
  lastSlot : ∀ k, k = 1 ∨ k = 2 → (t.mtxStack k).slot 31 = (s.mtxStack k).slot 31
  thirdCoord : t.s16coord l 2 = s.s16coord l 2
  vtxFormat : ∀ i < s.polylist.count,
    ((t.polylists 0).list i).vtxFormat = (s.polylist.list i).vtxFormat

namespace Gfx3d

variable (s t : Gfx3d) (l : Gfx3dLayout)

theorem slot_loaded (k : Fin 4) (j : ℕ) : ((s.loaded t).mtxStack k).slot j =
    if j < mtxStackSize k then (s.mtxStack k).slot j else (t.mtxStack k).slot j := by
  have hstack : (s.loaded t).mtxStack k =
      (stackCodec k).setFields (t.mtxStack k) ((stackCodec k).fields (s.mtxStack k)) := rfl
  rw [hstack, stackCodec_setFields]
  funext i
  have hi := i.isLt
  unfold MatrixStack.slot
  by_cases hj : j < mtxStackSize k
  · rw [if_pos hj]
    exact if_pos (by omega)
  · rw [if_neg hj]
    exact if_neg (by omega)

theorem position_loaded (k : Fin 4) :
    ((s.loaded t).mtxStack k).position = (s.mtxStack k).position := by
  have hstack : (s.loaded t).mtxStack k =
      (stackCodec k).setFields (t.mtxStack k) ((stackCodec k).fields (s.mtxStack k)) := rfl
  rw [hstack, stackCodec_setFields]

theorem vertlist_loaded : (s.loaded t).vertlist = s.vertlist.onto vertCodec (t.vertlists 0) := rfl

theorem polylist_loaded : (s.loaded t).polylist = s.polylist.onto polyCodec (t.polylists 0) := rfl

theorem vert_loaded {i : ℕ} (h : i < s.vertlist.count) :
    (s.loaded t).vertlist.list i = s.vertlist.list i := by
  rw [vertlist_loaded, RecordList.onto]
  simp only [List.mem_range, h, if_true, vertCodec_setFields]

theorem poly_loaded {i : ℕ} (h : i < s.polylist.count) :
    (s.loaded t).polylist.list i =
      { s.polylist.list i with vtxFormat := ((t.polylists 0).list i).vtxFormat } := by
  rw [polylist_loaded, RecordList.onto]
  simp only [List.mem_range, h, if_true, polyCodec_setFields]

/-- The rows lie within their variables, and the one of the coordinates has four bytes. -/
theorem gfx3dRows_fit : ∀ row ∈ gfx3dRows, row.var.all (fun v =>
    decide (row.size.toNat * row.count.toNat ≤ v.bytes ∧
      (v = .s16coord → row.size.toNat * row.count.toNat = 4))) = true := by
  decide +kernel

theorem exists_s16coord_row : ∃ row ∈ gfx3dRows.takeWhile fun row => row.var.isSome,
    row.var = some .s16coord := by
  decide +kernel

theorem covers_s16coord_iff {a : ℕ} (hlow : l.addr .s16coord ≤ a)
    (hhigh : a < l.addr .s16coord + 8) :
    (∃ sf ∈ rows (sfGfx3d l), sf.Covers a) ↔ a < l.addr .s16coord + 4 := by
  rw [rows_sfGfx3d]
  constructor
  · rintro ⟨sf, hsf, hcover⟩
    obtain ⟨row, hrow, rfl⟩ := List.mem_map.mp hsf
    have hmem := (List.takeWhile_sublist _).subset hrow
    have hsome := List.mem_takeWhile_imp hrow
    obtain ⟨v, hv⟩ := Option.isSome_iff_exists.mp hsome
    have hfit := gfx3dRows_fit row hmem
    rw [hv, Option.all_some, decide_eq_true_iff] at hfit
    have haddr : (row.toSFormat l).v = l.addr v := by
      rw [Gfx3dRow.toSFormat, hv]
      rfl
    have hbytes : (row.toSFormat l).byteCount = row.size.toNat * row.count.toNat := rfl
    rw [SFormat.Covers, haddr, hbytes] at hcover
    by_cases hvar : v = .s16coord
    · rw [hfit.2 hvar, hvar] at hcover
      exact hcover.2
    · have hdisjoint := l.disjoint v .s16coord hvar
      have hsize : Gfx3dVar.bytes .s16coord = 8 := rfl
      omega
  · intro ha
    obtain ⟨row, hrow, hv⟩ := exists_s16coord_row
    have hfit := gfx3dRows_fit row ((List.takeWhile_sublist _).subset hrow)
    rw [hv, Option.all_some, decide_eq_true_iff] at hfit
    refine ⟨row.toSFormat l, List.mem_map_of_mem hrow, ?_⟩
    have haddr : (row.toSFormat l).v = l.addr .s16coord := by
      rw [Gfx3dRow.toSFormat, hv]
      rfl
    have hbytes : (row.toSFormat l).byteCount = 4 := hfit.2 rfl
    rw [SFormat.Covers, haddr, hbytes]
    exact ⟨hlow, ha⟩

theorem s16coord_ontoTable {i : ℕ} (h : i < 3) : (s.ontoTable t l).s16coord l i =
    if i < 2 then s.s16coord l i else t.s16coord l i := by
  have hcell {a : ℕ} (hlow : l.addr .s16coord ≤ a) (hhigh : a < l.addr .s16coord + 8) :
      (s.ontoTable t l).mem a = if a < l.addr .s16coord + 4 then s.mem a else t.mem a := by
    have hrestore := restore_apply s.mem (rows (sfGfx3d l)) t.mem a
    simp only [covers_s16coord_iff l hlow hhigh] at hrestore
    exact hrestore
  unfold s16coord
  split_ifs with hi
  · refine congrArg (decode 2) (load_congr fun a ha ha' => ?_)
    rw [hcell (by omega) (by omega), if_pos (by omega)]
  · refine congrArg (decode 2) (load_congr fun a ha ha' => ?_)
    rw [hcell (by omega) (by omega), if_neg (by omega)]

theorem slot_loaded_iff : (∀ k j, Writable k j →
      ((s.loaded t).mtxStack k).slot j = (s.mtxStack k).slot j) ↔
    ∀ k, k = 1 ∨ k = 2 → (t.mtxStack k).slot 31 = (s.mtxStack k).slot 31 := by
  have hsize : ∀ k : Fin 4, mtxStackSize k = stackDepth k ∨
      (k = 1 ∨ k = 2) ∧ stackDepth k = 32 ∧ mtxStackSize k = 31 := by decide
  constructor
  · intro h k hk
    have hdepth : ∀ k : Fin 4, k = 1 ∨ k = 2 → 31 < stackDepth k ∧ ¬ 31 < mtxStackSize k := by
      decide
    obtain ⟨hlast, hout⟩ := hdepth k hk
    rw [← h k 31 ((writable_iff k 31).mpr hlast), slot_loaded, if_neg hout]
  · intro h k j hj
    rw [writable_iff] at hj
    rw [slot_loaded]
    split_ifs with hin
    · rfl
    · obtain heq | ⟨hk, hdepth, hlast⟩ := hsize k
      · omega
      · obtain rfl : j = 31 := by omega
        exact h k hk

theorem poly_loaded_iff : (∀ i < s.polylist.count,
      (s.loaded t).polylist.list i = s.polylist.list i) ↔
    ∀ i < s.polylist.count, ((t.polylists 0).list i).vtxFormat = (s.polylist.list i).vtxFormat := by
  refine forall₂_congr fun i hi => ?_
  rw [poly_loaded s t hi]
  constructor
  · exact congrArg Poly.vtxFormat
  · intro h
    rw [h]

theorem restores_loaded_iff :
    Restores l s (s.loaded (s.ontoTable t l)) ↔ Agrees l s t := by
  have hslot := s.slot_loaded_iff (s.ontoTable t l)
  have hpoly := s.poly_loaded_iff (s.ontoTable t l)
  have hcoord {i : ℕ} (hi : i < 3) := s.s16coord_ontoTable t l hi
  constructor
  · intro h
    refine ⟨hslot.mp h.slot, ?_, hpoly.mp h.poly⟩
    rw [← h.coord 2 (by decide)]
    exact (hcoord (show 2 < 3 by decide)).symm
  · intro h
    refine ⟨hslot.mpr h.lastSlot, s.position_loaded _, rfl, fun i hi => s.vert_loaded _ hi, rfl,
      hpoly.mpr h.vtxFormat, fun i hi => ?_⟩
    refine (hcoord hi).trans ?_
    split_ifs with h2
    · rfl
    · obtain rfl : i = 2 := by omega
      exact h.thirdCoord

/-- A save and a load restore the engine if and only if what the save leaves out was there. -/
theorem gfx3d_roundTrip_iff {f : EmufileMemory} {b : ByteFile Byte} (h : Represents f b)
    (hfail : b.fail = false) (hlim : b.pos + 2 ^ 23 < 2 ^ 31) {fuel : ℕ}
    (hfuel : gfx3dRows.length < fuel) :
    ∃ os is t', s.gfx3dSave l f = some os ∧
      t.gfx3dLoad l fuel (os.fseek f.ftell .set) = some ((true, t'), is) ∧
      (Restores l s t' ↔ Agrees l s t) := by
  obtain ⟨os, is, hsave, hload⟩ := s.gfx3dLoad_gfx3dSave t l h hfail hlim hfuel
  exact ⟨os, is, _, hsave, hload, s.restores_loaded_iff t l⟩

/-- A layout with a megabyte for each variable. -/
def spreadLayout : Gfx3dLayout where
  addr v := (v.ctorIdx + 1) * 2 ^ 20
  addr_ne v := by omega
  disjoint v w h := by
    have hne : v.ctorIdx ≠ w.ctorIdx := fun heq => h (by
      rw [← Gfx3dVar.ofNat_ctorIdx v, heq, Gfx3dVar.ofNat_ctorIdx])
    have hbytes : ∀ v : Gfx3dVar, v.bytes ≤ 2 ^ 20 := fun v => by
      cases v <;> decide
    have hv := hbytes v
    have hw := hbytes w
    omega

/-- An engine with all its memory zero apart from the third coordinate, and with `m` in the stacks
and in the format of its only polygon. -/
def sampleEngine (m : BitVec 32) : Gfx3d where
  mem a := if a = spreadLayout.addr .s16coord + 4 then BitVec.setWidth 8 m else 0
  vertlists _ := ⟨fun _ => ⟨0, 0, 0, 0, 0, 0, 0, 0⟩, 0, Nat.zero_le _⟩
  polylists _ := ⟨fun _ => ⟨0, m, 0, 0, 0, 0, 0, 0, 0⟩, 1, by decide⟩
  listTwiddle := 0
  mtxStack _ := ⟨0, fun _ => m⟩
  shiftCommand := 0
  paramCounter := 0
  cacheLightDirection := 0
  cacheHalfVector := 0

theorem gfx3d_roundTrip_sample : ∃ os is t',
    (sampleEngine 1).gfx3dSave spreadLayout (.ofUnderlying []) = some os ∧
    (sampleEngine 1).gfx3dLoad spreadLayout 82 (os.fseek 0 .set) = some ((true, t'), is) ∧
    Restores spreadLayout (sampleEngine 1) t' := by
  obtain ⟨os, is, t', hsave, hload, hiff⟩ :=
    gfx3d_roundTrip_iff (sampleEngine 1) (sampleEngine 1) spreadLayout
      (ofUnderlying_represents [] (by decide)) rfl (by decide) (show gfx3dRows.length < 82 by decide)
  exact ⟨os, is, t', hsave, hload, hiff.mpr ⟨fun _ _ => rfl, rfl, fun _ _ => rfl⟩⟩

/-- Loading into a fresh engine loses all three parts. -/
theorem gfx3d_roundTrip_loses : ∃ os is t',
    (sampleEngine 1).gfx3dSave spreadLayout (.ofUnderlying []) = some os ∧
    (sampleEngine 0).gfx3dLoad spreadLayout 82 (os.fseek 0 .set) = some ((true, t'), is) ∧
    Writable 1 31 ∧ (t'.mtxStack 1).slot 31 ≠ ((sampleEngine 1).mtxStack 1).slot 31 ∧
    t'.s16coord spreadLayout 2 ≠ (sampleEngine 1).s16coord spreadLayout 2 ∧
    (t'.polylist.list 0).vtxFormat ≠ ((sampleEngine 1).polylist.list 0).vtxFormat := by
  obtain ⟨os, is, hsave, hload⟩ := (sampleEngine 1).gfx3dLoad_gfx3dSave (sampleEngine 0) spreadLayout
    (ofUnderlying_represents [] (by decide)) rfl (by decide) (show gfx3dRows.length < 82 by decide)
  refine ⟨os, is, _, hsave, hload, (writable_iff 1 31).mpr (by decide), ?_, ?_, ?_⟩
  · rw [slot_loaded]
    intro h
    have hentry : (0 : BitVec 32) = 1 := congrFun h 0
    cases hentry
  · have hcoord := (sampleEngine 1).s16coord_ontoTable (sampleEngine 0) spreadLayout
      (show 2 < 3 by decide)
    intro h
    have hvalue : (sampleEngine 0).s16coord spreadLayout 2 = (sampleEngine 1).s16coord spreadLayout 2 :=
      hcoord.symm.trans h
    revert hvalue
    decide
  · rw [poly_loaded _ _ (show 0 < (sampleEngine 1).polylist.count from Nat.one_pos)]
    intro h
    have hformat : (0 : BitVec 32) = 1 := h
    cases hformat

end Gfx3d

end Desmume.Geometry
