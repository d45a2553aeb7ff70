import Desmume.Geometry.VertexAssembly
import Desmume.Library.Binary32
import Desmume.Library.SortedRange
import Mathlib.Data.Prod.Lex

/-! The index list that `gfx3d_doFlush` hands to the renderer: first the opaque polygons, then the
translucent ones, sorted by the heights of their vertices on the screen. -/

namespace Desmume.Geometry
open Library

/-! Members of `POLY`. -/

namespace Poly

def getAttributeAlpha (p : Poly) : BitVec 8 := ((p.polyAttr &&& 0x1F0000#32) >>> 16).setWidth 8

def getTexParamTexFormat (p : Poly) : BitVec 8 :=
  ((p.texParam &&& 0x1C000000#32) >>> 26).setWidth 8

def isWireframe (p : Poly) : Bool := p.getAttributeAlpha == 0

def isOpaque (p : Poly) : Bool := p.getAttributeAlpha == 31

/-- The formats 1 and 6 are `TEXMODE_A3I5` and `TEXMODE_A5I3`. -/
def isTranslucent (p : Poly) : Bool :=
  if !p.isWireframe && !p.isOpaque then true
  else p.getTexParamTexFormat == 1 || p.getTexParamTexFormat == 6

end Poly

/-- Arithmetic on the bits of floats. -/
structure FloatArith where
  add : BitVec 32 → BitVec 32 → BitVec 32
  sub : BitVec 32 → BitVec 32 → BitVec 32
  mul : BitVec 32 → BitVec 32 → BitVec 32
  div : BitVec 32 → BitVec 32 → BitVec 32

/-- `1.0f-(verty+vertw)/(2*vertw)`, with `0.00000001f` in place of a `w` of zero. -/
def screenY (fa : FloatArith) (v : Vert) : BitVec 32 :=
  let vertw := if !Binary32.eq v.w 0 then v.w else 0x322BCC77#32
  fa.sub 0x3F800000#32 (fa.div (fa.add v.y vertw) (fa.mul 0x40000000#32 vertw))

/-- The least and the greatest height of the vertices of a polygon. -/
def findY (fa : FloatArith) (vert : ℕ → Vert) (p : Poly) : Poly :=
  let verty j := screenY fa (vert (p.vertIndexes j).toNat)
  ((corners p.type.toNat).drop 1).foldl
    (fun q j => { q with
      miny := Binary32.min q.miny (verty j)
      maxy := Binary32.max q.maxy (verty j) })
    { p with miny := verty 0, maxy := verty 0 }

def findAllY (fa : FloatArith) (l : GeomLists) : GeomLists :=
  { l with poly := fun k => if k < l.polyCount then findY fa l.vert (l.poly k) else l.poly k }

section Compare

variable (poly : ℕ → Poly) (num1 num2 : ℕ)

def gfx3dYsortCompareOrig : Bool :=
  if !Binary32.eq (poly num1).maxy (poly num2).maxy then
    Binary32.lt (poly num1).maxy (poly num2).maxy
  else if !Binary32.eq (poly num1).miny (poly num2).miny then
    Binary32.lt (poly num1).miny (poly num2).miny
  else num1 < num2

def gfx3dYsortCompareKalven : Bool :=
  if Binary32.lt (poly num1).maxy (poly num2).maxy then true
  else if Binary32.lt (poly num2).maxy (poly num1).maxy then false
  else if Binary32.lt (poly num1).miny (poly num2).miny then true
  else if Binary32.lt (poly num2).miny (poly num1).miny then false
  else num1 < num2

/-- `gfx3d_ysort_compare`; its assertion is that both comparisons agree. -/
def gfx3dYsortCompare : Bool := gfx3dYsortCompareOrig poly num1 num2

end Compare

/-- What `gfx3d_doFlush` works on: the two pairs of lists, the lists and the index list that the
renderer gets, and the sort mode with the flush commands it comes from. -/
structure FlushState where
  lists : GeomLists
  otherLists : GeomLists
  rendered : GeomLists
  indexlist : ℕ → ℕ
  sortmode : Bool
  activeFlushCommand : BitVec 32
  pendingFlushCommand : BitVec 32

/-- The index list for a polygon list of which the heights are known. -/
def sortPolygons (l : GeomLists) (sortmode : Bool) (indexlist : ℕ → ℕ) : ℕ → ℕ :=
  let polycount := l.polyCount
  let (opaqueCount, indexlist) := collect (fun i => !(l.poly i).isTranslucent) polycount (0, indexlist)
  let (_, indexlist) := collect (fun i => (l.poly i).isTranslucent) polycount (opaqueCount, indexlist)
  let indexlist := stableSort (gfx3dYsortCompare l.poly) 0 opaqueCount indexlist
  if !sortmode then stableSort (gfx3dYsortCompare l.poly) opaqueCount polycount indexlist
  else indexlist

/-- `gfx3d_doFlush`, as far as the lists go. -/
def gfx3dDoFlush (fa : FloatArith) (s : FlushState) : FlushState :=
  let sortmode := s.activeFlushCommand.getLsbD 0
  let lists := findAllY fa s.lists
  { lists := s.otherLists.clear
    otherLists := lists
    rendered := lists
    indexlist := sortPolygons lists sortmode s.indexlist
    sortmode := sortmode
    activeFlushCommand := s.pendingFlushCommand
    pendingFlushCommand := s.pendingFlushCommand }

/-- The keys that the polygons are sorted by are numbers. -/
def KeysFinite (l : GeomLists) : Prop :=
  ∀ k < l.polyCount, Binary32.IsFinite (l.poly k).maxy ∧ Binary32.IsFinite (l.poly k).miny

/-- The sort key of a polygon: the lowest point of it, the highest one, and when it was
submitted. -/
def sortKey (poly : ℕ → Poly) (k : ℕ) : ℤ ×ₗ ℤ ×ₗ ℕ :=
  toLex (Binary32.rank (poly k).maxy, toLex (Binary32.rank (poly k).miny, k))

section Sorting

variable {l : GeomLists} {i j : ℕ}

theorem sortKey_injective (poly : ℕ → Poly) : Function.Injective (sortKey poly) := by
  intro i j h
  exact (Prod.ext_iff.mp (toLex.injective (Prod.ext_iff.mp (toLex.injective h)).2)).2

theorem sortKey_lt (poly : ℕ → Poly) : sortKey poly i < sortKey poly j ↔
    Binary32.rank (poly i).maxy < Binary32.rank (poly j).maxy ∨
      Binary32.rank (poly i).maxy = Binary32.rank (poly j).maxy ∧
        (Binary32.rank (poly i).miny < Binary32.rank (poly j).miny ∨
          Binary32.rank (poly i).miny = Binary32.rank (poly j).miny ∧ i < j) :=
  Prod.Lex.toLex_lt_toLex.trans (or_congr_right (and_congr_right fun _ =>
    Prod.Lex.toLex_lt_toLex))

/-- The comparison is that of the keys. -/
theorem gfx3dYsortCompare_eq (h : KeysFinite l) (hi : i < l.polyCount) (hj : j < l.polyCount) :
    gfx3dYsortCompare l.poly i j = decide (sortKey l.poly i < sortKey l.poly j) := by
  obtain ⟨himax, himin⟩ := h i hi
  obtain ⟨hjmax, hjmin⟩ := h j hj
  rw [gfx3dYsortCompare, gfx3dYsortCompareOrig, Binary32.eq_of_isFinite himax hjmax,
    Binary32.eq_of_isFinite himin hjmin, Binary32.lt_of_isFinite himax hjmax,
    Binary32.lt_of_isFinite himin hjmin, Bool.eq_iff_iff, decide_eq_true_iff, sortKey_lt]
  by_cases hmax : Binary32.rank (l.poly i).maxy = Binary32.rank (l.poly j).maxy
  · by_cases hmin : Binary32.rank (l.poly i).miny = Binary32.rank (l.poly j).miny
    · simp [hmax, hmin]
    · simp [hmax, hmin]
  · simp [hmax]

/-- The assertion of `gfx3d_ysort_compare` holds. -/
theorem gfx3dYsortCompare_agree (h : KeysFinite l) (hi : i < l.polyCount) (hj : j < l.polyCount) :
    gfx3dYsortCompareKalven l.poly i j = gfx3dYsortCompareOrig l.poly i j := by
  obtain ⟨himax, himin⟩ := h i hi
  obtain ⟨hjmax, hjmin⟩ := h j hj
  rw [gfx3dYsortCompareKalven, gfx3dYsortCompareOrig, Binary32.eq_of_isFinite himax hjmax,
    Binary32.eq_of_isFinite himin hjmin, Binary32.lt_of_isFinite himax hjmax,
    Binary32.lt_of_isFinite himin hjmin, Binary32.lt_of_isFinite hjmax himax,
    Binary32.lt_of_isFinite hjmin himin]
  rcases lt_trichotomy (Binary32.rank (l.poly i).maxy) (Binary32.rank (l.poly j).maxy)
    with hmax | hmax | hmax
  · simp [hmax, hmax.ne]
  · rcases lt_trichotomy (Binary32.rank (l.poly i).miny) (Binary32.rank (l.poly j).miny)
      with hmin | hmin | hmin
    · simp [hmax, hmin, hmin.ne]
    · simp [hmax, hmin]
    · simp [hmax, hmin, hmin.ne', hmin.not_gt]
  · simp [hmax, hmax.ne', hmax.not_gt]

/-- The polygons of one kind, in the order they were submitted. -/
def ofKind (l : GeomLists) (translucent : Bool) : List ℕ :=
  (List.range l.polyCount).filter fun i => (l.poly i).isTranslucent == translucent

theorem mem_ofKind {translucent : Bool} (h : i ∈ ofKind l translucent) :
    i < l.polyCount ∧ (l.poly i).isTranslucent = translucent := by
  obtain ⟨hi, hkind⟩ := List.mem_filter.mp h
  exact ⟨List.mem_range.mp hi, beq_iff_eq.mp hkind⟩

theorem filter_not_isTranslucent (l : GeomLists) :
    (List.range l.polyCount).filter (fun i => !(l.poly i).isTranslucent) = ofKind l false :=
  List.filter_congr fun i _ => by cases (l.poly i).isTranslucent <;> rfl

theorem filter_isTranslucent (l : GeomLists) :
    (List.range l.polyCount).filter (fun i => (l.poly i).isTranslucent) = ofKind l true :=
  List.filter_congr fun i _ => by cases (l.poly i).isTranslucent <;> rfl

theorem ofKind_perm (l : GeomLists) :
    (ofKind l false ++ ofKind l true).Perm (List.range l.polyCount) := by
  rw [← filter_not_isTranslucent, ← filter_isTranslucent]
  exact List.perm_append_comm.trans (List.filter_append_perm _ _)

/-- The polygons of one kind, sorted. -/
def sortedKind (l : GeomLists) (translucent : Bool) : List ℕ :=
  (ofKind l translucent).mergeSort fun i j => !gfx3dYsortCompare l.poly j i

theorem pairwise_sortedKind (h : KeysFinite l) (translucent : Bool) :
    (sortedKind l translucent).Pairwise fun i j => sortKey l.poly i < sortKey l.poly j :=
  pairwise_mergeSort_key (sortKey_injective l.poly) (List.nodup_range.filter _)
    fun _ hi _ hj => gfx3dYsortCompare_eq h (mem_ofKind hi).1 (mem_ofKind hj).1

/-- What the passes and the sorts leave in the list. -/
theorem load_sortPolygons (l : GeomLists) (sortmode : Bool) (m : ℕ → ℕ) :
    load (sortPolygons l sortmode m) 0 l.polyCount =
      sortedKind l false ++ if sortmode then ofKind l true else sortedKind l true := by
  have hlength : (ofKind l false).length + (ofKind l true).length = l.polyCount := by
    rw [← List.length_append, (ofKind_perm l).length_eq, List.length_range]
  have hpasses : load (store (store m 0 (ofKind l false)) (ofKind l false).length (ofKind l true))
      0 l.polyCount = ofKind l false ++ ofKind l true := by
    have hstore := store_append m 0 (ofKind l false) (ofKind l true)
    rw [Nat.zero_add] at hstore
    rw [← hstore, ← hlength, ← List.length_append]
    exact load_store ..
  have hfront := load_stableSort_front (gfx3dYsortCompare l.poly) hlength hpasses
  rw [sortPolygons]
  simp only [collect_eq, filter_not_isTranslucent, filter_isTranslucent, Nat.zero_add]
  cases sortmode with
  | true => exact hfront
  | false =>
    have hsorted : (sortedKind l false).length = (ofKind l false).length := List.length_mergeSort _
    have hback := load_stableSort_back (gfx3dYsortCompare l.poly) (hsorted.symm ▸ hlength) hfront
    rwa [List.length_mergeSort] at hback

/-- `i` is drawn before `j`: opaque polygons come first, and polygons of one kind by their keys, but
translucent ones as they were submitted when they are sorted manually. -/
def DrawnBefore (l : GeomLists) (manual : Bool) (i j : ℕ) : Prop :=
  (l.poly i).isTranslucent = false ∧ (l.poly j).isTranslucent = true ∨
    (l.poly i).isTranslucent = (l.poly j).isTranslucent ∧
      if (l.poly i).isTranslucent ∧ manual then i < j else sortKey l.poly i < sortKey l.poly j

theorem pairwise_drawnBefore (h : KeysFinite l) (sortmode : Bool) (m : ℕ → ℕ) :
    (load (sortPolygons l sortmode m) 0 l.polyCount).Pairwise (DrawnBefore l sortmode) := by
  have hsolid {i : ℕ} (hi : i ∈ sortedKind l false) : (l.poly i).isTranslucent = false :=
    (mem_ofKind (List.mem_mergeSort.mp hi)).2
  have htranslucent {i : ℕ} (hi : i ∈ if sortmode then ofKind l true else sortedKind l true) :
      (l.poly i).isTranslucent = true := by
    split_ifs at hi
    · exact (mem_ofKind hi).2
    · exact (mem_ofKind (List.mem_mergeSort.mp hi)).2
  rw [load_sortPolygons]
  refine List.pairwise_append.mpr ⟨?_, ?_, fun i hi j hj => Or.inl ⟨hsolid hi, htranslucent hj⟩⟩
  · refine (pairwise_sortedKind h false).imp_of_mem fun hi hj hkey => Or.inr ?_
    rw [hsolid hi, hsolid hj, if_neg fun hand => Bool.false_ne_true hand.1]
    exact ⟨rfl, hkey⟩
  · cases sortmode with
    | true =>
      have hsubmitted : (ofKind l true).Pairwise (· < ·) := List.pairwise_lt_range.filter _
      refine hsubmitted.imp_of_mem fun hi hj hlt => Or.inr ?_
      rw [(mem_ofKind hi).2, (mem_ofKind hj).2, if_pos ⟨rfl, rfl⟩]
      exact ⟨rfl, hlt⟩
    | false =>
      refine (pairwise_sortedKind h true).imp_of_mem fun hi hj hkey => Or.inr ?_
      rw [(mem_ofKind (List.mem_mergeSort.mp hi)).2, (mem_ofKind (List.mem_mergeSort.mp hj)).2,
        if_neg fun hand => Bool.false_ne_true hand.2]
      exact ⟨rfl, hkey⟩

/-- After a flush the index list has every polygon of the frame once, in the order they are to be
drawn. -/
theorem gfx3dDoFlush_sorts (fa : FloatArith) (s : FlushState)
    (h : KeysFinite (findAllY fa s.lists)) :
    let s' := gfx3dDoFlush fa s
    s'.rendered.polyCount = s.lists.polyCount ∧
      (load s'.indexlist 0 s.lists.polyCount).Perm (List.range s.lists.polyCount) ∧
      (load s'.indexlist 0 s.lists.polyCount).Pairwise (DrawnBefore s'.rendered s'.sortmode) := by
  refine ⟨rfl, ?_, pairwise_drawnBefore h _ _⟩
  have hload := load_sortPolygons (findAllY fa s.lists) (s.activeFlushCommand.getLsbD 0) s.indexlist
  refine (List.Perm.of_eq hload).trans (List.Perm.trans ?_ (ofKind_perm (findAllY fa s.lists)))
  refine (List.mergeSort_perm _ _).append ?_
  split_ifs
  · exact List.Perm.refl _
  · exact List.mergeSort_perm _ _

/-- Arithmetic that is only good for the example. -/
def firstArith : FloatArith := ⟨fun x _ => x, fun x _ => x, fun x _ => x, fun x _ => x⟩

def oneTriangle : FlushState :=
  { lists := ⟨fun _ => ⟨0, 0, 0, 0, 0, 0, fun _ => 0, fun _ => 0⟩, 3,
      fun _ => ⟨3, 0, ![0, 1, 2, 0], 0, 0, 0, 0, 0, 0⟩, 1⟩
    otherLists := ⟨fun _ => ⟨0, 0, 0, 0, 0, 0, fun _ => 0, fun _ => 0⟩, 0,
      fun _ => ⟨3, 0, ![0, 1, 2, 0], 0, 0, 0, 0, 0, 0⟩, 0⟩
    rendered := ⟨fun _ => ⟨0, 0, 0, 0, 0, 0, fun _ => 0, fun _ => 0⟩, 0,
      fun _ => ⟨3, 0, ![0, 1, 2, 0], 0, 0, 0, 0, 0, 0⟩, 0⟩
    indexlist := fun _ => 0
    sortmode := false
    activeFlushCommand := 0
    pendingFlushCommand := 0 }

theorem gfx3dDoFlush_sorts_triangle :
    let s' := gfx3dDoFlush firstArith oneTriangle
    s'.rendered.polyCount = oneTriangle.lists.polyCount ∧
      (load s'.indexlist 0 oneTriangle.lists.polyCount).Perm
        (List.range oneTriangle.lists.polyCount) ∧
      (load s'.indexlist 0 oneTriangle.lists.polyCount).Pairwise
        (DrawnBefore s'.rendered s'.sortmode) :=
  gfx3dDoFlush_sorts firstArith oneTriangle (by
    intro k hk
    obtain rfl : k = 0 := Nat.lt_one_iff.mp hk
    decide)

end Sorting

end Desmume.Geometry
