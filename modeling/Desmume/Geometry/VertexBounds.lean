import Desmume.Geometry.VertexDefs

/-! The writes of the vertex commands stay in their lists exactly as long as no vertex continues a
strip whose stored vertices the lists no longer hold. -/

namespace Desmume.Geometry
open Library

/-- How many vertices complete the first primitive. -/
def PrimitiveType.size : PrimitiveType → ℕ
  | .triangles | .triangleStrip => 3
  | .quads | .quadStrip => 4

/-- No polygon has more than four new vertices, and a completed primitive leaves less than one. -/
structure GeomInv (s : GeomState) : Prop where
  verts : s.lists.vertCount ≤ 4 * s.lists.polyCount
  polys : s.lists.polyCount ≤ polylistSize
  count : s.count < s.vtxFormat.size
  strip : s.inBegin → s.continuation ≤ s.count

/-- The vertex has a place in the list, or is not stored. -/
def VertexFits (s : GeomState) : Prop :=
  s.Full ∨ s.continuation ≤ s.lists.vertCount + s.count

namespace GeomState

variable {s : GeomState} (fl : FloatOps)

theorem vertIndex_inRange (hverts : s.lists.vertCount ≤ 4 * s.lists.polyCount)
    (hpolys : s.lists.polyCount < polylistSize) (hcount : s.count < 4) :
    (0 ≤ s.vertIndex ∧ s.vertIndex < vertlistSize) ↔
      s.continuation ≤ s.lists.vertCount + s.count := by
  have hsize : vertlistSize = 4 * polylistSize := Nat.mul_comm ..
  rw [vertIndex, hsize]
  omega

theorem storeVertex_eq_none (h : ¬ (0 ≤ s.vertIndex ∧ s.vertIndex < vertlistSize)) :
    s.storeVertex fl = none := by
  rw [storeVertex, GeomLists.setVert, if_neg h]
  rfl

theorem exists_storeVertex (h : 0 ≤ s.vertIndex ∧ s.vertIndex < vertlistSize)
    (hcount : s.count < 4) : ∃ vert map, s.storeVertex fl = some { s with
      lists := { s.lists with vert := vert }, map := map, count := s.count + 1 } := by
  refine ⟨Function.update s.lists.vert s.vertIndex.toNat (s.vertex fl),
    Function.update s.map ⟨s.count, hcount⟩ s.vertIndex, ?_⟩
  rw [storeVertex, GeomLists.setVert, if_pos h]
  simp only [Option.bind_eq_bind, Option.bind_some, hcount, dif_pos]

theorem exists_submit (h : s.lists.polyCount < polylistSize) (pairs : List (Fin 4 × Fin 4))
    (type : BitVec 32) : ∃ poly, s.submit pairs type = some { s with
      lists := { s.lists with poly := poly }, polygonListCompleted := 1 } := by
  rw [submit, GeomLists.updatePoly, if_pos h]
  exact ⟨_, rfl⟩

theorem exists_finishPolygon (h : s.lists.polyCount < polylistSize) :
    ∃ poly, s.finishPolygon fl = some { s with
      lists := { s.lists with poly := poly, polyCount := s.lists.polyCount + 1 } } := by
  rw [finishPolygon, GeomLists.updatePoly, if_pos h]
  exact ⟨_, rfl⟩

/-- What completing a primitive has to do to keep the lists bounded. -/
structure Closes (close : GeomState → GeomState) (type : PrimitiveType) : Prop where
  verts : ∀ t, (close t).lists.vertCount ≤ t.lists.vertCount + 4
  polys : ∀ t, (close t).lists.polyCount = t.lists.polyCount
  format : ∀ t, (close t).vtxFormat = t.vtxFormat
  count : ∀ t, (close t).count < type.size
  strip : ∀ t, t.vtxFormat = type → (close t).continuation ≤ (close t).count

theorem continuation_le_two (s : GeomState) : s.continuation ≤ 2 := by
  rw [continuation]
  split_ifs <;> omega

theorem continuation_of_not_strip (htriangle : s.vtxFormat ≠ .triangleStrip)
    (hquad : s.vtxFormat ≠ .quadStrip) : s.continuation = 0 :=
  if_neg fun h => h.1.elim htriangle hquad

theorem closes_triangles : Closes closeTriangles .triangles := by
  refine ⟨fun _ => Nat.le_succ _, fun _ => rfl, fun _ => rfl, fun _ => (by decide : 0 < 3),
    fun t ht => (continuation_of_not_strip ?_ ?_).le⟩
  all_goals
    change t.vtxFormat ≠ _
    rw [ht]
    decide

theorem closes_quads : Closes closeQuads .quads := by
  refine ⟨fun _ => Nat.le_refl _, fun _ => rfl, fun _ => rfl, fun _ => (by decide : 0 < 4),
    fun t ht => (continuation_of_not_strip ?_ ?_).le⟩
  all_goals
    change t.vtxFormat ≠ _
    rw [ht]
    decide

theorem closes_triangleStrip : Closes closeTriangleStrip .triangleStrip := by
  refine ⟨fun t => ?_, fun _ => rfl, fun _ => rfl, fun _ => (by decide : 2 < 3),
    fun _ _ => continuation_le_two _⟩
  change t.lists.vertCount + (if t.first then 3 else 1) ≤ t.lists.vertCount + 4
  split_ifs <;> omega

theorem closes_quadStrip : Closes closeQuadStrip .quadStrip := by
  refine ⟨fun t => ?_, fun _ => rfl, fun _ => rfl, fun _ => (by decide : 2 < 4),
    fun _ _ => continuation_le_two _⟩
  change t.lists.vertCount + (if t.first then 4 else 2) ≤ t.lists.vertCount + 4
  split_ifs <;> omega

/-- A primitive that gets complete adds a polygon and at most four vertices. -/
theorem exists_addPolygon (hpolys : s.lists.polyCount < polylistSize)
    (hverts : s.lists.vertCount ≤ 4 * s.lists.polyCount) {close : GeomState → GeomState}
    (hclose : Closes close s.vtxFormat) (pairs : List (Fin 4 × Fin 4)) (type : BitVec 32) :
    ∃ s', ((s.submit pairs type).bind fun t => (close t).finishPolygon fl) = some s' ∧
      GeomInv s' := by
  obtain ⟨poly, hsubmit⟩ := exists_submit hpolys pairs type
  rw [hsubmit, Option.bind_some]
  generalize ht : ({ s with lists := { s.lists with poly := poly }, polygonListCompleted := 1 } :
    GeomState) = t
  have hpoly : (close t).lists.polyCount = s.lists.polyCount := by
    rw [hclose.polys, ← ht]
  have hvert : (close t).lists.vertCount ≤ s.lists.vertCount + 4 := by
    have h := hclose.verts t
    rwa [← ht] at h ⊢
  have hfmt : (close t).vtxFormat = s.vtxFormat := by
    rw [hclose.format, ← ht]
  obtain ⟨poly', hfinish⟩ := exists_finishPolygon (s := close t) fl (by rwa [hpoly])
  refine ⟨_, hfinish, ?_, ?_, ?_, fun _ => hclose.strip t (by rw [← ht])⟩
  · change (close t).lists.vertCount ≤ 4 * ((close t).lists.polyCount + 1)
    omega
  · change (close t).lists.polyCount + 1 ≤ polylistSize
    omega
  · change (close t).count < (close t).vtxFormat.size
    rw [hfmt]
    exact hclose.count t

theorem exists_completePolygon (hpolys : s.lists.polyCount < polylistSize)
    (hverts : s.lists.vertCount ≤ 4 * s.lists.polyCount) (hcount : s.count ≤ s.vtxFormat.size)
    (hstrip : s.inBegin → s.continuation ≤ s.count) :
    ∃ s', s.completePolygon fl = some s' ∧ GeomInv s' := by
  generalize ht : ({ s with polygonListCompleted := 2 } : GeomState) = t
  have hlists : t.lists = s.lists := by rw [← ht]
  have hfmt : t.vtxFormat = s.vtxFormat := by rw [← ht]
  have htcount : t.count = s.count := by rw [← ht]
  have htstrip : t.inBegin → t.continuation ≤ t.count := by rw [← ht]; exact hstrip
  rw [← hlists] at hpolys hverts
  rw [← hfmt, ← htcount] at hcount
  -- a vertex that completes nothing is only counted
  have hwait (h : t.count ≠ t.vtxFormat.size) : GeomInv t :=
    ⟨hverts, hpolys.le, lt_of_le_of_ne hcount h, htstrip⟩
  rw [completePolygon, ht]
  have hadd {close : GeomState → GeomState} (hclose : Closes close t.vtxFormat) :=
    exists_addPolygon fl hpolys hverts hclose
  cases hprimitive : t.vtxFormat with
  | triangles =>
    rw [hprimitive] at hwait hadd
    simp only
    split_ifs with hlast
    · exact ⟨t, rfl, hwait hlast⟩
    · exact hadd closes_triangles _ _
  | quads =>
    rw [hprimitive] at hwait hadd
    simp only
    split_ifs with hlast
    · exact ⟨t, rfl, hwait hlast⟩
    · exact hadd closes_quads _ _
  | triangleStrip =>
    rw [hprimitive] at hwait hadd
    simp only
    split_ifs with hlast
    · exact ⟨t, rfl, hwait hlast⟩
    · exact hadd closes_triangleStrip _ _
  | quadStrip =>
    rw [hprimitive] at hwait hadd
    simp only
    split_ifs with hlast
    · exact ⟨t, rfl, hwait hlast⟩
    · exact hadd closes_quadStrip _ _

theorem exists_transformTexcoord (s : GeomState) :
    ∃ a, s.transformTexcoord = { s with attr := a } := by
  rw [transformTexcoord]
  split_ifs
  · exact ⟨_, rfl⟩
  · exact ⟨s.attr, rfl⟩

theorem setVertex_full (h : s.Full) :
    ∃ a, s.setVertex fl = some { s with attr := a, polygonListCompleted := 0 } := by
  obtain ⟨a, ha⟩ := exists_transformTexcoord s
  refine ⟨a, ?_⟩
  rw [setVertex, ha]
  exact if_pos h

theorem setVertex_spec (h : GeomInv s) : StepSpec GeomInv (VertexFits s) (s.setVertex fl) := by
  by_cases hfull : s.Full
  · obtain ⟨a, ha⟩ := setVertex_full fl hfull
    exact .of_some ha (Or.inl hfull) ⟨h.verts, h.polys, h.count, h.strip⟩
  · obtain ⟨a, ha⟩ := exists_transformTexcoord s
    generalize ht : ({ s with attr := a, polygonListCompleted := 0 } : GeomState) = t
    have hset : s.setVertex fl = (t.storeVertex fl).bind fun t => t.completePolygon fl := by
      rw [setVertex, ha, ← ht]
      exact if_neg hfull
    have hlists : t.lists = s.lists := by rw [← ht]
    have hcount : t.count = s.count := by rw [← ht]
    have hformat : t.vtxFormat = s.vtxFormat := by rw [← ht]
    have hcont : t.continuation = s.continuation := by rw [← ht]; rfl
    have hpolys : t.lists.polyCount < polylistSize := by
      rw [hlists]
      exact not_le.mp fun hle => hfull (Or.inr hle)
    have hverts : t.lists.vertCount ≤ 4 * t.lists.polyCount := by
      rw [hlists]
      exact h.verts
    have hsize : t.count < t.vtxFormat.size := by
      rw [hcount, hformat]
      exact h.count
    have hstrip : t.inBegin → t.continuation ≤ t.count + 1 := by
      rw [← ht]
      exact fun hbegin => (h.strip hbegin).trans (Nat.le_succ _)
    have hfour : t.count < 4 := by
      refine hsize.trans_le ?_
      cases t.vtxFormat <;> decide
    have hrange := vertIndex_inRange hverts hpolys hfour
    rw [hcont, hlists, hcount] at hrange
    rw [hset]
    by_cases hfits : s.continuation ≤ s.lists.vertCount + s.count
    · obtain ⟨vert, map, hstore⟩ := exists_storeVertex fl (hrange.mpr hfits) hfour
      obtain ⟨s', hs', hinv⟩ := exists_completePolygon (s := { t with
        lists := { t.lists with vert := vert }, map := map, count := t.count + 1 }) fl
        hpolys hverts hsize hstrip
      rw [hstore, Option.bind_some]
      exact .of_some hs' (Or.inr hfits) hinv
    · rw [storeVertex_eq_none fl fun hin => hfits (hrange.mp hin)]
      exact .of_none rfl (not_or.mpr ⟨hfull, hfits⟩)

end GeomState

section Step

variable {s s' : GeomState} {op : GeomOp} (fl : FloatOps)

/-- Every vertex command sets the coordinates and runs `SetVertex`. -/
theorem geomStep_setsVertex (h : op.SetsVertex s) :
    ∃ c i, geomStep fl s op = { s with s16coord := c, coordind := i }.setVertex fl := by
  cases op with
  | vtx16 v =>
    refine ⟨![s.s16coord 0, s.s16coord 1, v.setWidth 16], 0, ?_⟩
    rw [geomStep, glVertex16b, if_neg h]
  | vtx10 v => exact ⟨_, s.coordind, rfl⟩
  | vtx3 one two v => exact ⟨_, s.coordind, rfl⟩
  | vtxDiff v => exact ⟨_, s.coordind, rfl⟩
  | beginVtxs | endVtxs | attr | swapBuffers | vblank => exact absurd h id

theorem geomStep_plain (h : ¬ op.SetsVertex s) :
    ∃ s', geomStep fl s op = some s' ∧ (GeomInv s → GeomInv s') := by
  cases op with
  | beginVtxs v =>
    refine ⟨glBegin v s, rfl, fun hi => ⟨hi.verts, hi.polys, ?_, fun _ => ?_⟩⟩
    · change 0 < (PrimitiveType.ofBits v).size
      cases PrimitiveType.ofBits v <;> decide
    · -- the first primitive of the list continues nothing
      exact (if_neg fun h => Bool.noConfusion h.2).le
  | endVtxs =>
    refine ⟨glEnd s, rfl, fun hi => ⟨hi.verts, hi.polys, ?_, fun h => Bool.noConfusion h⟩⟩
    exact Nat.zero_lt_of_lt hi.count
  | vtx16 v =>
    rw [GeomOp.SetsVertex, not_not] at h
    exact ⟨_, if_pos h, fun hi => ⟨hi.verts, hi.polys, hi.count, hi.strip⟩⟩
  | vtx10 | vtx3 | vtxDiff => exact absurd trivial h
  | attr a => exact ⟨_, rfl, fun hi => ⟨hi.verts, hi.polys, hi.count, hi.strip⟩⟩
  | swapBuffers v => exact ⟨_, rfl, fun hi => ⟨hi.verts, hi.polys, hi.count, hi.strip⟩⟩
  | vblank =>
    refine ⟨gfx3dVBlankSignal s, rfl, fun hi => ?_⟩
    rw [gfx3dVBlankSignal]
    split_ifs
    · exact ⟨Nat.zero_le _, Nat.zero_le _, hi.count, hi.strip⟩
    · exact hi

/-- A vertex command finds a place for its vertex, or the lists are full. -/
def OpFits (s : GeomState) (op : GeomOp) : Prop := op.SetsVertex s → VertexFits s

theorem geomStep_spec (h : GeomInv s) : StepSpec GeomInv (OpFits s op) (geomStep fl s op) := by
  by_cases hop : op.SetsVertex s
  · obtain ⟨c, i, hstep⟩ := geomStep_setsVertex fl hop
    obtain ⟨hsome, hinv⟩ := GeomState.setVertex_spec fl
      (s := { s with s16coord := c, coordind := i }) ⟨h.verts, h.polys, h.count, h.strip⟩
    rw [hstep]
    exact ⟨hsome.trans ⟨fun hfits _ => hfits, fun hfits => hfits hop⟩, hinv⟩
  · obtain ⟨t, ht, hinv⟩ := geomStep_plain fl hop
    exact .of_some ht (absurd · hop) (hinv h)

theorem geomStep_full (hfull : s.Full) (hop : op.SetsVertex s) :
    ∃ s', geomStep fl s op = some s' ∧ s'.lists = s.lists := by
  obtain ⟨c, i, hstep⟩ := geomStep_setsVertex fl hop
  obtain ⟨a, ha⟩ :=
    GeomState.setVertex_full (s := { s with s16coord := c, coordind := i }) fl hfull
  exact ⟨_, hstep.trans ha, rfl⟩

end Step

theorem gfx3dReset_inv (a : VertexAttr) (l m : GeomLists) : GeomInv (gfx3dReset a l m) :=
  ⟨Nat.zero_le _, Nat.zero_le _, (by decide : 0 < 3), fun h => Bool.noConfusion h⟩

/-- From the reset a run of commands writes inside its lists exactly if every vertex that is stored
fits, and vertices leave full lists alone. -/
theorem geomRun_inBounds_iff (fl : FloatOps) (a : VertexAttr) (l m : GeomLists)
    (ops : List GeomOp) :
    ((∃ s, runM (geomStep fl) (gfx3dReset a l m) ops = some s) ↔
      AtEachM (geomStep fl) OpFits (gfx3dReset a l m) ops) ∧
    ∀ (s : GeomState) (op : GeomOp), s.Full → op.SetsVertex s →
      ∃ s', geomStep fl s op = some s' ∧ s'.lists = s.lists :=
  ⟨runM_isSome_iff (fun _ _ h => geomStep_spec fl h) (gfx3dReset_inv a l m),
    fun _ _ => geomStep_full fl⟩

/-- The vertices of a list of vertices always fit. -/
theorem atEachM_opFits_of_inBegin (fl : FloatOps) (a : VertexAttr) (l m : GeomLists)
    {ops : List GeomOp} (h : AtEachM (geomStep fl) (fun s op => op.SetsVertex s → s.inBegin)
      (gfx3dReset a l m) ops) : AtEachM (geomStep fl) OpFits (gfx3dReset a l m) ops := by
  refine h.imp_of_invariant (fun s op hs hbegin hop => ?_)
    (fun _ _ s' hs => (geomStep_spec fl hs).keeps s') (gfx3dReset_inv a l m)
  exact Or.inr ((hs.strip (hbegin hop)).trans (Nat.le_add_left ..))

/-- A strip of three vertices, a swap, and a vertex after the end of the list. -/
def strayVertex : List GeomOp :=
  [.beginVtxs 2, .vtx10 0, .vtx10 0, .vtx10 0, .endVtxs, .swapBuffers 0, .vblank, .vtx10 0]

/-- `glEnd` leaves the strip continued, and after the swap its last vertices are gone: the vertex
is written at index -2. -/
theorem strayVertex_outOfBounds :
    ¬ ∀ (fl : FloatOps) (a : VertexAttr) (l m : GeomLists) (ops : List GeomOp),
      ∃ s, runM (geomStep fl) (gfx3dReset a l m) ops = some s := by
  intro hall
  let fl : FloatOps := ⟨id, id, fun b => b.setWidth 32, fun a b => a == b⟩
  let a : VertexAttr := ⟨fun _ _ => 0, 0, 0, 0, 0, 0, fun _ => 0, 0, 0, 0, 0⟩
  let l : GeomLists := ⟨fun _ => ⟨0, 0, 0, 0, 0, 0, fun _ => 0, fun _ => 0⟩, 0,
    fun _ => ⟨0, 0, fun _ => 0, 0, 0, 0, 0, 0, 0⟩, 0⟩
  obtain ⟨s, hs⟩ := hall fl a l l strayVertex
  have hnone : runM (geomStep fl) (gfx3dReset a l l) strayVertex = none :=
    Option.isNone_iff_eq_none.mp (by decide +kernel)
  rw [hnone] at hs
  exact nomatch hs

end Desmume.Geometry
