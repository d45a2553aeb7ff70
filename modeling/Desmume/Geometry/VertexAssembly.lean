import Desmume.Geometry.VertexBounds
import Desmume.Library.Assembly

/-! What the vertex commands build: on the level of indices they gather the vertices of each
primitive by its rule, and every vertex is stored behind the ones before it. -/

namespace Desmume.Geometry
open Library

def PrimitiveType.rule : PrimitiveType → GroupRule
  | .triangles => .separate 3
  | .quads => .separate 4
  | .triangleStrip => .triangleStrip
  | .quadStrip => .quadStrip

theorem PrimitiveType.rule_size (p : PrimitiveType) : p.rule.size = p.size := by
  cases p <;> rfl

/-- The first `n` of the four corners. -/
def corners (n : ℕ) : List (Fin 4) := (List.finRange 4).take n

theorem corners_succ {n : ℕ} (h : n < 4) : corners (n + 1) = corners n ++ [⟨n, h⟩] := by
  match n, h with
  | 0, _ | 1, _ | 2, _ | 3, _ => rfl

theorem lt_of_mem_corners {n : ℕ} {i : Fin 4} (h : i ∈ corners n) : i.val < n := by
  obtain ⟨j, hj, rfl⟩ := List.mem_take_iff_getElem.mp h
  rw [List.getElem_finRange]
  exact (lt_min_iff.mp hj).1

namespace GeomLists

/-- `vertIndexes`, as many as the polygon has corners. -/
def indexes (l : GeomLists) (k : ℕ) : List (BitVec 16) :=
  (corners (l.poly k).type.toNat).map (l.poly k).vertIndexes

/-- The vertices that a stored polygon denotes. -/
def polygon (l : GeomLists) (k : ℕ) : List Vert := (l.indexes k).map fun i => l.vert i.toNat

def polygons (l : GeomLists) : List (List Vert) := (List.range l.polyCount).map l.polygon

end GeomLists

/-- The polygons from `start` on are the groups of an assembly of vertex indices, cut to sixteen
bits, and `map` has its pending ones. -/
structure Gathers (start : ℕ) (s : GeomState) (a : Assembly ℤ) : Prop where
  pending : a.pending = (corners s.count).map s.map
  odd : s.vtxFormat = .triangleStrip → a.odd = s.triStripToggle
  polyCount : s.lists.polyCount = start + a.groups.length
  groups : ∀ k (h : k < a.groups.length),
    s.lists.indexes (start + k) = a.groups[k].map (BitVec.ofInt 16)

/-- As many vertices are pending as are counted. -/
theorem Gathers.length_pending {start : ℕ} {s : GeomState} {a : Assembly ℤ}
    (h : Gathers start s a) (hcount : s.count ≤ 4) : a.pending.length = s.count := by
  rw [h.pending, List.length_map, corners]
  exact List.length_take_of_le hcount

/-- The vertices of a gathered polygon, where the sixteen bits of its indices lead. -/
theorem Gathers.polygon {start : ℕ} {s : GeomState} {a : Assembly ℤ} (h : Gathers start s a)
    {k : ℕ} (hk : k < a.groups.length) : s.lists.polygon (start + k) =
      a.groups[k].map fun i => s.lists.vert (BitVec.ofInt 16 i).toNat := by
  rw [GeomLists.polygon, h.groups k hk, List.map_map]
  rfl

theorem GeomInv.count_lt_four {s : GeomState} (h : GeomInv s) : s.count < 4 := by
  refine h.count.trans_le ?_
  cases s.vtxFormat <;> decide

namespace GeomState

variable {s : GeomState} (fl : FloatOps)

/-- The state when `vert` is stored. -/
def stored (s : GeomState) (x : Vert) (h : s.count < 4) : GeomState :=
  { s with
    lists := { s.lists with vert := Function.update s.lists.vert s.vertIndex.toNat x }
    map := Function.update s.map ⟨s.count, h⟩ s.vertIndex
    count := s.count + 1 }

theorem storeVertex_eq (h : 0 ≤ s.vertIndex ∧ s.vertIndex < vertlistSize) (hcount : s.count < 4) :
    s.storeVertex fl = some (s.stored (s.vertex fl) hcount) := by
  rw [storeVertex, GeomLists.setVert, if_pos h]
  simp only [Option.bind_eq_bind, Option.bind_some, hcount, dif_pos]
  rfl

theorem map_corners_stored (x : Vert) (h : s.count < 4) :
    (corners (s.stored x h).count).map (s.stored x h).map =
      (corners s.count).map s.map ++ [s.vertIndex] := by
  change (corners (s.count + 1)).map (Function.update s.map ⟨s.count, h⟩ s.vertIndex) = _
  rw [corners_succ h, List.map_append, List.map_cons, List.map_nil, Function.update_self]
  congr 1
  refine List.map_congr_left fun i hi => Function.update_of_ne (fun heq => ?_) _ _
  rw [heq] at hi
  exact (lt_of_mem_corners hi).ne rfl

/-- `close` does not look at the polygons, nor change them. -/
structure LeavesPolygons (close : GeomState → GeomState) : Prop where
  comm : ∀ t poly n, close { t with
      lists := { t.lists with poly := poly }, polygonListCompleted := n } =
    { close t with lists := { (close t).lists with poly := poly }, polygonListCompleted := n }
  polyCount : ∀ t, (close t).lists.polyCount = t.lists.polyCount

theorem leavesPolygons_triangles : LeavesPolygons closeTriangles :=
  ⟨fun _ _ _ => rfl, fun _ => rfl⟩

theorem leavesPolygons_quads : LeavesPolygons closeQuads := ⟨fun _ _ _ => rfl, fun _ => rfl⟩

theorem leavesPolygons_triangleStrip : LeavesPolygons closeTriangleStrip :=
  ⟨fun _ _ _ => rfl, fun _ => rfl⟩

theorem leavesPolygons_quadStrip : LeavesPolygons closeQuadStrip :=
  ⟨fun _ _ _ => rfl, fun _ => rfl⟩

/-- A complete primitive adds a polygon of the indices in `map`. -/
theorem addPolygon_eq (hpolys : s.lists.polyCount < polylistSize) {close : GeomState → GeomState}
    (hclose : LeavesPolygons close) (pairs : List (Fin 4 × Fin 4)) (type : BitVec 32) :
    ∃ p : Poly, p.type = type ∧
      p.vertIndexes = pairs.foldl
        (fun v q => Function.update v q.1 (BitVec.ofInt 16 (s.map q.2)))
        (s.lists.poly s.lists.polyCount).vertIndexes ∧
      ((s.submit pairs type).bind fun t => (close t).finishPolygon fl) = some { close s with
        lists := { (close s).lists with
          poly := Function.update s.lists.poly s.lists.polyCount p
          polyCount := s.lists.polyCount + 1 }
        polygonListCompleted := 1 } := by
  rw [submit, GeomLists.updatePoly, if_pos hpolys, Option.map_some, Option.bind_some,
    hclose.comm, finishPolygon, GeomLists.updatePoly]
  simp only [hclose.polyCount, if_pos hpolys, Option.map_some, Function.update_self,
    Function.update_idem]
  exact ⟨_, rfl, rfl, rfl⟩

/-- A primitive that gets complete puts out its group; what `close` leaves in `map` stays. -/
theorem gathers_addPolygon {start : ℕ} {a : Assembly ℤ} {x : ℤ} {r : GroupRule}
    {close : GeomState → GeomState} {pairs : List (Fin 4 × Fin 4)} {type : BitVec 32}
    (hpolys : s.lists.polyCount < polylistSize)
    (hcount : s.lists.polyCount = start + a.groups.length)
    (hgroups : ∀ k (h : k < a.groups.length),
      s.lists.indexes (start + k) = a.groups[k].map (BitVec.ofInt 16))
    (hclose : LeavesPolygons close) (hsize : a.pending.length + 1 = r.size)
    (hgroup : ∀ v, (corners type.toNat).map (pairs.foldl
        (fun v q => Function.update v q.1 (BitVec.ofInt 16 (s.map q.2))) v) =
      (select r.group (a.pending ++ [x])).map (BitVec.ofInt 16))
    (hkeep : select (r.keep a.odd) (a.pending ++ [x]) =
      (corners (close s).count).map (close s).map)
    (hodd : (close s).vtxFormat = .triangleStrip → (!a.odd) = (close s).triStripToggle) :
    ∃ poly, ∀ s', s' = { close s with
        lists := { (close s).lists with poly := poly, polyCount := s.lists.polyCount + 1 }
        polygonListCompleted := 1 } →
      ((s.submit pairs type).bind fun t => (close t).finishPolygon fl) = some s' ∧
        Gathers start s' (a.push r x) := by
  obtain ⟨p, htype, hindexes, heq⟩ := addPolygon_eq fl hpolys hclose pairs type
  refine ⟨Function.update s.lists.poly s.lists.polyCount p, fun s' hs' => ?_⟩
  have hnew : (corners p.type.toNat).map p.vertIndexes =
      (select r.group (a.pending ++ [x])).map (BitVec.ofInt 16) := by
    rw [htype, hindexes, hgroup]
  refine ⟨by rw [heq, hs'], ?_⟩
  rw [Assembly.push_completes hsize, hs']
  refine ⟨hkeep, hodd, ?_, fun k hk => ?_⟩
  · rw [hcount, List.length_append, List.length_singleton, Nat.add_assoc]
  · change (corners (Function.update s.lists.poly s.lists.polyCount p (start + k)).type.toNat).map
      (Function.update s.lists.poly s.lists.polyCount p (start + k)).vertIndexes = _
    rcases Nat.lt_or_ge k a.groups.length with hlt | hge
    · rw [Function.update_of_ne (by omega), List.getElem_append_left hlt]
      exact hgroups k hlt
    · rw [List.length_append, List.length_singleton] at hk
      obtain rfl : k = a.groups.length := by omega
      rw [← hcount, Function.update_self, hnew, List.getElem_concat_length rfl]

/-- What a vertex that is stored does: it is gathered by its index, and the next one comes behind
it. -/
structure Stores (start : ℕ) (s s' : GeomState) (a : Assembly ℤ) : Prop where
  gathers : Gathers start s' (a.push s.vtxFormat.rule s.vertIndex)
  vert : s'.lists.vert = Function.update s.lists.vert s.vertIndex.toNat (s'.vertex fl)
  vertIndex : s'.vertIndex = s.vertIndex + 1
  format : s'.vtxFormat = s.vtxFormat
  continues : s'.continuation ≤ s'.count
  last : s'.count = 3 → s'.map 2 + 1 = s'.vertIndex
  grows : s.lists.vertCount ≤ s'.lists.vertCount
  settled : s.count + 1 = s.vtxFormat.size → s'.vertIndex = s'.lists.vertCount
  first : s.first = false → s'.first = false
  continued : s.count + 1 = s.vtxFormat.size →
    s.vtxFormat = .triangleStrip ∨ s.vtxFormat = .quadStrip → s'.first = false

/-- The two states have the same attributes and coordinates. -/
def SameInputs (s s' : GeomState) : Prop := s'.attr = s.attr ∧ s'.s16coord = s.s16coord

section Complete

variable {start : ℕ} {a : Assembly ℤ} {t : GeomState}

theorem stored_map {x : Vert} {c : s.count < 4}
    (ht : t = { s.stored x c with polygonListCompleted := 2 }) {i : Fin 4}
    (hi : s.count = i) : t.map i = s.vertIndex := by
  subst ht
  obtain rfl : i = ⟨s.count, c⟩ := Fin.ext hi.symm
  exact Function.update_self ..

/-- The vertex before the last one of a primitive only waits. -/
theorem stores_waiting {x : Vert} {c : s.count < 4} (h : Gathers start s a)
    (hwait : s.count + 1 ≠ s.vtxFormat.size) (hlength : a.pending.length = s.count)
    (ht : t = { s.stored x c with polygonListCompleted := 2 })
    (hx : x = t.vertex fl) (hcont : s.continuation ≤ s.count) : Stores fl start s t a := by
  have hpush : a.pending.length + 1 ≠ s.vtxFormat.rule.size := by
    rwa [hlength, PrimitiveType.rule_size]
  subst ht
  have hnext : ((s.lists.vertCount + (s.count + 1) : ℕ) : ℤ) - (s.continuation : ℤ) =
      s.vertIndex + 1 := by
    rw [vertIndex]
    omega
  refine ⟨?_, ?_, hnext, rfl, hcont.trans (Nat.le_succ _), fun hthree => ?_,
    Nat.le_refl _, fun hlast => absurd hlast hwait, fun hfirst => hfirst,
    fun hlast => absurd hlast hwait⟩
  · rw [Assembly.push_waits hpush]
    refine ⟨?_, h.odd, h.polyCount, h.groups⟩
    rw [h.pending]
    exact (map_corners_stored x c).symm
  · rw [← hx]
    rfl
  · refine Eq.trans (congrArg (· + (1 : ℤ)) ?_) hnext.symm
    exact stored_map (i := 2) rfl (Nat.succ.inj hthree)

/-- What the four ways to complete a primitive do alike. -/
structure Completes (close : GeomState → GeomState) (pairs : List (Fin 4 × Fin 4))
    (type : BitVec 32) (t : GeomState) (a : Assembly ℤ) (x : ℤ) : Prop where
  leaves : LeavesPolygons close
  group : ∀ v, (corners type.toNat).map (pairs.foldl
      (fun v q => Function.update v q.1 (BitVec.ofInt 16 (t.map q.2))) v) =
    (select t.vtxFormat.rule.group (a.pending ++ [x])).map (BitVec.ofInt 16)
  keep : select (t.vtxFormat.rule.keep a.odd) (a.pending ++ [x]) =
    (corners (close t).count).map (close t).map
  odd : (close t).vtxFormat = .triangleStrip → (!a.odd) = (close t).triStripToggle
  vert : (close t).lists.vert = t.lists.vert
  vertex : (close t).vertex fl = t.vertex fl
  vertIndex : (close t).vertIndex = x + 1
  format : (close t).vtxFormat = t.vtxFormat
  continues : (close t).continuation ≤ (close t).count
  count : (close t).count < 3
  settled : (close t).vertIndex = (close t).lists.vertCount
  first : t.first = false → (close t).first = false
  continued : t.vtxFormat = .triangleStrip ∨ t.vtxFormat = .quadStrip → (close t).first = false
  inputs : SameInputs t (close t)

theorem stores_complete {x : Vert} {c : s.count < 4} {close : GeomState → GeomState}
    {pairs : List (Fin 4 × Fin 4)} {type : BitVec 32} (h : Gathers start s a)
    (hpolys : s.lists.polyCount < polylistSize) (hcont : s.continuation ≤ s.count)
    (hlast : s.count + 1 = s.vtxFormat.size) (hlength : a.pending.length = s.count)
    (ht : t = { s.stored x c with polygonListCompleted := 2 }) (hx : x = t.vertex fl)
    (hclose : Completes fl close pairs type t a s.vertIndex) :
    ∃ s', ((t.submit pairs type).bind fun t => (close t).finishPolygon fl) = some s' ∧
      Stores fl start s s' a ∧ SameInputs s s' := by
  have hinputs : SameInputs s t := by rw [ht]; exact ⟨rfl, rfl⟩
  have hlists : t.lists = { s.lists with
      vert := Function.update s.lists.vert s.vertIndex.toNat x } := by rw [ht]; rfl
  have hformat : t.vtxFormat = s.vtxFormat := by rw [ht]; rfl
  have hsize : a.pending.length + 1 = t.vtxFormat.rule.size := by
    rw [hformat, PrimitiveType.rule_size, hlength, hlast]
  obtain ⟨poly, hpoly⟩ := gathers_addPolygon (s := t) fl
    (by rw [hlists]; exact hpolys) (by rw [hlists]; exact h.polyCount)
    (by rw [hlists]; exact h.groups) hclose.leaves hsize hclose.group hclose.keep hclose.odd
  obtain ⟨hresult, hgathers⟩ := hpoly _ rfl
  refine ⟨_, hresult, ⟨?_, ?_, hclose.vertIndex, hclose.format.trans hformat, hclose.continues,
    fun hthree => absurd hthree hclose.count.ne, ?_, fun _ => hclose.settled,
    fun hfirst => hclose.first (by rw [ht]; exact hfirst), fun _ => hformat ▸ hclose.continued⟩,
    hclose.inputs.1.trans hinputs.1, hclose.inputs.2.trans hinputs.2⟩
  · rwa [hformat] at hgathers
  · change (close t).lists.vert =
      Function.update s.lists.vert s.vertIndex.toNat ((close t).vertex fl)
    rw [hclose.vert, hclose.vertex, ← hx, hlists]
  · change s.lists.vertCount ≤ (close t).lists.vertCount
    have hindex := hclose.settled.symm.trans hclose.vertIndex
    rw [vertIndex] at hindex
    omega

end Complete

theorem vertIndex_of_strip (hformat : s.vtxFormat = .triangleStrip ∨ s.vtxFormat = .quadStrip)
    (hfirst : s.first = false) : s.vertIndex = (s.lists.vertCount + s.count : ℕ) - 2 := by
  rw [vertIndex, continuation, if_pos ⟨hformat, hfirst⟩]
  rfl

theorem vertIndex_of_separate (hformat : s.vtxFormat = .triangles ∨ s.vtxFormat = .quads) :
    s.vertIndex = (s.lists.vertCount + s.count : ℕ) := by
  rw [vertIndex, continuation_of_not_strip]
  · exact Int.sub_zero _
  all_goals
    rcases hformat with h | h <;>
      · rw [h]
        decide

theorem vertIndex_of_first (hfirst : s.first = true) :
    s.vertIndex = (s.lists.vertCount + s.count : ℕ) := by
  rw [vertIndex, continuation, if_neg fun h => Bool.noConfusion (hfirst.symm.trans h.2)]
  exact Int.sub_zero _

/-- Where a strip goes on when its vertex completes a primitive. -/
theorem ofNat_next_of_strip (hformat : s.vtxFormat = .triangleStrip ∨ s.vtxFormat = .quadStrip)
    (hcount : 2 ≤ s.count) :
    ((s.lists.vertCount + if s.first then s.count + 1 else s.count - 1 : ℕ) : ℤ) =
      s.vertIndex + 1 := by
  cases hs : s.first with
  | true =>
    rw [vertIndex_of_first hs, if_pos rfl]
    omega
  | false =>
    rw [vertIndex_of_strip hformat hs, if_neg Bool.false_ne_true]
    omega

section CompletesInstances

variable {start : ℕ} {a : Assembly ℤ} {t : GeomState} {x : Vert} {c : s.count < 4}

theorem pending_append (h : Gathers start s a)
    (ht : t = { s.stored x c with polygonListCompleted := 2 }) {n : ℕ} (hn : s.count + 1 = n) :
    a.pending ++ [s.vertIndex] = (corners n).map t.map := by
  subst hn ht
  rw [h.pending]
  exact (map_corners_stored x c).symm

theorem completes_triangles (h : Gathers start s a) (hformat : s.vtxFormat = .triangles)
    (hcount : s.count = 2) (ht : t = { s.stored x c with polygonListCompleted := 2 }) :
    Completes fl closeTriangles [(0, 0), (1, 1), (2, 2)] polygonTypeTriangle t a s.vertIndex := by
  have hp := pending_append h ht (congrArg (· + 1) hcount)
  have hformat' : t.vtxFormat = .triangles := by rw [ht]; exact hformat
  have hindex : (closeTriangles t).vertIndex = s.vertIndex + 1 := by
    rw [vertIndex_of_separate (Or.inl hformat), vertIndex_of_separate (s := closeTriangles t)
      (Or.inl hformat'), hcount, ht]
    rfl
  have hsettled : (closeTriangles t).vertIndex = (closeTriangles t).lists.vertCount :=
    vertIndex_of_separate (s := closeTriangles t) (Or.inl hformat')
  refine ⟨leavesPolygons_triangles, fun v => ?_, ?_, fun hstrip => ?_, rfl, rfl, hindex, rfl, ?_,
    (by decide : 0 < 3), hsettled, fun hfirst => hfirst, fun hstrip => ?_, rfl, rfl⟩
  · rw [hp, hformat']
    rfl
  · rw [hp, hformat']
    rfl
  · exact absurd (hstrip.symm.trans hformat') (by decide)
  · exact closes_triangles.strip t hformat'
  · rw [hformat'] at hstrip
    exact absurd hstrip (by decide)

theorem completes_quads (h : Gathers start s a) (hformat : s.vtxFormat = .quads)
    (hcount : s.count = 3) (ht : t = { s.stored x c with polygonListCompleted := 2 }) :
    Completes fl closeQuads [(0, 0), (1, 1), (2, 2), (3, 3)] polygonTypeQuad t a s.vertIndex := by
  have hp := pending_append h ht (congrArg (· + 1) hcount)
  have hformat' : t.vtxFormat = .quads := by rw [ht]; exact hformat
  have hindex : (closeQuads t).vertIndex = s.vertIndex + 1 := by
    rw [vertIndex_of_separate (Or.inr hformat), vertIndex_of_separate (s := closeQuads t)
      (Or.inr hformat'), hcount, ht]
    rfl
  have hsettled : (closeQuads t).vertIndex = (closeQuads t).lists.vertCount :=
    vertIndex_of_separate (s := closeQuads t) (Or.inr hformat')
  refine ⟨leavesPolygons_quads, fun v => ?_, ?_, fun hstrip => ?_, rfl, rfl, hindex, rfl, ?_,
    (by decide : 0 < 3), hsettled, fun hfirst => hfirst, fun hstrip => ?_, rfl, rfl⟩
  · rw [hp, hformat']
    rfl
  · rw [hp, hformat']
    rfl
  · exact absurd (hstrip.symm.trans hformat') (by decide)
  · exact closes_quads.strip t hformat'
  · rw [hformat'] at hstrip
    exact absurd hstrip (by decide)

theorem completes_triangleStrip (h : Gathers start s a) (hformat : s.vtxFormat = .triangleStrip)
    (hcount : s.count = 2) (ht : t = { s.stored x c with polygonListCompleted := 2 }) :
    Completes fl closeTriangleStrip [(0, 0), (1, 1), (2, 2)] polygonTypeTriangle t a
      s.vertIndex := by
  have hp := pending_append h ht (congrArg (· + 1) hcount)
  have hformat' : t.vtxFormat = .triangleStrip := by rw [ht]; exact hformat
  have hodd : a.odd = t.triStripToggle := by rw [ht]; exact h.odd hformat
  have hsettled : (closeTriangleStrip t).vertIndex = (closeTriangleStrip t).lists.vertCount :=
    (vertIndex_of_strip (s := closeTriangleStrip t) (Or.inl hformat') rfl).trans
      ((congrArg (· - (2 : ℤ)) (Nat.cast_add _ 2)).trans (add_sub_cancel_right _ (2 : ℤ)))
  have hindex : (closeTriangleStrip t).vertIndex = s.vertIndex + 1 := by
    rw [hsettled, ← ofNat_next_of_strip (Or.inl hformat) (by omega), hcount, ht]
    rfl
  -- the entry that is replaced gets the index of the last vertex
  have hlast : ((t.lists.vertCount + 2 : ℕ) : ℤ) - (t.continuation : ℤ) = t.map 2 := by
    rw [stored_map ht hcount, vertIndex, hcount, ht]
    rfl
  refine ⟨leavesPolygons_triangleStrip, fun v => ?_, ?_, fun _ => ?_, rfl, rfl, hindex, rfl, ?_,
    (by decide : 2 < 3), hsettled, fun _ => rfl, fun _ => rfl, rfl, rfl⟩
  · rw [hp, hformat']
    rfl
  · rw [hp, hformat', hodd, closeTriangleStrip, hlast]
    cases t.triStripToggle <;> rfl
  · rw [hodd]
    rfl
  · exact continuation_le_two _

theorem completes_quadStrip (h : Gathers start s a) (hformat : s.vtxFormat = .quadStrip)
    (hcount : s.count = 3) (ht : t = { s.stored x c with polygonListCompleted := 2 })
    (hmap : s.map 2 + 1 = s.vertIndex) :
    Completes fl closeQuadStrip [(0, 0), (1, 1), (2, 3), (3, 2)] polygonTypeQuad t a
      s.vertIndex := by
  have hp := pending_append h ht (congrArg (· + 1) hcount)
  have hformat' : t.vtxFormat = .quadStrip := by rw [ht]; exact hformat
  have hsettled : (closeQuadStrip t).vertIndex = (closeQuadStrip t).lists.vertCount :=
    (vertIndex_of_strip (s := closeQuadStrip t) (Or.inr hformat') rfl).trans
      ((congrArg (· - (2 : ℤ)) (Nat.cast_add _ 2)).trans (add_sub_cancel_right _ (2 : ℤ)))
  have hindex : (closeQuadStrip t).vertIndex = s.vertIndex + 1 := by
    rw [hsettled, ← ofNat_next_of_strip (Or.inr hformat) (by omega), hcount, ht]
    rfl
  -- the two entries that are replaced get the indices of the last two vertices
  have hlast : ((t.lists.vertCount + 3 : ℕ) : ℤ) - (t.continuation : ℤ) = t.map 3 := by
    rw [stored_map ht hcount, vertIndex, hcount, ht]
    rfl
  have hbefore : ((t.lists.vertCount + 2 : ℕ) : ℤ) - (t.continuation : ℤ) = t.map 2 := by
    have hold : t.map 2 = s.map 2 := by
      subst ht
      refine Function.update_of_ne (fun heq => ?_) _ _
      have := congrArg Fin.val heq
      simp only [hcount] at this
      exact absurd this (by decide)
    rw [stored_map ht hcount] at hlast
    omega
  refine ⟨leavesPolygons_quadStrip, fun v => ?_, ?_, fun hstrip => ?_, rfl, rfl, hindex, rfl, ?_,
    (by decide : 2 < 3), hsettled, fun _ => rfl, fun _ => rfl, rfl, rfl⟩
  · rw [hp, hformat']
    rfl
  · rw [hp, hformat', closeQuadStrip, hlast, hbefore]
    rfl
  · exact absurd (hstrip.symm.trans hformat') (by decide)
  · exact continuation_le_two _

end CompletesInstances

/-- What `completePolygon` does with the stored vertex. -/
theorem stores_completePolygon {start : ℕ} {a : Assembly ℤ} {x : Vert} (c : s.count < 4)
    (h : Gathers start s a) (hpolys : s.lists.polyCount < polylistSize)
    (hcont : s.continuation ≤ s.count)
    (hmap : s.count = 3 → s.map 2 + 1 = s.vertIndex) (hx : x = (s.stored x c).vertex fl) :
    ∃ s', (s.stored x c).completePolygon fl = some s' ∧ Stores fl start s s' a ∧
      SameInputs s s' := by
  generalize ht : ({ s.stored x c with polygonListCompleted := 2 } : GeomState) = t
  have hlength : a.pending.length = s.count := h.length_pending c.le
  have hformat' : t.vtxFormat = s.vtxFormat := by rw [← ht]; rfl
  have htcount : t.count = s.count + 1 := by rw [← ht]; rfl
  have hxt : x = t.vertex fl := by rw [← ht]; exact hx
  have hwait (hne : s.count + 1 ≠ s.vtxFormat.size) : Stores fl start s t a ∧ SameInputs s t :=
    ⟨stores_waiting fl h hne hlength ht.symm hxt hcont, by rw [← ht]; exact ⟨rfl, rfl⟩⟩
  have hdone {close : GeomState → GeomState} {pairs : List (Fin 4 × Fin 4)} {type : BitVec 32}
      (hlast : s.count + 1 = s.vtxFormat.size)
      (hclose : Completes fl close pairs type t a s.vertIndex) :=
    stores_complete fl h hpolys hcont hlast hlength ht.symm hxt hclose
  rw [completePolygon, ht, hformat', htcount]
  cases hformat : s.vtxFormat with
  | triangles =>
    rw [hformat] at hwait hdone
    simp only
    split_ifs with hlast
    · exact ⟨t, rfl, hwait hlast⟩
    · rw [not_not] at hlast
      exact hdone hlast (completes_triangles fl h hformat (Nat.succ.inj hlast) ht.symm)
  | quads =>
    rw [hformat] at hwait hdone
    simp only
    split_ifs with hlast
    · exact ⟨t, rfl, hwait hlast⟩
    · rw [not_not] at hlast
      exact hdone hlast (completes_quads fl h hformat (Nat.succ.inj hlast) ht.symm)
  | triangleStrip =>
    rw [hformat] at hwait hdone
    simp only
    split_ifs with hlast
    · exact ⟨t, rfl, hwait hlast⟩
    · rw [not_not] at hlast
      exact hdone hlast (completes_triangleStrip fl h hformat (Nat.succ.inj hlast) ht.symm)
  | quadStrip =>
    rw [hformat] at hwait hdone
    simp only
    split_ifs with hlast
    · exact ⟨t, rfl, hwait hlast⟩
    · rw [not_not] at hlast
      have hthree : s.count = 3 := Nat.succ.inj hlast
      exact hdone hlast (completes_quadStrip fl h hformat hthree ht.symm (hmap hthree))

/-- A vertex that the lists have room for is gathered. -/
theorem setVertex_stores {start : ℕ} {a : Assembly ℤ} (h : Gathers start s a) (hinv : GeomInv s)
    (hfull : ¬ s.Full) (hcont : s.continuation ≤ s.count)
    (hmap : s.count = 3 → s.map 2 + 1 = s.vertIndex) :
    ∃ s', s.setVertex fl = some s' ∧ Stores fl start s s' a ∧
      SameInputs s.transformTexcoord s' := by
  obtain ⟨attr, hattr⟩ := exists_transformTexcoord s
  have hpolys : s.lists.polyCount < polylistSize := not_le.mp fun hle => hfull (Or.inr hle)
  have hfour : s.count < 4 := hinv.count_lt_four
  have hrange := (vertIndex_inRange hinv.verts hpolys hfour).mpr (hcont.trans (Nat.le_add_left ..))
  let t : GeomState := { s with attr := attr, polygonListCompleted := 0 }
  have ht : Gathers start t a := ⟨h.pending, h.odd, h.polyCount, h.groups⟩
  obtain ⟨s', hs', hstores, hinputs⟩ := stores_completePolygon fl (s := t) (x := t.vertex fl) hfour ht hpolys
    hcont hmap rfl
  refine ⟨s', ?_, ⟨hstores.gathers, hstores.vert, hstores.vertIndex, hstores.format,
    hstores.continues, hstores.last, hstores.grows, hstores.settled,
    hstores.first, hstores.continued⟩, by rw [hattr]; exact hinputs⟩
  rw [setVertex, hattr]
  refine (if_neg hfull).trans ?_
  change (t.storeVertex fl).bind (fun t => t.completePolygon fl) = some s'
  rw [storeVertex_eq (s := t) fl hrange hfour]
  exact hs'

end GeomState

section Step

variable {s : GeomState} {op : GeomOp} (fl : FloatOps)

/-- Neither starts or ends a list of vertices nor shows the frame. -/
def GeomOp.Inner : GeomOp → Prop
  | .beginVtxs _ | .endVtxs | .vblank => False
  | _ => True

/-- The two states differ in attributes, coordinates and the swap request only. -/
def AttrOnly (s s' : GeomState) : Prop :=
  ∃ a c i n b w, s' = { s with
    attr := a, s16coord := c, coordind := i, polygonListCompleted := n, isSwapBuffers := b
    pendingFlushCommand := w }

theorem geomStep_stores {start : ℕ} {a : Assembly ℤ} (h : Gathers start s a) (hinv : GeomInv s)
    (hop : op.SetsVertex s) (hfull : ¬ s.Full) (hcont : s.continuation ≤ s.count)
    (hmap : s.count = 3 → s.map 2 + 1 = s.vertIndex) :
    ∃ s', geomStep fl s op = some s' ∧ GeomState.Stores fl start s s' a := by
  obtain ⟨c, i, hstep⟩ := geomStep_setsVertex fl hop
  let t : GeomState := { s with s16coord := c, coordind := i }
  have ht : Gathers start t a := ⟨h.pending, h.odd, h.polyCount, h.groups⟩
  have hinv' : GeomInv t := ⟨hinv.verts, hinv.polys, hinv.count, hinv.strip⟩
  obtain ⟨s', hs', hstores, -⟩ := GeomState.setVertex_stores fl ht hinv' hfull hcont hmap
  exact ⟨s', hstep.trans hs', ⟨hstores.gathers, hstores.vert, hstores.vertIndex, hstores.format,
    hstores.continues, hstores.last, hstores.grows, hstores.settled,
    hstores.first, hstores.continued⟩⟩

theorem geomStep_dropped (hop : op.SetsVertex s) (hfull : s.Full) :
    ∃ s', geomStep fl s op = some s' ∧ AttrOnly s s' := by
  obtain ⟨c, i, hstep⟩ := geomStep_setsVertex fl hop
  obtain ⟨a, ha⟩ :=
    GeomState.setVertex_full (s := { s with s16coord := c, coordind := i }) fl hfull
  exact ⟨_, hstep.trans ha, a, c, i, 0, _, _, rfl⟩

theorem geomStep_inner (hinner : op.Inner) (hop : ¬ op.SetsVertex s) :
    ∃ s', geomStep fl s op = some s' ∧ AttrOnly s s' := by
  cases op with
  | beginVtxs | endVtxs | vblank => exact absurd hinner id
  | vtx10 | vtx3 | vtxDiff => exact absurd trivial hop
  | vtx16 v =>
    rw [GeomOp.SetsVertex, not_not] at hop
    exact ⟨_, if_pos hop, s.attr, _, _, _, _, _, rfl⟩
  | attr a => exact ⟨_, rfl, a, _, _, _, _, _, rfl⟩
  | swapBuffers v => exact ⟨_, rfl, s.attr, _, _, _, _, _, rfl⟩

end Step

end Desmume.Geometry
