import Desmume.Geometry.Strips

/-! The polygons of the vertices that a frame submits, gathered by the rules of the primitives
beside the lists that the commands build, and when the lists denote them. -/

namespace Desmume.Geometry
open Library

/-- What was submitted in the frame that is built; `carried` says that the pending vertices were
submitted before it, so that they lie in the lists of another frame. -/
structure Submitted where
  primitive : PrimitiveType
  assembly : Assembly Vert
  carried : Bool

structure Traced where
  state : GeomState
  submitted : Submitted

/-- A command that leads from `s` to `s'`; full lists accept no vertex. -/
def Submitted.step (fl : FloatOps) (s s' : GeomState) (g : Submitted) : GeomOp → Submitted
  | .beginVtxs v => ⟨.ofBits v, ⟨[], false, g.assembly.groups⟩, false⟩
  | .endVtxs => { g with assembly := { g.assembly with pending := [] }, carried := false }
  | .vblank =>
    if s.isSwapBuffers then
      { g with
        assembly := { g.assembly with groups := [] }
        carried := !g.assembly.pending.isEmpty }
    else g
  | op =>
    if op.SetsVertex s ∧ ¬ s.Full then
      { g with assembly := g.assembly.push g.primitive.rule (s'.vertex fl) }
    else g

def tracedStep (fl : FloatOps) (t : Traced) (op : GeomOp) : Option Traced :=
  (geomStep fl t.state op).map fun s' => ⟨s', t.submitted.step fl t.state s' op⟩

def tracedReset (a : VertexAttr) (l m : GeomLists) : Traced :=
  ⟨gfx3dReset a l m, ⟨.triangles, ⟨[], false, []⟩, false⟩⟩

/-- The stored polygons are those of the submitted vertices. -/
def Denotes (t : Traced) : Prop := t.state.lists.polygons = t.submitted.assembly.groups

/-- A vertex that is stored does not overwrite those of a strip that ended, and one that completes a
primitive has the others of it in the same lists and an index of sixteen bits. -/
def OpDenotes (t : Traced) (op : GeomOp) : Prop :=
  op.SetsVertex t.state → ¬ t.state.Full →
    t.state.continuation ≤ t.state.count ∧
      (t.state.count + 1 = t.state.vtxFormat.size →
        t.submitted.carried = false ∧ t.state.vertIndex < 2 ^ 16)

/-- Where the stored vertices of the groups are. -/
structure GroupsStored (s : GeomState) (a : Assembly ℤ) : Prop where
  gathers : Gathers 0 s a
  groups : ∀ p ∈ a.groups, ∀ i ∈ p, 0 ≤ i ∧ i < s.lists.vertCount ∧ i < 2 ^ 16

/-- Where the pending ones are. -/
structure PendingStored (s : GeomState) (a : Assembly ℤ) : Prop where
  pending : ∀ i ∈ a.pending, 0 ≤ i ∧ i < s.vertIndex
  last : s.count = 3 → s.map 2 + 1 = s.vertIndex

/-- The submitted vertices are found at the gathered indices. -/
structure Tracks (t : Traced) (a : Assembly ℤ) : Prop where
  inv : GeomInv t.state
  stored : GroupsStored t.state a
  primitive : t.submitted.primitive = t.state.vtxFormat
  odd : t.submitted.assembly.odd = a.odd
  length : t.submitted.assembly.pending.length = a.pending.length
  groups : t.submitted.assembly.groups =
    a.groups.map (List.map fun i => t.state.lists.vert i.toNat)
  here : t.submitted.carried = false → PendingStored t.state a ∧
    t.submitted.assembly.pending = a.pending.map fun i => t.state.lists.vert i.toNat

section Tracks

variable {t t' : Traced} {a : Assembly ℤ} {op : GeomOp} {fl : FloatOps}

theorem toNat_ofInt {i : ℤ} (hi : 0 ≤ i) (hlt : i < 2 ^ 16) :
    (BitVec.ofInt 16 i).toNat = i.toNat := by
  obtain ⟨n, rfl⟩ := Int.eq_ofNat_of_zero_le hi
  rw [toNat_ofInt_index (by omega)]
  rfl

theorem Tracks.denotes (h : Tracks t a) : Denotes t := by
  have hcount : t.state.lists.polyCount = a.groups.length :=
    h.stored.gathers.polyCount.trans (Nat.zero_add _)
  rw [Denotes, h.groups, GeomLists.polygons]
  refine List.ext_getElem (by rw [List.length_map, List.length_map, List.length_range, hcount])
    fun k hk _ => ?_
  rw [List.length_map, List.length_range, hcount] at hk
  have hpolygon := h.stored.gathers.polygon hk
  rw [Nat.zero_add] at hpolygon
  rw [List.getElem_map, List.getElem_range, hpolygon, List.getElem_map]
  refine List.map_congr_left fun i hi => ?_
  obtain ⟨hpos, -, hlt⟩ := h.stored.groups _ (List.getElem_mem hk) i hi
  rw [toNat_ofInt hpos hlt]

theorem Tracks.of_attrOnly {s' : GeomState} (h : Tracks t a) (hs' : AttrOnly t.state s') :
    Tracks ⟨s', t.submitted⟩ a := by
  obtain ⟨attr, c, i, n, b, w, rfl⟩ := hs'
  exact ⟨⟨h.inv.verts, h.inv.polys, h.inv.count, h.inv.strip⟩, ⟨⟨h.stored.gathers.pending,
    h.stored.gathers.odd, h.stored.gathers.polyCount, h.stored.gathers.groups⟩, h.stored.groups⟩,
    h.primitive, h.odd, h.length, h.groups,
    fun hcarried => ⟨⟨(h.here hcarried).1.pending, (h.here hcarried).1.last⟩, (h.here hcarried).2⟩⟩

/-- The vertices of the lists, by the indices of an assembly. -/
def vertAt (s : GeomState) (i : ℤ) : Vert := s.lists.vert i.toNat

theorem Tracks.assembly_eq (h : Tracks t a) (hcarried : t.submitted.carried = false) :
    t.submitted.assembly = a.map (vertAt t.state) := by
  have hpending := (h.here hcarried).2
  have hodd := h.odd
  have hgroups := h.groups
  generalize t.submitted.assembly = g at hpending hodd hgroups ⊢
  obtain ⟨pending, odd, groups⟩ := g
  simp only at hpending hodd hgroups
  rw [hpending, hodd, hgroups]
  rfl

theorem Tracks.of_assembly_eq (hinv : GeomInv t.state) (hstored : GroupsStored t.state a)
    (hprimitive : t.submitted.primitive = t.state.vtxFormat) (hpending : PendingStored t.state a)
    (heq : t.submitted.assembly = a.map (vertAt t.state)) : Tracks t a := by
  refine ⟨hinv, hstored, hprimitive, by rw [heq]; rfl, ?_, by rw [heq]; rfl,
    fun _ => ⟨hpending, by rw [heq]; rfl⟩⟩
  rw [heq]
  exact List.length_map ..

section Vertex

variable {s' : GeomState} (hs : GeomState.Stores fl 0 t.state s' a)
include hs

theorem vertAt_vertIndex : vertAt s' t.state.vertIndex = s'.vertex fl := by
  rw [vertAt, hs.vert, Function.update_self]

/-- A vertex is stored behind the ones that are used. -/
theorem vertAt_of_lt {i : ℤ} (hi : 0 ≤ i ∧ i < t.state.vertIndex) :
    vertAt s' i = vertAt t.state i := by
  rw [vertAt, hs.vert, Function.update_of_ne (by omega)]
  rfl

/-- The groups that are there stay. -/
theorem Tracks.groups_kept (h : Tracks t a) (hcont : t.state.continuation ≤ t.state.count)
    {p : List ℤ} (hp : p ∈ a.groups) : p.map (vertAt s') = p.map (vertAt t.state) := by
  refine List.map_congr_left fun i hi => vertAt_of_lt hs ?_
  obtain ⟨hpos, hlt, -⟩ := h.stored.groups p hp i hi
  refine ⟨hpos, hlt.trans_le ?_⟩
  rw [GeomState.vertIndex]
  omega

/-- A vertex in the same lists as the pending ones. -/
theorem Tracks.push_here (h : Tracks t a) (hcarried : t.submitted.carried = false)
    (hcont : t.state.continuation ≤ t.state.count) :
    t.submitted.assembly.push t.submitted.primitive.rule (s'.vertex fl) =
      (a.push t.state.vtxFormat.rule t.state.vertIndex).map (vertAt s') := by
  obtain ⟨hpending, -⟩ := h.here hcarried
  have hmap : a.map (vertAt t.state) = a.map (vertAt s') :=
    Assembly.map_congr (fun i hi => (vertAt_of_lt hs (hpending.pending i hi)).symm)
      fun p hp i hi => (List.map_inj_left.mp (h.groups_kept hs hcont hp) i hi).symm
  rw [h.assembly_eq hcarried, hmap, ← vertAt_vertIndex hs, Assembly.push_map, h.primitive]

end Vertex

theorem Submitted.step_vertex {s s' : GeomState} (g : Submitted) (hop : op.SetsVertex s) :
    g.step fl s s' op = if ¬ s.Full then
      { g with assembly := g.assembly.push g.primitive.rule (s'.vertex fl) } else g := by
  have hand : op.SetsVertex s ∧ ¬ s.Full ↔ ¬ s.Full := and_iff_right hop
  cases op with
  | beginVtxs | endVtxs | attr | swapBuffers | vblank => exact absurd hop id
  | vtx16 | vtx10 | vtx3 | vtxDiff => exact if_congr hand rfl rfl

theorem Submitted.step_inner {s s' : GeomState} (g : Submitted) (hinner : op.Inner)
    (hop : ¬ op.SetsVertex s) : g.step fl s s' op = g := by
  cases op with
  | beginVtxs | endVtxs | vblank => exact absurd hinner id
  | attr | swapBuffers => rfl
  | vtx16 | vtx10 | vtx3 | vtxDiff => exact if_neg (mt And.left hop)

/-- Where the groups are after a vertex: a complete one ends with the vertex. -/
theorem GroupsStored.push {s' : GeomState} (h : GroupsStored t.state a)
    (hs : GeomState.Stores fl 0 t.state s' a) (hinv : GeomInv t.state)
    (hlast : t.state.count + 1 = t.state.vtxFormat.size → PendingStored t.state a ∧
      0 ≤ t.state.vertIndex ∧ t.state.vertIndex < 2 ^ 16) :
    GroupsStored s' (a.push t.state.vtxFormat.rule t.state.vertIndex) := by
  refine ⟨hs.gathers, fun p hp i hi => ?_⟩
  have hlength := h.gathers.length_pending hinv.count_lt_four.le
  by_cases hsize : t.state.count + 1 = t.state.vtxFormat.size
  · obtain ⟨hpending, hpos, hlt⟩ := hlast hsize
    have hsettled := hs.settled hsize
    have hnext := hs.vertIndex
    rcases Assembly.mem_groups_push hp with hold | hnew
    · obtain ⟨h0, h1, h2⟩ := h.groups p hold i hi
      have hgrows := hs.grows
      exact ⟨h0, by omega, h2⟩
    · rcases hnew i hi with hi | rfl
      · obtain ⟨h0, h1⟩ := hpending.pending i hi
        exact ⟨h0, by omega, h1.trans hlt⟩
      · exact ⟨hpos, by omega, hlt⟩
  · rw [Assembly.push_waits (by rwa [hlength, PrimitiveType.rule_size])] at hp
    obtain ⟨h0, h1, h2⟩ := h.groups p hp i hi
    have hgrows := hs.grows
    exact ⟨h0, by omega, h2⟩

theorem Tracks.store (h : Tracks t a) (hop : op.SetsVertex t.state) (hfull : ¬ t.state.Full)
    (hcond : OpDenotes t op) : ∃ t' a', tracedStep fl t op = some t' ∧ Tracks t' a' := by
  obtain ⟨hcont, hlast⟩ := hcond hop hfull
  have hthree : t.state.count = 3 → t.state.map 2 + 1 = t.state.vertIndex := fun hcount => by
    have hlt := h.inv.count
    refine (h.here (hlast ?_).1).1.last hcount
    cases hformat : t.state.vtxFormat <;> rw [hformat, hcount] at hlt <;> first
      | exact absurd hlt (by decide)
      | exact congrArg (· + 1) hcount
  obtain ⟨s', hs', hs⟩ := geomStep_stores fl h.stored.gathers h.inv hop hfull hcont hthree
  have hpos : 0 ≤ t.state.vertIndex := by
    rw [GeomState.vertIndex]
    omega
  have hinv' : GeomInv s' := (geomStep_spec fl h.inv).keeps s' hs'
  have hgroups := h.stored.push hs h.inv fun hsize =>
    ⟨(h.here (hlast hsize).1).1, hpos, (hlast hsize).2⟩
  have hstep : tracedStep fl t op = some ⟨s', { t.submitted with
      assembly := t.submitted.assembly.push t.submitted.primitive.rule (s'.vertex fl) }⟩ := by
    rw [tracedStep, hs', Option.map_some, Submitted.step_vertex _ hop, if_pos hfull]
  refine ⟨_, a.push t.state.vtxFormat.rule t.state.vertIndex, hstep, ?_⟩
  have hprimitive : t.submitted.primitive = s'.vtxFormat := h.primitive.trans hs.format.symm
  cases hcarried : t.submitted.carried with
  | false =>
    refine Tracks.of_assembly_eq hinv' hgroups hprimitive ⟨fun i hi => ?_, hs.last⟩
      (h.push_here hs hcarried hcont)
    rw [hs.vertIndex]
    rcases Assembly.mem_pending_push hi with hi | rfl
    · obtain ⟨h0, h1⟩ := (h.here hcarried).1.pending i hi
      exact ⟨h0, by omega⟩
    · exact ⟨hpos, by omega⟩
  | true =>
    -- vertices of another frame do not make a primitive with this one
    have hsize : t.state.count + 1 ≠ t.state.vtxFormat.size := fun hsize =>
      Bool.noConfusion (hcarried.symm.trans (hlast hsize).1)
    have hlength := h.stored.gathers.length_pending h.inv.count_lt_four.le
    have hwait : a.pending.length + 1 ≠ t.state.vtxFormat.rule.size := by
      rwa [hlength, PrimitiveType.rule_size]
    have hwait' : t.submitted.assembly.pending.length + 1 ≠ t.submitted.primitive.rule.size := by
      rwa [h.length, h.primitive]
    rw [Assembly.push_waits hwait] at hgroups ⊢
    rw [Assembly.push_waits hwait']
    refine ⟨hinv', hgroups, hprimitive, h.odd, ?_, ?_, fun hfalse => ?_⟩
    · rw [List.length_append, List.length_append, h.length]
      rfl
    · refine h.groups.trans (List.map_congr_left fun p hp => ?_)
      exact (h.groups_kept hs hcont hp).symm
    · exact Bool.noConfusion (hcarried.symm.trans hfalse)

theorem Tracks.begin (h : Tracks t a) (v : BitVec 32) :
    Tracks ⟨glBegin v t.state, ⟨.ofBits v, ⟨[], false, t.submitted.assembly.groups⟩, false⟩⟩
      ⟨[], false, a.groups⟩ := by
  have hinv : GeomInv (glBegin v t.state) :=
    (geomStep_spec plainFloatOps h.inv).keeps _
      (rfl : geomStep plainFloatOps t.state (.beginVtxs v) = _)
  have hgathers := h.stored.gathers
  exact ⟨hinv, ⟨⟨rfl, fun _ => rfl, hgathers.polyCount, hgathers.groups⟩, h.stored.groups⟩, rfl, rfl,
    rfl, h.groups, fun _ => ⟨⟨fun i hi => absurd hi List.not_mem_nil,
      fun hcount => absurd hcount (by decide : 0 ≠ 3)⟩, rfl⟩⟩

theorem Tracks.end (h : Tracks t a) :
    Tracks ⟨glEnd t.state, { t.submitted with
        assembly := { t.submitted.assembly with pending := [] }, carried := false }⟩
      { a with pending := [] } := by
  have hinv : GeomInv (glEnd t.state) :=
    (geomStep_spec plainFloatOps h.inv).keeps _
      (rfl : geomStep plainFloatOps t.state .endVtxs = _)
  have hgathers := h.stored.gathers
  exact ⟨hinv, ⟨⟨rfl, hgathers.odd, hgathers.polyCount, hgathers.groups⟩, h.stored.groups⟩,
    h.primitive, h.odd, rfl, h.groups, fun _ => ⟨⟨fun i hi => absurd hi List.not_mem_nil,
      fun hcount => absurd hcount (by decide : 0 ≠ 3)⟩, rfl⟩⟩

/-- The lists that are shown make room for empty ones; what is pending stays. -/
theorem Tracks.swap (h : Tracks t a) :
    Tracks ⟨{ twiddleLists t.state with isSwapBuffers := false }, { t.submitted with
        assembly := { t.submitted.assembly with groups := [] }
        carried := !t.submitted.assembly.pending.isEmpty }⟩ { a with groups := [] } := by
  have hgathers := h.stored.gathers
  have hlength := h.length
  refine ⟨⟨Nat.zero_le _, Nat.zero_le _, h.inv.count, h.inv.strip⟩, ⟨⟨hgathers.pending,
    hgathers.odd, rfl, fun k hk => absurd hk (Nat.not_lt_zero k)⟩,
    fun p hp => absurd hp List.not_mem_nil⟩, h.primitive, h.odd, hlength, rfl, fun hempty => ?_⟩
  have hnil : t.submitted.assembly.pending = [] := by
    rwa [Bool.not_eq_false', List.isEmpty_iff] at hempty
  rw [hnil, List.length_nil] at hlength
  have ha : a.pending = [] := List.eq_nil_of_length_eq_zero hlength.symm
  refine ⟨⟨fun i hi => ?_, fun hcount => ?_⟩, ?_⟩
  · change i ∈ a.pending at hi
    rw [ha] at hi
    exact absurd hi List.not_mem_nil
  · rw [hgathers.length_pending h.inv.count_lt_four.le] at hlength
    exact absurd (hlength.trans hcount) (by decide)
  · change t.submitted.assembly.pending = a.pending.map _
    rw [hnil, ha]
    rfl

variable (fl) in
theorem Tracks.step (h : Tracks t a) (hcond : OpDenotes t op) :
    ∃ t' a', tracedStep fl t op = some t' ∧ Tracks t' a' := by
  by_cases hop : op.SetsVertex t.state
  · by_cases hfull : t.state.Full
    · obtain ⟨s', hs', hattr⟩ := geomStep_dropped fl hop hfull
      refine ⟨_, a, ?_, h.of_attrOnly hattr⟩
      rw [tracedStep, hs', Option.map_some, Submitted.step_vertex _ hop, if_neg (not_not.mpr hfull)]
    · exact h.store hop hfull hcond
  · by_cases hinner : op.Inner
    · obtain ⟨s', hs', hattr⟩ := geomStep_inner fl hinner hop
      refine ⟨_, a, ?_, h.of_attrOnly hattr⟩
      rw [tracedStep, hs', Option.map_some, Submitted.step_inner _ hinner hop]
    · cases op with
      | beginVtxs v => exact ⟨_, _, rfl, h.begin v⟩
      | endVtxs => exact ⟨_, _, rfl, h.end⟩
      | vblank =>
        cases hswap : t.state.isSwapBuffers with
        | true =>
          refine ⟨_, _, ?_, h.swap⟩
          have hstate : gfx3dVBlankSignal t.state =
              { twiddleLists t.state with isSwapBuffers := false } := if_pos hswap
          have hsubmitted (s' : GeomState) : t.submitted.step fl t.state s' .vblank = _ :=
            if_pos hswap
          rw [tracedStep, geomStep, Option.map_some, hstate, hsubmitted]
        | false =>
          refine ⟨t, a, ?_, h⟩
          have hswap' : ¬ t.state.isSwapBuffers = true := hswap ▸ Bool.false_ne_true
          have hstate : gfx3dVBlankSignal t.state = t.state := if_neg hswap'
          have hsubmitted (s' : GeomState) : t.submitted.step fl t.state s' .vblank = t.submitted :=
            if_neg hswap'
          rw [tracedStep, geomStep, Option.map_some, hstate, hsubmitted]
      | attr | swapBuffers | vtx16 | vtx10 | vtx3 | vtxDiff => exact absurd trivial hinner

end Tracks

theorem tracedReset_tracks (a : VertexAttr) (l m : GeomLists) :
    Tracks (tracedReset a l m) ⟨[], false, []⟩ :=
  ⟨gfx3dReset_inv a l m, ⟨⟨rfl, fun _ => rfl, rfl, fun k hk => absurd hk (Nat.not_lt_zero k)⟩,
    fun p hp => absurd hp List.not_mem_nil⟩, rfl, rfl, rfl, rfl,
    fun _ => ⟨⟨fun i hi => absurd hi List.not_mem_nil,
      fun hcount => absurd hcount (by decide : 0 ≠ 3)⟩, rfl⟩⟩

/-- In a run whose vertices all meet the condition, the stored polygons are those of the submitted
vertices in every state. -/
theorem polygons_denote (fl : FloatOps) (a : VertexAttr) (l m : GeomLists) {ops : List GeomOp}
    (h : AtEachM (tracedStep fl) OpDenotes (tracedReset a l m) ops) {pre : List GeomOp}
    (hpre : pre <+: ops) :
    ∃ t, runM (tracedStep fl) (tracedReset a l m) pre = some t ∧ Denotes t := by
  obtain ⟨t, ht, asm, htracks⟩ := exists_of_atEachM (I := fun t => ∃ asm, Tracks t asm)
    (fun t op ⟨_, ht⟩ hop => by
      obtain ⟨t', asm, hstep, htracks⟩ := ht.step fl hop
      exact ⟨t', hstep, asm, htracks⟩) ⟨_, tracedReset_tracks a l m⟩ h hpre
  exact ⟨t, ht, htracks.denotes⟩

theorem polygons_denote_triangle :
    ∃ t, runM (tracedStep plainFloatOps) (tracedReset plainAttr plainLists plainLists)
      [.beginVtxs 0, .vtx10 0, .vtx10 0, .vtx10 0] = some t ∧ Denotes t := by
  refine polygons_denote plainFloatOps plainAttr plainLists plainLists ?_ (List.prefix_refl _)
  refine ⟨fun h => absurd h id, fun t ht => ?_⟩
  obtain rfl := Option.some.inj ht
  refine ⟨fun _ _ => ⟨by decide, fun h => absurd h (by decide)⟩, fun t ht => ?_⟩
  obtain rfl := Option.some.inj ht
  refine ⟨fun _ _ => ⟨by decide, fun h => absurd h (by decide)⟩, fun t ht => ?_⟩
  obtain rfl := Option.some.inj ht
  exact ⟨fun _ _ => ⟨by decide, fun _ => ⟨rfl, by decide⟩⟩, fun _ _ => trivial⟩

section Overflow

/-- The coordinates and the vertex of `vtx10 0`. -/
def originCoord : Fin 3 → BitVec 16 := ![coord10 0 0 <<< 6, coord10 0 10 <<< 6, coord10 0 20 <<< 6]

def originVertex (a : VertexAttr) : Vert :=
  { gfx3dReset a plainLists plainLists with s16coord := originCoord }.vertex plainFloatOps

variable {s₀ : GeomState} {t : Traced} {a : VertexAttr} {v : ℕ → Vert} {k : ℕ}

/-- A list of quads and the vertices that were submitted for it. -/
structure QuadTrace (s₀ : GeomState) (a : VertexAttr) (v : ℕ → Vert) (k : ℕ) (t : Traced) :
    Prop where
  list : InList s₀ .quads v k t.state
  attr : t.state.attr = a
  primitive : t.submitted.primitive = .quads
  assembly : t.submitted.assembly =
    Assembly.pushAll (.separate 4) ⟨[], false, []⟩ ((List.range k).map v)

/-- Up to the size of the vertex list there is room for another polygon. -/
theorem QuadTrace.not_full (h : QuadTrace s₀ a v k t) (hstart : s₀.lists.polyCount = 0)
    (hk : k < vertlistSize) : ¬ t.state.Full := by
  have hlength := length_pushAll_separate (n := 4) ⟨[], false, []⟩
    ((List.range k).map fun i => ((s₀.lists.vertCount + i : ℕ) : ℤ))
  have hcount := h.list.gathers.polyCount
  change _ = s₀.lists.polyCount + (Assembly.pushAll (.separate 4) _ _).groups.length at hcount
  rw [List.length_map, List.length_range] at hlength
  rw [full_iff_polyCount h.list.inv, hcount, hstart]
  change 4 * _ + _ = 4 * 0 + 0 + k at hlength
  rw [vertlistSize] at hk
  omega

theorem QuadTrace.vertex (h : QuadTrace s₀ a v k t) (hstart : s₀.lists.polyCount = 0)
    (hk : k < vertlistSize) (ha : a.texCoordinateTransform ≠ 3) (hv : v k = originVertex a) :
    ∃ t', tracedStep plainFloatOps t (.vtx10 0) = some t' ∧ QuadTrace s₀ a v (k + 1) t' := by
  have hop : (GeomOp.vtx10 0).SetsVertex t.state := trivial
  have hfull := h.not_full hstart hk
  let u : GeomState := { t.state with s16coord := originCoord }
  have hu : Gathers s₀.lists.polyCount u (assemblyOf s₀ .quads k) :=
    ⟨h.list.gathers.pending, h.list.gathers.odd, h.list.gathers.polyCount, h.list.gathers.groups⟩
  have hinv : GeomInv u :=
    ⟨h.list.inv.verts, h.list.inv.polys, h.list.inv.count, h.list.inv.strip⟩
  obtain ⟨s', hs', -, hinputs⟩ := GeomState.setVertex_stores plainFloatOps hu hinv hfull
    h.list.continues h.list.last
  have htransform : u.transformTexcoord = u := if_neg (h.attr ▸ ha)
  rw [htransform] at hinputs
  have hstep : geomStep plainFloatOps t.state (.vtx10 0) = some s' := hs'
  have hvertex : s'.vertex plainFloatOps = originVertex a := by
    rw [GeomState.vertex, hinputs.1, hinputs.2, originVertex, GeomState.vertex]
    rw [show u.attr = a from h.attr]
    rfl
  obtain ⟨s₁, hs₁, hlist⟩ := h.list.store plainFloatOps hop hfull
  obtain rfl : s' = s₁ := Option.some.inj (hstep.symm.trans hs₁)
  refine ⟨⟨s', { t.submitted with
      assembly := t.submitted.assembly.push t.submitted.primitive.rule (s'.vertex plainFloatOps) }⟩,
    ?_, hlist (hvertex.trans hv.symm), hinputs.1.trans h.attr, h.primitive, ?_⟩
  · rw [tracedStep, hstep, Option.map_some, Submitted.step_vertex _ hop, if_pos hfull]
  rw [List.range_succ, List.map_append, List.map_singleton, Assembly.pushAll_concat, ← h.assembly,
    hv, ← hvertex, h.primitive]
  rfl

theorem QuadTrace.vertices (h : QuadTrace s₀ a v k t) (hstart : s₀.lists.polyCount = 0)
    (ha : a.texCoordinateTransform ≠ 3) {n : ℕ} (hk : k + n ≤ vertlistSize)
    (hv : ∀ i, k ≤ i → i < k + n → v i = originVertex a) :
    ∃ t', runM (tracedStep plainFloatOps) t (List.replicate n (.vtx10 0)) = some t' ∧
      QuadTrace s₀ a v (k + n) t' := by
  induction n generalizing t k with
  | zero => exact ⟨t, rfl, h⟩
  | succ n ih =>
    obtain ⟨t₁, ht₁, h₁⟩ := h.vertex hstart (by omega) ha (hv k le_rfl (by omega))
    obtain ⟨t', ht', h'⟩ := ih h₁ (by omega) fun i hi hlt => hv i (by omega) (by omega)
    refine ⟨t', runM_cons_eq_some.mpr ⟨t₁, ht₁, ht'⟩, ?_⟩
    rwa [Nat.add_right_comm] at h'

/-- The quad of the last four vertices, as it is stored and as it was submitted. -/
theorem QuadTrace.last_quad {m : ℕ} (h : QuadTrace s₀ a v (4 * (m + 1)) t)
    (hpoly : s₀.lists.polyCount = 0) (hvert : s₀.lists.vertCount = 0) :
    t.state.lists.polygons[m]? = some ((List.range 4).map fun j =>
      t.state.lists.vert (BitVec.ofInt 16 ((4 * m + j : ℕ) : ℤ)).toNat) ∧
      t.submitted.assembly.groups[m]? = some ((List.range 4).map fun j => v (4 * m + j)) := by
  obtain ⟨odd, hindexes⟩ := pushAll_separate
    (fun i => ((s₀.lists.vertCount + i : ℕ) : ℤ)) (n := 4) (by decide) (m + 1)
  obtain ⟨odd', hvertices⟩ := pushAll_separate v (n := 4) (by decide) (m + 1)
  have hassembly : assemblyOf s₀ .quads (4 * (m + 1)) = _ := hindexes
  have hsubmitted : t.submitted.assembly = _ := h.assembly.trans hvertices
  have hgathers := h.list.gathers
  rw [hassembly] at hgathers
  have hlast : m < ((List.range (m + 1)).map fun i => (List.range 4).map fun j =>
      ((s₀.lists.vertCount + (4 * i + j) : ℕ) : ℤ)).length := by
    rw [List.length_map, List.length_range]
    exact Nat.lt_succ_self m
  have hpolygon := hgathers.polygon hlast
  have hcount : t.state.lists.polyCount = m + 1 := by
    rw [hgathers.polyCount, List.length_map, List.length_range, hpoly, Nat.zero_add]
  constructor
  · rw [GeomLists.polygons, hcount, List.getElem?_map, List.getElem?_range (Nat.lt_succ_self m),
      Option.map_some]
    rw [hpoly, Nat.zero_add, List.getElem_map, List.getElem_range, List.map_map] at hpolygon
    rw [hpolygon]
    simp only [Function.comp_def, hvert, Nat.zero_add]
  · rw [hsubmitted, List.getElem?_map, List.getElem?_range (Nat.lt_succ_self m), Option.map_some]

/-- A quad of its own colour, and 16384 more. -/
def overflowingQuads : List GeomOp :=
  .beginVtxs 1 :: .vtx10 0 ::
    .attr { plainAttr with colorRGB := fun _ => 1 } :: List.replicate 65539 (.vtx10 0)

/-- The last quad has the indices 65536 to 65539, and is stored with the indices of the first. -/
theorem overflowingQuads_denote_wrong :
    ¬ ∀ (fl : FloatOps) (a : VertexAttr) (l m : GeomLists) (ops : List GeomOp) (t : Traced),
      runM (tracedStep fl) (tracedReset a l m) ops = some t → Denotes t := by
  intro hall
  let painted : VertexAttr := { plainAttr with colorRGB := fun _ => 1 }
  let v : ℕ → Vert := fun i => if i = 0 then originVertex plainAttr else originVertex painted
  let s₀ := gfx3dReset plainAttr plainLists plainLists
  have hbegin : QuadTrace s₀ plainAttr v 0
      ⟨glBegin 1 s₀, ⟨.quads, ⟨[], false, []⟩, false⟩⟩ :=
    ⟨InList.begin (by decide : PrimitiveType.ofBits 1 = .quads) (gfx3dReset_inv ..) v, rfl, rfl, rfl⟩
  obtain ⟨t₁, ht₁, h₁⟩ := hbegin.vertex rfl (by decide) (by decide) rfl
  have hpaint : QuadTrace s₀ painted v 1 ⟨{ t₁.state with attr := painted }, t₁.submitted⟩ :=
    ⟨h₁.list.of_attrOnly ⟨painted, _, _, _, _, _, rfl⟩, rfl, h₁.primitive, h₁.assembly⟩
  obtain ⟨t, ht, h⟩ := hpaint.vertices (n := 65539) rfl (by decide) (by decide)
    fun i hi _ => if_neg (by omega)
  have hrun : runM (tracedStep plainFloatOps) (tracedReset plainAttr plainLists plainLists)
      overflowingQuads = some t :=
    runM_cons_eq_some.mpr ⟨_, rfl, runM_cons_eq_some.mpr ⟨t₁, ht₁,
      runM_cons_eq_some.mpr ⟨_, rfl, ht⟩⟩⟩
  have hdenotes := hall _ _ _ _ _ t hrun
  rw [Denotes] at hdenotes
  have hk : 1 + 65539 = 4 * (16384 + 1) := by norm_num
  rw [hk] at h
  obtain ⟨hstored, hgroup⟩ := h.last_quad rfl rfl
  rw [hdenotes, hgroup, Option.some.injEq, List.map_inj_left] at hstored
  have hfirst := hstored 0 (List.mem_range.mpr (by decide))
  have hwrapped : (BitVec.ofInt 16 ((4 * 16384 + 0 : ℕ) : ℤ)).toNat = 0 := by
    rw [BitVec.ofInt_natCast]
    rfl
  rw [hwrapped] at hfirst
  have hzero := h.list.vert 0 (by omega)
  have hcolor : (originVertex painted).color 0 = (originVertex plainAttr).color 0 :=
    congrArg (fun x => x.color 0) (hfirst.trans hzero)
  exact absurd hcolor (by decide)

end Overflow

end Desmume.Geometry
