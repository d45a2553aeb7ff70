import Desmume.Geometry.VertexAssembly

/-! The strips: each vertex is stored once, and every one from the third or fourth on makes a
polygon with the ones before it, as long as the lists have room. -/

namespace Desmume.Geometry
open Library

instance (s : GeomState) : (op : GeomOp) → Decidable (op.SetsVertex s)
  | .vtx16 _ => inferInstanceAs (Decidable (s.coordind ≠ 0))
  | .vtx10 _ | .vtx3 .. | .vtxDiff _ => .isTrue trivial
  | .beginVtxs _ | .endVtxs | .attr _ | .swapBuffers _ | .vblank => .isFalse id

/-- The vertices that a list of commands submits; a command leaves the coordinates and attributes
of its vertex. -/
def submittedVertices (fl : FloatOps) : GeomState → List GeomOp → List Vert
  | _, [] => []
  | s, op :: ops =>
    match geomStep fl s op with
    | none => []
    | some s' => (if op.SetsVertex s then [s'.vertex fl] else []) ++ submittedVertices fl s' ops

theorem submittedVertices_cons {fl : FloatOps} {s s' : GeomState} {op : GeomOp}
    (ops : List GeomOp) (h : geomStep fl s op = some s') :
    submittedVertices fl s (op :: ops) =
      (if op.SetsVertex s then [s'.vertex fl] else []) ++ submittedVertices fl s' ops := by
  rw [submittedVertices, h]

/-- The indices that the vertices of a list get. -/
def assemblyOf (s₀ : GeomState) (p : PrimitiveType) (k : ℕ) : Assembly ℤ :=
  Assembly.pushAll p.rule ⟨[], false, []⟩
    ((List.range k).map fun i => ((s₀.lists.vertCount + i : ℕ) : ℤ))

/-- A list of vertices that started in `s₀`, after `k` vertices of it were stored. -/
structure InList (s₀ : GeomState) (p : PrimitiveType) (v : ℕ → Vert) (k : ℕ) (s : GeomState) :
    Prop where
  inv : GeomInv s
  gathers : Gathers s₀.lists.polyCount s (assemblyOf s₀ p k)
  format : s.vtxFormat = p
  continues : s.continuation ≤ s.count
  last : s.count = 3 → s.map 2 + 1 = s.vertIndex
  vertIndex : s.vertIndex = (s₀.lists.vertCount + k : ℕ)
  vert : ∀ i < k, s.lists.vert (s₀.lists.vertCount + i) = v i
  first : p = .triangleStrip ∨ p = .quadStrip → (assemblyOf s₀ p k).groups ≠ [] → s.first = false

section InList

variable {fl : FloatOps} {s₀ s s' : GeomState} {p : PrimitiveType} {v : ℕ → Vert} {k : ℕ}
  {op : GeomOp}

theorem InList.of_attrOnly (h : InList s₀ p v k s) (hs' : AttrOnly s s') :
    InList s₀ p v k s' := by
  obtain ⟨a, c, i, n, b, w, rfl⟩ := hs'
  exact ⟨⟨h.inv.verts, h.inv.polys, h.inv.count, h.inv.strip⟩,
    ⟨h.gathers.pending, h.gathers.odd, h.gathers.polyCount, h.gathers.groups⟩, h.format,
    h.continues, h.last, h.vertIndex, h.vert, h.first⟩

theorem assemblyOf_succ (s₀ : GeomState) (p : PrimitiveType) (k : ℕ) :
    assemblyOf s₀ p (k + 1) =
      (assemblyOf s₀ p k).push p.rule ((s₀.lists.vertCount + k : ℕ) : ℤ) := by
  rw [assemblyOf, List.range_succ, List.map_append, List.map_cons, List.map_nil,
    Assembly.pushAll_concat]
  rfl

variable (fl) in
/-- The vertex that is submitted next is stored behind the others. -/
theorem InList.store (h : InList s₀ p v k s) (hop : op.SetsVertex s) (hfull : ¬ s.Full) :
    ∃ s', geomStep fl s op = some s' ∧ (s'.vertex fl = v k → InList s₀ p v (k + 1) s') := by
  obtain ⟨s', hs', hstores⟩ :=
    geomStep_stores fl h.gathers h.inv hop hfull h.continues h.last
  refine ⟨s', hs', fun hvertex => ⟨(geomStep_spec fl h.inv).keeps s' hs', ?_,
    hstores.format.trans h.format, hstores.continues, hstores.last, ?_, fun i hi => ?_,
    fun hstrip hgroups => ?_⟩⟩
  · rw [assemblyOf_succ, ← h.vertIndex]
    have hgathers := hstores.gathers
    rwa [h.format] at hgathers
  · rw [hstores.vertIndex, h.vertIndex]
    rfl
  · rw [hstores.vert, h.vertIndex, Int.toNat_natCast, hvertex]
    rcases Nat.lt_succ_iff_lt_or_eq.mp hi with hlt | rfl
    · rw [Function.update_of_ne (by omega)]
      exact h.vert i hlt
    · exact Function.update_self ..
  · by_cases hlast : s.count + 1 = s.vtxFormat.size
    · exact hstores.continued hlast (h.format ▸ hstrip)
    · have hwait : (assemblyOf s₀ p k).pending.length + 1 ≠ p.rule.size := by
        rwa [h.gathers.length_pending h.inv.count_lt_four.le, PrimitiveType.rule_size, ← h.format]
      rw [assemblyOf_succ, Assembly.push_waits hwait] at hgroups
      exact hstores.first (h.first hstrip hgroups)

/-- Of `n` submitted vertices all are stored, or the first ones until the lists were full. -/
def StoredOf (s : GeomState) (k n : ℕ) : Prop := k = n ∨ k ≤ n ∧ s.Full

theorem InList.run {ops : List GeomOp} {n m : ℕ} (h : InList s₀ p v k s) (hk : StoredOf s k n)
    (hinner : ∀ op ∈ ops, op.Inner)
    (hv : submittedVertices fl s ops = (List.range' n m).map v) :
    ∃ s' k', runM (geomStep fl) s ops = some s' ∧ InList s₀ p v k' s' ∧
      StoredOf s' k' (n + m) ∧ (s.Full → k' = k) := by
  induction ops generalizing s k n m with
  | nil =>
    have hm : m = 0 := by
      have hlength := congrArg List.length hv
      rw [List.length_map, List.length_range'] at hlength
      exact hlength.symm
    exact ⟨s, k, rfl, h, hm ▸ hk, fun _ => rfl⟩
  | cons op ops ih =>
    have hrest : ∀ o ∈ ops, o.Inner := fun o ho => hinner o (List.mem_cons_of_mem _ ho)
    by_cases hop : op.SetsVertex s
    · -- the vertex is the next of the list, so the list is not at its end
      have hnext {s' : GeomState} (hs' : geomStep fl s op = some s') :
          ∃ m', m = m' + 1 ∧ s'.vertex fl = v n ∧
            submittedVertices fl s' ops = (List.range' (n + 1) m').map v := by
        rw [submittedVertices_cons ops hs', if_pos hop] at hv
        cases m with
        | zero => exact nomatch hv
        | succ m =>
          rw [List.range'_succ, List.map_cons, List.singleton_append, List.cons.injEq] at hv
          exact ⟨m, rfl, hv⟩
      by_cases hfull : s.Full
      · obtain ⟨s', hs', hattr⟩ := geomStep_dropped fl hop hfull
        obtain ⟨m', rfl, -, hvs⟩ := hnext hs'
        have hfull' : s'.Full := by
          obtain ⟨a, c, i, j, b, w, rfl⟩ := hattr
          exact hfull
        have hle : k ≤ n + 1 := by
          rcases hk with rfl | ⟨hle, -⟩
          · exact Nat.le_succ _
          · exact hle.trans (Nat.le_succ _)
        obtain ⟨t, k', hrun, ht, hk', hsame⟩ :=
          ih (h.of_attrOnly hattr) (Or.inr ⟨hle, hfull'⟩) hrest hvs
        refine ⟨t, k', runM_cons_eq_some.mpr ⟨s', hs', hrun⟩, ht, ?_, fun _ => hsame hfull'⟩
        rwa [Nat.add_right_comm] at hk'
      · obtain rfl : k = n := hk.resolve_right fun hfull' => hfull hfull'.2
        obtain ⟨s', hs', hinlist⟩ := h.store fl hop hfull
        obtain ⟨m', rfl, hvertex, hvs⟩ := hnext hs'
        obtain ⟨t, k', hrun, ht, hk', -⟩ := ih (hinlist hvertex) (Or.inl rfl) hrest hvs
        refine ⟨t, k', runM_cons_eq_some.mpr ⟨s', hs', hrun⟩, ht, ?_, fun h => absurd h hfull⟩
        rwa [Nat.add_right_comm] at hk'
    · obtain ⟨s', hs', hattr⟩ := geomStep_inner fl (hinner op List.mem_cons_self) hop
      rw [submittedVertices_cons ops hs', if_neg hop, List.nil_append] at hv
      have hfull : s'.Full ↔ s.Full := by
        obtain ⟨a, c, i, j, b, w, rfl⟩ := hattr
        exact Iff.rfl
      have hk' : StoredOf s' k n := by rwa [StoredOf, hfull]
      obtain ⟨t, k', hrun, ht, hkt, hsame⟩ := ih (h.of_attrOnly hattr) hk' hrest hv
      exact ⟨t, k', runM_cons_eq_some.mpr ⟨s', hs', hrun⟩, ht, hkt, fun h => hsame (hfull.mpr h)⟩

/-- `BEGIN_VTXS` starts a list. -/
theorem InList.begin {w : BitVec 32}
    (hw : PrimitiveType.ofBits w = p) (h : GeomInv s) (v : ℕ → Vert) :
    InList s p v 0 (glBegin w s) := by
  have hcont : (glBegin w s).continuation = 0 := if_neg fun h => Bool.noConfusion h.2
  refine ⟨?_, ⟨rfl, fun _ => rfl, rfl, fun k hk => absurd hk (Nat.not_lt_zero _)⟩, hw,
    hcont.le, fun h => absurd h (by decide : 0 ≠ 3), ?_, fun i hi => absurd hi (Nat.not_lt_zero _),
    fun _ h => absurd rfl h⟩
  · refine ⟨h.verts, h.polys, ?_, fun _ => hcont.le⟩
    change 0 < (PrimitiveType.ofBits w).size
    cases PrimitiveType.ofBits w <;> decide
  · rw [GeomState.vertIndex, hcont]
    exact Int.sub_zero _

/-- The vertices behind the last polygon are the pending ones. -/
theorem InList.vertCount (h : InList s₀ p v k s) (hp : p = .triangleStrip ∨ p = .quadStrip)
    (hgroups : (assemblyOf s₀ p k).groups ≠ []) :
    s.lists.vertCount + (assemblyOf s₀ p k).pending.length = s₀.lists.vertCount + k + 2 := by
  have hindex := h.vertIndex
  rw [GeomState.vertIndex_of_strip (h.format ▸ hp) (h.first hp hgroups),
    ← h.gathers.length_pending h.inv.count_lt_four.le] at hindex
  omega

/-- The lists are full exactly if there is no room for a polygon. -/
theorem full_iff_polyCount (h : GeomInv s) : s.Full ↔ s.lists.polyCount = polylistSize := by
  have hverts := h.verts
  have hpolys := h.polys
  rw [GeomState.Full, vertlistSize]
  omega

/-- A strip put `n` polygons into the lists: their vertices follow each other in the vertex list,
`last k` is the last one of the `k`-th, and its corners are right if its sixteen bit indices are. -/
structure StripStored (s₀ s : GeomState) (v : ℕ → Vert) (polygon : (ℕ → Vert) → ℕ → List Vert)
    (last : ℕ → ℕ) (n : ℕ) : Prop where
  polyCount : s.lists.polyCount = s₀.lists.polyCount + n
  vertCount : s.lists.vertCount = s₀.lists.vertCount + if n = 0 then 0 else last (n - 1) + 1
  vert : 0 < n → ∀ i ≤ last (n - 1), s.lists.vert (s₀.lists.vertCount + i) = v i
  polygons : ∀ k < n, s₀.lists.vertCount + last k < 2 ^ 16 →
    s.lists.polygon (s₀.lists.polyCount + k) = polygon v k

end InList

theorem toNat_ofInt_index {n : ℕ} (h : n < 2 ^ 16) : (BitVec.ofInt 16 (n : ℤ)).toNat = n := by
  rw [BitVec.ofInt_natCast, BitVec.toNat_ofNat, Nat.mod_eq_of_lt h]

section Stored

variable {s₀ s : GeomState} {p : PrimitiveType} {v : ℕ → Vert} {k j : ℕ}

/-- What the groups of a strip say about the lists. -/
theorem InList.stored (h : InList s₀ p v k s) (hp : p = .triangleStrip ∨ p = .quadStrip)
    {polygon : (ℕ → Vert) → ℕ → List Vert}
    {indexes : (ℕ → ℤ) → ℕ → List ℤ} {last : ℕ → ℕ} (hj : 0 < j)
    (hgroups : (assemblyOf s₀ p k).groups =
      (List.range j).map (indexes fun i => ((s₀.lists.vertCount + i : ℕ) : ℤ)))
    (hused : last (j - 1) + 1 + (assemblyOf s₀ p k).pending.length = k + 2)
    (hpending : 2 ≤ (assemblyOf s₀ p k).pending.length) (hmono : ∀ n < j, last n ≤ last (j - 1))
    (hpolygon : ∀ n (u : ℕ → ℤ) (f : ℤ → Vert), (∀ i ≤ last n, f (u i) = v i) →
      (indexes u n).map f = polygon v n) : StripStored s₀ s v polygon last j := by
  have hlength : (assemblyOf s₀ p k).groups.length = j := by
    rw [hgroups, List.length_map, List.length_range]
  have hne : (assemblyOf s₀ p k).groups ≠ [] :=
    List.ne_nil_of_length_pos (by rw [hlength]; exact hj)
  have hcount := h.vertCount hp hne
  refine ⟨?_, ?_, fun _ i hi => h.vert i (by omega), fun n hn hlast => ?_⟩
  · rw [h.gathers.polyCount, hlength]
  · rw [if_neg hj.ne']
    omega
  · rw [h.gathers.polygon (hlength.symm ▸ hn)]
    simp only [hgroups, List.getElem_map, List.getElem_range]
    refine hpolygon n _ _ fun i hi => ?_
    rw [toNat_ofInt_index (by omega)]
    exact h.vert i (by have := hmono n hn; omega)

/-- `j + 2` stored vertices of a triangle strip make `j` triangles. -/
theorem InList.triangles (h : InList s₀ .triangleStrip v (j + 2) s) (hj : 0 < j) :
    StripStored s₀ s v stripTriangle (· + 2) j := by
  have hassembly : assemblyOf s₀ .triangleStrip (j + 2) = _ := pushAll_triangleStrip _ [] j
  have hpending : (assemblyOf s₀ .triangleStrip (j + 2)).pending.length = 2 := by
    rw [hassembly]
    dsimp only
    split_ifs <;> rfl
  refine h.stored (Or.inl rfl) hj (by rw [hassembly, List.nil_append]) (by omega) hpending.ge
    (fun n hn => by omega) fun n u f hf => ?_
  rw [stripTriangle_map]
  exact stripTriangle_congr hf

/-- `2 * j + 2` stored vertices of a quad strip make `j` quads, and so does one more. -/
theorem InList.quads (h : InList s₀ .quadStrip v k s) (hk : k = 2 * j + 2 ∨ k = 2 * j + 3)
    (hj : 0 < j) : StripStored s₀ s v stripQuad (2 * · + 3) j := by
  have heven : assemblyOf s₀ .quadStrip (2 * j + 2) = _ := pushAll_quadStrip _ [] j
  have hodd : assemblyOf s₀ .quadStrip (2 * j + 3) = _ :=
    (assemblyOf_succ s₀ .quadStrip (2 * j + 2)).trans (Assembly.push_waits (by
      rw [heven]
      exact (by decide : 3 ≠ 4)))
  have hgroups : (assemblyOf s₀ .quadStrip k).groups = (List.range j).map
      (stripQuad fun i => ((s₀.lists.vertCount + i : ℕ) : ℤ)) := by
    rcases hk with rfl | rfl
    · rw [heven, List.nil_append]
    · rw [hodd, heven, List.nil_append]
  have hpending : (assemblyOf s₀ .quadStrip k).pending.length = k - 2 * j := by
    rcases hk with rfl | rfl
    · rw [heven, Nat.add_sub_cancel_left]
      rfl
    · rw [hodd, heven, Nat.add_sub_cancel_left]
      rfl
  refine h.stored (Or.inr rfl) hj hgroups (by omega) (by omega) (fun n hn => by omega) fun n u f hf => ?_
  rw [stripQuad_map]
  exact stripQuad_congr hf

end Stored

section Run

variable {fl : FloatOps} {s s' : GeomState} {p : PrimitiveType} {v : ℕ → Vert} {k n : ℕ}

theorem groups_of_lt_size (s : GeomState) (hp : p = .triangleStrip ∨ p = .quadStrip)
    (hk : k < p.size) : (assemblyOf s p k).groups = [] := by
  rcases hp with rfl | rfl
  · match k, hk with
    | 0, _ | 1, _ | 2, _ => rfl
  · match k, hk with
    | 0, _ | 1, _ | 2, _ | 3, _ => rfl

/-- Lists that were full from the start do not change. -/
theorem InList.none_stored (h : InList s p v 0 s') {polygon : (ℕ → Vert) → ℕ → List Vert}
    {last : ℕ → ℕ} : StripStored s s' v polygon last 0 := by
  have hzero : 0 = s'.count := h.gathers.length_pending h.inv.count_lt_four.le
  have hindex := h.vertIndex
  have hcont := h.continues
  rw [GeomState.vertIndex] at hindex
  refine ⟨h.gathers.polyCount, ?_, fun h => absurd h (lt_irrefl 0),
    fun k hk => absurd hk (Nat.not_lt_zero k)⟩
  rw [if_pos rfl]
  omega

/-- A strip of `n` vertices makes `polygons n` polygons, or as many as there is room for. -/
theorem strip_run (polygons : ℕ → ℕ) (hp : p = .triangleStrip ∨ p = .quadStrip)
    (hinv : GeomInv s) {w : BitVec 32} (hw : PrimitiveType.ofBits w = p) {ops : List GeomOp} (hinner : ∀ op ∈ ops, op.Inner)
    (hv : submittedVertices fl s (.beginVtxs w :: ops) = (List.range n).map v)
    {polygon : (ℕ → Vert) → ℕ → List Vert} {last : ℕ → ℕ} (hmono : Monotone polygons)
    (hstored : ∀ k s', InList s p v k s' → p.size ≤ k →
      StripStored s s' v polygon last (polygons k)) (hn : p.size ≤ n) :
    ∃ s', runM (geomStep fl) s (.beginVtxs w :: ops) = some s' ∧
      StripStored s s' v polygon last (min (polygons n) (polylistSize - s.lists.polyCount)) := by
  have hbegin : geomStep fl s (.beginVtxs w) = some (glBegin w s) := rfl
  have hnot : ¬ (GeomOp.beginVtxs w).SetsVertex s := id
  rw [submittedVertices_cons ops hbegin, if_neg hnot, List.nil_append, List.range_eq_range'] at hv
  obtain ⟨s', k, hrun, hs', hk, hsame⟩ :=
    (InList.begin hw hinv v).run (n := 0) (Or.inl rfl) hinner hv
  rw [Nat.zero_add] at hk
  refine ⟨s', runM_cons_eq_some.mpr ⟨_, hbegin, hrun⟩, ?_⟩
  have hpolyCount := hs'.gathers.polyCount
  have hle := hs'.inv.polys
  by_cases hfull : s.Full
  · obtain rfl : k = 0 := hsame hfull
    rw [(full_iff_polyCount hinv).mp hfull, Nat.sub_self, Nat.min_zero]
    exact hs'.none_stored
  · have hroom : s.lists.polyCount ≠ polylistSize :=
      fun h => hfull ((full_iff_polyCount hinv).mpr h)
    have hsize : p.size ≤ k := by
      rcases hk with rfl | ⟨-, hfull'⟩
      · exact hn
      · -- the lists got full, so there are polygons
        by_contra hlt
        rw [groups_of_lt_size s hp (not_le.mp hlt)] at hpolyCount
        exact hroom (hpolyCount.symm.trans ((full_iff_polyCount hs'.inv).mp hfull'))
    have hk' := hstored k s' hs' hsize
    have hcount := hk'.polyCount
    have hmin : min (polygons n) (polylistSize - s.lists.polyCount) = polygons k := by
      rcases hk with rfl | ⟨hkn, hfull'⟩
      · exact min_eq_left (by omega)
      · have hend := (full_iff_polyCount hs'.inv).mp hfull'
        have hnk := hmono hkn
        rw [min_eq_right (by omega)]
        omega
    rw [hmin]
    exact hk'

/-- From any state that is reached, `n` vertices of a triangle strip make `n - 2` triangles and `n`
vertices of a quad strip `(n - 2) / 2` quads, or as many as the lists have room for. -/
theorem strips_stored (fl : FloatOps) (a : VertexAttr) (l m : GeomLists) {before ops : List GeomOp}
    {s : GeomState} {w : BitVec 32} {v : ℕ → Vert} {n : ℕ}
    (hreach : runM (geomStep fl) (gfx3dReset a l m) before = some s)
    (hinner : ∀ op ∈ ops, op.Inner)
    (hv : submittedVertices fl s (.beginVtxs w :: ops) = (List.range n).map v) :
    (PrimitiveType.ofBits w = .triangleStrip → 3 ≤ n →
      ∃ s', runM (geomStep fl) s (.beginVtxs w :: ops) = some s' ∧
        StripStored s s' v stripTriangle (· + 2)
          (min (n - 2) (polylistSize - s.lists.polyCount))) ∧
      (PrimitiveType.ofBits w = .quadStrip → 4 ≤ n → Even n →
        ∃ s', runM (geomStep fl) s (.beginVtxs w :: ops) = some s' ∧
          StripStored s s' v stripQuad (2 * · + 3)
            (min ((n - 2) / 2) (polylistSize - s.lists.polyCount))) := by
  have hinv : GeomInv s :=
    runM_invariant (fun _ _ s' h => (geomStep_spec fl h).keeps s') (gfx3dReset_inv a l m) hreach
  constructor
  · intro hw hn
    refine strip_run (fun k => k - 2) (Or.inl rfl) hinv hw hinner hv ?_ ?_ hn
    · exact fun i j hij => Nat.sub_le_sub_right hij 2
    · intro k s' hs' hk
      have hthree : 3 ≤ k := hk
      obtain ⟨j, rfl⟩ : ∃ j, k = j + 2 := ⟨k - 2, by omega⟩
      exact hs'.triangles (by omega)
  · intro hw hn heven
    refine strip_run (fun k => (k - 2) / 2) (Or.inr rfl) hinv hw hinner hv ?_ ?_ hn
    · exact fun i j hij => Nat.div_le_div_right (Nat.sub_le_sub_right hij 2)
    · intro k s' hs' hk
      have hfour : 4 ≤ k := hk
      exact hs'.quads (by omega) (by omega)

end Run

/-- Commands that each submit a vertex of a strip submit as many as they are. -/
theorem length_submittedVertices {fl : FloatOps} {s₀ s : GeomState} {p : PrimitiveType}
    {v : ℕ → Vert} {k : ℕ} (h : InList s₀ p v k s) (n : ℕ) :
    (submittedVertices fl s (List.replicate n (.vtx10 0))).length = n := by
  induction n generalizing s v k with
  | zero => rfl
  | succ n ih =>
    have hop : (GeomOp.vtx10 0).SetsVertex s := trivial
    have hnext : ∃ s' v' k', geomStep fl s (.vtx10 0) = some s' ∧ InList s₀ p v' k' s' := by
      by_cases hfull : s.Full
      · obtain ⟨s', hs', hattr⟩ := geomStep_dropped fl hop hfull
        exact ⟨s', v, k, hs', h.of_attrOnly hattr⟩
      · obtain ⟨t, ht, -⟩ := h.store fl hop hfull
        -- the same strip with this vertex as its next one
        have h' : InList s₀ p (Function.update v k (t.vertex fl)) k s :=
          { h with vert := fun i hi => (h.vert i hi).trans (Function.update_of_ne hi.ne _ _).symm }
        obtain ⟨s', hs', hstored⟩ := h'.store fl hop hfull
        obtain rfl : t = s' := Option.some.inj (ht.symm.trans hs')
        exact ⟨t, _, k + 1, ht, hstored (by rw [Function.update_self])⟩
    obtain ⟨s', v', k', hs', h'⟩ := hnext
    rw [List.replicate_succ, submittedVertices_cons _ hs', if_pos hop, List.length_append, ih h']
    exact Nat.add_comm 1 n

theorem eq_map_getD {α : Type*} (l : List α) (d : α) :
    l = (List.range l.length).map fun i => l.getD i d := by
  refine List.ext_getElem (by rw [List.length_map, List.length_range]) fun i h _ => ?_
  rw [List.getElem_map, List.getElem_range, List.getD_eq_getElem?_getD, List.getElem?_eq_getElem h,
    Option.getD_some]

/-- Floats, attributes and lists for the examples. -/
def plainFloatOps : FloatOps := ⟨id, id, fun b => b.setWidth 32, fun a b => a == b⟩

def plainAttr : VertexAttr := ⟨fun _ _ => 0, 0, 0, 0, 0, 0, fun _ => 0, 0, 0, 0, 0⟩

def plainVert : Vert := ⟨0, 0, 0, 0, 0, 0, fun _ => 0, fun _ => 0⟩

def plainLists : GeomLists := ⟨fun _ => plainVert, 0, fun _ => ⟨0, 0, fun _ => 0, 0, 0, 0, 0, 0, 0⟩, 0⟩

theorem strips_stored_three :
    ∃ s', runM (geomStep plainFloatOps) (gfx3dReset plainAttr plainLists plainLists)
        [.beginVtxs 2, .vtx10 0, .vtx10 0, .vtx10 0] = some s' ∧
      StripStored (gfx3dReset plainAttr plainLists plainLists) s' (fun i =>
        (submittedVertices plainFloatOps (gfx3dReset plainAttr plainLists plainLists)
          [.beginVtxs 2, .vtx10 0, .vtx10 0, .vtx10 0]).getD i plainVert)
        stripTriangle (· + 2) (min (3 - 2) (polylistSize - 0)) :=
  (strips_stored plainFloatOps plainAttr plainLists plainLists (runM_nil _ _) (by
    intro op hop
    rw [List.eq_of_mem_replicate (n := 3) hop]
    exact trivial) (eq_map_getD _ plainVert)).1 (by decide) (by decide)

/-- One vertex too many for the polygon list, so the last one makes no polygon. -/
theorem strip_overfull :
    ¬ ∀ (fl : FloatOps) (a : VertexAttr) (l m : GeomLists) (ops : List GeomOp) (w : BitVec 32)
      (v : ℕ → Vert) (n : ℕ), (∀ op ∈ ops, op.Inner) → 3 ≤ n →
      PrimitiveType.ofBits w = .triangleStrip →
      submittedVertices fl (gfx3dReset a l m) (.beginVtxs w :: ops) = (List.range n).map v →
      ∃ s', runM (geomStep fl) (gfx3dReset a l m) (.beginVtxs w :: ops) = some s' ∧
        s'.lists.polyCount = n - 2 := by
  intro hall
  let s₀ := gfx3dReset plainAttr plainLists plainLists
  let ops : List GeomOp := List.replicate 20003 (.vtx10 0)
  have hinv : GeomInv s₀ := gfx3dReset_inv ..
  have hw : PrimitiveType.ofBits 2 = .triangleStrip := by decide
  have hinner : ∀ op ∈ ops, op.Inner := fun op hop => by
    rw [List.eq_of_mem_replicate hop]
    exact trivial
  have hstart := InList.begin hw hinv fun _ => plainVert
  have hvertices : submittedVertices plainFloatOps s₀ (.beginVtxs 2 :: ops) =
      submittedVertices plainFloatOps (glBegin 2 s₀) ops :=
    (submittedVertices_cons ops rfl).trans (if_neg id ▸ List.nil_append _)
  have hv := eq_map_getD (submittedVertices plainFloatOps s₀ (.beginVtxs 2 :: ops)) plainVert
  rw [hvertices, length_submittedVertices hstart, ← hvertices] at hv
  obtain ⟨s', hs', hcount⟩ := hall plainFloatOps plainAttr plainLists plainLists ops 2 _ 20003
    hinner (by decide) hw hv
  obtain ⟨t, ht, hstored⟩ := strip_run (fun k => k - 2) (Or.inl rfl) hinv hw hinner hv
    (fun i j hij => Nat.sub_le_sub_right hij 2) (fun k t ht hk => by
      have hthree : 3 ≤ k := hk
      obtain ⟨j, rfl⟩ : ∃ j, k = j + 2 := ⟨k - 2, by omega⟩
      exact ht.triangles (by omega)) (by decide)
  obtain rfl : s' = t := Option.some.inj (hs'.symm.trans ht)
  have hpoly := hstored.polyCount
  rw [hcount] at hpoly
  exact absurd hpoly (by decide)

end Desmume.Geometry
