import Desmume.Library.Loop
import Mathlib.Logic.Equiv.Basic

/-! `sort_verts` of the software rasterizer: the vertices of a polygon, rotated until the stepping
around it can start at the first one. -/

namespace Desmume.Raster
open Library

/-- The place of a vertex on the screen. -/
structure ScreenVert where
  x : ℤ
  y : ℤ
deriving DecidableEq

section

variable (type : ℕ) (backwards : Bool) (verts : ℕ → ScreenVert)

/-- `swap(verts[i],verts[j])`. -/
def swapVerts (i j : ℕ) : ℕ → ScreenVert := verts ∘ Equiv.swap i j

def rotSwap (X : ℕ) : ℕ → ScreenVert :=
  if type > X then swapVerts verts (X - 1) X else verts

def rotVerts : ℕ → ScreenVert := [1, 2, 3, 4, 5, 6, 7, 8, 9].foldl (rotSwap type) verts

/-- The reordering of a polygon that is given backwards. -/
def reverseVerts : ℕ → ScreenVert :=
  (List.range (type / 2)).foldl (fun verts i => swapVerts verts i (type - i - 1)) verts

/-- One of the `CHECKY` jumps to `doswap`. -/
abbrev DoSwap : Prop :=
  ∃ X ∈ [1, 2, 3, 4, 5, 6, 7, 8, 9], type > X ∧ (verts 0).y > (verts X).y

abbrev Falls : Prop := (verts 0).y = (verts 1).y ∧ (verts 0).x > (verts 1).x

/-- `sort_verts<type>`, with a bound on the rounds of each of its loops. -/
def sortVerts (rounds : ℕ) : Option (ℕ → ScreenVert) :=
  let start := if backwards then reverseVerts type verts else verts
  (runWhile (DoSwap type) (rotVerts type) rounds start).bind
    (runWhile Falls (rotVerts type) rounds)

/-- The order of the vertices that the rasterizer asks for. -/
def inOrder (k : ℕ) : ScreenVert := if backwards then verts (type - 1 - k) else verts k

/-- No vertex is above this one, and none on its line is left of it. -/
def IsCorner (v : ScreenVert) : Prop :=
  ∀ k < type, v.y ≤ (verts k).y ∧ (v.y = (verts k).y → v.x ≤ (verts k).x)

instance (v : ScreenVert) : Decidable (IsCorner type verts v) :=
  inferInstanceAs (Decidable (∀ k < type, _ ∧ (_ → _)))

/-- What the comment on `sort_verts` says. -/
def Sorts : Prop :=
  ∀ rounds ≥ type, ∃ out, sortVerts type backwards verts rounds = some out ∧
    (∃ r, ∀ k < type, out k = inOrder type backwards verts ((k + r) % type)) ∧
    IsCorner type verts (out 0)

/-- The next vertex is on the same line, to the left. -/
abbrev StepsLeft (n : ℕ) : Prop :=
  (verts (n % type)).y = (verts ((n + 1) % type)).y ∧
    (verts (n % type)).x > (verts ((n + 1) % type)).x

/-- From the first of the topmost vertices on they go left on the line, one after the other, until
they are at the corner. -/
def LeadsToCorner : Prop :=
  ∃ p < type, (∀ q < p, (verts p).y < (verts q).y) ∧ ∃ j < type,
    (∀ i < j, StepsLeft type verts (p + i)) ∧ IsCorner type verts (verts ((p + j) % type))

instance : Decidable (LeadsToCorner type verts) :=
  inferInstanceAs (Decidable (∃ p < type, _ ∧ ∃ j < type, _ ∧ _))

end

variable {type : ℕ} {backwards : Bool} {verts : ℕ → ScreenVert}

theorem foldl_rotSwap (m k : ℕ) : (List.range' 1 m).foldl (rotSwap type) verts k =
    if k < min m (type - 1) then verts (k + 1)
    else if k = min m (type - 1) then verts 0 else verts k := by
  induction m generalizing k with
  | zero =>
    have hmin : min 0 (type - 1) = 0 := Nat.zero_min _
    rw [hmin, if_neg (Nat.not_lt_zero k)]
    split_ifs with hk
    · rw [hk]
      rfl
    · rfl
  | succ m ih =>
    rw [List.range'_1_concat, List.foldl_append, List.foldl_cons, List.foldl_nil, rotSwap]
    split_ifs with htype hlt heq
    all_goals try simp only [swapVerts, Function.comp_apply, Equiv.swap_apply_def]
    all_goals grind

theorem rotVerts_apply (h : type ≤ 10) {k : ℕ} (hk : k < type) :
    rotVerts type verts k = verts ((k + 1) % type) := by
  refine (foldl_rotSwap 9 k).trans ?_
  have hmin : min 9 (type - 1) = type - 1 := by omega
  rw [hmin]
  split_ifs with hlt heq
  · rw [Nat.mod_eq_of_lt (by omega)]
  · rw [heq, Nat.sub_add_cancel (by omega), Nat.mod_self]
  · omega

theorem iterate_rotVerts (h : type ≤ 10) (n : ℕ) {k : ℕ} (hk : k < type) :
    (rotVerts type)^[n] verts k = verts ((k + n) % type) := by
  induction n generalizing k with
  | zero => rw [Nat.add_zero, Nat.mod_eq_of_lt hk, Function.iterate_zero_apply]
  | succ n ih =>
    rw [Function.iterate_succ_apply', rotVerts_apply h hk, ih (Nat.mod_lt _ (by omega)),
      Nat.mod_add_mod, Nat.add_assoc, Nat.add_comm 1 n]

theorem foldl_reverse {n : ℕ} (hn : n ≤ type / 2) {k : ℕ} (hk : k < type) :
    (List.range n).foldl (fun verts i => swapVerts verts i (type - i - 1)) verts k =
      if k < n ∨ type - n ≤ k then verts (type - 1 - k) else verts k := by
  induction n generalizing k with
  | zero => rw [if_neg (by omega), List.range_zero, List.foldl_nil]
  | succ n ih =>
    rw [List.range_succ, List.foldl_append, List.foldl_cons, List.foldl_nil, swapVerts,
      Function.comp_apply, Equiv.swap_apply_def]
    have ih {k : ℕ} := @ih (by omega) k
    split_ifs <;> grind

theorem reverseVerts_apply {k : ℕ} (hk : k < type) :
    reverseVerts type verts k = verts (type - 1 - k) := by
  rw [reverseVerts, foldl_reverse (Nat.le_refl _) hk]
  split_ifs with h
  · rfl
  · congr 1
    omega

/-- The array that the loops start from, as far as the polygon goes. -/
theorem start_apply {k : ℕ} (hk : k < type) :
    (if backwards then reverseVerts type verts else verts) k = inOrder type backwards verts k := by
  cases backwards
  · rfl
  · exact reverseVerts_apply hk

theorem mem_checked {X : ℕ} : X ∈ [1, 2, 3, 4, 5, 6, 7, 8, 9] ↔ 0 < X ∧ X < 10 := by
  simp
  omega

/-- The first loop stops at the first of the topmost vertices. -/
theorem doSwap_iterate (h : type ≤ 10) {v : ℕ → ScreenVert} {p : ℕ} (hp : p < type) :
    DoSwap type ((rotVerts type)^[p] v) ↔ ∃ q < type, (v q).y < (v p).y := by
  have hentry {X : ℕ} (hX : X < type) :
      (rotVerts type)^[p] v X = v ((X + p) % type) := iterate_rotVerts h p hX
  have hzero : (rotVerts type)^[p] v 0 = v p := by
    rw [hentry (by omega), Nat.zero_add, Nat.mod_eq_of_lt hp]
  constructor
  · rintro ⟨X, -, hX, hlt⟩
    rw [hzero, hentry hX] at hlt
    exact ⟨_, Nat.mod_lt _ (by omega), hlt⟩
  · rintro ⟨q, hq, hlt⟩
    -- `q` is some places after `p`
    have hmod : ((q + type - p) % type + p) % type = q := by
      rw [Nat.mod_add_mod, Nat.sub_add_cancel (by omega), Nat.add_mod_right, Nat.mod_eq_of_lt hq]
    have hX : (q + type - p) % type < type := Nat.mod_lt _ (by omega)
    have hne : (q + type - p) % type ≠ 0 := by
      intro hzero
      rw [hzero, Nat.zero_add, Nat.mod_eq_of_lt hp] at hmod
      exact absurd hlt (by rw [hmod]; exact lt_irrefl _)
    refine ⟨_, ?_, hX, ?_⟩
    · exact mem_checked.mpr ⟨Nat.pos_of_ne_zero hne, hX.trans_le h⟩
    · rw [hzero, hentry hX, hmod]
      exact hlt

theorem exists_topmost (v : ℕ → ScreenVert) (h : 0 < type) :
    ∃ p < type, (∀ q < p, (v p).y < (v q).y) ∧ ∀ q < type, (v p).y ≤ (v q).y := by
  obtain ⟨m, hm, hle⟩ := (Finset.range type).exists_min_image (fun k => (v k).y)
    ⟨0, Finset.mem_range.mpr h⟩
  have hex : ∃ p, p < type ∧ ∀ q < type, (v p).y ≤ (v q).y :=
    ⟨m, Finset.mem_range.mp hm, fun q hq => hle q (Finset.mem_range.mpr hq)⟩
  obtain ⟨hp, hmin⟩ := Nat.find_spec hex
  refine ⟨Nat.find hex, hp, fun q hq => ?_, hmin⟩
  by_contra hge
  exact Nat.find_min hex hq ⟨by omega, fun k hk => (not_lt.mp hge).trans (hmin k hk)⟩

/-- There is no way left around the whole polygon. -/
theorem exists_not_stepsLeft (v : ℕ → ScreenVert) (p : ℕ) (h : 0 < type) :
    ∃ j < type, ¬ StepsLeft type v (p + j) := by
  by_contra hall
  push Not at hall
  have hdown (j : ℕ) (hj : j ≤ type) : (v ((p + j) % type)).x + j ≤ (v (p % type)).x := by
    induction j with
    | zero => simp
    | succ j ih =>
      have hstep := (hall j hj).2
      have := ih (by omega)
      rw [Nat.add_assoc] at hstep
      push_cast
      omega
  have := hdown type (Nat.le_refl _)
  rw [Nat.add_mod_right] at this
  omega

section Loops

variable (h3 : 3 ≤ type) (h10 : type ≤ 10)
include h3 h10

theorem falls_iterate (v : ℕ → ScreenVert) (n : ℕ) :
    Falls ((rotVerts type)^[n] v) ↔ StepsLeft type v n := by
  rw [Falls, iterate_rotVerts h10 n (by omega), iterate_rotVerts h10 n (by omega), Nat.zero_add,
    Nat.add_comm 1 n]

/-- Where the two loops end: some places after the first of the topmost vertices. -/
theorem sortVerts_eq (v : ℕ → ScreenVert) {p j : ℕ} (hp : p < type)
    (hfirst : ∀ q < p, (v p).y < (v q).y) (hmin : ∀ q < type, (v p).y ≤ (v q).y) (hj : j < type)
    (hleft : ∀ i < j, StepsLeft type v (p + i)) (hend : ¬ StepsLeft type v (p + j)) {rounds : ℕ}
    (hr : type ≤ rounds) :
    (runWhile (DoSwap type) (rotVerts type) rounds v).bind
        (runWhile Falls (rotVerts type) rounds) = some ((rotVerts type)^[p + j] v) := by
  have hswap (k : ℕ) (hk : k < p) : DoSwap type ((rotVerts type)^[k] v) :=
    (doSwap_iterate h10 (hk.trans hp)).mpr ⟨p, hp, hfirst k hk⟩
  have hstop : ¬ DoSwap type ((rotVerts type)^[p] v) := by
    rw [doSwap_iterate h10 hp]
    rintro ⟨q, hq, hlt⟩
    exact absurd hlt (not_lt.mpr (hmin q hq))
  have hfalls (i : ℕ) : Falls ((rotVerts type)^[i] ((rotVerts type)^[p] v)) ↔
      StepsLeft type v (p + i) := by
    rw [← Function.iterate_add_apply, Nat.add_comm i p, falls_iterate h3 h10]
  rw [runWhile_of_runs hswap hstop (by omega), Option.bind_some,
    runWhile_of_runs (fun i hi => (hfalls i).mpr (hleft i hi)) (mt (hfalls j).mp hend) (by omega),
    ← Function.iterate_add_apply, Nat.add_comm j p]

/-- The loops end at some place after the first of the topmost vertices, up to where the vertices
have gone left. -/
theorem exists_sortVerts (v : ℕ → ScreenVert) : ∃ p < type, (∀ q < p, (v p).y < (v q).y) ∧
    (∀ q < type, (v p).y ≤ (v q).y) ∧ ∃ j < type, (∀ i < j, StepsLeft type v (p + i)) ∧
    ¬ StepsLeft type v (p + j) ∧ ∀ rounds ≥ type,
      (runWhile (DoSwap type) (rotVerts type) rounds v).bind
        (runWhile Falls (rotVerts type) rounds) = some ((rotVerts type)^[p + j] v) := by
  obtain ⟨p, hp, hfirst, hmin⟩ := exists_topmost v (by omega : 0 < type)
  have hex := exists_not_stepsLeft v p (by omega : 0 < type)
  obtain ⟨hj, hend⟩ := Nat.find_spec hex
  have hleft (i : ℕ) (hi : i < Nat.find hex) : StepsLeft type v (p + i) := by
    by_contra hnot
    exact Nat.find_min hex hi ⟨by omega, hnot⟩
  exact ⟨p, hp, hfirst, hmin, _, hj, hleft, hend, fun rounds hr =>
    sortVerts_eq h3 h10 v hp hfirst hmin hj hleft hend hr⟩

end Loops

section Corner

variable {v w : ℕ → ScreenVert} {p j : ℕ}

/-- A corner ends the way to the left, which therefore leads to no other place. -/
theorem leadsToCorner_iff (hp : p < type) (hfirst : ∀ q < p, (v p).y < (v q).y)
    (hmin : ∀ q < type, (v p).y ≤ (v q).y) (hj : j < type)
    (hleft : ∀ i < j, StepsLeft type v (p + i)) (hend : ¬ StepsLeft type v (p + j)) :
    LeadsToCorner type v ↔ IsCorner type v (v ((p + j) % type)) := by
  refine ⟨?_, fun hc => ⟨p, hp, hfirst, j, hj, hleft, hc⟩⟩
  rintro ⟨p', hp', hfirst', j', hj', hleft', hc⟩
  have hpp : p' = p := by
    rcases lt_trichotomy p' p with hlt | heq | hgt
    · have hline (i : ℕ) (hi : i ≤ j') : (v ((p' + i) % type)).y = (v p').y := by
        induction i with
        | zero => rw [Nat.add_zero, Nat.mod_eq_of_lt hp']
        | succ i ih => rw [← Nat.add_assoc, ← (hleft' i hi).1, ih (by omega)]
      have hle := (hc p hp).1
      rw [hline j' (Nat.le_refl _)] at hle
      exact absurd (hfirst p' hlt) (not_lt.mpr hle)
    · exact heq
    · exact absurd (hmin p' hp') (not_le.mpr (hfirst' p hgt))
  subst hpp
  have hjj : j' = j := by
    rcases lt_trichotomy j' j with hlt | heq | hgt
    · have hstep := hleft j' hlt
      exact absurd ((hc _ (Nat.mod_lt _ (by omega))).2 hstep.1) (not_le.mpr hstep.2)
    · exact heq
    · exact absurd (hleft' j hgt) hend
  rwa [hjj] at hc

variable (h : ∀ k < type, v k = w k)
include h

theorem isCorner_congr {c : ScreenVert} : IsCorner type v c ↔ IsCorner type w c := by
  constructor
  · intro hc k hk
    rw [← h k hk]
    exact hc k hk
  · intro hc k hk
    rw [h k hk]
    exact hc k hk

theorem leadsToCorner_of_eq (hv : LeadsToCorner type v) : LeadsToCorner type w := by
  obtain ⟨p, hp, hfirst, j, hj, hleft, hc⟩ := hv
  have hmod (n : ℕ) : v (n % type) = w (n % type) := h _ (Nat.mod_lt _ (by omega))
  refine ⟨p, hp, fun q hq => ?_, j, hj, fun i hi => ?_, ?_⟩
  · rw [← h p hp, ← h q (hq.trans hp)]
    exact hfirst q hq
  · have := hleft i hi
    rwa [StepsLeft, hmod, hmod] at this
  · rw [← hmod]
    exact (isCorner_congr h).mp hc

end Corner

theorem isCorner_inOrder {c : ScreenVert} :
    IsCorner type (inOrder type backwards verts) c ↔ IsCorner type verts c := by
  cases backwards
  · rfl
  · constructor
    · intro hc k hk
      have := hc (type - 1 - k) (by omega)
      rwa [inOrder, if_pos rfl, Nat.sub_sub_self (by omega)] at this
    · exact fun hc k hk => hc (type - 1 - k) (by omega)

/-- `sort_verts` does what it is for exactly if the way to the left from the first topmost vertex
leads to the corner: it does not look at the topmost vertices before that one. -/
theorem sorts_iff (h3 : 3 ≤ type) (h10 : type ≤ 10) :
    Sorts type backwards verts ↔ LeadsToCorner type (inOrder type backwards verts) := by
  let v := if backwards then reverseVerts type verts else verts
  have hv (k : ℕ) (hk : k < type) : v k = inOrder type backwards verts k := start_apply hk
  obtain ⟨p, hp, hfirst, hmin, j, hj, hleft, hend, hsort⟩ := exists_sortVerts h3 h10 v
  have hiff := leadsToCorner_iff hp hfirst hmin hj hleft hend
  have hentry {k : ℕ} (hk : k < type) : (rotVerts type)^[p + j] v k = v ((k + (p + j)) % type) :=
    iterate_rotVerts h10 _ hk
  have hhead : (rotVerts type)^[p + j] v 0 = v ((p + j) % type) := by
    rw [hentry (by omega), Nat.zero_add]
  have hcorner : IsCorner type v (v ((p + j) % type)) ↔
      IsCorner type verts ((rotVerts type)^[p + j] v 0) := by
    rw [hhead, isCorner_congr hv, isCorner_inOrder]
  constructor
  · intro hs
    obtain ⟨out, hout, -, hc⟩ := hs type (Nat.le_refl _)
    obtain rfl := Option.some.inj ((hsort type (Nat.le_refl _)).symm.trans hout)
    exact leadsToCorner_of_eq hv (hiff.mpr (hcorner.mpr hc))
  · intro hl rounds hr
    refine ⟨_, hsort rounds hr, ⟨p + j, fun k hk => ?_⟩, ?_⟩
    · rw [hentry hk, hv _ (Nat.mod_lt _ (by omega))]
    · exact hcorner.mp (hiff.mp (leadsToCorner_of_eq (fun k hk => (hv k hk).symm) hl))

def square (k : ℕ) : ScreenVert :=
  [(⟨0, 9⟩ : ScreenVert), ⟨0, 0⟩, ⟨9, 0⟩, ⟨9, 9⟩].getD k ⟨0, 0⟩

theorem sorts_square : Sorts 4 true square := (sorts_iff (by decide) (by decide)).mpr (by decide)

/-- The upper edge of the triangle goes from its last vertex to its first one, left to right. -/
def triangle (k : ℕ) : ScreenVert := [(⟨8, 0⟩ : ScreenVert), ⟨4, 8⟩, ⟨0, 0⟩].getD k ⟨0, 0⟩

theorem triangle_not_sorted : ¬ Sorts 3 false triangle := by
  intro hs
  obtain ⟨out, hout, -, hc⟩ := hs 3 (Nat.le_refl 3)
  have hhead : (sortVerts 3 false triangle 3).map (fun v => v 0) = some ⟨8, 0⟩ := by
    decide
  rw [hout] at hhead
  have hx := (hc 2 (by decide)).2
  have hout : out 0 = ⟨8, 0⟩ := Option.some.inj hhead
  rw [hout] at hx
  exact absurd (hx (by decide)) (by decide)

end Desmume.Raster
