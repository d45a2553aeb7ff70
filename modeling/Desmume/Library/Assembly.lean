import Desmume.Library.Literals
import Mathlib.Data.List.Basic
import Mathlib.Data.List.Range
import Mathlib.Data.Nat.Init

/-! Elements are gathered one by one, and as soon as a group is complete it is put out in the order
that a rule gives; some of its elements stay for the next group. Runs that keep the last two
elements make strips. -/

namespace Desmume.Library

variable {α β : Type*}

/-- The elements at some positions. -/
def select (positions : List ℕ) (l : List α) : List α := positions.filterMap (l[·]?)

theorem select_map (f : α → β) (positions : List ℕ) (l : List α) :
    select positions (l.map f) = (select positions l).map f := by
  rw [select, select, List.map_filterMap]
  simp only [List.getElem?_map]

theorem mem_of_mem_select {positions : List ℕ} {l : List α} {x : α}
    (h : x ∈ select positions l) : x ∈ l := by
  obtain ⟨i, -, hi⟩ := List.mem_filterMap.mp h
  exact List.mem_of_getElem? hi

/-- Which elements of a complete group are put out, and which ones stay, by their positions; the
latter may differ between one group and the next. -/
structure GroupRule where
  size : ℕ
  group : List ℕ
  keep : Bool → List ℕ

structure Assembly (α : Type*) where
  pending : List α
  odd : Bool
  groups : List (List α)

namespace Assembly

variable (r : GroupRule) (a : Assembly α) (x : α)

def push : Assembly α :=
  if a.pending.length + 1 = r.size then
    { pending := select (r.keep a.odd) (a.pending ++ [x])
      odd := !a.odd
      groups := a.groups ++ [select r.group (a.pending ++ [x])] }
  else { a with pending := a.pending ++ [x] }

def pushAll (xs : List α) : Assembly α := xs.foldl (push r) a

def map (f : α → β) : Assembly β :=
  { pending := a.pending.map f, odd := a.odd, groups := a.groups.map (List.map f) }

variable {r a x}

theorem push_waits (h : a.pending.length + 1 ≠ r.size) :
    a.push r x = { a with pending := a.pending ++ [x] } := if_neg h

theorem push_completes (h : a.pending.length + 1 = r.size) :
    a.push r x = { pending := select (r.keep a.odd) (a.pending ++ [x])
                   odd := !a.odd
                   groups := a.groups ++ [select r.group (a.pending ++ [x])] } := if_pos h

/-- The elements themselves play no role. -/
theorem push_map (f : α → β) : (a.map f).push r (f x) = (a.push r x).map f := by
  have hpending : (a.map f).pending ++ [f x] = (a.pending ++ [x]).map f := by
    rw [List.map_append]
    rfl
  have hlength : (a.map f).pending.length = a.pending.length := List.length_map ..
  by_cases h : a.pending.length + 1 = r.size
  · rw [push_completes h, push_completes (hlength ▸ h), hpending, select_map, select_map]
    simp only [map, List.map_append, List.map_cons, List.map_nil]
  · rw [push_waits h, push_waits (hlength ▸ h), hpending]
    rfl

theorem map_congr {f g : α → β} (hpending : ∀ y ∈ a.pending, f y = g y)
    (hgroups : ∀ p ∈ a.groups, ∀ y ∈ p, f y = g y) : a.map f = a.map g := by
  have hp : a.pending.map f = a.pending.map g := List.map_congr_left hpending
  have hg : a.groups.map (List.map f) = a.groups.map (List.map g) :=
    List.map_congr_left fun p hp => List.map_congr_left (hgroups p hp)
  rw [map, hp, hg, map]

theorem mem_pending_push {y : α} (h : y ∈ (a.push r x).pending) : y ∈ a.pending ∨ y = x := by
  have happend : y ∈ a.pending ++ [x] := by
    by_cases hsize : a.pending.length + 1 = r.size
    · rw [push_completes hsize] at h
      exact mem_of_mem_select h
    · rwa [push_waits hsize] at h
  rcases List.mem_append.mp happend with hy | hy
  · exact Or.inl hy
  · exact Or.inr (List.mem_singleton.mp hy)

theorem mem_groups_push {p : List α} (h : p ∈ (a.push r x).groups) :
    p ∈ a.groups ∨ ∀ y ∈ p, y ∈ a.pending ∨ y = x := by
  by_cases hsize : a.pending.length + 1 = r.size
  · rw [push_completes hsize] at h
    rcases List.mem_append.mp h with hp | hp
    · exact Or.inl hp
    · refine Or.inr fun y hy => ?_
      rw [List.mem_singleton.mp hp] at hy
      rcases List.mem_append.mp (mem_of_mem_select hy) with hy | hy
      · exact Or.inl hy
      · exact Or.inr (List.mem_singleton.mp hy)
  · rw [push_waits hsize] at h
    exact Or.inl h

theorem pushAll_append (a : Assembly α) (xs ys : List α) :
    pushAll r a (xs ++ ys) = pushAll r (pushAll r a xs) ys := List.foldl_append

theorem pushAll_concat (a : Assembly α) (xs : List α) (x : α) :
    pushAll r a (xs ++ [x]) = (pushAll r a xs).push r x := List.foldl_append

end Assembly

namespace GroupRule

/-- Groups of `n` elements that share none. -/
def separate (n : ℕ) : GroupRule := ⟨n, List.range n, fun _ => []⟩

/-- The last two elements stay, in the order that gives all triangles one orientation. -/
def triangleStrip : GroupRule := ⟨3, [0, 1, 2], fun odd => if odd then [0, 2] else [2, 1]⟩

def quadStrip : GroupRule := ⟨4, [0, 1, 3, 2], fun _ => [2, 3]⟩

end GroupRule

section Separate

open Assembly GroupRule

theorem select_range (l : List α) : select (List.range l.length) l = l := by
  induction l using List.reverseRecOn with
  | nil => rfl
  | append_singleton l x ih =>
    have hinit : select (List.range l.length) (l ++ [x]) = select (List.range l.length) l := by
      refine List.filterMap_congr fun i hi => ?_
      rw [List.getElem?_append_left (List.mem_range.mp hi)]
    rw [List.length_append, List.length_singleton, List.range_succ, select, List.filterMap_append,
      ← select, hinit, ih, List.filterMap_cons, List.getElem?_concat_length, List.filterMap_nil]

/-- The elements that are missing complete the group. -/
theorem pushAll_separate_group {n : ℕ} (ys : List α) (odd : Bool) (groups : List (List α)) (x : α)
    (xs : List α) (h : ys.length + (x :: xs).length = n) :
    pushAll (separate n) ⟨ys, odd, groups⟩ (x :: xs) =
      ⟨[], !odd, groups ++ [ys ++ x :: xs]⟩ := by
  induction xs generalizing ys x with
  | nil =>
    have hrange : select (List.range n) (ys ++ [x]) = ys ++ [x] := by
      rw [← h, ← List.length_append]
      exact select_range _
    exact (push_completes h).trans (by rw [separate, hrange]; rfl)
  | cons y xs ih =>
    rw [List.length_cons, List.length_cons] at h
    have hwait : push (separate n) ⟨ys, odd, groups⟩ x = ⟨ys ++ [x], odd, groups⟩ :=
      push_waits (by rw [separate]; dsimp only; omega)
    have hlength : (ys ++ [x]).length + (y :: xs).length = n := by
      rw [List.length_append, List.length_singleton, List.length_cons, ← h]
      omega
    have hrest := ih (ys ++ [x]) y hlength
    rw [List.append_assoc, List.singleton_append] at hrest
    rw [← hrest, ← hwait]
    rfl

theorem pushAll_separate (v : ℕ → α) {n : ℕ} (hn : 0 < n) (k : ℕ) :
    ∃ odd, pushAll (separate n) ⟨[], false, []⟩ ((List.range (n * k)).map v) =
      ⟨[], odd, (List.range k).map fun i => (List.range n).map fun j => v (n * i + j)⟩ := by
  induction k with
  | zero => exact ⟨false, rfl⟩
  | succ k ih =>
    obtain ⟨odd, ih⟩ := ih
    obtain ⟨m, rfl⟩ := Nat.exists_eq_add_of_lt hn
    rw [Nat.zero_add] at ih ⊢
    have hgroup := pushAll_separate_group [] odd
      ((List.range k).map fun i => (List.range (m + 1)).map fun j => v ((m + 1) * i + j))
      (v ((m + 1) * k)) ((List.range m).map fun j => v ((m + 1) * k + (j + 1)))
      (by rw [List.length_nil, List.length_cons, List.length_map, List.length_range,
        Nat.zero_add])
    have hcons : v ((m + 1) * k) :: (List.range m).map (fun j => v ((m + 1) * k + (j + 1))) =
        (List.range (m + 1)).map fun j => v ((m + 1) * k + j) := by
      rw [List.range_succ_eq_map, List.map_cons, List.map_map]
      rfl
    refine ⟨!odd, ?_⟩
    rw [Nat.mul_succ, List.range_add, List.map_append, pushAll_append, ih, List.map_map,
      List.range_succ (n := k), List.map_append, List.map_singleton]
    rw [hcons, List.nil_append] at hgroup
    exact hgroup

/-- Every element is in a group or pending. -/
theorem length_pushAll_separate {n : ℕ} (a : Assembly α) (xs : List α) :
    n * (pushAll (separate n) a xs).groups.length + (pushAll (separate n) a xs).pending.length =
      n * a.groups.length + a.pending.length + xs.length := by
  induction xs using List.reverseRecOn with
  | nil => rfl
  | append_singleton xs x ih =>
    rw [pushAll_concat, List.length_append, List.length_singleton, ← Nat.add_assoc, ← ih]
    by_cases h : (pushAll (separate n) a xs).pending.length + 1 = (separate n).size
    · have hn : (pushAll (separate n) a xs).pending.length + 1 = n := h
      rw [push_completes h, List.length_append, List.length_singleton, Nat.mul_succ]
      change n * _ + n + 0 = _
      omega
    · rw [push_waits h, List.length_append, List.length_singleton, Nat.add_assoc]

end Separate

section Strips

open Assembly GroupRule

variable (v : ℕ → α)

/-- The `k`-th triangle of a strip: every second one starts with its second vertex. -/
def stripTriangle (k : ℕ) : List α :=
  if k % 2 = 0 then [v k, v (k + 1), v (k + 2)] else [v (k + 1), v k, v (k + 2)]

/-- The `k`-th quad of a strip: two edges across the strip, the second one reversed. -/
def stripQuad (k : ℕ) : List α := [v (2 * k), v (2 * k + 1), v (2 * k + 3), v (2 * k + 2)]

theorem stripTriangle_map (f : α → β) (k : ℕ) :
    (stripTriangle v k).map f = stripTriangle (fun i => f (v i)) k := by
  rw [stripTriangle, stripTriangle]
  split_ifs <;> rfl

theorem stripQuad_map (f : α → β) (k : ℕ) :
    (stripQuad v k).map f = stripQuad (fun i => f (v i)) k := rfl

theorem stripTriangle_congr {v w : ℕ → α} {k : ℕ} (h : ∀ i ≤ k + 2, v i = w i) :
    stripTriangle v k = stripTriangle w k := by
  rw [stripTriangle, stripTriangle, h k (by omega), h (k + 1) (by omega), h (k + 2) le_rfl]

theorem stripQuad_congr {v w : ℕ → α} {k : ℕ} (h : ∀ i ≤ 2 * k + 3, v i = w i) :
    stripQuad v k = stripQuad w k := by
  rw [stripQuad, stripQuad, h (2 * k) (by omega), h (2 * k + 1) (by omega),
    h (2 * k + 3) le_rfl, h (2 * k + 2) (by omega)]

/-- What is left behind two vertices and `n` triangles. -/
theorem pushAll_triangleStrip (groups : List (List α)) (n : ℕ) :
    pushAll triangleStrip ⟨[], false, groups⟩ ((List.range (n + 2)).map v) =
      ⟨if n % 2 = 0 then [v n, v (n + 1)] else [v (n + 1), v n], decide (n % 2 = 1),
        groups ++ (List.range n).map (stripTriangle v)⟩ := by
  induction n with
  | zero =>
    rw [List.range_zero, List.map_nil, List.append_nil]
    rfl
  | succ n ih =>
    rw [List.range_succ, List.map_append, List.map_cons, List.map_nil, pushAll_concat, ih,
      List.range_succ, List.map_append, ← List.append_assoc, List.map_cons, List.map_nil]
    rcases Nat.mod_two_eq_zero_or_one n with h | h
    · have hodd : (n + 1) % 2 = 1 := by omega
      rw [if_pos h, h, hodd, if_neg Nat.one_ne_zero, stripTriangle, if_pos h]
      exact push_completes rfl
    · have heven : (n + 1) % 2 = 0 := by omega
      rw [if_neg (by omega), h, heven, if_pos rfl, stripTriangle, if_neg (by omega)]
      exact push_completes rfl

theorem pushAll_quadStrip (groups : List (List α)) (n : ℕ) :
    pushAll quadStrip ⟨[], false, groups⟩ ((List.range (2 * n + 2)).map v) =
      ⟨[v (2 * n), v (2 * n + 1)], decide (n % 2 = 1),
        groups ++ (List.range n).map (stripQuad v)⟩ := by
  induction n with
  | zero =>
    rw [List.range_zero, List.map_nil, List.append_nil]
    rfl
  | succ n ih =>
    have hrange : List.range (2 * (n + 1) + 2) =
        List.range (2 * n + 2) ++ [2 * n + 2] ++ [2 * n + 3] := by
      rw [Nat.mul_succ, List.range_succ, List.range_succ]
    have hodd : decide ((n + 1) % 2 = 1) = !decide (n % 2 = 1) := by
      rcases Nat.mod_two_eq_zero_or_one n with h | h
      · rw [h, show (n + 1) % 2 = 1 by omega]
        rfl
      · rw [h, show (n + 1) % 2 = 0 by omega]
        rfl
    have hwait (odd : Bool) (groups : List (List α)) (x y z : α) :
        push quadStrip ⟨[x, y], odd, groups⟩ z = ⟨[x, y, z], odd, groups⟩ :=
      push_waits (by decide : 3 ≠ 4)
    rw [hrange, List.map_append, List.map_append, List.map_cons, List.map_nil, List.map_cons,
      List.map_nil, pushAll_concat, pushAll_concat, ih, hwait, List.range_succ, List.map_append,
      ← List.append_assoc, List.map_cons, List.map_nil, hodd]
    exact push_completes rfl

end Strips

end Desmume.Library
