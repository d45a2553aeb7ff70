import Desmume.Library.Literals
import Mathlib.Algebra.Module.LinearMap.Defs
import Mathlib.Algebra.Order.Field.Basic
import Mathlib.Data.List.Basic
import Mathlib.Tactic.FieldSimp
import Mathlib.Tactic.Linarith
import Mathlib.Tactic.Ring
import Mathlib.Tactic.SplitIfs

/-! Closed polygons cut by half spaces. A cut adds at most as many corners as the polygon enters the
half space, and it does not make it enter any other one more often. -/

namespace Desmume.Library

variable {K E : Type*} [Field K] [LinearOrder K] [IsStrictOrderedRing K] [AddCommGroup E] [Module K E]
  {f g : E →ₗ[K] K} {a b p q x : E} {ps qs : List E}

/-- Where a segment that leaves the half space of `f` crosses its border. -/
def crossing (f : E →ₗ[K] K) (p q : E) : E := p + (f p / (f p - f q)) • (q - p)

/-- The corners that a segment of a polygon gives when it is cut. -/
def cutSegment (f : E →ₗ[K] K) (p q : E) : List E :=
  if f p < 0 then if f q < 0 then [] else [crossing f q p, q]
  else if f q < 0 then [crossing f p q] else [q]

def cutPath (f : E →ₗ[K] K) : E → List E → List E
  | _, [] => []
  | p, q :: qs => cutSegment f p q ++ cutPath f q qs

/-- What the half space of `f` leaves of a closed polygon. -/
def cut (f : E →ₗ[K] K) : List E → List E
  | [] => []
  | p :: ps => cutPath f p (ps ++ [p])

/-- Whether a segment comes into the half space of `g`. -/
def enters (g : E →ₗ[K] K) (p q : E) : ℕ := if 0 ≤ g p then 0 else if 0 ≤ g q then 1 else 0

def entersPath (g : E →ₗ[K] K) : E → List E → ℕ
  | _, [] => 0
  | p, q :: qs => enters g p q + entersPath g q qs

/-- How often a closed polygon comes into the half space of `g`. -/
def entries (g : E →ₗ[K] K) : List E → ℕ
  | [] => 0
  | p :: ps => entersPath g p (ps ++ [p])

/-! ### Crossings -/

omit [LinearOrder K] [IsStrictOrderedRing K] in
theorem apply_crossing (g : E →ₗ[K] K) (p q : E) :
    g (crossing f p q) = g p + f p / (f p - f q) * (g q - g p) := by
  rw [crossing, map_add, map_smul, map_sub, smul_eq_mul]

theorem crossing_ratio (hp : 0 ≤ f p) (hq : f q < 0) :
    0 ≤ f p / (f p - f q) ∧ f p / (f p - f q) ≤ 1 := by
  have hpos : 0 < f p - f q := by linarith
  exact ⟨div_nonneg hp hpos.le, (div_le_one hpos).mpr (by linarith)⟩

theorem apply_crossing_self (hp : 0 ≤ f p) (hq : f q < 0) : f (crossing f p q) = 0 := by
  have hne : f p - f q ≠ 0 := by linarith
  have hratio : f p / (f p - f q) * (f p - f q) = f p := div_mul_cancel₀ _ hne
  rw [apply_crossing, ← neg_sub (f p) (f q), mul_neg, hratio, add_neg_cancel]

theorem crossing_nonneg (hp : 0 ≤ f p) (hq : f q < 0) (hgp : 0 ≤ g p) (hgq : 0 ≤ g q) :
    0 ≤ g (crossing f p q) := by
  obtain ⟨hlow, hhigh⟩ := crossing_ratio hp hq
  rw [apply_crossing]
  nlinarith

theorem crossing_neg (hp : 0 ≤ f p) (hq : f q < 0) (hgp : g p < 0) (hgq : g q < 0) :
    g (crossing f p q) < 0 := by
  obtain ⟨hlow, hhigh⟩ := crossing_ratio hp hq
  rw [apply_crossing]
  rcases hhigh.lt_or_eq with hlt | heq
  · nlinarith
  · rw [heq]
    linarith

/-! ### How often a path enters -/

omit [IsStrictOrderedRing K] in
theorem enters_self (g : E →ₗ[K] K) (p : E) : enters g p p = 0 := by
  rw [enters]
  split_ifs <;> rfl

omit [IsStrictOrderedRing K] in
theorem enters_le_add (g : E →ₗ[K] K) (a b x : E) :
    enters g a x ≤ enters g a b + enters g b x := by
  rw [enters, enters, enters]
  split_ifs <;> decide

omit [IsStrictOrderedRing K] in
/-- A point between two others does not make the way longer. -/
theorem enters_add_of_between (hin : 0 ≤ g p → 0 ≤ g q → 0 ≤ g x)
    (hout : g p < 0 → g q < 0 → g x < 0) : enters g p x + enters g x q = enters g p q := by
  rcases lt_or_ge (g p) 0 with hp | hp
  · rcases lt_or_ge (g q) 0 with hq | hq
    · simp only [enters, not_le.mpr hp, not_le.mpr hq, not_le.mpr (hout hp hq), if_false]
    · simp only [enters, not_le.mpr hp, hq, if_false, if_true]
      split_ifs <;> rfl
  · rcases lt_or_ge (g q) 0 with hq | hq
    · simp only [enters, hp, not_le.mpr hq, if_false, if_true]
      split_ifs <;> rfl
    · simp only [enters, hp, hin hp hq, if_true]

theorem enters_crossing (hp : 0 ≤ f p) (hq : f q < 0) (g : E →ₗ[K] K) :
    enters g p (crossing f p q) + enters g (crossing f p q) q = enters g p q :=
  enters_add_of_between (crossing_nonneg hp hq) (crossing_neg hp hq)

theorem enters_crossing_back (hp : f p < 0) (hq : 0 ≤ f q) (g : E →ₗ[K] K) :
    enters g p (crossing f q p) + enters g (crossing f q p) q = enters g p q :=
  enters_add_of_between (fun hgp hgq => crossing_nonneg hq hp hgq hgp)
    fun hgp hgq => crossing_neg hq hp hgq hgp

omit [IsStrictOrderedRing K] in
theorem entersPath_append (g : E →ₗ[K] K) (a : E) (ps qs : List E) :
    entersPath g a (ps ++ qs) = entersPath g a ps + entersPath g (ps.getLastD a) qs := by
  induction ps generalizing a with
  | nil => rw [List.nil_append, entersPath, Nat.zero_add, List.getLastD_nil]
  | cons p ps ih => rw [List.cons_append, entersPath, entersPath, ih, List.getLastD_cons, Nat.add_assoc]

/-- Going over what is left of a segment and on to its end is no longer than going over its start. -/
theorem entersPath_cutSegment (f g : E →ₗ[K] K) (a p q : E) :
    entersPath g a (cutSegment f p q) + enters g ((cutSegment f p q).getLastD a) q ≤
      enters g a p + enters g p q := by
  have hself := enters_self g q
  rw [cutSegment]
  split_ifs with hp hq hq
  · have := enters_le_add g a p q
    simpa only [entersPath, List.getLastD_nil, Nat.zero_add]
  · have hx := enters_crossing_back hp (not_lt.mp hq) g
    have := enters_le_add g a p (crossing f q p)
    simp only [entersPath, List.getLastD_cons, List.getLastD_nil]
    omega
  · have hx := enters_crossing (not_lt.mp hp) hq g
    have := enters_le_add g a p (crossing f p q)
    simp only [entersPath, List.getLastD_cons, List.getLastD_nil]
    omega
  · have := enters_le_add g a p q
    simp only [entersPath, List.getLastD_cons, List.getLastD_nil]
    omega

omit [AddCommGroup E] in
theorem getLastD_append (ps qs : List E) (a : E) :
    (ps ++ qs).getLastD a = qs.getLastD (ps.getLastD a) := by
  induction ps generalizing a with
  | nil => rfl
  | cons p ps ih => rw [List.cons_append, List.getLastD_cons, List.getLastD_cons, ih]

theorem entersPath_cutPath (f g : E →ₗ[K] K) (a p : E) (qs : List E) :
    entersPath g a (cutPath f p qs) + enters g ((cutPath f p qs).getLastD a) (qs.getLastD p) ≤
      enters g a p + entersPath g p qs := by
  induction qs generalizing a p with
  | nil => simp only [cutPath, entersPath, List.getLastD_nil, Nat.zero_add, Nat.add_zero, le_refl]
  | cons q qs ih =>
    have hsegment := entersPath_cutSegment f g a p q
    have hrest := ih ((cutSegment f p q).getLastD a) q
    rw [cutPath, entersPath_append, getLastD_append, entersPath, List.getLastD_cons]
    omega

/-- A cut makes a polygon enter no half space more often. -/
theorem entries_cut_le (f g : E →ₗ[K] K) (ps : List E) : entries g (cut f ps) ≤ entries g ps := by
  cases ps with
  | nil => exact Nat.le_refl _
  | cons p ps =>
    rw [cut, entries]
    cases hcut : cutPath f p (ps ++ [p]) with
    | nil => exact Nat.zero_le _
    | cons y ys =>
      -- started from the last corner of what is left, the way around it closes
      have hpath := entersPath_cutPath f g (ys.getLastD y) p (ps ++ [p])
      rw [hcut, getLastD_append, List.getLastD_cons, List.getLastD_cons, List.getLastD_nil,
        entersPath] at hpath
      rw [entries, entersPath_append, entersPath, entersPath]
      omega

omit [IsStrictOrderedRing K] in
theorem length_cutSegment_le (f : E →ₗ[K] K) (p q : E) :
    (cutSegment f p q).length ≤ 1 + enters f p q := by
  rcases lt_or_ge (f p) 0 with hp | hp
  · rcases lt_or_ge (f q) 0 with hq | hq
    · simp only [cutSegment, hp, hq, if_true, List.length_nil, Nat.zero_le]
    · simp only [cutSegment, enters, hp, hq, not_lt.mpr hq, not_le.mpr hp, if_true, if_false,
        List.length_cons, List.length_nil, le_refl]
  · rw [cutSegment, if_neg (not_lt.mpr hp)]
    split_ifs <;> exact Nat.le_add_right 1 _

omit [IsStrictOrderedRing K] in
theorem length_cutPath_le (f : E →ₗ[K] K) (p : E) (qs : List E) :
    (cutPath f p qs).length ≤ qs.length + entersPath f p qs := by
  induction qs generalizing p with
  | nil => exact Nat.le_refl _
  | cons q qs ih =>
    have hsegment := length_cutSegment_le f p q
    have hrest := ih q
    rw [cutPath, List.length_append, entersPath, List.length_cons]
    omega

omit [IsStrictOrderedRing K] in
/-- A cut adds no more corners than the polygon enters the half space. -/
theorem length_cut_le (f : E →ₗ[K] K) (ps : List E) :
    (cut f ps).length ≤ ps.length + entries f ps := by
  cases ps with
  | nil => exact Nat.le_refl _
  | cons p ps =>
    have hpath := length_cutPath_le f p (ps ++ [p])
    rwa [List.length_append, List.length_singleton] at hpath

/-! ### How often a path crosses the border -/

def crosses (f : E →ₗ[K] K) (p q : E) : ℕ := if 0 ≤ f p ↔ 0 ≤ f q then 0 else 1

def crossesPath (f : E →ₗ[K] K) : E → List E → ℕ
  | _, [] => 0
  | p, q :: qs => crosses f p q + crossesPath f q qs

/-- How many new corners a cut makes. -/
def crossings (f : E →ₗ[K] K) : List E → ℕ
  | [] => 0
  | p :: ps => crossesPath f p (ps ++ [p])

def side (f : E →ₗ[K] K) (p : E) : ℕ := if 0 ≤ f p then 1 else 0

omit [IsStrictOrderedRing K] in
theorem crosses_add_side (f : E →ₗ[K] K) (p q : E) :
    crosses f p q + side f q = 2 * enters f p q + side f p := by
  rw [crosses, side, side, enters]
  by_cases hp : 0 ≤ f p <;> by_cases hq : 0 ≤ f q <;> simp only [hp, hq, iff_self, iff_false, iff_true,
    not_true_eq_false, if_true, if_false]

omit [IsStrictOrderedRing K] in
theorem crossesPath_add_side (f : E →ₗ[K] K) (p : E) (qs : List E) :
    crossesPath f p qs + side f (qs.getLastD p) = 2 * entersPath f p qs + side f p := by
  induction qs generalizing p with
  | nil => rw [crossesPath, entersPath, List.getLastD_nil]
  | cons q qs ih =>
    have hsegment := crosses_add_side f p q
    have hrest := ih q
    rw [crossesPath, entersPath, List.getLastD_cons]
    omega

omit [IsStrictOrderedRing K] in
/-- Around a closed polygon every entry comes with an exit. -/
theorem crossings_eq (f : E →ₗ[K] K) (ps : List E) : crossings f ps = 2 * entries f ps := by
  cases ps with
  | nil => rfl
  | cons p ps =>
    have hpath := crossesPath_add_side f p (ps ++ [p])
    rw [getLastD_append, List.getLastD_cons, List.getLastD_nil] at hpath
    rw [crossings, entries]
    omega

/-! ### What is left is inside -/

theorem mem_cutSegment (hx : x ∈ cutSegment f p q) :
    0 ≤ f x ∧ ((0 ≤ g p → 0 ≤ g q → 0 ≤ g x)) := by
  rw [cutSegment] at hx
  split_ifs at hx with hp hq hq
  · cases hx
  · rcases List.mem_cons.mp hx with rfl | hx
    · exact ⟨(apply_crossing_self (not_lt.mp hq) hp).ge,
        fun hgp hgq => crossing_nonneg (not_lt.mp hq) hp hgq hgp⟩
    · obtain rfl := List.mem_singleton.mp hx
      exact ⟨not_lt.mp hq, fun _ h => h⟩
  · obtain rfl := List.mem_singleton.mp hx
    exact ⟨(apply_crossing_self (not_lt.mp hp) hq).ge, crossing_nonneg (not_lt.mp hp) hq⟩
  · obtain rfl := List.mem_singleton.mp hx
    exact ⟨not_lt.mp hq, fun _ h => h⟩

theorem mem_cutPath (hx : x ∈ cutPath f p qs) :
    0 ≤ f x ∧ (0 ≤ g p → (∀ q ∈ qs, 0 ≤ g q) → 0 ≤ g x) := by
  induction qs generalizing p with
  | nil => cases hx
  | cons q qs ih =>
    rcases List.mem_append.mp hx with hx | hx
    · obtain ⟨hf, hg⟩ := mem_cutSegment (g := g) hx
      exact ⟨hf, fun hp hqs => hg hp (hqs q List.mem_cons_self)⟩
    · obtain ⟨hf, hg⟩ := ih hx
      exact ⟨hf, fun _ hqs => hg (hqs q List.mem_cons_self)
        fun r hr => hqs r (List.mem_cons_of_mem q hr)⟩

/-- What is left is inside the half space, and inside all that the polygon was inside of. -/
theorem mem_cut (hx : x ∈ cut f ps) : 0 ≤ f x ∧ ((∀ p ∈ ps, 0 ≤ g p) → 0 ≤ g x) := by
  cases ps with
  | nil => cases hx
  | cons p ps =>
    obtain ⟨hf, hg⟩ := mem_cutPath (g := g) hx
    refine ⟨hf, fun hps => hg (hps p List.mem_cons_self) fun q hq => ?_⟩
    rcases List.mem_append.mp hq with hq | hq
    · exact hps q (List.mem_cons_of_mem p hq)
    · obtain rfl := List.mem_singleton.mp hq
      exact hps q List.mem_cons_self

/-! ### Several cuts -/

/-- What several half spaces leave, cut one after another. -/
def cutAll (fs : List (E →ₗ[K] K)) (ps : List E) : List E := fs.foldl (fun ps f => cut f ps) ps

/-- The new corners that several cuts make. -/
def crossingsAll : List (E →ₗ[K] K) → List E → ℕ
  | [], _ => 0
  | f :: fs, ps => crossings f ps + crossingsAll fs (cut f ps)

theorem mem_cutAll {fs : List (E →ₗ[K] K)} (hx : x ∈ cutAll fs ps) :
    (∀ f ∈ fs, 0 ≤ f x) ∧ ∀ g : E →ₗ[K] K, (∀ p ∈ ps, 0 ≤ g p) → 0 ≤ g x := by
  induction fs generalizing ps with
  | nil => exact ⟨fun f hf => (List.not_mem_nil hf).elim, fun g hg => hg x hx⟩
  | cons f fs ih =>
    obtain ⟨hin, hkept⟩ := ih hx
    refine ⟨fun h hh => ?_, fun g hg => hkept g fun p hp => (mem_cut hp).2 hg⟩
    rcases List.mem_cons.mp hh with rfl | hh
    · exact hkept h fun p hp => (@mem_cut _ _ _ _ _ _ _ h h _ _ hp).1
    · exact hin h hh

/-- A polygon that enters no half space more than `m` times. -/
def EntersAtMost (K : Type*) {E : Type*} [Field K] [LinearOrder K] [AddCommGroup E] [Module K E] (m : ℕ)
    (ps : List E) : Prop := ∀ g : E →ₗ[K] K, entries g ps ≤ m

theorem EntersAtMost.cut {m : ℕ} (h : EntersAtMost K m ps) (f : E →ₗ[K] K) :
    EntersAtMost K m (cut f ps) := fun g => (entries_cut_le f g ps).trans (h g)

theorem length_cutAll_le {m : ℕ} (h : EntersAtMost K m ps) (fs : List (E →ₗ[K] K)) :
    (cutAll fs ps).length ≤ ps.length + m * fs.length := by
  induction fs generalizing ps with
  | nil => exact Nat.le_refl _
  | cons f fs ih =>
    have hfirst := (length_cut_le f ps).trans (Nat.add_le_add_left (h f) _)
    have hrest := ih (h.cut f)
    rw [List.length_cons, Nat.mul_succ]
    change (cutAll fs (cut f ps)).length ≤ _
    omega

theorem crossingsAll_le {m : ℕ} (h : EntersAtMost K m ps) (fs : List (E →ₗ[K] K)) :
    crossingsAll fs ps ≤ 2 * m * fs.length := by
  induction fs generalizing ps with
  | nil => exact Nat.le_refl _
  | cons f fs ih =>
    have hfirst : crossings f ps ≤ 2 * m := by
      rw [crossings_eq]
      exact Nat.mul_le_mul_left 2 (h f)
    have hrest := ih (h.cut f)
    rw [List.length_cons, Nat.mul_succ, crossingsAll]
    omega

omit [IsStrictOrderedRing K] in
theorem entersAtMost_triangle (a b c : E) : EntersAtMost K 1 [a, b, c] := by
  intro g
  simp only [entries, List.cons_append, List.nil_append, entersPath, enters]
  split_ifs <;> decide

omit [IsStrictOrderedRing K] in
theorem entersAtMost_quad (a b c d : E) : EntersAtMost K 2 [a, b, c, d] := by
  intro g
  simp only [entries, List.cons_append, List.nil_append, entersPath, enters]
  split_ifs <;> decide

end Desmume.Library
