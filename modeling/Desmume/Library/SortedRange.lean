import Desmume.Library.FlatMemory
import Mathlib.Data.List.Nodup
import Mathlib.Order.Defs.LinearOrder

/-! An array of indices that is filled by passes over all of them, each of which collects the ones
of one kind, and of which stretches are sorted. -/

namespace Desmume.Library

variable {α κ : Type*}

theorem store_append (m : ℕ → α) (v : ℕ) (as bs : List α) :
    store m v (as ++ bs) = store (store m v as) (v + as.length) bs := by
  induction as generalizing m v with
  | nil => rw [List.nil_append, store_nil, List.length_nil, Nat.add_zero]
  | cons a as ih =>
    rw [List.cons_append, store_cons, ih, ← store_cons, List.length_cons, Nat.add_right_comm,
      Nat.add_assoc]

theorem load_append (m : ℕ → α) (v a b : ℕ) : load m v (a + b) = load m v a ++ load m (v + a) b := by
  rw [load, List.range'_append_1.symm, List.map_append]
  rfl

theorem load_store_before (m : ℕ → α) {v w n : ℕ} (bs : List α) (h : w + n ≤ v) :
    load (store m v bs) w n = load m w n :=
  load_congr fun a _ ha => store_of_lt m bs (by omega)

theorem load_store_behind (m : ℕ → α) {v w n : ℕ} {bs : List α} (h : v + bs.length ≤ w) :
    load (store m v bs) w n = load m w n :=
  load_congr fun a ha _ => store_of_le m (by omega)

/-- One pass over the first `n` indices: those with `p` are put behind each other. -/
def collect (p : ℕ → Bool) (n : ℕ) (s : ℕ × (ℕ → ℕ)) : ℕ × (ℕ → ℕ) :=
  (List.range n).foldl
    (fun s i => if p i then (s.1 + 1, Function.update s.2 s.1 i) else s) s

theorem collect_eq (p : ℕ → Bool) (n ctr : ℕ) (m : ℕ → ℕ) :
    collect p n (ctr, m) =
      (ctr + ((List.range n).filter p).length, store m ctr ((List.range n).filter p)) := by
  rw [collect]
  generalize List.range n = l
  induction l generalizing ctr m with
  | nil => rw [List.foldl_nil, List.filter_nil, store_nil, List.length_nil, Nat.add_zero]
  | cons i l ih =>
    rw [List.foldl_cons]
    cases hp : p i with
    | true => rw [if_pos rfl, ih, List.filter_cons_of_pos hp, store_cons, List.length_cons,
        Nat.add_right_comm, Nat.add_assoc]
    | false => rw [if_neg Bool.false_ne_true, ih, List.filter_cons_of_neg (by rw [hp]; decide)]

/-- `std::stable_sort` of a stretch of an array. -/
def stableSort (compare : α → α → Bool) (first last : ℕ) (m : ℕ → α) : ℕ → α :=
  store m first ((load m first (last - first)).mergeSort fun a b => !compare b a)

/-- The front of an array that holds two lists is sorted. -/
theorem load_stableSort_front (compare : α → α → Bool) {m : ℕ → α} {n : ℕ} {as bs : List α}
    (hn : as.length + bs.length = n) (h : load m 0 n = as ++ bs) :
    load (stableSort compare 0 as.length m) 0 n =
      as.mergeSort (fun a b => !compare b a) ++ bs := by
  rw [← hn, load_append] at h ⊢
  obtain ⟨has, hbs⟩ := List.append_inj h (length_load ..)
  have hlength : (as.mergeSort fun a b => !compare b a).length = as.length := List.length_mergeSort _
  rw [stableSort, Nat.sub_zero, has]
  congr 1
  · conv_lhs => rw [← hlength]
    exact load_store ..
  · rw [load_store_behind m (by omega)]
    exact hbs

/-- The back of it is sorted. -/
theorem load_stableSort_back (compare : α → α → Bool) {m : ℕ → α} {n : ℕ} {as bs : List α}
    (hn : as.length + bs.length = n) (h : load m 0 n = as ++ bs) :
    load (stableSort compare as.length n m) 0 n =
      as ++ bs.mergeSort fun a b => !compare b a := by
  rw [← hn, load_append] at h ⊢
  obtain ⟨has, hbs⟩ := List.append_inj h (length_load ..)
  rw [Nat.zero_add] at hbs
  have hlength : (bs.mergeSort fun a b => !compare b a).length = bs.length := List.length_mergeSort _
  rw [stableSort, Nat.add_sub_cancel_left, hbs, Nat.zero_add]
  congr 1
  · rw [load_store_before m _ (Nat.le_of_eq (Nat.zero_add _))]
    exact has
  · conv_lhs => rw [← hlength]
    exact load_store ..

/-- Elements without ties are sorted strictly, when the comparison is that of their keys. -/
theorem pairwise_mergeSort_key [LinearOrder κ] {key : α → κ} (hkey : Function.Injective key)
    {compare : α → α → Bool} {l : List α} (hl : l.Nodup)
    (hcompare : ∀ a ∈ l, ∀ b ∈ l, compare a b = decide (key a < key b)) :
    (l.mergeSort fun a b => !compare b a).Pairwise fun a b => key a < key b := by
  have hle : (l.mergeSort fun a b => !compare b a) =
      l.mergeSort fun a b => decide (key a ≤ key b) := by
    have hmap := List.map_mergeSort (f := id) (r := fun a b => !compare b a)
      (s := fun a b => decide (key a ≤ key b)) (l := l) fun a ha b hb => by
        rw [hcompare b hb a ha, ← decide_not]
        exact decide_eq_decide.mpr not_lt
    rwa [List.map_id, List.map_id] at hmap
  have htrans (a b c : α) : decide (key a ≤ key b) = true → decide (key b ≤ key c) = true →
      decide (key a ≤ key c) = true := fun hab hbc =>
    decide_eq_true (le_trans (of_decide_eq_true hab) (of_decide_eq_true hbc))
  have htotal (a b : α) : (decide (key a ≤ key b) || decide (key b ≤ key a)) = true := by
    rw [← Bool.decide_or]
    exact decide_eq_true (le_total _ _)
  have hsorted := List.pairwise_mergeSort htrans htotal l
  have hnodup : (l.mergeSort fun a b => decide (key a ≤ key b)).Nodup :=
    (List.mergeSort_perm l _).nodup_iff.mpr hl
  rw [hle]
  refine (hsorted.and hnodup).imp fun h => ?_
  exact lt_of_le_of_ne (of_decide_eq_true h.1) fun heq => h.2 (hkey heq)

end Desmume.Library
