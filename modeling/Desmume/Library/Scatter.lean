import Desmume.Library.Literals
import Mathlib.Data.List.Basic
import Mathlib.Logic.Function.Basic
import Mathlib.Order.Defs.LinearOrder

/-! Writes to places of their own: lines painted cell by cell and what a cell shows of layers painted
one over another, the writes of a list of values, and how many entries of a list stand before another
one. -/

namespace Desmume.Library

section Painting

variable {ι α β κ : Type*}

/-- A loop over cells in which each changes its own. -/
def paint [DecidableEq ι] (cells : List ι) (f : ι → α → α) (line : ι → α) : ι → α :=
  cells.foldl (fun line i => Function.update line i (f i (line i))) line

theorem paint_of_notMem [DecidableEq ι] {cells : List ι} (f : ι → α → α) (line : ι → α) {i : ι}
    (hi : i ∉ cells) : paint cells f line i = line i := by
  induction cells generalizing line with
  | nil => rfl
  | cons j cells ih =>
    rw [List.mem_cons, not_or] at hi
    rw [paint, List.foldl_cons]
    exact (ih _ hi.2).trans (Function.update_of_ne hi.1 _ _)

theorem paint_of_mem [DecidableEq ι] {cells : List ι} (hcells : cells.Nodup) (f : ι → α → α)
    (line : ι → α) {i : ι} (hi : i ∈ cells) : paint cells f line i = f i (line i) := by
  induction cells generalizing line with
  | nil => exact absurd hi List.not_mem_nil
  | cons j cells ih =>
    obtain ⟨hj, hcells⟩ := List.nodup_cons.mp hcells
    rw [paint, List.foldl_cons]
    rcases List.mem_cons.mp hi with rfl | hmem
    · exact (paint_of_notMem f _ hj).trans (Function.update_self ..)
    · have hne : i ≠ j := fun h => hj (h ▸ hmem)
      refine (ih hcells _ hmem).trans ?_
      rw [Function.update_of_ne hne]

/-- What is left at a cell of layers painted in order over a base. -/
def layered (shows : β → Option α) (layers : List β) (base : α) : α :=
  layers.foldl (fun a l => (shows l).getD a) base

theorem layered_of_none {shows : β → Option α} {layers : List β} (base : α)
    (h : ∀ l ∈ layers, shows l = none) : layered shows layers base = base := by
  induction layers generalizing base with
  | nil => rfl
  | cons l layers ih =>
    rw [layered, List.foldl_cons, h l (List.mem_cons_self ..)]
    exact ih base fun m hm => h m (List.mem_cons_of_mem _ hm)

/-- Of layers painted from the back to the front the frontmost is seen. -/
theorem layered_of_frontmost [LinearOrder κ] {key : β → κ} {shows : β → Option α} {layers : List β}
    (hsorted : layers.Pairwise fun a b => key b < key a) (base : α) {l : β} {a : α}
    (hl : l ∈ layers) (ha : shows l = some a)
    (hfront : ∀ m ∈ layers, shows m ≠ none → key l ≤ key m) : layered shows layers base = a := by
  induction layers generalizing base with
  | nil => exact absurd hl List.not_mem_nil
  | cons m layers ih =>
    obtain ⟨hm, hsorted⟩ := List.pairwise_cons.mp hsorted
    rw [layered, List.foldl_cons]
    have hrest (k : β) (hk : k ∈ layers) := hfront k (List.mem_cons_of_mem _ hk)
    rcases List.mem_cons.mp hl with rfl | hmem
    · rw [ha]
      refine layered_of_none a fun k hk => ?_
      by_contra hshows
      exact absurd (hm k hk) (not_lt.mpr (hrest k hk hshows))
    · exact ih hsorted _ hmem hrest

end Painting

/-! ### Lists of values -/

variable {ι κ α : Type*} [DecidableEq κ] {key : ι → κ} {val : ι → α} {is : List ι}

/-- The values of `is`, written one after the other. -/
def scatter (key : ι → κ) (val : ι → α) (is : List ι) (m : κ → α) : κ → α :=
  is.foldl (fun m i => Function.update m (key i) (val i)) m

theorem scatter_of_notMem {k : κ} (h : ∀ i ∈ is, key i ≠ k) (m : κ → α) :
    scatter key val is m k = m k := by
  induction is generalizing m with
  | nil => rfl
  | cons i is ih =>
    have hfirst : k ≠ key i := (h i List.mem_cons_self).symm
    rw [scatter, List.foldl_cons, ← scatter, ih fun j hj => h j (List.mem_cons_of_mem _ hj),
      Function.update_of_ne hfirst]

/-- With a place for each, every value can be read again. -/
theorem scatter_of_mem [DecidableEq ι] (hkey : ∀ i ∈ is, ∀ j ∈ is, key i = key j → i = j) {i : ι}
    (hi : i ∈ is) (m : κ → α) : scatter key val is m (key i) = val i := by
  induction is generalizing m with
  | nil => cases hi
  | cons j is ih =>
    have hrest : ∀ a ∈ is, ∀ b ∈ is, key a = key b → a = b := fun a ha b hb =>
      hkey a (List.mem_cons_of_mem _ ha) b (List.mem_cons_of_mem _ hb)
    rw [scatter, List.foldl_cons, ← scatter]
    by_cases hmem : i ∈ is
    · exact ih hrest hmem _
    · obtain rfl : i = j := (List.mem_cons.mp hi).resolve_right hmem
      rw [scatter_of_notMem fun a ha hsame => hmem ?_, Function.update_self]
      exact hkey a (List.mem_cons_of_mem _ ha) i List.mem_cons_self hsame ▸ ha

/-- Where a place has changed, something was written. -/
theorem exists_of_scatter_ne {k : κ} {m : κ → α} (h : scatter key val is m k ≠ m k) :
    ∃ i ∈ is, key i = k := by
  by_contra hnone
  exact h (scatter_of_notMem (fun i hi hk => hnone ⟨i, hi, hk⟩) m)

/-! ### Entries before another -/

section Before

variable [DecidableEq ι] {p : ι → Bool} {i j : ι}

/-- The entries of `is` with `p` that stand before `i`. -/
def before (p : ι → Bool) (i : ι) (is : List ι) : ℕ := (is.takeWhile (· ≠ i)).countP p

theorem before_cons_self (is : List ι) : before p i (i :: is) = 0 := by
  rw [before, List.takeWhile_cons_of_neg (by simp), List.countP_nil]

theorem before_cons_of_ne (h : j ≠ i) (is : List ι) :
    before p i (j :: is) = (if p j then 1 else 0) + before p i is := by
  rw [before, List.takeWhile_cons_of_pos (by simpa using h), List.countP_cons, Nat.add_comm]
  rfl

theorem before_lt (hp : p i) (hi : i ∈ is) : before p i is < is.countP p := by
  induction is with
  | nil => cases hi
  | cons j is ih =>
    by_cases hj : j = i
    · rw [hj, before_cons_self, List.countP_cons_of_pos hp]
      exact Nat.succ_pos _
    · have hlt := ih ((List.mem_cons.mp hi).resolve_left (Ne.symm hj))
      rw [before_cons_of_ne hj, List.countP_cons]
      split <;> omega

theorem before_injective (hi : p i) (hj : p j) (hmem : i ∈ is) (hmem' : j ∈ is)
    (h : before p i is = before p j is) : i = j := by
  induction is with
  | nil => cases hmem
  | cons k is ih =>
    by_cases hki : k = i
    · by_cases hkj : k = j
      · exact hki.symm.trans hkj
      · rw [hki, before_cons_self, ← hki, before_cons_of_ne hkj, hki, if_pos hi] at h
        omega
    · by_cases hkj : k = j
      · rw [hkj, before_cons_self, ← hkj, before_cons_of_ne hki, hkj, if_pos hj] at h
        omega
      · rw [before_cons_of_ne hki, before_cons_of_ne hkj] at h
        exact ih ((List.mem_cons.mp hmem).resolve_left (Ne.symm hki))
          ((List.mem_cons.mp hmem').resolve_left (Ne.symm hkj)) (Nat.add_left_cancel h)

/-- From the other end as many entries stand before one as stand behind it from this end. -/
theorem before_reverse (hp : p i) (hnodup : is.Nodup) (hi : i ∈ is) :
    before p i is + before p i is.reverse + 1 = is.countP p := by
  obtain ⟨front, back, rfl⟩ := List.append_of_mem hi
  have hfront : i ∉ front := fun h =>
    (List.nodup_append.mp hnodup).2.2 i h i List.mem_cons_self rfl
  have hback : i ∉ back := (List.nodup_cons.mp (List.nodup_append.mp hnodup).2.1).1
  have hsplit : ∀ as bs : List ι, i ∉ as → before p i (as ++ i :: bs) = as.countP p := by
    intro as bs has
    have hall : ∀ a ∈ as, decide (a ≠ i) = true := fun a ha =>
      decide_eq_true fun h => has (h ▸ ha)
    rw [before, List.takeWhile_append_of_pos hall, List.takeWhile_cons_of_neg (by simp),
      List.append_nil]
  rw [hsplit front back hfront, List.reverse_append, List.reverse_cons, List.append_assoc,
    List.singleton_append, hsplit back.reverse front.reverse (by simpa using hback),
    List.countP_reverse, List.countP_append, List.countP_cons_of_pos hp]
  omega

end Before

end Desmume.Library
