import Desmume.Library.Run

/-! Circular buffers with a head, a tail and a size, and the queue they hold. -/

namespace Desmume.Library

/-- A ring of `N` cells; `buf` is the cell array, only its first `N` cells are ever used. -/
structure RingBuffer (α : Type*) where
  buf : ℕ → α
  head : ℕ
  tail : ℕ
  size : ℕ

namespace RingBuffer

variable {α : Type*} {N : ℕ}

def push (N : ℕ) (x : α) (r : RingBuffer α) : RingBuffer α where
  buf := Function.update r.buf r.tail x
  head := r.head
  tail := if r.tail + 1 > N - 1 then 0 else r.tail + 1
  size := r.size + 1

def front (r : RingBuffer α) : α := r.buf r.head

def pop (N : ℕ) (r : RingBuffer α) : RingBuffer α :=
  { r with head := if r.head + 1 > N - 1 then 0 else r.head + 1, size := r.size - 1 }

def clear (r : RingBuffer α) : RingBuffer α := { r with head := 0, tail := 0, size := 0 }

/-- The queue the ring holds, oldest value first. -/
def contents (N : ℕ) (r : RingBuffer α) : List α :=
  (List.range r.size).map fun i => r.buf ((r.head + i) % N)

structure WellFormed (N : ℕ) (r : RingBuffer α) : Prop where
  size_le : r.size ≤ N
  head_lt : r.head < N
  tail_lt : r.tail < N
  tail_eq : r.tail = (r.head + r.size) % N

@[simp] theorem push_size (x : α) (r : RingBuffer α) : (r.push N x).size = r.size + 1 := rfl
@[simp] theorem push_head (x : α) (r : RingBuffer α) : (r.push N x).head = r.head := rfl
@[simp] theorem pop_size (r : RingBuffer α) : (r.pop N).size = r.size - 1 := rfl
@[simp] theorem pop_buf (r : RingBuffer α) : (r.pop N).buf = r.buf := rfl
@[simp] theorem pop_tail (r : RingBuffer α) : (r.pop N).tail = r.tail := rfl
@[simp] theorem clear_size (r : RingBuffer α) : r.clear.size = 0 := rfl

@[simp] theorem contents_length (r : RingBuffer α) : (r.contents N).length = r.size := by
  simp [contents]

theorem wrap_succ {i : ℕ} (hi : i < N) :
    (if i + 1 > N - 1 then 0 else i + 1) = (i + 1) % N := by
  split_ifs with h
  · have : i + 1 = N := by omega
    rw [this, Nat.mod_self]
  · exact (Nat.mod_eq_of_lt (by omega)).symm

theorem WellFormed.clear {r : RingBuffer α} (hN : 0 < N) : (r.clear).WellFormed N where
  size_le := Nat.zero_le _
  head_lt := hN
  tail_lt := hN
  tail_eq := rfl

theorem WellFormed.push {r : RingBuffer α} (h : r.WellFormed N) (x : α) (room : r.size < N) :
    (r.push N x).WellFormed N where
  size_le := room
  head_lt := h.head_lt
  tail_lt := by
    change (if r.tail + 1 > N - 1 then 0 else r.tail + 1) < N
    rw [wrap_succ h.tail_lt]
    exact Nat.mod_lt _ (by omega)
  tail_eq := by
    change (if r.tail + 1 > N - 1 then 0 else r.tail + 1) = (r.head + (r.size + 1)) % N
    rw [wrap_succ h.tail_lt, h.tail_eq, Nat.mod_add_mod, Nat.add_assoc]

theorem pop_head_lt {r : RingBuffer α} (h : r.head < N) : (r.pop N).head < N := by
  change (if r.head + 1 > N - 1 then 0 else r.head + 1) < N
  rw [wrap_succ h]
  exact Nat.mod_lt _ (Nat.zero_lt_of_lt h)

theorem WellFormed.pop {r : RingBuffer α} (h : r.WellFormed N) (some : r.size ≠ 0) :
    (r.pop N).WellFormed N where
  size_le := (Nat.sub_le _ _).trans h.size_le
  head_lt := pop_head_lt h.head_lt
  tail_lt := h.tail_lt
  tail_eq := by
    change r.tail = ((if r.head + 1 > N - 1 then 0 else r.head + 1) + (r.size - 1)) % N
    rw [wrap_succ h.head_lt, Nat.mod_add_mod, h.tail_eq]
    congr 1
    omega

@[simp] theorem contents_clear (r : RingBuffer α) : r.clear.contents N = [] := rfl

/-- Two live positions of a ring share a cell only if they are the same position. -/
theorem cell_injective {head i j : ℕ} (hi : i < N) (hj : j < N)
    (h : (head + i) % N = (head + j) % N) : i = j := by
  have hm : i ≡ j [MOD N] := Nat.ModEq.add_left_cancel' head h
  exact Nat.ModEq.eq_of_lt_of_lt hm hi hj

theorem contents_push {r : RingBuffer α} (h : r.WellFormed N) (x : α) (room : r.size < N) :
    (r.push N x).contents N = r.contents N ++ [x] := by
  simp only [contents, push_size, push_head, List.range_succ, List.map_append, List.map_cons,
    List.map_nil]
  congr 1
  · refine List.map_congr_left fun i hi => ?_
    have hlt : i < r.size := List.mem_range.mp hi
    have hne : (r.head + i) % N ≠ r.tail := by
      intro hc
      rw [h.tail_eq] at hc
      exact absurd (cell_injective (hlt.trans room) room hc) (by omega)
    exact Function.update_of_ne hne _ _
  · rw [← h.tail_eq]
    exact congrArg (· :: []) (Function.update_self ..)

theorem contents_pop {r : RingBuffer α} (h : r.head < N) (some : r.size ≠ 0) :
    r.contents N = r.front :: (r.pop N).contents N := by
  obtain ⟨n, hn⟩ := Nat.exists_eq_succ_of_ne_zero some
  simp only [contents, pop_size, pop_buf, hn, Nat.succ_eq_add_one, Nat.add_sub_cancel,
    List.range_succ_eq_map, List.map_cons, List.map_map, front, Nat.add_zero,
    Nat.mod_eq_of_lt h]
  refine congrArg _ (List.map_congr_left fun i _ => congrArg r.buf ?_)
  change (r.head + (i + 1)) % N = ((if r.head + 1 > N - 1 then 0 else r.head + 1) + i) % N
  rw [wrap_succ h, Nat.mod_add_mod]
  congr 1
  omega

/-! ### What the cells keep of the past -/

/-- The cells, from the one to be written next on, hold the last `N` of the entries that were ever
stored in them; `n` counts those that were pushed. -/
structure Keeps (N n : ℕ) (log : List α) (r : RingBuffer α) : Prop where
  length_eq : log.length = n + N
  tail_eq : r.tail = n % N
  cell : ∀ j < N, log[n + j]? = some (r.buf ((n + j) % N))

theorem Keeps.clear (r : RingBuffer α) : Keeps N 0 ((List.range N).map r.buf) r.clear where
  length_eq := by simp
  tail_eq := (Nat.zero_mod N).symm
  cell := by
    intro j hj
    rw [Nat.zero_add, Nat.mod_eq_of_lt hj, List.getElem?_map, List.getElem?_range hj]
    rfl

theorem Keeps.push {n : ℕ} {log : List α} {r : RingBuffer α} (h : Keeps N n log r)
    (hN : 0 < N) (x : α) : Keeps N (n + 1) (log ++ [x]) (r.push N x) where
  length_eq := by
    rw [List.length_append, h.length_eq, List.length_singleton]
    omega
  tail_eq := by
    have htail : r.tail < N := h.tail_eq ▸ Nat.mod_lt n hN
    change (if r.tail + 1 > N - 1 then 0 else r.tail + 1) = (n + 1) % N
    rw [wrap_succ htail, h.tail_eq, Nat.mod_add_mod]
  cell := by
    intro j hj
    change _ = some (Function.update r.buf r.tail x ((n + 1 + j) % N))
    rw [Nat.add_assoc, Nat.add_comm 1 j]
    rcases Nat.lt_or_ge (j + 1) N with hlt | hge
    · have hne : (n + (j + 1)) % N ≠ r.tail := by
        intro hc
        rw [h.tail_eq, ← Nat.add_zero n] at hc
        exact absurd (cell_injective hlt hN (by simpa using hc)) (by omega)
      have hold : n + (j + 1) < log.length := by
        rw [h.length_eq]
        omega
      rw [Function.update_of_ne hne, List.getElem?_append_left hold]
      exact h.cell (j + 1) hlt
    · -- the newest entry has gone where the oldest one was
      have hj : j + 1 = N := by omega
      rw [hj, Nat.add_mod_right, ← h.tail_eq, Function.update_self, ← h.length_eq,
        List.getElem?_concat_length]

theorem Keeps.pop {n : ℕ} {log : List α} {r : RingBuffer α} (h : Keeps N n log r) :
    Keeps N n log (r.pop N) := ⟨h.length_eq, h.tail_eq, h.cell⟩

/-- The cell to be written next still has the entry of one round ago. -/
theorem Keeps.cell_tail {n : ℕ} {log : List α} {r : RingBuffer α} (h : Keeps N n log r)
    (hN : 0 < N) : log[n]? = some (r.buf r.tail) := by
  have hcell := h.cell 0 hN
  rwa [Nat.add_zero, ← h.tail_eq] at hcell

end RingBuffer
end Desmume.Library
