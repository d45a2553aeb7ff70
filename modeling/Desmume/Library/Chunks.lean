import Desmume.Library.LittleEndian
import Mathlib.Data.List.TakeDrop
import Mathlib.Data.Nat.Digits.Lemmas
import Mathlib.Tactic.Common

/-! Output that is collected: after each `k` items it is flushed, and the others are pending. Values
packed into words are such output. -/

namespace Desmume.Library

variable {α : Type*} {k : ℕ} {xs : List α}

def flushed (k : ℕ) (xs : List α) : List α := xs.take (k * (xs.length / k))

def pending (k : ℕ) (xs : List α) : List α := xs.drop (k * (xs.length / k))

theorem flushed_append_pending (k : ℕ) (xs : List α) : flushed k xs ++ pending k xs = xs :=
  List.take_append_drop ..

theorem length_flushed (k : ℕ) (xs : List α) : (flushed k xs).length = k * (xs.length / k) :=
  List.length_take_of_le (Nat.mul_div_le ..)

theorem length_pending (k : ℕ) (xs : List α) : (pending k xs).length = xs.length % k := by
  have h := Nat.div_add_mod xs.length k
  rw [pending, List.length_drop]
  omega

theorem length_flushed_add (k : ℕ) (xs : List α) :
    (flushed k xs).length + (pending k xs).length = xs.length := by
  rw [← List.length_append, flushed_append_pending]

theorem flushed_begins (k : ℕ) (xs : List α) : flushed k xs <+: xs := List.take_prefix ..

@[simp] theorem flushed_nil (k : ℕ) : flushed k ([] : List α) = [] := List.take_nil

@[simp] theorem pending_nil (k : ℕ) : pending k ([] : List α) = [] := List.drop_nil

theorem flushed_of_dvd (h : k ∣ xs.length) : flushed k xs = xs := by
  rw [flushed, Nat.mul_div_cancel' h, List.take_length]

theorem pending_of_dvd (h : k ∣ xs.length) : pending k xs = [] := by
  rw [pending, Nat.mul_div_cancel' h, List.drop_length]

theorem div_snoc_of_full (x : α) (h : (pending k xs).length + 1 = k) :
    (xs ++ [x]).length / k = xs.length / k + 1 := by
  have hdiv := Nat.div_add_mod xs.length k
  rw [List.length_append, List.length_singleton]
  refine Nat.succ_div_of_dvd ⟨xs.length / k + 1, ?_⟩
  rw [length_pending] at h
  rw [Nat.mul_succ]
  omega

theorem div_snoc_of_lt (x : α) (h : (pending k xs).length + 1 < k) :
    (xs ++ [x]).length / k = xs.length / k := by
  rw [length_pending] at h
  rw [List.length_append, List.length_singleton]
  exact Nat.div_eq_of_lt_le (by rw [Nat.mul_comm]; have := Nat.mul_div_le xs.length k; omega) (by
    rw [Nat.succ_mul, Nat.mul_comm]
    have := Nat.div_add_mod xs.length k
    omega)

/-- The item that completes what is pending. -/
theorem snoc_of_full (x : α) (h : (pending k xs).length + 1 = k) :
    flushed k (xs ++ [x]) = flushed k xs ++ (pending k xs ++ [x]) ∧ pending k (xs ++ [x]) = [] := by
  have hdvd : k ∣ (xs ++ [x]).length := by
    rw [List.length_append, List.length_singleton, ← length_flushed_add k xs, Nat.add_assoc, h,
      length_flushed]
    exact ⟨xs.length / k + 1, (Nat.mul_succ ..).symm⟩
  refine ⟨?_, pending_of_dvd hdvd⟩
  rw [flushed_of_dvd hdvd, ← List.append_assoc, flushed_append_pending]

/-- An item that is left pending. -/
theorem snoc_of_lt (x : α) (h : (pending k xs).length + 1 < k) :
    flushed k (xs ++ [x]) = flushed k xs ∧ pending k (xs ++ [x]) = pending k xs ++ [x] := by
  have hle : k * (xs.length / k) ≤ xs.length := Nat.mul_div_le ..
  have hdiv := div_snoc_of_lt x h
  constructor
  · rw [flushed, hdiv, List.take_append_of_le_length hle, flushed]
  · rw [pending, hdiv, List.drop_append_of_le_length hle, pending]

/-- The items that are flushed are the first ones. -/
theorem getElem?_flushed {i : ℕ} (hi : i < (flushed k xs).length) : (flushed k xs)[i]? = xs[i]? := by
  rw [length_flushed] at hi
  rw [flushed, List.getElem?_take_of_lt hi]

/-! ### Values packed into words, the first one lowest, as little-endian bytes -/

section Packing

variable {b n : ℕ} {vs : List ℕ} {v : ℕ}

/-- Values below `b`, with `k` of them in a word of `n` bytes. -/
def packed (b k n : ℕ) (vs : List ℕ) : List (BitVec 8) :=
  leBytes (n * (vs.length / k)) (Nat.ofDigits b (flushed k vs))

@[simp] theorem packed_nil (b k n : ℕ) : packed b k n [] = [] := by
  rw [packed, List.length_nil, Nat.zero_div, Nat.mul_zero, leBytes]

theorem length_packed (b k n : ℕ) (vs : List ℕ) : (packed b k n vs).length = n * (vs.length / k) :=
  length_leBytes ..

/-- The value that fills a word. -/
theorem packed_snoc_of_full (hb : 1 < b) (hword : b ^ k = 256 ^ n) (hvs : ∀ x ∈ vs, x < b)
    (h : (pending k vs).length + 1 = k) :
    packed b k n (vs ++ [v]) =
      packed b k n vs ++ leBytes n (Nat.ofDigits b (pending k vs ++ [v])) := by
  have hlt : Nat.ofDigits b (flushed k vs) < 256 ^ (n * (vs.length / k)) := by
    rw [Nat.pow_mul, ← hword, ← Nat.pow_mul, ← length_flushed k vs]
    exact Nat.ofDigits_lt_base_pow_length hb fun x hx => hvs x ((flushed_begins k vs).subset hx)
  rw [packed, div_snoc_of_full v h, (snoc_of_full v h).1, Nat.ofDigits_append, length_flushed, Nat.pow_mul b, hword,
    ← Nat.pow_mul, Nat.mul_succ, leBytes_add hlt, packed]

/-- A value that is left pending. -/
theorem packed_snoc_of_lt (h : (pending k vs).length + 1 < k) :
    packed b k n (vs ++ [v]) = packed b k n vs := by
  rw [packed, packed, (snoc_of_lt v h).1, div_snoc_of_lt v h]

end Packing

end Desmume.Library
