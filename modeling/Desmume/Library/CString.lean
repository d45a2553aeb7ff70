import Desmume.Library.Literals
import Mathlib.Data.BitVec
import Mathlib.Data.List.GetD
import Mathlib.Data.List.OfFn
import Mathlib.Data.List.TakeWhile

/-! Strings of C: bytes without a zero, in arrays and in memory that ends somewhere; and numerals of
a fixed length. -/

namespace Desmume.Library

def CString : Type := {s : List (BitVec 8) // ∀ c ∈ s, c ≠ 0#8}

/-- `strcat`. -/
def CString.append (s s' : CString) : CString :=
  ⟨s.val ++ s'.val, fun c hc => (List.mem_append.mp hc).elim (s.property c) (s'.property c)⟩

def cchar (c : Char) : BitVec 8 := BitVec.ofNat 8 c.toNat

/-- The length of the string at the start of a memory, unless the memory ends before it. -/
def strlen (mem : List (BitVec 8)) : Option ℕ :=
  if 0#8 ∈ mem then some (mem.takeWhile (· ≠ 0#8)).length else none

theorem takeWhile_append_zero {s : List (BitVec 8)} (hs : ∀ c ∈ s, c ≠ 0#8) (rest : List (BitVec 8)) :
    (s ++ 0#8 :: rest).takeWhile (· ≠ 0#8) = s := by
  rw [List.takeWhile_append_of_pos fun c hc => decide_eq_true (hs c hc), List.takeWhile_cons_of_neg,
    List.append_nil]
  decide

theorem strlen_append_zero {s : List (BitVec 8)} (hs : ∀ c ∈ s, c ≠ 0#8) (rest : List (BitVec 8)) :
    strlen (s ++ 0#8 :: rest) = some s.length := by
  rw [strlen, if_pos (List.mem_append_right s List.mem_cons_self), takeWhile_append_zero hs]

section Arrays

variable {n : ℕ}

/-- `strncpy` into an array with the last byte cleared. -/
def copyTruncated (n : ℕ) (s : CString) : Fin n → BitVec 8 := fun j =>
  if j.val = n - 1 then 0#8 else s.val.getD j 0#8

def stringOf (a : Fin n → BitVec 8) : List (BitVec 8) := (List.ofFn a).takeWhile (· ≠ 0#8)

theorem stringOf_copyTruncated (s : CString) :
    stringOf (copyTruncated (n + 1) s) = s.val.take n := by
  obtain ⟨s, hs⟩ := s
  have hsplit : List.ofFn (copyTruncated (n + 1) ⟨s, hs⟩) =
      s.take n ++ List.replicate (n - s.length + 1) 0#8 := by
    refine List.ext_getElem ?_ fun j hj _ => ?_
    · rw [List.length_ofFn, List.length_append, List.length_take,
        List.length_replicate]
      omega
    · rw [List.length_ofFn] at hj
      rw [List.getElem_ofFn]
      change (if j = n + 1 - 1 then 0#8 else s.getD j 0#8) = _
      rcases Nat.lt_or_ge j (min n s.length) with hlt | hge
      · rw [if_neg (by omega), List.getElem_append_left (by rw [List.length_take]; exact hlt),
          List.getElem_take, List.getD_eq_getElem _ _ (by omega)]
      · have hzero : (if j = n + 1 - 1 then 0#8 else s.getD j 0#8) = 0#8 := by
          split_ifs with hlast
          · rfl
          · exact List.getD_eq_default _ _ (by omega)
        rw [hzero, List.getElem_append_right (by rw [List.length_take]; exact hge),
          List.getElem_replicate]
  rw [stringOf, hsplit, List.replicate_succ]
  exact takeWhile_append_zero (fun c hc => hs c (List.mem_of_mem_take hc)) _

end Arrays

section Numerals

variable (b : ℕ)

/-- The last `k` digits, the highest first. -/
def digitsOf : ℕ → ℕ → List ℕ
  | 0, _ => []
  | k + 1, n => digitsOf k (n / b) ++ [n % b]

def ofDigits (ds : List ℕ) : ℕ := ds.foldl (fun n d => n * b + d) 0

variable {b}

theorem length_digitsOf (k n : ℕ) : (digitsOf b k n).length = k := by
  induction k generalizing n with
  | zero => rfl
  | succ k ih => rw [digitsOf, List.length_append, ih, List.length_singleton]

theorem lt_of_mem_digitsOf (hb : 0 < b) {k n d : ℕ} (h : d ∈ digitsOf b k n) : d < b := by
  induction k generalizing n with
  | zero => exact absurd h List.not_mem_nil
  | succ k ih =>
    rw [digitsOf, List.mem_append, List.mem_singleton] at h
    rcases h with h | rfl
    · exact ih h
    · exact Nat.mod_lt _ hb

theorem ofDigits_digitsOf (k n : ℕ) : ofDigits b (digitsOf b k n) = n % b ^ k := by
  induction k generalizing n with
  | zero => exact (Nat.mod_one n).symm
  | succ k ih =>
    have hfold : ofDigits b (digitsOf b (k + 1) n) = ofDigits b (digitsOf b k (n / b)) * b + n % b :=
      List.foldl_concat ..
    rw [hfold, ih, Nat.pow_succ', Nat.mod_mul, Nat.mul_comm, Nat.add_comm]

end Numerals

/-- A part of a list made of pieces of one length. -/
theorem drop_flatMap {α β : Type*} {f : α → List β} {k : ℕ} (hf : ∀ a, (f a).length = k) (l : List α)
    (j : ℕ) : (l.flatMap f).drop (k * j) = (l.drop j).flatMap f := by
  induction j generalizing l with
  | zero => rfl
  | succ j ih =>
    cases l with
    | nil => rw [List.flatMap_nil, List.drop_nil, List.drop_nil, List.flatMap_nil]
    | cons a l =>
      rw [List.flatMap_cons, Nat.mul_succ, Nat.add_comm, ← List.drop_drop, ← hf a, List.drop_left,
        hf a, ih, List.drop_succ_cons]

theorem length_flatMap_of_length {α β : Type*} {f : α → List β} {k : ℕ} (hf : ∀ a, (f a).length = k)
    (l : List α) : (l.flatMap f).length = k * l.length := by
  induction l with
  | nil => rfl
  | cons a l ih => rw [List.flatMap_cons, List.length_append, hf, ih, List.length_cons, Nat.mul_succ,
      Nat.add_comm]

end Desmume.Library
