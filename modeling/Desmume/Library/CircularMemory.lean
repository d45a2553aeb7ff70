import Desmume.Library.Literals
import Mathlib.Data.BitVec
import Mathlib.Data.List.GetD
import Mathlib.Data.List.Infix
import Mathlib.Logic.Function.Basic

/-! A memory with addresses that wrap around: a cell for every address, written in spans. -/

namespace Desmume.Library

variable {α : Type*} {w : ℕ}

/-- The cell so far behind an address. -/
def behind (a : BitVec w) (i : ℕ) : BitVec w := a + BitVec.ofNat w i

@[simp] theorem behind_zero (a : BitVec w) : behind a 0 = a := BitVec.add_zero a

theorem behind_behind (a : BitVec w) (i j : ℕ) : behind (behind a i) j = behind a (i + j) := by
  rw [behind, behind, behind, BitVec.add_assoc, BitVec.ofNat_add]

theorem behind_one_behind (a : BitVec w) (i : ℕ) : behind (behind a 1) i = behind a (i + 1) := by
  rw [behind_behind, Nat.add_comm]

theorem toNat_behind_sub (a : BitVec w) {i : ℕ} (hi : i < 2 ^ w) : (behind a i - a).toNat = i := by
  rw [behind, BitVec.add_comm, BitVec.add_sub_cancel, BitVec.toNat_ofNat, Nat.mod_eq_of_lt hi]

theorem behind_sub (a b : BitVec w) : behind a (b - a).toNat = b := by
  rw [behind, BitVec.ofNat_toNat, BitVec.setWidth_eq, BitVec.add_comm, BitVec.sub_add_cancel]

theorem behind_inj (a : BitVec w) {i j : ℕ} (hi : i < 2 ^ w) (hj : j < 2 ^ w)
    (h : behind a i = behind a j) : i = j := by
  rw [← toNat_behind_sub a hi, h, toNat_behind_sub a hj]

/-- A memory after cells from an address on have been written. -/
def writeSpan (m : BitVec w → α) (a : BitVec w) (bs : List α) : BitVec w → α := fun b =>
  bs.getD (b - a).toNat (m b)

variable (m : BitVec w → α) (a : BitVec w)

@[simp] theorem writeSpan_nil : writeSpan m a [] = m := rfl

theorem writeSpan_behind {bs : List α} {i : ℕ} (hi : i < bs.length) (hw : i < 2 ^ w) :
    writeSpan m a bs (behind a i) = bs[i] := by
  rw [writeSpan, toNat_behind_sub a hw, List.getD_eq_getElem _ _ hi]

/-- A cell that is not in the span is left alone. -/
theorem writeSpan_of_forall_ne {bs : List α} {b : BitVec w} (h : ∀ i < bs.length, b ≠ behind a i) :
    writeSpan m a bs b = m b := by
  rw [writeSpan, List.getD_eq_default]
  by_contra hlt
  exact h _ (Nat.lt_of_not_le hlt) (behind_sub a b).symm

/-- Two spans one after the other. -/
theorem writeSpan_writeSpan (bs cs : List α) (hw : (bs ++ cs).length ≤ 2 ^ w) :
    writeSpan (writeSpan m a bs) (behind a bs.length) cs = writeSpan m a (bs ++ cs) := by
  rw [List.length_append] at hw
  funext b
  obtain ⟨i, hi, rfl⟩ : ∃ i < 2 ^ w, b = behind a i :=
    ⟨(b - a).toNat, (b - a).isLt, (behind_sub a b).symm⟩
  simp only [writeSpan, toNat_behind_sub a hi]
  rcases Nat.lt_or_ge i bs.length with hlt | hge
  · have hbefore : cs.length ≤ (behind a i - behind a bs.length).toNat := by
      by_contra hk
      have hsame := behind_sub (behind a bs.length) (behind a i)
      rw [behind_behind] at hsame
      have := behind_inj a (by omega) hi hsame
      omega
    rw [List.getD_eq_default _ _ hbefore, List.getD_append _ _ _ _ hlt]
  · obtain ⟨k, rfl⟩ := Nat.exists_eq_add_of_le hge
    rw [← behind_behind, toNat_behind_sub _ (by omega), List.getD_append_right _ _ _ _ hge,
      Nat.add_sub_cancel_left]
    rcases Nat.lt_or_ge k cs.length with hk | hk
    · rw [List.getD_eq_getElem _ _ hk, List.getD_eq_getElem _ _ hk]
    · rw [List.getD_eq_default _ _ hk, List.getD_eq_default _ _ hk, List.getD_eq_default _ _ hge]

variable {m a}

/-- The cells from an address on hold these values, in a part of the memory that is kept. -/
def HoldsSpan (keep : BitVec w → Prop) (m : BitVec w → α) (a : BitVec w) (bs : List α) : Prop :=
  ∀ i (hi : i < bs.length), keep (behind a i) ∧ m (behind a i) = bs[i]

instance (keep : BitVec w → Prop) [DecidablePred keep] [DecidableEq α] (m : BitVec w → α)
    (a : BitVec w) (bs : List α) : Decidable (HoldsSpan keep m a bs) :=
  inferInstanceAs (Decidable (∀ i (_ : i < bs.length), _ ∧ _))

namespace HoldsSpan

variable {keep : BitVec w → Prop} {b : α} {bs cs : List α}

theorem cons_iff : HoldsSpan keep m a (b :: bs) ↔
    (keep a ∧ m a = b) ∧ HoldsSpan keep m (behind a 1) bs := by
  constructor
  · intro h
    refine ⟨?_, fun i hi => ?_⟩
    · have h0 := h 0 (Nat.succ_pos _)
      rwa [behind_zero] at h0
    · have hi' := h (i + 1) (Nat.succ_lt_succ hi)
      rw [behind_one_behind]
      exact hi'
  · rintro ⟨hb, hbs⟩ i hi
    cases i with
    | zero =>
      rw [behind_zero]
      exact hb
    | succ i =>
      have hi' := hbs i (Nat.lt_of_succ_lt_succ hi)
      rw [behind_one_behind] at hi'
      exact hi'

theorem append_iff : HoldsSpan keep m a (bs ++ cs) ↔
    HoldsSpan keep m a bs ∧ HoldsSpan keep m (behind a bs.length) cs := by
  induction bs generalizing a with
  | nil =>
    rw [List.nil_append, List.length_nil, behind_zero]
    exact ⟨fun h => ⟨nofun, h⟩, And.right⟩
  | cons b bs ih =>
    rw [List.cons_append, cons_iff, cons_iff, ih, behind_one_behind, List.length_cons, and_assoc,
      and_assoc, and_assoc]

/-- What is kept does not change by writes elsewhere. -/
theorem of_eq {m' : BitVec w → α} (h : HoldsSpan keep m a bs) (hm : ∀ b, keep b → m' b = m b) :
    HoldsSpan keep m' a bs := fun i hi => ⟨(h i hi).1, (hm _ (h i hi).1).trans (h i hi).2⟩

end HoldsSpan

end Desmume.Library
