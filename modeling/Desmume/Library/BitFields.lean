import Desmume.Library.Literals
import Mathlib.Data.List.Basic
import Mathlib.Data.Nat.Bitwise

/-! Masks of a range of bits, as arithmetic, and words put together from fields that lie in ranges of
bits. -/

namespace Desmume.Library

theorem and_lowMask (x : ℕ) {n mask : ℕ} (h : mask = 2 ^ n - 1) : x &&& mask = x % 2 ^ n := by
  rw [h, Nat.and_two_pow_sub_one_eq_mod]

theorem toNat_and_mask {w : ℕ} (x : BitVec w) {mask : BitVec w} {n : ℕ} (h : mask.toNat = 2 ^ n - 1) :
    (x &&& mask).toNat = x.toNat % 2 ^ n := by
  rw [BitVec.toNat_and, and_lowMask _ h]

theorem and_rangeMask (x : ℕ) {j k mask : ℕ} (hjk : j ≤ k) (h : mask = 2 ^ k - 2 ^ j) :
    x &&& mask = x % 2 ^ k - x % 2 ^ j := by
  have hshift : mask = (2 ^ (k - j) - 1) <<< j := by
    rw [h, Nat.shiftLeft_eq, Nat.sub_mul, ← Nat.pow_add, Nat.sub_add_cancel hjk, Nat.one_mul]
  have hmod : x % 2 ^ j = x % 2 ^ k % 2 ^ j :=
    (Nat.mod_mod_of_dvd x (Nat.pow_dvd_pow 2 hjk)).symm
  have hhigh : x % 2 ^ k - x % 2 ^ j = (x % 2 ^ k) >>> j <<< j := by
    have hdiv := Nat.div_add_mod (x % 2 ^ k) (2 ^ j)
    rw [Nat.shiftRight_eq_div_pow, Nat.shiftLeft_eq, Nat.mul_comm, hmod]
    omega
  rw [hhigh, hshift]
  apply Nat.eq_of_testBit_eq
  intro i
  simp only [Nat.testBit_and, Nat.testBit_shiftLeft, Nat.testBit_two_pow_sub_one,
    Nat.testBit_shiftRight, Nat.testBit_mod_two_pow]
  by_cases hi : j ≤ i
  · have hlt : i - j < k - j ↔ i < k := by omega
    rw [Nat.add_sub_cancel' hi]
    by_cases hk : i < k <;> simp [hi, hk, hlt]
  · simp [hi]

/-- A byte that is put in place above the low bits, whatever the bits above it are. -/
theorem toNat_and_or_shiftLeft {w s : ℕ} (x : BitVec w) {mask y : BitVec w}
    (hmask : mask.toNat % 2 ^ (s + 8) = 2 ^ s - 1) (hy : y.toNat < 2 ^ 8) (hw : s + 8 ≤ w) :
    (x &&& mask ||| y <<< s).toNat % 2 ^ (s + 8) = x.toNat % 2 ^ s + 2 ^ s * y.toNat := by
  rw [Nat.add_comm (x.toNat % 2 ^ s),
    Nat.two_pow_add_eq_or_of_lt (Nat.mod_lt _ (Nat.two_pow_pos s))]
  apply Nat.eq_of_testBit_eq
  intro i
  have hbit : i < s + 8 → mask.toNat.testBit i = decide (i < s) := by
    intro hi
    have := congrArg (fun n => n.testBit i) hmask
    simpa [Nat.testBit_mod_two_pow, hi, Nat.testBit_two_pow_sub_one] using this
  have hhigh : s + 8 ≤ i → y.toNat.testBit (i - s) = false := fun hi =>
    Nat.testBit_lt_two_pow (hy.trans_le (Nat.pow_le_pow_right (by decide) (by omega)))
  simp only [Nat.testBit_mod_two_pow, BitVec.toNat_or, BitVec.toNat_and, Nat.testBit_or,
    Nat.testBit_and, BitVec.toNat_shiftLeft, Nat.testBit_shiftLeft, Nat.testBit_two_pow_mul]
  by_cases hi : i < s + 8
  · rw [hbit hi]
    by_cases hs : i < s
    · simp [hi, hs, show ¬ s ≤ i by omega]
    · simp [hi, hs, show i < w by omega]
  · simp [hi, hhigh (by omega), show ¬ i < s by omega]

/-- The aligned block that contains `y` is where the rounding down agrees with that of `y`. -/
theorem div_mul_eq_iff {n : ℕ} (hn : 0 < n) (x y : ℕ) :
    x / n * n = y / n * n ↔ y / n * n ≤ x ∧ x < y / n * n + n := by
  have hx := Nat.div_add_mod x n
  have hlt := Nat.mod_lt x hn
  rw [Nat.mul_comm n] at hx
  constructor
  · intro h
    omega
  · rintro ⟨hle, hgt⟩
    have hdiv : x / n = y / n := by
      apply Nat.div_eq_of_lt_le
      · exact hle
      · rw [Nat.succ_mul]
        exact hgt
    rw [hdiv]

/-- A mask of the bits from `k` on compares aligned blocks. -/
theorem and_highMask_eq_iff {w k : ℕ} (hk : k ≤ w) {mask : BitVec w}
    (hmask : mask.toNat = 2 ^ w - 2 ^ k) (x y : BitVec w) :
    x &&& mask = y &&& mask ↔
      y.toNat / 2 ^ k * 2 ^ k ≤ x.toNat ∧ x.toNat < y.toNat / 2 ^ k * 2 ^ k + 2 ^ k := by
  have hround : ∀ z : BitVec w, (z &&& mask).toNat = z.toNat / 2 ^ k * 2 ^ k := by
    intro z
    have hz := Nat.div_add_mod z.toNat (2 ^ k)
    rw [BitVec.toNat_and, and_rangeMask z.toNat hk hmask, Nat.mod_eq_of_lt z.isLt, Nat.mul_comm]
    omega
  rw [← BitVec.toNat_inj, hround, hround, div_mul_eq_iff (Nat.two_pow_pos k)]

variable {w n : ℕ}

/-- The bits of a word outside a range are clear. -/
def Within (r : ℕ × ℕ) (x : BitVec w) : Prop := ∀ i, x.getLsbD i = true → r.1 ≤ i ∧ i < r.2

/-- A field put at a bit of a word. -/
def placed (w : ℕ) (v : BitVec n) (k : ℕ) : BitVec w := v.setWidth w <<< k

theorem getLsbD_placed (v : BitVec n) (k : ℕ) {i : ℕ} (hi : i < w) :
    (placed w v k).getLsbD i = (decide (k ≤ i) && v.getLsbD (i - k)) := by
  rw [placed, BitVec.getLsbD_shiftLeft, BitVec.getLsbD_setWidth]
  by_cases hk : k ≤ i
  · have hlt : i - k < w := by omega
    simp [hi, hk, hlt]
  · simp [hk, hi]

theorem placed_within (v : BitVec n) (k : ℕ) : Within (k, k + n) (placed w v k) := by
  intro i h
  have hi : i < w := BitVec.lt_of_getLsbD h
  rw [getLsbD_placed v k hi, Bool.and_eq_true, decide_eq_true_eq] at h
  have hn := BitVec.lt_of_getLsbD h.2
  have hk := h.1
  refine ⟨hk, ?_⟩
  show i < k + n
  omega

theorem within_of_toNat_lt {x : BitVec w} (h : x.toNat < 2 ^ n) : Within (0, n) x := by
  intro i hbit
  refine ⟨Nat.zero_le i, ?_⟩
  by_contra hn
  have hle : n ≤ i := Nat.le_of_not_lt hn
  have hlt : x.toNat < 2 ^ i := Nat.lt_of_lt_of_le h (Nat.pow_le_pow_right (by decide) hle)
  rw [BitVec.getLsbD, Nat.testBit_lt_two_pow hlt] at hbit
  cases hbit

theorem Within.getLsbD_eq_false {r : ℕ × ℕ} {x : BitVec w} (h : Within r x) {i : ℕ}
    (hi : i < r.1 ∨ r.2 ≤ i) : x.getLsbD i = false := by
  cases hbit : x.getLsbD i with
  | false => rfl
  | true =>
    have hr := h i hbit
    omega

theorem Within.and_eq_zero {r r' : ℕ × ℕ} {x y : BitVec w} (hx : Within r x) (hy : Within r' y)
    (hr : r'.2 ≤ r.1) : x &&& y = 0 := by
  apply BitVec.eq_of_getLsbD_eq
  intro i _
  rw [BitVec.getLsbD_and]
  by_cases h : i < r.1
  · rw [hx.getLsbD_eq_false (.inl h)]
    simp
  · rw [hy.getLsbD_eq_false (.inr (by omega))]
    simp

theorem exists_range_of_mem {rs : List (ℕ × ℕ)} {xs : List (BitVec w)}
    (h : List.Forall₂ Within rs xs) {y : BitVec w} (hy : y ∈ xs) : ∃ r ∈ rs, Within r y := by
  induction h with
  | nil => cases hy
  | cons hx _ ih =>
    rcases List.mem_cons.mp hy with rfl | hy
    · exact ⟨_, List.mem_cons_self, hx⟩
    · obtain ⟨r, hr, hwithin⟩ := ih hy
      exact ⟨r, List.mem_cons_of_mem _ hr, hwithin⟩

/-- Fields in ranges that go down from the top of the word have no bit in common. -/
theorem pairwise_and_eq_zero (rs : List (ℕ × ℕ)) {xs : List (BitVec w)}
    (h : List.Forall₂ Within rs xs) (hrs : rs.Pairwise fun r r' => r'.2 ≤ r.1) :
    xs.Pairwise fun x y => x &&& y = 0 := by
  induction h with
  | nil => exact .nil
  | cons hx hxs ih =>
    obtain ⟨hr, hrs⟩ := List.pairwise_cons.mp hrs
    refine List.pairwise_cons.mpr ⟨?_, ih hrs⟩
    intro y hy
    obtain ⟨r, hmem, hwithin⟩ := exists_range_of_mem hxs hy
    exact hx.and_eq_zero hwithin (hr r hmem)

end Desmume.Library
