import Desmume.Library.Literals
import Mathlib.Tactic.Ring

/-! Little-endian bytes of a number. -/

namespace Desmume.Library

def leBytes : ℕ → ℕ → List (BitVec 8)
  | 0, _ => []
  | n + 1, x => BitVec.ofNat 8 x :: leBytes n (x / 256)

def ofLeBytes : List (BitVec 8) → ℕ
  | [] => 0
  | b :: bs => b.toNat + 256 * ofLeBytes bs

@[simp] theorem length_leBytes (n x : ℕ) : (leBytes n x).length = n := by
  induction n generalizing x with
  | zero => rfl
  | succ n ih => rw [leBytes, List.length_cons, ih]

theorem ofLeBytes_leBytes (n x : ℕ) : ofLeBytes (leBytes n x) = x % 256 ^ n := by
  induction n generalizing x with
  | zero => rw [leBytes, ofLeBytes, pow_zero, Nat.mod_one]
  | succ n ih =>
    calc (BitVec.ofNat 8 x).toNat + 256 * ofLeBytes (leBytes n (x / 256))
        = x % 256 + 256 * (x / 256 % 256 ^ n) := by rw [ih, BitVec.toNat_ofNat]
      _ = x % 256 ^ (n + 1) := by rw [pow_succ' 256 n, Nat.mod_mul]

theorem ofLeBytes_leBytes_of_lt {n x : ℕ} (h : x < 256 ^ n) : ofLeBytes (leBytes n x) = x := by
  rw [ofLeBytes_leBytes, Nat.mod_eq_of_lt h]

theorem leBytes_ofLeBytes (bs : List (BitVec 8)) : leBytes bs.length (ofLeBytes bs) = bs := by
  induction bs with
  | nil => rfl
  | cons b bs ih =>
    have hlow : BitVec.ofNat 8 (b.toNat + 256 * ofLeBytes bs) = b := by
      apply BitVec.eq_of_toNat_eq
      rw [BitVec.toNat_ofNat]
      omega
    have hhigh : (b.toNat + 256 * ofLeBytes bs) / 256 = ofLeBytes bs := by omega
    rw [List.length_cons, ofLeBytes, leBytes, hlow, hhigh, ih]

/-- The bytes of a number above others. -/
theorem leBytes_add {n x : ℕ} (hx : x < 256 ^ n) (k y : ℕ) :
    leBytes (n + k) (x + 256 ^ n * y) = leBytes n x ++ leBytes k y := by
  induction n generalizing x with
  | zero =>
    rw [pow_zero, Nat.lt_one_iff] at hx
    rw [hx, Nat.zero_add, Nat.zero_add, pow_zero, Nat.one_mul, leBytes, List.nil_append]
  | succ n ih =>
    have hhigh : (x + 256 ^ (n + 1) * y) / 256 = x / 256 + 256 ^ n * y := by
      rw [pow_succ', Nat.mul_assoc, Nat.add_mul_div_left _ _ (by decide)]
    have hlow : BitVec.ofNat 8 (x + 256 ^ (n + 1) * y) = BitVec.ofNat 8 x := by
      apply BitVec.eq_of_toNat_eq
      rw [BitVec.toNat_ofNat, BitVec.toNat_ofNat, pow_succ', Nat.mul_assoc, Nat.add_mul_mod_self_left]
    rw [Nat.succ_add, leBytes, hhigh, hlow, ih, leBytes, List.cons_append]
    exact Nat.div_lt_of_lt_mul (by rwa [← pow_succ'])

theorem ofLeBytes_append (as bs : List (BitVec 8)) :
    ofLeBytes (as ++ bs) = ofLeBytes as + 256 ^ as.length * ofLeBytes bs := by
  induction as with
  | nil => rw [List.nil_append, ofLeBytes, List.length_nil, pow_zero, Nat.one_mul, Nat.zero_add]
  | cons a as ih =>
    rw [List.cons_append, ofLeBytes, ih, ofLeBytes, List.length_cons, pow_succ']
    ring

theorem ofLeBytes_lt (bs : List (BitVec 8)) : ofLeBytes bs < 256 ^ bs.length := by
  have h := ofLeBytes_leBytes bs.length (ofLeBytes bs)
  rw [leBytes_ofLeBytes] at h
  rw [h]
  exact Nat.mod_lt _ (Nat.pow_pos (by decide))

/-- Units as bytes. -/
def unitBytes {w : ℕ} (n : ℕ) (units : List (BitVec w)) : List (BitVec 8) :=
  units.flatMap fun x => leBytes n x.toNat

theorem length_unitBytes {w : ℕ} (n : ℕ) (units : List (BitVec w)) :
    (unitBytes n units).length = n * units.length := by
  induction units with
  | nil => rfl
  | cons x units ih =>
    rw [unitBytes, List.flatMap_cons, List.length_append, length_leBytes, List.length_cons,
      Nat.mul_succ, ← ih, Nat.add_comm]
    rfl

/-- A number above the bits that are used. -/
theorem ofNat_or_shiftLeft {w a s : ℕ} (ha : a < 2 ^ s) (b : ℕ) :
    BitVec.ofNat w a ||| BitVec.ofNat w b <<< s = BitVec.ofNat w (a + 2 ^ s * b) := by
  have hshift : BitVec.ofNat w b <<< s = BitVec.ofNat w (b <<< s) := by
    apply BitVec.eq_of_toNat_eq
    rw [BitVec.toNat_shiftLeft, BitVec.toNat_ofNat, BitVec.toNat_ofNat, Nat.shiftLeft_eq,
      Nat.shiftLeft_eq, Nat.mod_mul_mod]
  rw [hshift, ← BitVec.ofNat_or, Nat.or_comm, ← Nat.shiftLeft_add_eq_or_of_lt ha, Nat.shiftLeft_eq,
    Nat.add_comm, Nat.mul_comm]

/-- A byte behind the ones that are collected. -/
theorem or_byte_shiftLeft (bs : List (BitVec 8)) (b : BitVec 8) {w : ℕ} :
    BitVec.ofNat w (ofLeBytes bs) ||| b.setWidth w <<< (8 * bs.length) =
      BitVec.ofNat w (ofLeBytes (bs ++ [b])) := by
  have hlt : ofLeBytes bs < 2 ^ (8 * bs.length) := by
    rw [Nat.pow_mul]
    exact ofLeBytes_lt bs
  have hb : b.setWidth w = BitVec.ofNat w b.toNat := by
    apply BitVec.eq_of_toNat_eq
    rw [BitVec.toNat_setWidth, BitVec.toNat_ofNat]
  rw [hb, ofNat_or_shiftLeft hlt, ofLeBytes_append, Nat.pow_mul, ofLeBytes, ofLeBytes, Nat.mul_zero,
    Nat.add_zero]

end Desmume.Library
