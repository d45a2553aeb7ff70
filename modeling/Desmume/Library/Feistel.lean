import Desmume.Library.Literals
import Mathlib.Data.List.Basic

/-! Feistel networks with whitening: the key words are used one for each round and the last two on
the halves that come out, so that the network with the words in reverse order undoes it. -/

namespace Desmume.Library

variable {w : ℕ} {F : BitVec w → BitVec w}

/-- One round on the halves `(y, x)`. -/
def feistelRound (F : BitVec w → BitVec w) (k : BitVec w) (s : BitVec w × BitVec w) :
    BitVec w × BitVec w :=
  (k ^^^ s.2, s.1 ^^^ F (k ^^^ s.2))

def feistelUnround (F : BitVec w → BitVec w) (k : BitVec w) (s : BitVec w × BitVec w) :
    BitVec w × BitVec w :=
  (s.2 ^^^ F s.1, s.1 ^^^ k)

def whiten (a b : BitVec w) (s : BitVec w × BitVec w) : BitVec w × BitVec w := (s.2 ^^^ a, s.1 ^^^ b)

/-- The whole network: a round for each key word but the last two, which whiten. -/
def feistel (F : BitVec w → BitVec w) : List (BitVec w) → BitVec w × BitVec w → BitVec w × BitVec w
  | [a, b], s => whiten a b s
  | k :: ks, s => feistel F ks (feistelRound F k s)
  | [], s => s

theorem feistelUnround_round (k : BitVec w) (s : BitVec w × BitVec w) :
    feistelUnround F k (feistelRound F k s) = s := by
  rw [feistelUnround, feistelRound, BitVec.xor_assoc, BitVec.xor_self, BitVec.xor_zero,
    BitVec.xor_comm k, BitVec.xor_assoc, BitVec.xor_self, BitVec.xor_zero]

theorem feistel_cons (k a b : BitVec w) (ks : List (BitVec w)) (s : BitVec w × BitVec w) :
    feistel F (k :: a :: b :: ks) s = feistel F (a :: b :: ks) (feistelRound F k s) := rfl

theorem feistel_append (rounds : List (BitVec w)) (a b : BitVec w) (s : BitVec w × BitVec w) :
    feistel F (rounds ++ [a, b]) s =
      whiten a b (rounds.foldl (fun s k => feistelRound F k s) s) := by
  induction rounds generalizing s with
  | nil => rfl
  | cons k rounds ih =>
    rw [List.foldl_cons, ← ih]
    cases rounds with
    | nil => rfl
    | cons c rounds => cases rounds <;> rfl

/-- The last word whitens what the word before it has just whitened or turned. -/
theorem feistel_concat (rounds : List (BitVec w)) (a b k : BitVec w) (s : BitVec w × BitVec w) :
    feistel F (rounds ++ [a, b] ++ [k]) s = feistelUnround F k (feistel F (rounds ++ [a, b]) s) := by
  have hsplit : rounds ++ [a, b] ++ [k] = (rounds ++ [a]) ++ [b, k] := by simp
  rw [hsplit, feistel_append, feistel_append, List.foldl_append]
  generalize rounds.foldl (fun s k => feistelRound F k s) s = t
  simp only [List.foldl_cons, List.foldl_nil, whiten, feistelRound, feistelUnround]
  rw [BitVec.xor_comm a t.2, BitVec.xor_assoc, BitVec.xor_assoc, BitVec.xor_assoc,
    BitVec.xor_comm b]

theorem feistel_reverse {keys : List (BitVec w)} (h : 2 ≤ keys.length) (s : BitVec w × BitVec w) :
    feistel F keys.reverse (feistel F keys s) = s := by
  induction keys generalizing s with
  | nil => exact absurd h (by simp)
  | cons k ks ih =>
    rcases ks with _ | ⟨a, _ | ⟨b, ks⟩⟩
    · exact absurd h (by simp)
    · change (s.1 ^^^ a ^^^ a, s.2 ^^^ k ^^^ k) = s
      rw [BitVec.xor_assoc, BitVec.xor_assoc, BitVec.xor_self, BitVec.xor_self, BitVec.xor_zero,
        BitVec.xor_zero]
    · have hsplit : (a :: b :: ks).reverse = ks.reverse ++ [b, a] := by simp
      have hback := ih (by simp) (feistelRound F k s)
      rw [hsplit] at hback
      rw [List.reverse_cons, hsplit, feistel_cons, feistel_concat, hback, feistelUnround_round]

end Desmume.Library
