import Desmume.Library.Literals
import Mathlib.Data.BitVec
import Mathlib.Data.List.Forall2
import Mathlib.Data.List.Infix
import Mathlib.Tactic.Common

/-! Compressed streams: tokens that give an item or repeat what lies so far back, one item at a time, so
that a repetition may run into itself; codes that are paths in a binary tree; and words as streams of
bits, the highest one first. -/

namespace Desmume.Library

section Tokens

variable {α : Type*}

/-- What lies `d` items back once more, so many times. -/
def copyBack (d : ℕ) : ℕ → List α → List α
  | 0, out => out
  | n + 1, out => copyBack d n (out ++ out[out.length - d]?.toList)

inductive LzToken (α : Type*) where
  | literal (b : α)
  | copy (distance length : ℕ)

namespace LzToken

def expand (out : List α) : LzToken α → List α
  | literal b => out ++ [b]
  | copy d n => copyBack d n out

/-- A repetition starts at least so far back, and not in front of the output. -/
def Reaches (least : ℕ) (out : List α) : LzToken α → Prop
  | literal _ => True
  | copy d _ => least ≤ d ∧ d ≤ out.length

instance (least : ℕ) (out : List α) : (t : LzToken α) → Decidable (t.Reaches least out)
  | literal _ => isTrue trivial
  | copy _ _ => inferInstanceAs (Decidable (_ ∧ _))

end LzToken

def lzExpand (out : List α) (ts : List (LzToken α)) : List α := ts.foldl LzToken.expand out

def LzFits (least : ℕ) : List α → List (LzToken α) → Prop
  | _, [] => True
  | out, t :: ts => t.Reaches least out ∧ LzFits least (t.expand out) ts

instance decidableLzFits (least : ℕ) :
    (out : List α) → (ts : List (LzToken α)) → Decidable (LzFits least out ts)
  | _, [] => isTrue trivial
  | out, t :: ts =>
    have := decidableLzFits least (t.expand out) ts
    inferInstanceAs (Decidable (_ ∧ _))

theorem prefix_copyBack (d n : ℕ) (out : List α) : out <+: copyBack d n out := by
  induction n generalizing out with
  | zero => exact List.prefix_rfl
  | succ n ih => exact (List.prefix_append ..).trans (ih _)

theorem LzToken.prefix_expand (out : List α) (t : LzToken α) : out <+: t.expand out := by
  cases t with
  | literal b => exact List.prefix_append ..
  | copy d n => exact prefix_copyBack d n out

theorem prefix_lzExpand (out : List α) (ts : List (LzToken α)) : out <+: lzExpand out ts := by
  induction ts generalizing out with
  | nil => exact List.prefix_rfl
  | cons t ts ih => exact (t.prefix_expand out).trans (ih _)

theorem lzExpand_append (out : List α) (ts ts' : List (LzToken α)) :
    lzExpand out (ts ++ ts') = lzExpand (lzExpand out ts) ts' := List.foldl_append

theorem lzFits_append {least : ℕ} {out : List α} {ts ts' : List (LzToken α)} :
    LzFits least out (ts ++ ts') ↔ LzFits least out ts ∧ LzFits least (lzExpand out ts) ts' := by
  induction ts generalizing out with
  | nil => exact ⟨fun h => ⟨trivial, h⟩, And.right⟩
  | cons t ts ih => rw [List.cons_append, LzFits, ih, LzFits, and_assoc]; rfl

/-- With a larger least distance, fewer streams fit. -/
theorem LzFits.mono {least least' : ℕ} (hle : least' ≤ least) {out : List α} {ts : List (LzToken α)}
    (h : LzFits least out ts) : LzFits least' out ts := by
  induction ts generalizing out with
  | nil => trivial
  | cons t ts ih =>
    refine ⟨?_, ih h.2⟩
    cases t with
    | literal b => trivial
    | copy d n => exact ⟨hle.trans h.1.1, h.1.2⟩

end Tokens

/-! ### Prefix codes -/

inductive CodeTree (α : Type) where
  | leaf (a : α)
  | node (left right : CodeTree α)

namespace CodeTree

variable {α : Type}

def isLeaf : CodeTree α → Bool
  | leaf _ => true
  | node _ _ => false

/-- The child on a side. -/
def child (left right : CodeTree α) (b : Bool) : CodeTree α := if b then right else left

/-- The symbol at the end of a path. -/
def at? : CodeTree α → List Bool → Option α
  | leaf a, [] => some a
  | node left _, false :: code => left.at? code
  | node _ right, true :: code => right.at? code
  | _, _ => none

def height : CodeTree α → ℕ
  | leaf _ => 0
  | node left right => max left.height right.height + 1

/-- All symbols are of a kind. -/
def All (P : α → Prop) : CodeTree α → Prop
  | leaf a => P a
  | node left right => left.All P ∧ right.All P

variable {left right t : CodeTree α} {code bits : List Bool} {a : α}

theorem at?_node (b : Bool) : (node left right).at? (b :: code) = (child left right b).at? code := by
  cases b with
  | false => rfl
  | true => rfl

/-- The paths from an inner node. -/
theorem at?_node_eq_some (h : (node left right).at? code = some a) :
    ∃ b rest, code = b :: rest ∧ (child left right b).at? rest = some a := by
  cases code with
  | nil => simp [at?] at h
  | cons b rest => exact ⟨b, rest, rfl, (at?_node b).symm.trans h⟩

theorem at?_leaf_eq_some {s : α} (h : (leaf s).at? code = some a) : code = [] ∧ s = a := by
  cases code with
  | nil => exact ⟨rfl, Option.some.inj h⟩
  | cons b rest => simp [at?] at h

theorem All.at? {P : α → Prop} (hall : t.All P) (h : t.at? code = some a) : P a := by
  induction t generalizing code with
  | leaf s =>
    obtain ⟨-, rfl⟩ := at?_leaf_eq_some h
    exact hall
  | node left right ihl ihr =>
    obtain ⟨b, rest, -, hrest⟩ := at?_node_eq_some h
    cases b with
    | false => exact ihl hall.1 hrest
    | true => exact ihr hall.2 hrest

/-- Enough bits begin with a code. -/
theorem exists_code (t : CodeTree α) (bits : List Bool) (h : t.height ≤ bits.length) :
    ∃ code a, code <+: bits ∧ code.length ≤ t.height ∧ t.at? code = some a := by
  induction t generalizing bits with
  | leaf s => exact ⟨[], s, List.nil_prefix, Nat.zero_le _, rfl⟩
  | node left right ihl ihr =>
    rw [height] at h
    cases bits with
    | nil => exact absurd h (Nat.not_succ_le_zero _)
    | cons b bits =>
      have hmax := Nat.le_of_succ_le_succ h
      cases b with
      | false =>
        obtain ⟨code, a, hbegins, hlength, hat⟩ := ihl bits ((Nat.le_max_left ..).trans hmax)
        exact ⟨false :: code, a, List.cons_prefix_cons.2 ⟨rfl, hbegins⟩,
          Nat.succ_le_succ (hlength.trans (Nat.le_max_left ..)), hat⟩
      | true =>
        obtain ⟨code, a, hbegins, hlength, hat⟩ := ihr bits ((Nat.le_max_right ..).trans hmax)
        exact ⟨true :: code, a, List.cons_prefix_cons.2 ⟨rfl, hbegins⟩,
          Nat.succ_le_succ (hlength.trans (Nat.le_max_right ..)), hat⟩

end CodeTree

section Bits

variable {w : ℕ}

/-- The bits of a word, the highest one first. -/
def topBits (x : BitVec w) : List Bool := (List.range w).map fun i => x.getLsbD (w - 1 - i)

@[simp] theorem length_topBits (x : BitVec w) : (topBits x).length = w := by
  rw [topBits, List.length_map, List.length_range]

theorem length_flatMap_topBits (ws : List (BitVec w)) :
    (ws.flatMap topBits).length = w * ws.length := by
  induction ws with
  | nil => rfl
  | cons x ws ih =>
    rw [List.flatMap_cons, List.length_append, length_topBits, ih, List.length_cons, Nat.mul_succ,
      Nat.add_comm]

/-- What is left of a word behind its first bits. -/
theorem drop_topBits {k : ℕ} (x : BitVec w) (hk : k < w) :
    (topBits x).drop k = x.getLsbD (w - 1 - k) :: (topBits x).drop (k + 1) := by
  rw [List.drop_eq_getElem_cons (by rwa [length_topBits])]
  congr 1
  simp only [topBits, List.getElem_map, List.getElem_range]

end Bits

end Desmume.Library
