import Desmume.Library.RingBuffer

/-! The queue of samples between a sound capture and its memory: `dequeue` moves the head before it
reads, so that it returns what stands behind the oldest sample. -/

namespace Desmume.Sound
open Library

structure SPUFifo where
  buffer : ℕ → BitVec 16
  head : ℕ
  tail : ℕ
  size : ℕ

/-- A call on the queue. -/
inductive FifoOp where
  | enqueue (val : BitVec 16)
  | dequeue
deriving DecidableEq, Repr

namespace SPUFifo

/-- `SPUFifo::reset`. -/
def reset (f : SPUFifo) : SPUFifo := { f with head := 0, tail := 0, size := 0 }

/-- `SPUFifo::enqueue`. -/
def enqueue (val : BitVec 16) (f : SPUFifo) : SPUFifo :=
  if f.size = 16 then f
  else
    { f with
      buffer := Function.update f.buffer f.tail val
      tail := (f.tail + 1) &&& 15
      size := f.size + 1 }

/-- `SPUFifo::dequeue`: the sample it returns and the queue it leaves. -/
def dequeue (f : SPUFifo) : BitVec 16 × SPUFifo :=
  if f.size = 0 then (0, f)
  else
    let head := (f.head + 1) &&& 15
    (f.buffer head, { f with head := head, size := f.size - 1 })

def step (f : SPUFifo) : FifoOp → SPUFifo
  | .enqueue val => f.enqueue val
  | .dequeue => f.dequeue.2

/-- The queue after the calls `ops`. -/
def after (f : SPUFifo) (ops : List FifoOp) : SPUFifo := run step f ops

end SPUFifo

/-! ### The bounded queue that it is to be -/

/-- A queue of at most 16 samples, as all the samples it has accepted and how many of them it has
handed out. -/
structure SampleQueue where
  accepted : List (BitVec 16)
  taken : ℕ
deriving DecidableEq, Repr

namespace SampleQueue

def empty : SampleQueue := ⟨[], 0⟩

/-- The samples enqueued and not yet dequeued, the oldest first. -/
def waiting (q : SampleQueue) : List (BitVec 16) := q.accepted.drop q.taken

def step (q : SampleQueue) : FifoOp → SampleQueue
  | .enqueue val => if q.waiting.length = 16 then q else { q with accepted := q.accepted ++ [val] }
  | .dequeue => if q.waiting.length = 0 then q else { q with taken := q.taken + 1 }

def after (ops : List FifoOp) : SampleQueue := run step empty ops

/-- The sample stored next after the oldest one: the second oldest or, where the oldest is alone,
what the cell behind it was last given, 15 stores before it or ahead of the first one. -/
def behind (initial : ℕ → BitVec 16) (q : SampleQueue) : Option (BitVec 16) :=
  match q.waiting with
  | [] => none
  | [_] => ((List.range 16).map initial ++ q.accepted)[q.accepted.length]?
  | _ :: second :: _ => some second

end SampleQueue

open SampleQueue (empty)

/-- What a bounded first-in first-out queue promises of the calls `ops` after a reset. -/
structure IsBoundedQueue (f : SPUFifo) (ops : List FifoOp) : Prop where
  oldest : ∀ pre, pre ++ [.dequeue] <+: ops → ∀ val,
    (SampleQueue.after pre).waiting.head? = some val → (f.reset.after pre).dequeue.1 = val
  full : ∀ pre val, pre ++ [.enqueue val] <+: ops → (SampleQueue.after pre).waiting.length = 16 →
    (f.reset.after pre).enqueue val = f.reset.after pre
  range : ∀ pre, pre <+: ops →
    (f.reset.after pre).size = (SampleQueue.after pre).waiting.length ∧
      (f.reset.after pre).size ≤ 16 ∧ (f.reset.after pre).head < 16 ∧ (f.reset.after pre).tail < 16

/-- Every sample asked for has its own value behind it. -/
def RepeatsAtEach (initial : ℕ → BitVec 16) (ops : List FifoOp) : Prop :=
  ∀ pre, pre ++ [.dequeue] <+: ops → ∀ val, (SampleQueue.after pre).waiting.head? = some val →
    (SampleQueue.after pre).behind initial = some val

/-! ### The ring -/

namespace SPUFifo

variable {f : SPUFifo} {q : SampleQueue} {initial : ℕ → BitVec 16}

def ring (f : SPUFifo) : RingBuffer (BitVec 16) := ⟨f.buffer, f.head, f.tail, f.size⟩

theorem next_index {i : ℕ} (hi : i < 16) : (i + 1) &&& 15 = if i + 1 > 16 - 1 then 0 else i + 1 := by
  rw [RingBuffer.wrap_succ hi]
  exact Nat.and_two_pow_sub_one_eq_mod (i + 1) 4

theorem ring_enqueue (h : f.ring.WellFormed 16) (room : f.size ≠ 16) (val : BitVec 16) :
    (f.enqueue val).ring = f.ring.push 16 val := by
  have hnext := next_index (i := f.tail) h.tail_lt
  rw [enqueue, if_neg room]
  exact congrArg (RingBuffer.mk _ _ · _) hnext

theorem ring_dequeue (h : f.ring.WellFormed 16) (some : f.size ≠ 0) :
    f.dequeue.2.ring = f.ring.pop 16 := by
  have hnext := next_index (i := f.head) h.head_lt
  rw [dequeue, if_neg some]
  exact congrArg (RingBuffer.mk _ · _ _) hnext

/-- `dequeue` returns the front of what it leaves. -/
theorem dequeue_value (h : f.ring.WellFormed 16) (some : f.size ≠ 0) :
    f.dequeue.1 = (f.ring.pop 16).front := by
  rw [← ring_dequeue h some]
  simp only [dequeue, if_neg some, ring, RingBuffer.front]

/-- The ring holds the queue, and its cells the last 16 samples. -/
structure Holds (initial : ℕ → BitVec 16) (f : SPUFifo) (q : SampleQueue) : Prop where
  wellFormed : f.ring.WellFormed 16
  contents : f.ring.contents 16 = q.waiting
  keeps : f.ring.Keeps 16 q.accepted.length ((List.range 16).map initial ++ q.accepted)
  taken_le : q.taken ≤ q.accepted.length

theorem Holds.size_eq (h : f.Holds initial q) : f.size = q.waiting.length := by
  rw [← h.contents, RingBuffer.contents_length]
  rfl

theorem Holds.reset (f : SPUFifo) : f.reset.Holds f.buffer empty where
  wellFormed := RingBuffer.WellFormed.clear (r := f.ring) (by decide)
  contents := rfl
  keeps := by
    rw [show (empty).accepted = [] from rfl, List.append_nil]
    exact RingBuffer.Keeps.clear f.ring
  taken_le := le_rfl

theorem Holds.enqueue (h : f.Holds initial q) (val : BitVec 16) :
    (f.enqueue val).Holds initial (q.step (.enqueue val)) := by
  rw [SampleQueue.step, ← h.size_eq]
  by_cases hfull : f.size = 16
  · rw [SPUFifo.enqueue, if_pos hfull, if_pos hfull]
    exact h
  · have hroom : f.ring.size < 16 := lt_of_le_of_ne h.wellFormed.size_le hfull
    have hring := ring_enqueue h.wellFormed hfull val
    rw [if_neg hfull]
    constructor
    · rw [hring]
      exact h.wellFormed.push val hroom
    · rw [hring, RingBuffer.contents_push h.wellFormed val hroom, h.contents]
      exact (List.drop_append_of_le_length h.taken_le).symm
    · rw [hring, List.length_append, List.length_singleton, ← List.append_assoc]
      exact h.keeps.push (by decide) val
    · rw [List.length_append]
      exact h.taken_le.trans (Nat.le_add_right ..)

theorem Holds.dequeue (h : f.Holds initial q) : f.dequeue.2.Holds initial (q.step .dequeue) := by
  rw [SampleQueue.step, ← h.size_eq]
  by_cases hempty : f.size = 0
  · rw [SPUFifo.dequeue, if_pos hempty, if_pos hempty]
    exact h
  · have hring := ring_dequeue h.wellFormed hempty
    have hpop := RingBuffer.contents_pop h.wellFormed.head_lt hempty
    rw [if_neg hempty]
    constructor
    · rw [hring]
      exact h.wellFormed.pop hempty
    · rw [hring, ← @List.tail_cons _ f.ring.front ((f.ring.pop 16).contents 16), ← hpop,
        h.contents]
      exact List.tail_drop
    · rw [hring]
      exact h.keeps.pop
    · have hlen : q.waiting.length ≠ 0 := h.size_eq ▸ hempty
      rw [SampleQueue.waiting, List.length_drop] at hlen
      change q.taken + 1 ≤ q.accepted.length
      omega

theorem holds_after (f : SPUFifo) (ops : List FifoOp) :
    (f.reset.after ops).Holds f.buffer (SampleQueue.after ops) := by
  induction ops using List.reverseRecOn with
  | nil => exact Holds.reset f
  | append_singleton ops op ih =>
    rw [after, SampleQueue.after, run_concat, run_concat]
    cases op with
    | enqueue val => exact ih.enqueue val
    | dequeue => exact ih.dequeue

/-- What `dequeue` returns of a queue with a sample in it. -/
theorem Holds.dequeue_value (h : f.Holds initial q) (some : q.waiting ≠ []) :
    q.behind initial = .some f.dequeue.1 := by
  have hsize : f.size ≠ 0 := by
    rw [h.size_eq]
    exact fun hc => some (List.length_eq_zero_iff.mp hc)
  have hpop := RingBuffer.contents_pop h.wellFormed.head_lt hsize
  have hwf := h.wellFormed.pop hsize
  rw [SPUFifo.dequeue_value h.wellFormed hsize]
  rw [h.contents] at hpop
  rw [SampleQueue.behind]
  rcases hcontents : (f.ring.pop 16).contents 16 with _ | ⟨second, rest⟩
  · -- the oldest is alone: the head meets the tail
    rw [hpop, hcontents]
    have hzero : (f.ring.pop 16).size = 0 := by
      rw [← RingBuffer.contents_length (N := 16), hcontents]
      rfl
    have hhead : (f.ring.pop 16).head = (f.ring.pop 16).tail := by
      rw [hwf.tail_eq, hzero, Nat.add_zero, Nat.mod_eq_of_lt hwf.head_lt]
    have hfront : (f.ring.pop 16).front = f.ring.buf f.ring.tail := congrArg f.ring.buf hhead
    rw [hfront]
    exact h.keeps.cell_tail (by decide)
  · rw [hpop, hcontents]
    have hsome : (f.ring.pop 16).size ≠ 0 := by
      rw [← RingBuffer.contents_length (N := 16), hcontents]
      exact Nat.succ_ne_zero _
    have hsecond := RingBuffer.contents_pop hwf.head_lt hsome
    rw [hcontents] at hsecond
    exact congrArg Option.some (List.cons.inj hsecond).1

end SPUFifo

theorem isBoundedQueue_iff (f : SPUFifo) (ops : List FifoOp) :
    IsBoundedQueue f ops ↔ RepeatsAtEach f.buffer ops := by
  have hvalue : ∀ pre val, (SampleQueue.after pre).waiting.head? = some val →
      (SampleQueue.after pre).behind f.buffer = some (f.reset.after pre).dequeue.1 := by
    intro pre val hval
    apply (SPUFifo.holds_after f pre).dequeue_value
    rintro hc
    rw [hc] at hval
    exact absurd hval (by simp)
  constructor
  · intro h pre hpre val hval
    rw [hvalue pre val hval, h.oldest pre hpre val hval]
  · intro h
    refine ⟨fun pre hpre val hval => ?_, fun pre val _ hfull => ?_, fun pre _ => ?_⟩
    · exact Option.some.inj ((hvalue pre val hval).symm.trans (h pre hpre val hval))
    · exact if_pos ((SPUFifo.holds_after f pre).size_eq.trans hfull)
    · have hholds := SPUFifo.holds_after f pre
      exact ⟨hholds.size_eq, hholds.wellFormed.size_le, hholds.wellFormed.head_lt,
        hholds.wellFormed.tail_lt⟩

/-- Of two samples the later one comes first. -/
theorem dequeue_skips_oldest :
    ¬ ∀ f ops, IsBoundedQueue f ops := by
  intro h
  have holdest := (h ⟨fun _ => 0, 0, 0, 0⟩ [.enqueue 1, .enqueue 2, .dequeue]).oldest
    [.enqueue 1, .enqueue 2] (List.prefix_refl _) 1 (by decide)
  exact absurd holdest (by decide)

end Desmume.Sound
