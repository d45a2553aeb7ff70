import Desmume.Library.Run
import Mathlib.Data.List.DropRight

/-! A first-in first-out channel that can be emptied by its sender, and the journal that
gives every value ever sent its one fate. -/

namespace Desmume.Library

variable {α : Type*}

inductive ChannelEvent (α : Type*) where
  | sent (x : α)
  | received (x : α)
  | cleared

namespace ChannelEvent

def sent? : ChannelEvent α → Option α
  | .sent x => some x
  | _ => none

def received? : ChannelEvent α → Option α
  | .received x => some x
  | _ => none

def isCleared : ChannelEvent α → Bool
  | .cleared => true
  | _ => false

end ChannelEvent

/-- The events after the last clear. -/
def sinceClear (es : List (ChannelEvent α)) : List (ChannelEvent α) :=
  es.rtakeWhile fun e => !e.isCleared

/-- What one event does to the queue of values sent and not yet received. -/
inductive ChannelStep : List α → ChannelEvent α → List α → Prop
  | sent (q : List α) (x : α) : ChannelStep q (.sent x) (q ++ [x])
  | received (x : α) (q : List α) : ChannelStep (x :: q) (.received x) q
  | cleared (q : List α) : ChannelStep q .cleared []

/-- The event sequences a first-in first-out channel allows, with the queue each leaves. -/
inductive ChannelTrace : List (ChannelEvent α) → List α → Prop
  | nil : ChannelTrace [] []
  | step {es q e q'} : ChannelTrace es q → ChannelStep q e q' → ChannelTrace (es ++ [e]) q'

/-- What was sent since the last clear is what was received since then and what is queued. -/
theorem ChannelTrace.sent_sinceClear {es : List (ChannelEvent α)} {q : List α}
    (h : ChannelTrace es q) : (sinceClear es).filterMap ChannelEvent.sent? =
      (sinceClear es).filterMap ChannelEvent.received? ++ q := by
  induction h with
  | nil => rfl
  | step _ he ih =>
    rw [sinceClear] at ih
    cases he with
    | sent =>
      rw [sinceClear, List.rtakeWhile_concat_pos _ _ _ rfl, List.filterMap_append,
        List.filterMap_append, ih, List.append_assoc, List.append_assoc]
      rfl
    | received =>
      rw [sinceClear, List.rtakeWhile_concat_pos _ _ _ rfl, List.filterMap_append,
        List.filterMap_append, ih, List.append_assoc, List.append_assoc]
      exact congrArg _ (List.append_nil _)
    | cleared =>
      rw [sinceClear, List.rtakeWhile_concat_neg _ _ _ Bool.false_ne_true]
      rfl

inductive Fate where
  | pending
  | received
  | discarded
deriving DecidableEq

abbrev Journal (α : Type*) := List (α × Fate)

namespace Journal

def send (x : α) (j : Journal α) : Journal α := j ++ [(x, .pending)]

/-- Mark the oldest pending value as received. -/
def receive : Journal α → Journal α
  | [] => []
  | (x, .pending) :: j => (x, .received) :: j
  | e :: j => e :: receive j

def discard (j : Journal α) : Journal α :=
  j.map fun e => if e.2 = .pending then (e.1, .discarded) else e

def record (j : Journal α) : ChannelEvent α → Journal α
  | .sent x => j.send x
  | .received _ => j.receive
  | .cleared => j.discard

def ofEvents (es : List (ChannelEvent α)) : Journal α := es.foldl record []

def values (f : Fate) (j : Journal α) : List α := (j.filter fun e => e.2 = f).map Prod.fst

@[simp] theorem values_nil (f : Fate) : values f ([] : Journal α) = [] := rfl

@[simp] theorem values_cons (f : Fate) (e : α × Fate) (j : Journal α) :
    values f (e :: j) = if e.2 = f then e.1 :: values f j else values f j := by
  by_cases h : e.2 = f <;> simp [values, h]

@[simp] theorem values_append (f : Fate) (j k : Journal α) :
    values f (j ++ k) = values f j ++ values f k := by
  simp [values]

/-- Nothing settled comes after something pending. -/
def Settled (j : Journal α) : Prop := ∃ done todo : Journal α, j = done ++ todo ∧
  (∀ e ∈ done, e.2 ≠ .pending) ∧ ∀ e ∈ todo, e.2 = .pending

theorem values_of_forall_ne {f : Fate} {j : Journal α} (h : ∀ e ∈ j, e.2 ≠ f) :
    values f j = [] := by
  simpa [values, List.filter_eq_nil_iff] using fun a b hab => h (a, b) hab

theorem values_of_forall_eq {f : Fate} {j : Journal α} (h : ∀ e ∈ j, e.2 = f) :
    values f j = j.map Prod.fst := by
  rw [values, List.filter_eq_self.mpr]
  simpa using fun a b hab => h (a, b) hab

theorem receive_append_of_settled {done todo : Journal α} (h : ∀ e ∈ done, e.2 ≠ .pending) :
    receive (done ++ todo) = done ++ receive todo := by
  induction done with
  | nil => rfl
  | cons e done ih =>
    obtain ⟨x, f⟩ := e
    have ht := ih fun e he => h e (List.mem_cons_of_mem _ he)
    cases f with
    | pending => exact absurd rfl (h _ (List.mem_cons_self ..))
    | received => exact congrArg _ ht
    | discarded => exact congrArg _ ht

theorem map_fst_discard (j : Journal α) : j.discard.map Prod.fst = j.map Prod.fst := by
  simp only [discard, List.map_map]
  refine List.map_congr_left fun e _ => ?_
  by_cases h : e.2 = .pending <;> simp [h]

theorem values_received_discard (j : Journal α) :
    values .received j.discard = values .received j := by
  induction j with
  | nil => rfl
  | cons e j ih =>
    obtain ⟨x, f⟩ := e
    have ht : discard ((x, f) :: j) = (if f = .pending then (x, .discarded) else (x, f)) ::
        discard j := rfl
    cases f <;> simp [ht, ih]

theorem discard_settled (j : Journal α) : ∀ e ∈ j.discard, e.2 ≠ .pending := by
  intro e he
  obtain ⟨d, _, rfl⟩ := List.mem_map.mp he
  by_cases h : d.2 = .pending <;> simp [h]

end Journal

open Journal

/-- What ties a journal to the events it records and to the queue they leave. -/
structure JournalLaw (es : List (ChannelEvent α)) (q : List α) (j : Journal α) : Prop where
  settled : j.Settled
  sends : j.map Prod.fst = es.filterMap ChannelEvent.sent?
  receives : j.values .received = es.filterMap ChannelEvent.received?
  pending : j.values .pending = q

theorem JournalLaw.step {es : List (ChannelEvent α)} {q q' : List α} {j : Journal α}
    {e : ChannelEvent α} (h : JournalLaw es q j) (he : ChannelStep q e q') :
    JournalLaw (es ++ [e]) q' (j.record e) := by
  obtain ⟨⟨done, todo, rfl, hdone, htodo⟩, hsends, hreceives, hpending⟩ := h
  cases he with
  | sent q x =>
    refine ⟨⟨done, todo ++ [(x, .pending)], by simp [record, send], hdone, ?_⟩, ?_, ?_, ?_⟩
    · intro e he
      rcases List.mem_append.mp he with h | h
      · exact htodo e h
      · rw [List.mem_singleton.mp h]
    · simp only [record, send, List.map_append, List.filterMap_append, ← hsends]
      rfl
    · simp only [record, send, values_append, List.filterMap_append, ← hreceives]
      rfl
    · rw [record, send, values_append, hpending]
      rfl
  | received x q =>
    rw [values_append, values_of_forall_ne hdone, List.nil_append,
      values_of_forall_eq htodo] at hpending
    cases todo with
    | nil => simp at hpending
    | cons e todo =>
      obtain ⟨y, f⟩ := e
      obtain rfl : f = .pending := htodo _ (List.mem_cons_self ..)
      obtain ⟨rfl, rfl⟩ := List.cons.inj hpending
      have hrest : ∀ e ∈ todo, e.2 = .pending := fun e he => htodo e (List.mem_cons_of_mem _ he)
      have hrec : (done ++ (y, .pending) :: todo).record (.received y) =
          done ++ (y, .received) :: todo := receive_append_of_settled hdone
      rw [hrec]
      refine ⟨⟨done ++ [(y, .received)], todo, by simp, ?_, hrest⟩, ?_, ?_, ?_⟩
      · intro e he
        rcases List.mem_append.mp he with h | h
        · exact hdone e h
        · rw [List.mem_singleton.mp h]
          exact Fate.noConfusion
      · rw [List.filterMap_append, ← hsends]
        simp [ChannelEvent.sent?, List.filterMap_cons]
      · have hnone : values .received todo = [] :=
          values_of_forall_ne fun e he => by rw [hrest e he]; exact Fate.noConfusion
        have hbefore : values .received done = es.filterMap ChannelEvent.received? := by
          simpa [hnone] using hreceives
        simp [ChannelEvent.received?, hnone, hbefore]
      · rw [values_append, values_of_forall_ne hdone, values_cons, if_neg Fate.noConfusion,
          values_of_forall_eq hrest, List.nil_append]
  | cleared q =>
    refine ⟨⟨(done ++ todo).discard, [], by simp [record], discard_settled _, by simp⟩, ?_, ?_, ?_⟩
    · rw [record, map_fst_discard, hsends]
      simp [ChannelEvent.sent?, List.filterMap_cons]
    · rw [record, values_received_discard, hreceives]
      simp [ChannelEvent.received?, List.filterMap_cons]
    · exact values_of_forall_ne (discard_settled _)

/-- Along a first-in first-out trace the journal lists the values sent, in order; those marked
received are the values received, in order; those still pending are the queue. -/
theorem ChannelTrace.journalLaw {es : List (ChannelEvent α)} {q : List α}
    (h : ChannelTrace es q) : JournalLaw es q (Journal.ofEvents es) := by
  induction h with
  | nil => exact ⟨⟨[], [], rfl, by simp, by simp⟩, rfl, rfl, rfl⟩
  | @step es q e q' _ he ih =>
    have hfold : Journal.ofEvents (es ++ [e]) = (Journal.ofEvents es).record e := by
      simp [Journal.ofEvents]
    exact hfold ▸ ih.step he

end Desmume.Library
