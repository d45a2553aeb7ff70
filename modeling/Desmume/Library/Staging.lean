import Desmume.Library.PartialRun

/-! Stages in front of a consumer. A stage makes calls on what is behind it for every item; what a
consumer does behind a stage is what it does with all of these calls. -/

namespace Desmume.Library

variable {α β σ τ ρ : Type*}

/-- What takes items one by one, and may fail. -/
structure Consumer (α σ : Type*) where
  take : σ → α → Option σ
  finish : σ → Option σ

def Consumer.whole (C : Consumer α σ) (s : σ) (xs : List α) : Option σ :=
  (runM C.take s xs).bind C.finish

theorem Consumer.whole_cons (C : Consumer α σ) (s : σ) (x : α) (xs : List α) :
    C.whole s (x :: xs) = (C.take s x).bind fun u => C.whole u xs := by
  rw [whole, runM_cons, Option.bind_assoc]
  rfl

/-- The calls for an item, the state behind it, and the calls at the end. -/
structure Stage (α β τ : Type*) where
  calls : τ → α → List β
  next : τ → α → τ
  last : τ → List β

namespace Stage

variable (S : Stage α β τ) (C : Consumer β σ)

/-- All the calls for a list of items. -/
def allCalls : τ → List α → List β
  | t, [] => S.last t
  | t, x :: xs => S.calls t x ++ allCalls (S.next t x) xs

/-- The stage in front of a consumer. -/
def before : Consumer α (τ × σ) where
  take s x := (runM C.take s.2 (S.calls s.1 x)).map fun u => (S.next s.1 x, u)
  finish s := (C.whole s.2 (S.last s.1)).map fun u => (s.1, u)

variable {S C}

theorem whole_before (f : σ → ρ) (t : τ) (s : σ) (xs : List α) :
    ((S.before C).whole (t, s) xs).map (fun u => f u.2) = (C.whole s (S.allCalls t xs)).map f := by
  induction xs generalizing t s with
  | nil =>
    change ((C.whole s (S.last t)).map fun u => (t, u)).map _ = _
    rw [Option.map_map]
    rfl
  | cons x xs ih =>
    have hcalls : C.whole s (S.allCalls t (x :: xs)) =
        (runM C.take s (S.calls t x)).bind fun u => C.whole u (S.allCalls (S.next t x) xs) := by
      rw [allCalls, Consumer.whole, runM_append, Option.bind_assoc]
      rfl
    have hitem : (S.before C).whole (t, s) (x :: xs) =
        (runM C.take s (S.calls t x)).bind fun u => (S.before C).whole (S.next t x, u) xs := by
      rw [Consumer.whole_cons, before, Option.bind_map]
      rfl
    rw [hcalls, hitem, Option.map_bind, Option.map_bind]
    exact Option.bind_congr fun u _ => ih (S.next t x) u

end Stage

end Desmume.Library
