import Desmume.Library.Run
import Mathlib.Logic.Function.Basic

/-! Threads over one store of cells. An operation changes the cell that it names. When every thread
keeps to cells of its own, all schedules leave the store as the operations do in their order. -/

namespace Desmume.Library

variable {τ κ ι β : Type*} [DecidableEq τ] [DecidableEq κ]

/-- What a thread issues in a trace. -/
def issuedBy (t : τ) (trace : List (τ × ι)) : List ι :=
  (trace.filter fun x => x.1 = t).map Prod.snd

/-- The trace interleaves the programs, each in its own order. -/
def Schedules (prog : τ → List ι) (trace : List (τ × ι)) : Prop :=
  ∀ t, issuedBy t trace = prog t

def cellStep (step : β → ι → β) (m : κ → β) (op : κ × ι) : κ → β :=
  Function.update m op.1 (step (m op.1) op.2)

/-- The operations on one cell. -/
def opsOn (k : κ) (ops : List (κ × ι)) : List (κ × ι) := ops.filter fun op => op.1 = k

theorem opsOn_cons (k : κ) (op : κ × ι) (ops : List (κ × ι)) :
    opsOn k (op :: ops) = if op.1 = k then op :: opsOn k ops else opsOn k ops := by
  simp only [opsOn, List.filter_cons, decide_eq_true_eq]

theorem run_cellStep_apply (step : β → ι → β) (m : κ → β) (ops : List (κ × ι)) (k : κ) :
    run (cellStep step) m ops k = run step (m k) ((opsOn k ops).map Prod.snd) := by
  induction ops generalizing m with
  | nil => rfl
  | cons op ops ih =>
    rw [run_cons, ih, opsOn_cons]
    by_cases hk : op.1 = k
    · subst hk
      simp only [if_true, List.map_cons, run_cons, cellStep, Function.update_self]
    · simp only [if_neg hk, cellStep, Function.update_of_ne (Ne.symm hk)]

theorem mem_issuedBy {t : τ} {x : ι} {trace : List (τ × ι)} :
    x ∈ issuedBy t trace ↔ (t, x) ∈ trace := by
  simp only [issuedBy, List.mem_map, List.mem_filter, decide_eq_true_eq, Prod.exists,
    exists_eq_right]

theorem issuedBy_append (t : τ) (xs ys : List (τ × ι)) :
    issuedBy t (xs ++ ys) = issuedBy t xs ++ issuedBy t ys := by
  rw [issuedBy, List.filter_append, List.map_append]
  rfl

theorem issuedBy_map (t t' : τ) (is : List ι) :
    issuedBy t (is.map fun i => (t', i)) = if t' = t then is else [] := by
  induction is with
  | nil => exact (ite_self _).symm
  | cons i is ih =>
    rw [issuedBy] at ih ⊢
    rw [List.map_cons, List.filter_cons]
    by_cases ht : t' = t
    · simp only [ht, decide_true, if_true, List.map_cons] at ih ⊢
      rw [ih]
    · simp only [ht, decide_false, Bool.false_eq_true, if_false] at ih ⊢
      exact ih

/-- One thread after the other is a schedule. -/
theorem schedules_sequential {prog : τ → List ι} {ts : List τ} (hnodup : ts.Nodup)
    (hts : ∀ t, t ∉ ts → prog t = []) :
    Schedules prog (ts.flatMap fun t => (prog t).map fun i => (t, i)) := by
  intro t
  have hall (ts : List τ) (hnodup : ts.Nodup) :
      issuedBy t (ts.flatMap fun t => (prog t).map fun i => (t, i)) = if t ∈ ts then prog t else [] := by
    induction ts with
    | nil => rfl
    | cons t' ts ih =>
      obtain ⟨hnot, hrest⟩ := List.nodup_cons.mp hnodup
      rw [List.flatMap_cons, issuedBy_append, issuedBy_map, ih hrest]
      by_cases ht : t' = t
      · rw [if_pos ht, if_neg (ht ▸ hnot), if_pos (ht ▸ List.mem_cons_self), List.append_nil, ht]
      · rw [if_neg ht, List.nil_append]
        simp only [List.mem_cons, Ne.symm ht, false_or]
  rw [hall ts hnodup]
  by_cases hmem : t ∈ ts
  · rw [if_pos hmem]
  · rw [if_neg hmem, hts t hmem]

/-- Each thread runs those of the operations that are on its cells. -/
def ownProgram (own : κ → τ) (ops : List (κ × ι)) (t : τ) : List (κ × ι) :=
  ops.filter fun op => own op.1 = t

variable {own : κ → τ} {ops : List (κ × ι)} {trace : List (τ × (κ × ι))}

theorem opsOn_ownProgram (own : κ → τ) (ops : List (κ × ι)) (k : κ) :
    opsOn k (ownProgram own ops (own k)) = opsOn k ops := by
  rw [opsOn, ownProgram, List.filter_filter]
  refine List.filter_congr fun op _ => ?_
  by_cases hk : op.1 = k
  · simp [hk]
  · simp [hk]

theorem Schedules.opsOn_eq (h : Schedules (ownProgram own ops) trace) (k : κ) :
    opsOn k (trace.map Prod.snd) = opsOn k ops := by
  have htag : ∀ x ∈ trace, x.2.1 = k → x.1 = own k := by
    rintro ⟨t, op⟩ hx rfl
    have hop : op ∈ ownProgram own ops t := h t ▸ mem_issuedBy.mpr hx
    exact (of_decide_eq_true (List.mem_filter.mp hop).2).symm
  calc opsOn k (trace.map Prod.snd)
      = opsOn k (issuedBy (own k) trace) := by
        rw [opsOn, opsOn, issuedBy, List.filter_map, List.filter_map, List.filter_filter]
        refine congrArg (List.map Prod.snd) (List.filter_congr fun x hx => ?_)
        by_cases hk : x.2.1 = k
        · simp [hk, htag x hx hk]
        · simp [hk]
    _ = opsOn k (ownProgram own ops (own k)) := by rw [h (own k)]
    _ = opsOn k ops := opsOn_ownProgram own ops k

/-- The schedule does not matter. -/
theorem Schedules.run_eq (h : Schedules (ownProgram own ops) trace) (step : β → ι → β)
    (m : κ → β) : run (cellStep step) m (trace.map Prod.snd) = run (cellStep step) m ops := by
  funext k
  rw [run_cellStep_apply, run_cellStep_apply, h.opsOn_eq]

end Desmume.Library
