import Desmume.Library.Literals
import Mathlib.Data.Prod.Lex
import Mathlib.Order.Filter.AtTopBot.Basic
import Mathlib.Order.OrderIsoNat

/-! Loops that run a body as long as a condition holds, with a rule for their termination: a measure
may rise in some rounds, if these are finitely many. Loops with rounds that may fail. And infinite
runs of a step function, with the rules for what they reach. -/

namespace Desmume.Library
open Filter

variable {σ α : Type*} (cont : σ → Prop) [DecidablePred cont] (body : σ → σ)

/-- The state a loop ends in, if it ends within so many rounds. -/
def runWhile : ℕ → σ → Option σ
  | 0, s => if cont s then none else some s
  | n + 1, s => if cont s then runWhile n (body s) else some s

def Terminates (s : σ) : Prop := ∃ n s', runWhile cont body n s = some s'

/-- The loop gets to its round `n`. -/
def Runs (s : σ) (n : ℕ) : Prop := ∀ k ≤ n, cont (body^[k] s)

variable {cont body}

theorem terminates_iff_exists {s : σ} : Terminates cont body s ↔ ∃ n, ¬ cont (body^[n] s) := by
  constructor
  · rintro ⟨n, s', h⟩
    induction n generalizing s with
    | zero =>
      rw [runWhile] at h
      split_ifs at h with hs
      exact ⟨0, hs⟩
    | succ n ih =>
      rw [runWhile] at h
      split_ifs at h with hs
      · obtain ⟨m, hm⟩ := ih h
        exact ⟨m + 1, hm⟩
      · exact ⟨0, hs⟩
  · rintro ⟨n, hn⟩
    refine ⟨n, ?_⟩
    induction n generalizing s with
    | zero => exact ⟨s, if_neg hn⟩
    | succ n ih =>
      rw [runWhile]
      split_ifs with hs
      · exact ih hn
      · exact ⟨s, rfl⟩

/-- A loop terminates exactly if only finitely many of its rounds are bad, where every other round
lowers a measure. -/
theorem terminates_iff_eventually [Preorder α] [WellFoundedLT α] {Inv Bad : σ → Prop} (μ : σ → α)
    (hinv : ∀ s, Inv s → cont s → Inv (body s))
    (hdown : ∀ s, Inv s → cont s → ¬ Bad s → μ (body s) < μ s) {s : σ} (hs : Inv s) :
    Terminates cont body s ↔ ∀ᶠ n in atTop, Runs cont body s n → ¬ Bad (body^[n] s) := by
  rw [terminates_iff_exists]
  constructor
  · rintro ⟨n, hn⟩
    exact eventually_atTop.mpr ⟨n, fun m hm hruns => absurd (hruns n hm) hn⟩
  · intro h
    obtain ⟨N, hN⟩ := eventually_atTop.mp h
    by_contra hnever
    have hcont (n : ℕ) : cont (body^[n] s) := not_not.mp fun hn => hnever ⟨n, hn⟩
    have hkeep (n : ℕ) : Inv (body^[n] s) := by
      induction n with
      | zero => exact hs
      | succ n ih =>
        rw [Function.iterate_succ_apply']
        exact hinv _ ih (hcont n)
    -- from round `N` on the measure would fall for ever
    refine not_strictAnti_of_wellFoundedLT (fun k => μ (body^[N + k] s))
      (strictAnti_nat_of_succ_lt fun k => ?_)
    change μ (body^[N + k + 1] s) < μ (body^[N + k] s)
    rw [Function.iterate_succ_apply']
    exact hdown _ (hkeep _) (hcont _) (hN _ (Nat.le_add_right ..) fun m _ => hcont m)

/-- A measure that every round lowers bounds the rounds. -/
theorem runWhile_of_measure (μ : σ → ℕ) (hdown : ∀ s, cont s → μ (body s) < μ s) {n : ℕ} {s : σ}
    (hn : μ s ≤ n) : ∃ s', runWhile cont body n s = some s' := by
  induction n generalizing s with
  | zero =>
    refine ⟨s, if_neg fun hs => ?_⟩
    have := hdown s hs
    omega
  | succ n ih =>
    rw [runWhile]
    split_ifs with hs
    · have := hdown s hs
      exact ih (by omega)
    · exact ⟨s, rfl⟩

theorem runWhile_eq_some {n : ℕ} {s s' : σ} (h : runWhile cont body n s = some s') :
    ∃ k, s' = body^[k] s ∧ ¬ cont s' ∧ ∀ j < k, cont (body^[j] s) := by
  induction n generalizing s with
  | zero =>
    rw [runWhile] at h
    split_ifs at h with hs
    obtain rfl := Option.some.inj h
    exact ⟨0, rfl, hs, fun j hj => absurd hj (Nat.not_lt_zero j)⟩
  | succ n ih =>
    rw [runWhile] at h
    split_ifs at h with hs
    · obtain ⟨k, rfl, hend, hruns⟩ := ih h
      refine ⟨k + 1, rfl, hend, fun j hj => ?_⟩
      cases j with
      | zero => exact hs
      | succ j => exact hruns j (by omega)
    · obtain rfl := Option.some.inj h
      exact ⟨0, rfl, hs, fun j hj => absurd hj (Nat.not_lt_zero j)⟩

theorem runWhile_of_runs {k n : ℕ} {s : σ} (hruns : ∀ j < k, cont (body^[j] s))
    (hend : ¬ cont (body^[k] s)) (hn : k ≤ n) : runWhile cont body n s = some (body^[k] s) := by
  induction k generalizing n s with
  | zero =>
    cases n with
    | zero => exact if_neg hend
    | succ n => exact if_neg hend
  | succ k ih =>
    obtain ⟨m, rfl⟩ := Nat.exists_eq_add_of_lt hn
    have hs : cont s := hruns 0 (Nat.succ_pos k)
    rw [runWhile, if_pos hs]
    exact ih (fun j hj => hruns (j + 1) (Nat.succ_lt_succ hj)) hend (Nat.le_add_right ..)

/-- A loop that gets into a set of states it does not leave does not terminate. -/
theorem not_terminates_of_trap {P : σ → Prop} (hP : ∀ s, P s → cont s ∧ P (body s)) {s : σ}
    (hs : P s) : ¬ Terminates cont body s := by
  rw [terminates_iff_exists]
  rintro ⟨n, hn⟩
  have hkeep (n : ℕ) : P (body^[n] s) := by
    induction n with
    | zero => exact hs
    | succ n ih =>
      rw [Function.iterate_succ_apply']
      exact (hP _ ih).2
  exact hn (hP _ (hkeep n)).1

theorem iterate_indexed {J : ℕ → σ → Prop} (hstep : ∀ j s, J j s → J (j + 1) (body s)) {j : ℕ} {s : σ}
    (hs : J j s) (n : ℕ) : J (j + n) (body^[n] s) := by
  induction n with
  | zero => exact hs
  | succ n ih =>
    rw [Function.iterate_succ_apply']
    exact hstep _ _ ih

section Trace

variable (body) {ω : Type*} (obs : σ → ω) (s : σ)

/-- What is seen of the first rounds. -/
def trace (n : ℕ) : List ω := (List.range n).map fun k => obs (body^[k] s)

theorem trace_add (m n : ℕ) :
    trace body obs s (m + n) = trace body obs s m ++ trace body obs (body^[m] s) n := by
  rw [trace, trace, trace, List.range_add, List.map_append, List.map_map]
  refine congrArg _ (List.map_congr_left fun k _ => ?_)
  rw [Function.comp_apply, Nat.add_comm, Function.iterate_add_apply]

theorem trace_succ (n : ℕ) : trace body obs s (n + 1) = obs s :: trace body obs (body s) n := by
  rw [Nat.add_comm, trace_add]
  rfl

theorem mem_trace {k n : ℕ} (h : k < n) : obs (body^[k] s) ∈ trace body obs s n :=
  List.mem_map.mpr ⟨k, List.mem_range.mpr h, rfl⟩

end Trace

/-! ### Loops whose rounds may fail -/

section Rounds

variable {σ α : Type*} (step : σ → Option (σ ⊕ α))

/-- What a loop returns, if it does within so many rounds and none of them fails. -/
def runRounds : ℕ → σ → Option α
  | 0, _ => none
  | n + 1, s => (step s).bind (Sum.elim (runRounds n) some)

def Returns (s : σ) (a : α) : Prop := ∃ n, runRounds step n s = some a

variable {step} {s s' : σ} {a b : α}

theorem returns_next (h : step s = some (.inl s')) : Returns step s a ↔ Returns step s' a := by
  have hround (n : ℕ) : runRounds step (n + 1) s = runRounds step n s' := by
    rw [runRounds, h]
    rfl
  constructor
  · rintro ⟨n, hn⟩
    cases n with
    | zero => exact absurd hn nofun
    | succ n => exact ⟨n, (hround n).symm.trans hn⟩
  · rintro ⟨n, hn⟩
    exact ⟨n + 1, (hround n).trans hn⟩

theorem returns_stop (h : step s = some (.inr b)) : Returns step s a ↔ a = b := by
  have hround (n : ℕ) : runRounds step (n + 1) s = some b := by
    rw [runRounds, h]
    rfl
  constructor
  · rintro ⟨n, hn⟩
    cases n with
    | zero => exact absurd hn nofun
    | succ n => exact Option.some.inj (hn.symm.trans (hround n))
  · rintro rfl
    exact ⟨1, hround 0⟩

theorem not_returns (h : step s = none) : ¬ Returns step s a := by
  rintro ⟨n, hn⟩
  cases n with
  | zero => exact absurd hn nofun
  | succ n =>
    rw [runRounds, h] at hn
    exact absurd hn nofun

theorem runRounds_succ {n : ℕ} (h : runRounds step n s = some a) :
    runRounds step (n + 1) s = some a := by
  induction n generalizing s with
  | zero => exact absurd h nofun
  | succ n ih =>
    rw [runRounds] at h ⊢
    obtain ⟨r, hr, h⟩ := Option.bind_eq_some_iff.mp h
    rw [hr, Option.bind_some]
    cases r with
    | inl s' => exact ih h
    | inr b => exact h

theorem runRounds_mono {m n : ℕ} (hmn : m ≤ n) (h : runRounds step m s = some a) :
    runRounds step n s = some a := by
  induction n, hmn using Nat.le_induction with
  | base => exact h
  | succ n _ ih => exact runRounds_succ ih

theorem Returns.unique (ha : Returns step s a) (hb : Returns step s b) : a = b := by
  obtain ⟨m, hm⟩ := ha
  obtain ⟨n, hn⟩ := hb
  have hm' := runRounds_mono (Nat.le_max_left m n) hm
  have hn' := runRounds_mono (Nat.le_max_right m n) hn
  exact Option.some.inj (hm'.symm.trans hn')

end Rounds

/-! ### Infinite runs -/

section Infinite

variable {σ ι : Type*}

structure InfiniteRun (step : σ → ι → σ) (init : σ) where
  state : ℕ → σ
  op : ℕ → ι
  start : state 0 = init
  next : ∀ n, state (n + 1) = step (state n) (op n)

/-- The run over a stream of operations. -/
def InfiniteRun.ofOps (step : σ → ι → σ) (init : σ) (op : ℕ → ι) : InfiniteRun step init where
  state n := Nat.rec init (fun n s => step s (op n)) n
  op := op
  start := rfl
  next _ := rfl

/-- A measure that no step raises and that every tick lowers brings a run to its goal. -/
theorem exists_goal_of_ticks {tick I goal : ℕ → Prop} {μ : ℕ → ℕ} (htick : ∃ᶠ n in atTop, tick n)
    (hkeep : ∀ k, I k → ¬ goal k → I (k + 1) ∧ μ (k + 1) ≤ μ k)
    (hdown : ∀ k, I k → ¬ goal k → tick k → μ (k + 1) < μ k) {n : ℕ} (hn : I n) :
    ∃ m ≥ n, goal m := by
  induction hμ : μ n using Nat.strong_induction_on generalizing n with
  | _ b ih =>
    by_contra hnone
    have hgoal (k : ℕ) (hk : n ≤ k) : ¬ goal k := fun h => hnone ⟨k, hk, h⟩
    have hstay (k : ℕ) (hk : n ≤ k) : I k ∧ μ k ≤ μ n := by
      induction k, hk using Nat.le_induction with
      | base => exact ⟨hn, Nat.le_refl _⟩
      | succ k hk ihk =>
        obtain ⟨hI, hle⟩ := hkeep k ihk.1 (hgoal k hk)
        exact ⟨hI, hle.trans ihk.2⟩
    -- the measure is lower after the first tick
    obtain ⟨t, ht, htt⟩ := frequently_atTop.mp htick n
    obtain ⟨hI, hle⟩ := hstay t ht
    have hlower : μ (t + 1) < b := by
      rw [← hμ]
      exact (hdown t hI (hgoal t ht) htt).trans_le hle
    obtain ⟨m, hm, hg⟩ := ih _ hlower (hkeep t hI (hgoal t ht)).1 rfl
    exact hgoal m (by omega) hg

end Infinite

end Desmume.Library
