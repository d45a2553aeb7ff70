import Desmume.Library.Literals
import Mathlib.Data.Int.ModEq
import Mathlib.Data.List.Basic
import Mathlib.Data.List.Induction
import Mathlib.Tactic.Ring

/-! Runs of a deterministic step function over a list of operations, the observations a
run leaves behind, and the invariant rules that lift one step to a whole run, or to two at once. -/

namespace Desmume.Library

variable {σ ι ω : Type*}

def run (step : σ → ι → σ) (s : σ) (ops : List ι) : σ := ops.foldl step s

/-- The observations of a run, each taken in the state before its step. -/
def observe (step : σ → ι → σ) (obs : σ → ι → List ω) : σ → List ι → List ω
  | _, [] => []
  | s, op :: ops => obs s op ++ observe step obs (step s op) ops

@[simp] theorem run_nil (step : σ → ι → σ) (s : σ) : run step s [] = s := rfl

@[simp] theorem run_cons (step : σ → ι → σ) (s : σ) (op : ι) (ops : List ι) :
    run step s (op :: ops) = run step (step s op) ops := rfl

theorem run_append (step : σ → ι → σ) (s : σ) (as bs : List ι) :
    run step s (as ++ bs) = run step (run step s as) bs := List.foldl_append

theorem run_concat (step : σ → ι → σ) (s : σ) (as : List ι) (a : ι) :
    run step s (as ++ [a]) = step (run step s as) a := run_append step s as [a]

theorem observe_append (step : σ → ι → σ) (obs : σ → ι → List ω) (s : σ) (as bs : List ι) :
    observe step obs s (as ++ bs) = observe step obs s as ++ observe step obs (run step s as) bs := by
  induction as generalizing s with
  | nil => rfl
  | cons a as ih => simp only [List.cons_append, observe, ih, run_cons, List.append_assoc]

theorem run_invariant {step : σ → ι → σ} {Inv : σ → Prop}
    (hstep : ∀ s op, Inv s → Inv (step s op)) {s : σ} (hs : Inv s) (ops : List ι) :
    Inv (run step s ops) := by
  induction ops generalizing s with
  | nil => exact hs
  | cons op ops ih => exact ih (hstep s op hs)

/-- The invariant rule for a property that ties the state to what was observed so far. -/
theorem observe_invariant {step : σ → ι → σ} {obs : σ → ι → List ω} {Inv : σ → List ω → Prop}
    (hstep : ∀ s log op, Inv s log → Inv (step s op) (log ++ obs s op))
    {s : σ} {log : List ω} (hs : Inv s log) (ops : List ι) :
    Inv (run step s ops) (log ++ observe step obs s ops) := by
  induction ops generalizing s log with
  | nil =>
    rw [observe, List.append_nil]
    exact hs
  | cons op ops ih =>
    simpa only [run_cons, observe, List.append_assoc] using ih (hstep s log op hs)

/-- A measure that the operations of one kind decrease and no operation increases. -/
theorem run_countP_le {step : σ → ι → σ} {Inv : σ → Prop} {μ : σ → ℕ} {p : ι → Bool}
    (hinv : ∀ s op, Inv s → Inv (step s op))
    (hμ : ∀ s op, Inv s → μ (step s op) ≤ μ s - if p op then 1 else 0)
    {s : σ} (hs : Inv s) (ops : List ι) : μ (run step s ops) ≤ μ s - ops.countP p := by
  induction ops generalizing s with
  | nil => exact Nat.le_refl _
  | cons op ops ih =>
    have hfirst := hμ s op hs
    have hrest := ih (hinv s op hs)
    rw [run_cons, List.countP_cons]
    split_ifs at hfirst ⊢ <;> omega

/-- `P` holds of every operation of a run in the state it is issued in. -/
def AtEach (step : σ → ι → σ) (P : σ → ι → Prop) : σ → List ι → Prop
  | _, [] => True
  | s, op :: ops => P s op ∧ AtEach step P (step s op) ops

instance decidableAtEach {step : σ → ι → σ} {P : σ → ι → Prop} [∀ s op, Decidable (P s op)] :
    (s : σ) → (ops : List ι) → Decidable (AtEach step P s ops)
  | _, [] => isTrue trivial
  | s, op :: ops =>
    have : Decidable (AtEach step P (step s op) ops) := decidableAtEach (step s op) ops
    inferInstanceAs (Decidable (P s op ∧ AtEach step P (step s op) ops))

theorem atEach_concat {step : σ → ι → σ} {P : σ → ι → Prop} {s : σ} {ops : List ι} {op : ι} :
    AtEach step P s (ops ++ [op]) ↔ AtEach step P s ops ∧ P (run step s ops) op := by
  induction ops generalizing s with
  | nil => simp only [List.nil_append, AtEach, run_nil, and_true, true_and]
  | cons o ops ih => simp only [List.cons_append, AtEach, run_cons, ih, and_assoc]

/-- The invariant rule for runs whose operations are all issued where `P` allows them. -/
theorem observe_invariant_of_atEach {step : σ → ι → σ} {obs : σ → ι → List ω} {P : σ → ι → Prop}
    {Inv : σ → List ω → Prop}
    (hstep : ∀ s log op, P s op → Inv s log → Inv (step s op) (log ++ obs s op))
    {s : σ} {log : List ω} (hs : Inv s log) {ops : List ι} (h : AtEach step P s ops) :
    Inv (run step s ops) (log ++ observe step obs s ops) := by
  induction ops generalizing s log with
  | nil =>
    rw [observe, List.append_nil]
    exact hs
  | cons op ops ih =>
    simpa only [run_cons, observe, List.append_assoc] using
      ih (hstep s log op h.1 hs) h.2

theorem run_invariant_of_atEach {step : σ → ι → σ} {P : σ → ι → Prop} {Inv : σ → Prop}
    (hstep : ∀ s op, P s op → Inv s → Inv (step s op)) {s : σ} (hs : Inv s) {ops : List ι}
    (h : AtEach step P s ops) : Inv (run step s ops) := by
  induction ops generalizing s with
  | nil => exact hs
  | cons op ops ih => exact ih (hstep s op h.1 hs) h.2

/-- A property kept by exactly the steps that meet a condition holds all along a run exactly if all
its steps meet it. -/
theorem always_iff_atEach {step : σ → ι → σ} {P : σ → ι → Prop} {Q : σ → Prop}
    (hstep : ∀ s op, Q s → (Q (step s op) ↔ P s op)) {s : σ} (hs : Q s) {ops : List ι} :
    (∀ pre, pre <+: ops → Q (run step s pre)) ↔ AtEach step P s ops := by
  induction ops generalizing s with
  | nil =>
    refine iff_of_true (fun pre hpre => ?_) trivial
    rw [List.prefix_nil.mp hpre]
    exact hs
  | cons op ops ih =>
    constructor
    · intro h
      have hop : Q (step s op) := h [op] ⟨ops, rfl⟩
      refine ⟨(hstep s op hs).mp hop, (ih hop).mp fun pre hpre => ?_⟩
      exact h (op :: pre) ((List.prefix_cons_inj op).mpr hpre)
    · rintro ⟨hP, hrest⟩ pre hpre
      rcases List.prefix_cons_iff.mp hpre with rfl | ⟨pre, rfl, hp⟩
      · exact hs
      · exact (ih ((hstep s op hs).mpr hP)).mpr hrest pre hp

/-- What holds of every step from a state with a property that the steps of the run keep. -/
theorem AtEach.imp_of_kept {step : σ → ι → σ} {P R : σ → ι → Prop} {Q : σ → Prop}
    (hR : ∀ s op, Q s → P s op → R s op) (hkeep : ∀ s op, Q s → P s op → Q (step s op)) {s : σ}
    (hs : Q s) {ops : List ι} (h : AtEach step P s ops) : AtEach step R s ops := by
  induction ops generalizing s with
  | nil => exact trivial
  | cons op ops ih => exact ⟨hR s op hs h.1, ih (hkeep s op hs h.1) h.2⟩

/-- Once `P` holds it keeps holding in the run, up to the next exempt operation. -/
def KeptUntil (step : σ → ι → σ) (P : σ → Prop) (exempt : ι → Prop) (s : σ) (ops : List ι) : Prop :=
  ∀ pre mid post, ops = pre ++ mid ++ post → P (run step s pre) → (∀ op ∈ mid, ¬ exempt op) →
    P (run step s (pre ++ mid))

/-- Keeping a property over every stretch of a run is keeping it over every step of it. -/
theorem keptUntil_iff_step {step : σ → ι → σ} {P : σ → Prop} {exempt : ι → Prop} {s : σ}
    {ops : List ι} : KeptUntil step P exempt s ops ↔
      ∀ pre op post, ops = pre ++ op :: post → P (run step s pre) → ¬ exempt op →
        P (step (run step s pre) op) := by
  constructor
  · intro h pre op post hops hP hop
    have := h pre [op] post (by simpa using hops) hP (by simpa using hop)
    rwa [run_concat] at this
  · intro h pre mid
    induction mid using List.reverseRecOn with
    | nil =>
      intro post _ hP _
      rwa [List.append_nil]
    | append_singleton mid op ih =>
      intro post hops hP hmid
      have hbefore : P (run step s (pre ++ mid)) :=
        ih (op :: post) (by simpa using hops) hP fun o ho => hmid o (List.mem_append_left _ ho)
      rw [← List.append_assoc, run_concat]
      exact h (pre ++ mid) op post (by simpa using hops) hbefore
        (hmid op (List.mem_append_right _ (List.mem_singleton_self op)))

/-- A flag that some steps set and others clear is up after a run exactly if a step of the run set it
and none cleared it since. -/
theorem flag_iff_since {step : σ → ι → σ} {Inv flag : σ → Prop} {starts stops : σ → ι → Prop}
    (hinv : ∀ s op, Inv s → Inv (step s op))
    (hflag : ∀ s op, Inv s → (flag (step s op) ↔ starts s op ∨ flag s ∧ ¬ stops s op))
    {s : σ} (hs : Inv s) (hdown : ¬ flag s) (ops : List ι) :
    flag (run step s ops) ↔ ∃ pre op post, ops = pre ++ op :: post ∧ starts (run step s pre) op ∧
      AtEach step (fun s op => ¬ stops s op) (run step s (pre ++ [op])) post := by
  induction ops using List.reverseRecOn with
  | nil =>
    refine iff_of_false hdown ?_
    rintro ⟨pre, op, post, hops, -⟩
    simp at hops
  | append_singleton ops last ih =>
    rw [run_concat, hflag _ last (run_invariant hinv hs ops), ih]
    constructor
    · rintro (hstart | ⟨⟨pre, op, post, rfl, hstart, hpost⟩, hlast⟩)
      · exact ⟨ops, last, [], rfl, hstart, trivial⟩
      · refine ⟨pre, op, post ++ [last], by simp, hstart, atEach_concat.mpr ⟨hpost, ?_⟩⟩
        rw [← run_append]
        simpa using hlast
    · rintro ⟨pre, op, post, hops, hstart, hpost⟩
      rcases List.eq_nil_or_concat' post with rfl | ⟨post, o, rfl⟩
      · obtain ⟨rfl, hlast⟩ := List.append_inj' hops rfl
        obtain rfl := List.cons.inj hlast |>.1
        exact .inl hstart
      · have hsplit : ops ++ [last] = (pre ++ op :: post) ++ [o] := by simpa using hops
        obtain ⟨rfl, hlast⟩ := List.append_inj' hsplit rfl
        obtain rfl := List.cons.inj hlast |>.1
        obtain ⟨hrest, hstop⟩ := atEach_concat.mp hpost
        refine .inr ⟨⟨pre, op, post, rfl, hstart, hrest⟩, ?_⟩
        rw [← run_append] at hstop
        simpa using hstop

/-! ### Two runs of the same operations, tied by a relation that keeps a record -/

section TwoRuns

variable {τ μ : Type*}

/-- The step of a run that carries the record along. -/
def recordStep (step : σ → ι → σ) (record : μ → σ → ι → μ) : μ × σ → ι → μ × σ :=
  fun x op => (record x.1 x.2 op, step x.2 op)

/-- The rule for two runs, for operations that are all issued where `P` allows them. -/
theorem run_related {step : σ → ι → σ} {step' : τ → ι → τ} {record : μ → σ → ι → μ}
    {P : μ × σ → ι → Prop} {Rel : μ → σ → τ → Prop}
    (hstep : ∀ m s t op, Rel m s t → P (m, s) op → Rel (record m s op) (step s op) (step' t op))
    {m : μ} {s : σ} {t : τ} (h : Rel m s t) {ops : List ι}
    (hops : AtEach (recordStep step record) P (m, s) ops) :
    ∃ m', Rel m' (run step s ops) (run step' t ops) := by
  induction ops generalizing m s t with
  | nil => exact ⟨m, h⟩
  | cons op ops ih => exact ih (hstep m s t op h hops.1) hops.2

end TwoRuns

/-! ### A machine behind a guard that answers some inputs at once -/

/-- The next state of a step that also answers. -/
def next (step : ι → σ → ω × σ) (s : σ) (i : ι) : σ := (step i s).2

/-- The answers along a run. -/
def answers (step : ι → σ → ω × σ) (s : σ) (is : List ι) : List ω :=
  observe (next step) (fun s i => [(step i s).1]) s is

theorem answers_cons (step : ι → σ → ω × σ) (s : σ) (i : ι) (is : List ι) :
    answers step s (i :: is) = (step i s).1 :: answers step (step i s).2 is := rfl

section Shortcut

variable {step quick : ι → σ → ω × σ} {guard : σ → ι → Prop} {answer : ω}

/-- Outside its guard a shortcut is the step itself. Inside it has one answer and changes nothing,
and neither does the step if that is its answer. -/
structure IsShortcut (step quick : ι → σ → ω × σ) (guard : σ → ι → Prop) (answer : ω) : Prop where
  outside : ∀ s i, ¬ guard s i → quick i s = step i s
  inside : ∀ s i, guard s i → quick i s = (answer, s)
  idle : ∀ s i, guard s i → (step i s).1 = answer → step i s = (answer, s)

theorem IsShortcut.eq (h : IsShortcut step quick guard answer) {s : σ} {i : ι}
    (hright : guard s i → (step i s).1 = answer) : quick i s = step i s := by
  by_cases hg : guard s i
  · rw [h.inside s i hg, h.idle s i hg (hright hg)]
  · exact h.outside s i hg

/-- The two give the same answers exactly if the guard lets through only what the step answers so,
and then they run through the same states. -/
theorem IsShortcut.answers_iff (h : IsShortcut step quick guard answer) (s : σ) (is : List ι) :
    answers quick s is = answers step s is ↔
      AtEach (next quick) (fun s i => guard s i → (step i s).1 = answer) s is := by
  induction is generalizing s with
  | nil => exact iff_of_true rfl trivial
  | cons i is ih =>
    rw [answers_cons, answers_cons, List.cons.injEq]
    constructor
    · rintro ⟨hhead, htail⟩
      have hright : guard s i → (step i s).1 = answer := by
        intro hg
        rw [← hhead, h.inside s i hg]
      refine ⟨hright, ?_⟩
      rw [h.eq hright] at htail
      have hrest := (ih (step i s).2).mp htail
      rwa [← h.eq hright] at hrest
    · rintro ⟨hright, hrest⟩
      have htail := (ih _).mpr hrest
      rw [next, h.eq hright] at htail
      rw [h.eq hright]
      exact ⟨rfl, htail⟩

theorem IsShortcut.run_eq (h : IsShortcut step quick guard answer) {s : σ} {is : List ι}
    (hright : AtEach (next quick) (fun s i => guard s i → (step i s).1 = answer) s is) :
    run (next quick) s is = run (next step) s is := by
  induction is generalizing s with
  | nil => rfl
  | cons i is ih =>
    have hrest := ih hright.2
    rw [run_cons, run_cons, hrest, next, next, h.eq hright.1]

end Shortcut

end Desmume.Library
