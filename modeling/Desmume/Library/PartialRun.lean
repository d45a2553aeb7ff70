import Desmume.Library.Run
import Mathlib.Data.List.Basic
import Mathlib.Data.List.Range
import Mathlib.Data.Option.Basic

/-! Runs whose steps may fail, and results that a unit computes ahead of the moment they are read:
a step either starts the computation anew or leaves its result. -/

namespace Desmume.Library

variable {σ ι α β : Type*}

def runM (step : σ → ι → Option σ) (s : σ) (ops : List ι) : Option σ := ops.foldlM step s

@[simp] theorem runM_nil (step : σ → ι → Option σ) (s : σ) : runM step s [] = some s := rfl

theorem runM_cons (step : σ → ι → Option σ) (s : σ) (op : ι) (ops : List ι) :
    runM step s (op :: ops) = (step s op).bind fun s => runM step s ops := List.foldlM_cons ..

theorem runM_append (step : σ → ι → Option σ) (s : σ) (as bs : List ι) :
    runM step s (as ++ bs) = (runM step s as).bind fun s => runM step s bs := List.foldlM_append ..

theorem runM_cons_eq_some {step : σ → ι → Option σ} {s s' : σ} {op : ι} {ops : List ι} :
    runM step s (op :: ops) = some s' ↔
      ∃ s₁, step s op = some s₁ ∧ runM step s₁ ops = some s' := by
  rw [runM_cons, Option.bind_eq_some_iff]

/-- `P` holds of every operation of a run in the state it is issued in, as far as the run goes. -/
def AtEachM (step : σ → ι → Option σ) (P : σ → ι → Prop) : σ → List ι → Prop
  | _, [] => True
  | s, op :: ops => P s op ∧ ∀ s', step s op = some s' → AtEachM step P s' ops

instance decidableAtEachM {step : σ → ι → Option σ} {P : σ → ι → Prop} [∀ s op, Decidable (P s op)] :
    (s : σ) → (ops : List ι) → Decidable (AtEachM step P s ops)
  | _, [] => isTrue trivial
  | s, op :: ops =>
    have : Decidable (∀ s', step s op = some s' → AtEachM step P s' ops) :=
      match step s op with
      | none => isTrue fun _ h => nomatch h
      | some s₁ =>
        have : Decidable (AtEachM step P s₁ ops) := decidableAtEachM s₁ ops
        decidable_of_iff (AtEachM step P s₁ ops)
          ⟨fun h _ hs => Option.some.inj hs ▸ h, fun h => h s₁ rfl⟩
    inferInstanceAs (Decidable (P s op ∧ ∀ s', step s op = some s' → AtEachM step P s' ops))

theorem atEachM_congr {step : σ → ι → Option σ} {P Q : σ → ι → Prop} (h : ∀ s op, P s op ↔ Q s op)
    (s : σ) (ops : List ι) : AtEachM step P s ops ↔ AtEachM step Q s ops := by
  induction ops generalizing s with
  | nil => exact Iff.rfl
  | cons op ops ih => exact and_congr (h s op) (forall₂_congr fun s' _ => ih s')

/-- What holds at each step holds at the one that follows a part of the run. -/
theorem AtEachM.at_step {step : σ → ι → Option σ} {P : σ → ι → Prop} {s s' : σ} {pre post : List ι}
    {op : ι} (h : AtEachM step P s (pre ++ op :: post)) (hpre : runM step s pre = some s') : P s' op := by
  induction pre generalizing s with
  | nil =>
    obtain rfl := Option.some.inj hpre
    exact h.1
  | cons o pre ih =>
    obtain ⟨s₁, h₁, hrest⟩ := runM_cons_eq_some.mp hpre
    exact ih (h.2 s₁ h₁) hrest

theorem runM_invariant {step : σ → ι → Option σ} {Inv : σ → Prop}
    (hinv : ∀ s op s', Inv s → step s op = some s' → Inv s') {s s' : σ} {ops : List ι} (hs : Inv s)
    (hrun : runM step s ops = some s') : Inv s' := by
  induction ops generalizing s with
  | nil =>
    obtain rfl := Option.some.inj hrun
    exact hs
  | cons op ops ih =>
    obtain ⟨s₁, hop, hrest⟩ := runM_cons_eq_some.mp hrun
    exact ih (hinv s op s₁ hs hop) hrest

theorem runM_isSome {step : σ → ι → Option σ} {P : σ → ι → Prop} {s : σ} {ops : List ι}
    (hstep : ∀ s op, P s op → (step s op).isSome) (h : AtEachM step P s ops) :
    ∃ s', runM step s ops = some s' := by
  induction ops generalizing s with
  | nil => exact ⟨s, rfl⟩
  | cons op ops ih =>
    obtain ⟨s₁, h₁⟩ := Option.isSome_iff_exists.mp (hstep s op h.1)
    obtain ⟨s', hs'⟩ := ih (h.2 s₁ h₁)
    exact ⟨s', runM_cons_eq_some.mpr ⟨s₁, h₁, hs'⟩⟩

/-- Two runs of the same operations keep a relation that each step keeps, and fail together. -/
theorem runM_rel {τ : Type*} {step : σ → ι → Option σ} {step' : τ → ι → Option τ} {R : σ → τ → Prop}
    (hstep : ∀ s t op, R s t → Option.Rel R (step s op) (step' t op)) {s : σ} {t : τ} (h : R s t)
    (ops : List ι) : Option.Rel R (runM step s ops) (runM step' t ops) := by
  induction ops generalizing s t with
  | nil => exact .some h
  | cons op ops ih =>
    have hboth := hstep s t op h
    rw [runM_cons, runM_cons]
    generalize step s op = x, step' t op = y at hboth
    cases hboth with
    | none => exact .none
    | some hR => exact ih hR

theorem rel_mono {τ : Type*} {R R' : σ → τ → Prop} {x : Option σ} {y : Option τ}
    (h : Option.Rel R x y) (himp : ∀ s t, R s t → R' s t) : Option.Rel R' x y := by
  cases h with
  | none => exact .none
  | some hR => exact .some (himp _ _ hR)

/-- A step has a result exactly if it is allowed, and its result keeps the invariant. -/
structure StepSpec (Inv : σ → Prop) (allowed : Prop) (result : Option σ) : Prop where
  some_iff : (∃ s', result = some s') ↔ allowed
  keeps : ∀ s', result = some s' → Inv s'

section StepSpec

variable {Inv : σ → Prop} {allowed : Prop} {result : Option σ}

theorem StepSpec.of_some {s : σ} (hs : result = some s) (h : allowed) (hinv : Inv s) :
    StepSpec Inv allowed result := by
  refine ⟨iff_of_true ⟨s, hs⟩ h, fun s' hs' => ?_⟩
  rwa [← Option.some.inj (hs.symm.trans hs')]

theorem StepSpec.of_none (hnone : result = none) (h : ¬ allowed) :
    StepSpec Inv allowed result := by
  rw [hnone]
  exact ⟨iff_of_false (fun ⟨_, hs⟩ => nomatch hs) h, fun _ hs => nomatch hs⟩

variable {step : σ → ι → Option σ} {P : σ → ι → Prop}

theorem runM_isSome_iff (hstep : ∀ s op, Inv s → StepSpec Inv (P s op) (step s op)) {s : σ}
    (hs : Inv s) {ops : List ι} : (∃ s', runM step s ops = some s') ↔ AtEachM step P s ops := by
  induction ops generalizing s with
  | nil => exact iff_of_true ⟨s, rfl⟩ trivial
  | cons op ops ih =>
    obtain ⟨hsome, hkeeps⟩ := hstep s op hs
    constructor
    · rintro ⟨s', hrun⟩
      obtain ⟨s₁, h₁, hrest⟩ := runM_cons_eq_some.mp hrun
      refine ⟨hsome.mp ⟨s₁, h₁⟩, fun t ht => ?_⟩
      obtain rfl : s₁ = t := Option.some.inj (h₁.symm.trans ht)
      exact (ih (hkeeps s₁ h₁)).mp ⟨s', hrest⟩
    · rintro ⟨hop, hrest⟩
      obtain ⟨s₁, h₁⟩ := hsome.mpr hop
      obtain ⟨s', hs'⟩ := (ih (hkeeps s₁ h₁)).mpr (hrest s₁ h₁)
      exact ⟨s', runM_cons_eq_some.mpr ⟨s₁, h₁, hs'⟩⟩

/-- A property kept by the steps that meet a condition holds all along a run of such steps. -/
theorem exists_of_atEachM {I : σ → Prop}
    (hstep : ∀ s op, I s → P s op → ∃ s', step s op = some s' ∧ I s') {s : σ} (hs : I s)
    {ops : List ι} (h : AtEachM step P s ops) {pre : List ι} (hpre : pre <+: ops) :
    ∃ s', runM step s pre = some s' ∧ I s' := by
  induction ops generalizing s pre with
  | nil =>
    rw [List.prefix_nil.mp hpre]
    exact ⟨s, rfl, hs⟩
  | cons op ops ih =>
    obtain ⟨s₁, h₁, hI⟩ := hstep s op hs h.1
    rcases List.prefix_cons_iff.mp hpre with rfl | ⟨pre, rfl, hp⟩
    · exact ⟨s, rfl, hs⟩
    · obtain ⟨s₂, hrun, hI₂⟩ := ih hI (h.2 s₁ h₁) hp
      exact ⟨s₂, runM_cons_eq_some.mpr ⟨s₁, h₁, hrun⟩, hI₂⟩

/-- A property kept by exactly the steps that meet a condition holds all along a run exactly if all
its steps meet it. -/
theorem always_iff_atEachM {Q : σ → Prop}
    (hstep : ∀ s op, Q s → ∃ s', step s op = some s' ∧ (Q s' ↔ P s op)) {s : σ} (hs : Q s)
    {ops : List ι} :
    (∀ pre, pre <+: ops → ∃ s', runM step s pre = some s' ∧ Q s') ↔ AtEachM step P s ops := by
  induction ops generalizing s with
  | nil =>
    refine iff_of_true (fun pre hpre => ?_) trivial
    rw [List.prefix_nil.mp hpre]
    exact ⟨s, rfl, hs⟩
  | cons op ops ih =>
    obtain ⟨s', hs', hiff⟩ := hstep s op hs
    constructor
    · intro h
      obtain ⟨s₁, hrun, hQ⟩ := h [op] ⟨ops, rfl⟩
      rw [runM_cons, hs', Option.bind_some, runM_nil, Option.some.injEq] at hrun
      subst hrun
      refine ⟨hiff.mp hQ, fun s₁ hs₁ => ?_⟩
      obtain rfl := Option.some.inj (hs'.symm.trans hs₁)
      refine (ih hQ).mp fun pre hpre => ?_
      obtain ⟨s₂, hrun, hQ₂⟩ := h (op :: pre) ((List.prefix_cons_inj op).mpr hpre)
      rw [runM_cons, hs', Option.bind_some] at hrun
      exact ⟨s₂, hrun, hQ₂⟩
    · rintro ⟨hP, hrest⟩ pre hpre
      rcases List.prefix_cons_iff.mp hpre with rfl | ⟨pre, rfl, hp⟩
      · exact ⟨s, rfl, hs⟩
      · obtain ⟨s₂, hrun, hQ₂⟩ := (ih (hiff.mpr hP)).mpr (hrest s' hs') pre hp
        exact ⟨s₂, by rw [runM_cons, hs']; exact hrun, hQ₂⟩

/-- A property kept by exactly the steps that meet a condition holds as long as a run goes on exactly
if all its steps meet it. A step that fails does so for another reason. -/
theorem kept_iff_atEachM {step : σ → ι → Option σ} {P : σ → ι → Prop} {Q : σ → Prop} {A : ι → Prop}
    (hnone : ∀ s op, step s op = none → P s op)
    (hstep : ∀ s op s', A op → Q s → step s op = some s' → (Q s' ↔ P s op)) {s : σ} (hs : Q s)
    {ops : List ι} (hops : ∀ op ∈ ops, A op) :
    (∀ pre s', pre <+: ops → runM step s pre = some s' → Q s') ↔ AtEachM step P s ops := by
  induction ops generalizing s with
  | nil =>
    refine iff_of_true (fun pre s' hpre hrun => ?_) trivial
    rw [List.prefix_nil.mp hpre] at hrun
    rwa [← Option.some.inj hrun]
  | cons op ops ih =>
    have hop : A op := hops op List.mem_cons_self
    have hrest : ∀ o ∈ ops, A o := fun o ho => hops o (List.mem_cons_of_mem op ho)
    constructor
    · intro h
      have hfirst (s₁ : σ) (h₁ : step s op = some s₁) : Q s₁ := by
        refine h [op] s₁ ⟨ops, rfl⟩ ?_
        rw [runM_cons, h₁, Option.bind_some, runM_nil]
      refine ⟨?_, fun s₁ h₁ => (ih (hfirst s₁ h₁) hrest).mp fun pre s' hpre hrun => ?_⟩
      · cases h₁ : step s op with
        | none => exact hnone s op h₁
        | some s₁ => exact (hstep s op s₁ hop hs h₁).mp (hfirst s₁ h₁)
      · exact h (op :: pre) s' ((List.prefix_cons_inj op).mpr hpre)
          (runM_cons_eq_some.mpr ⟨s₁, h₁, hrun⟩)
    · rintro ⟨hP, htail⟩ pre s' hpre hrun
      rcases List.prefix_cons_iff.mp hpre with rfl | ⟨pre, rfl, hp⟩
      · rwa [← Option.some.inj hrun]
      · obtain ⟨s₁, h₁, hrun⟩ := runM_cons_eq_some.mp hrun
        exact (ih ((hstep s op s₁ hop hs h₁).mpr hP) hrest).mpr (htail s₁ h₁) pre s' hp hrun

/-- What holds of every step from a state with a property that the steps of the run keep. -/
theorem AtEachM.imp_of_kept {Q : σ → Prop} {R : σ → ι → Prop} (hR : ∀ s op, Q s → R s op)
    (hkeep : ∀ s op s', Q s → P s op → step s op = some s' → Q s') {s : σ} (hs : Q s)
    {ops : List ι} (h : AtEachM step P s ops) : AtEachM step R s ops := by
  induction ops generalizing s with
  | nil => exact trivial
  | cons op ops ih =>
    exact ⟨hR s op hs, fun s' hs' => ih (hkeep s op s' hs h.1 hs') (h.2 s' hs')⟩

theorem atEachM_of_invariant (hP : ∀ s op, Inv s → P s op)
    (hinv : ∀ s op s', Inv s → step s op = some s' → Inv s') {s : σ} (hs : Inv s) (ops : List ι) :
    AtEachM step P s ops := by
  induction ops generalizing s with
  | nil => exact trivial
  | cons op ops ih => exact ⟨hP s op hs, fun s' hs' => ih (hinv s op s' hs hs')⟩

theorem AtEachM.imp_of_invariant {Q : σ → ι → Prop} (himp : ∀ s op, Inv s → P s op → Q s op)
    (hinv : ∀ s op s', Inv s → step s op = some s' → Inv s') {s : σ} {ops : List ι} (hs : Inv s)
    (h : AtEachM step P s ops) : AtEachM step Q s ops := by
  induction ops generalizing s with
  | nil => exact trivial
  | cons op ops ih =>
    exact ⟨himp s op hs h.1, fun s' hs' => ih (hinv s op s' hs hs') (h.2 s' hs')⟩

end StepSpec

/-- A step that changes the operands starts the computation, or a later step does. -/
def RestartsAfterChange (step : σ → ι → Option σ) (starts : ι → Prop) (operands : σ → α) :
    σ → List ι → Prop
  | _, [] => True
  | s, op :: ops => ∀ s', step s op = some s' →
      (starts op ∨ (∃ o ∈ ops, starts o) ∨ operands s' = operands s) ∧
        RestartsAfterChange step starts operands s' ops

section Recompute

variable {step : σ → ι → Option σ} {starts : ι → Prop} {operands : σ → α} (latest : σ → β)
  (Correct : α → β → Prop)

/-- After a run the latest result is right for the operands of its last state, or nothing has
started the computation and neither has changed. -/
theorem latest_of_restartsAfterChange {s s' : σ} {ops : List ι}
    (hrun : runM step s ops = some s') (h : RestartsAfterChange step starts operands s ops)
    (hstart : ∀ s s' op, step s op = some s' → starts op → Correct (operands s') (latest s'))
    (hkeep : ∀ s s' op, step s op = some s' → ¬ starts op → latest s' = latest s) :
    (∃ op ∈ ops, starts op) ∧ Correct (operands s') (latest s') ∨
      (∀ op ∈ ops, ¬ starts op) ∧ latest s' = latest s ∧ operands s' = operands s := by
  induction ops generalizing s with
  | nil =>
    obtain rfl : s = s' := Option.some.inj hrun
    exact Or.inr ⟨fun op hop => absurd hop List.not_mem_nil, rfl, rfl⟩
  | cons op ops ih =>
    obtain ⟨s₁, h₁, hrest⟩ := runM_cons_eq_some.mp hrun
    obtain ⟨hhead, htail⟩ := h s₁ h₁
    rcases ih hrest htail with ⟨⟨o, ho, hso⟩, hcorrect⟩ | ⟨hnone, hlatest, hops⟩
    · exact Or.inl ⟨⟨o, List.mem_cons_of_mem _ ho, hso⟩, hcorrect⟩
    · by_cases hop : starts op
      · -- the last start
        refine Or.inl ⟨⟨op, List.mem_cons_self, hop⟩, ?_⟩
        rw [hlatest, hops]
        exact hstart s s₁ op h₁ hop
      · refine Or.inr ⟨fun o ho => ?_, ?_, ?_⟩
        · rcases List.mem_cons.mp ho with rfl | ho
          · exact hop
          · exact hnone o ho
        · rw [hlatest, hkeep s s₁ op h₁ hop]
        · rcases hhead with hhead | ⟨o, ho, hso⟩ | hhead
          · exact absurd hhead hop
          · exact absurd hso (hnone o ho)
          · rw [hops, hhead]

end Recompute

/-! ### A sequence that is taken piece by piece -/

section Resumption

variable {τ : Type*} {f : σ → α → σ} {xs : ℕ → α} {a b c : ℕ}

/-- What becomes of a state when the elements from `a` up to `b` are taken in order. -/
def consume (f : σ → α → σ) (xs : ℕ → α) (a b : ℕ) (s : σ) : σ :=
  run (fun s i => f s (xs i)) s (List.range' a (b - a))

theorem consume_of_le (h : b ≤ a) (s : σ) : consume f xs a b s = s := by
  rw [consume, Nat.sub_eq_zero_of_le h]
  rfl

theorem range'_split {a b c : ℕ} (hab : a ≤ b) (hbc : b ≤ c) :
    List.range' a (c - a) = List.range' a (b - a) ++ List.range' b (c - b) := by
  have hstart : a + (b - a) = b := by omega
  have hlength : c - a = b - a + (c - b) := by omega
  rw [hlength, ← List.range'_append_1, hstart]

theorem consume_consume (hab : a ≤ b) (hbc : b ≤ c) (s : σ) :
    consume f xs b c (consume f xs a b s) = consume f xs a c s := by
  rw [consume, consume, consume, range'_split hab hbc, run_append]

/-- The same with a step that may fail. -/
def consumeM (g : τ → ℕ → Option τ) (a b : ℕ) (t : τ) : Option τ :=
  runM g t (List.range' a (b - a))

theorem consumeM_consumeM (g : τ → ℕ → Option τ) (hab : a ≤ b) (hbc : b ≤ c) (t : τ) :
    consumeM g a c t = (consumeM g a b t).bind (consumeM g b c) := by
  rw [consumeM, consumeM, range'_split hab hbc, runM_append]
  rfl

theorem consumeM_succ (g : τ → ℕ → Option τ) (h : a < b) (t : τ) :
    consumeM g a b t = (g t a).bind (consumeM g (a + 1) b) := by
  have hlength : b - a = b - (a + 1) + 1 := by omega
  rw [consumeM, hlength, List.range'_succ, runM_cons]
  rfl

/-- A property that the steps keep, each at its place. -/
theorem consumeM_invariant {g : τ → ℕ → Option τ} {Inv : τ → Prop}
    (hstep : ∀ t i t', a ≤ i → i < b → Inv t → g t i = some t' → Inv t') {t t' : τ} (h : Inv t)
    (hrun : consumeM g a b t = some t') : Inv t' := by
  rw [consumeM] at hrun
  have hbound : ∀ i ∈ List.range' a (b - a), a ≤ i ∧ i < b := by
    intro i hi
    have := List.mem_range'_1.mp hi
    omega
  revert hbound hrun
  induction List.range' a (b - a) generalizing t with
  | nil =>
    intro hrun _
    rwa [← Option.some.inj hrun]
  | cons i is ih =>
    intro hrun hbound
    obtain ⟨t₁, h₁, hrest⟩ := runM_cons_eq_some.mp hrun
    obtain ⟨hi, hib⟩ := hbound i List.mem_cons_self
    exact ih (hstep t i t₁ hi hib h h₁) hrest fun j hj => hbound j (List.mem_cons_of_mem i hj)

/-- Steps that keep to `f` do not fail, and all of them together keep to it. -/
theorem consumeM_follows {g : τ → ℕ → Option τ} {R : τ → σ → Prop}
    (hstep : ∀ t s i, i < b → R t s → ∃ t', g t i = some t' ∧ R t' (f s (xs i))) {t : τ} {s : σ}
    (h : R t s) : ∃ t', consumeM g a b t = some t' ∧ R t' (consume f xs a b s) := by
  rw [consumeM, consume]
  have hbound : ∀ i ∈ List.range' a (b - a), i < b := by
    intro i hi
    have := List.mem_range'_1.mp hi
    omega
  revert hbound
  induction List.range' a (b - a) generalizing t s with
  | nil => exact fun _ => ⟨t, rfl, h⟩
  | cons i is ih =>
    intro hbound
    obtain ⟨t₁, h₁, hR⟩ := hstep t s i (hbound i List.mem_cons_self) h
    obtain ⟨t', hrest, hR'⟩ := ih hR fun j hj => hbound j (List.mem_cons_of_mem i hj)
    exact ⟨t', runM_cons_eq_some.mpr ⟨t₁, h₁, hrest⟩, hR'⟩

end Resumption

/-! ### Steps that may fail and put something out -/

section Outputs

variable {ω τ : Type*} {step : σ → ι → Option (ω × σ)} {step' : τ → ι → Option (ω × τ)}

/-- The next state of such a step. -/
def nextM (step : σ → ι → Option (ω × σ)) (s : σ) (op : ι) : Option σ := (step s op).map Prod.snd

/-- What a run puts out, up to the step that fails. -/
def outputs (step : σ → ι → Option (ω × σ)) : σ → List ι → List ω
  | _, [] => []
  | s, op :: ops =>
    match step s op with
    | none => []
    | some (out, s') => out :: outputs step s' ops

/-- Two steps both fail, or put out the same and lead to related states. -/
def Alike (R : σ → τ → Prop) (x : Option (ω × σ)) (y : Option (ω × τ)) : Prop :=
  Option.Rel (fun a b => a.1 = b.1 ∧ R a.2 b.2) x y

theorem alike_some {R : σ → τ → Prop} {x : ω × σ} {y : ω × τ} (hout : x.1 = y.1)
    (hR : R x.2 y.2) : Alike R (some x) (some y) := .some ⟨hout, hR⟩

theorem Alike.bind {ω' σ' τ' : Type*} {R : σ → τ → Prop} {R' : σ' → τ' → Prop}
    {x : Option (ω × σ)} {y : Option (ω × τ)} (h : Alike R x y) {f : ω × σ → Option (ω' × σ')}
    {g : ω × τ → Option (ω' × τ')} (hfg : ∀ out s t, R s t → Alike R' (f (out, s)) (g (out, t))) :
    Alike R' (x.bind f) (y.bind g) := by
  cases h with
  | none => exact .none
  | @some a b hab =>
    obtain ⟨out, s⟩ := a
    obtain ⟨out', t⟩ := b
    obtain ⟨rfl, hR⟩ := hab
    exact hfg out s t hR

theorem Alike.mono {R R' : σ → τ → Prop} {x : Option (ω × σ)} {y : Option (ω × τ)}
    (h : Alike R x y) (himp : ∀ s t, R s t → R' s t) : Alike R' x y :=
  rel_mono h fun _ _ hab => ⟨hab.1, himp _ _ hab.2⟩

/-- The rule for two runs of the same operations that are related step by step. -/
theorem outputs_eq_of_alike {R : σ → τ → Prop} {P : σ → ι → Prop}
    (hstep : ∀ s t op, R s t → P s op → Alike R (step s op) (step' t op)) {s : σ} {t : τ}
    (h : R s t) {ops : List ι} (hops : AtEachM (nextM step) P s ops) :
    outputs step s ops = outputs step' t ops := by
  induction ops generalizing s t with
  | nil => rfl
  | cons op ops ih =>
    obtain ⟨hop, hrest⟩ := hops
    have hboth := hstep s t op h hop
    rw [outputs, outputs]
    generalize step' t op = y at hboth ⊢
    cases hs : step s op with
    | none =>
      rw [hs] at hboth
      cases hboth
      rfl
    | some a =>
      rw [hs] at hboth
      have hnext : nextM step s op = some a.2 := by rw [nextM, hs, Option.map_some]
      cases hboth with
      | some hab => simp only [hab.1, ih hab.2 (hrest a.2 hnext)]

/-- A step with something that is kept track of beside it. -/
def tracked {γ : Type*} (step : σ → ι → Option (ω × σ)) (next : γ → σ → ι → σ → γ) (s : σ × γ)
    (op : ι) : Option (ω × σ × γ) :=
  (step s.1 op).map fun r => (r.1, r.2, next s.2 s.1 op r.2)

variable {γ : Type*} {next : γ → σ → ι → σ → γ}

theorem outputs_tracked (s : σ) (g : γ) (ops : List ι) :
    outputs (tracked step next) (s, g) ops = outputs step s ops := by
  induction ops generalizing s g with
  | nil => rfl
  | cons op ops ih =>
    rw [outputs, outputs, tracked]
    cases step s op with
    | none => rfl
    | some r => exact congrArg (r.1 :: ·) (ih r.2 _)

/-- The same rule for a relation that depends on what is kept track of. -/
theorem outputs_eq_of_tracked {R : γ → σ → τ → Prop} {P : γ → σ → ι → Prop}
    (hstep : ∀ g s t op, R g s t → P g s op →
      Alike (fun s' t' => R (next g s op s') s' t') (step s op) (step' t op))
    {g : γ} {s : σ} {t : τ} (h : R g s t) {ops : List ι}
    (hops : AtEachM (nextM (tracked step next)) (fun x => P x.2 x.1) (s, g) ops) :
    outputs step s ops = outputs step' t ops := by
  rw [← @outputs_tracked _ _ _ _ _ next s g]
  refine outputs_eq_of_alike (R := fun x t => R x.2 x.1 t) (P := fun x op => P x.2 x.1 op) ?_ h hops
  intro x t op hR hP
  have hboth := hstep x.2 x.1 t op hR hP
  rw [tracked]
  generalize step x.1 op = y, step' t op = z at hboth
  cases hboth with
  | none => exact .none
  | some hab => exact .some hab

end Outputs

end Desmume.Library
