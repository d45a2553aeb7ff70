import Desmume.Library.Literals
import Mathlib.Data.Nat.Notation

/-! Programs on a state that may fail, their loops, the changes of the state that a program does not
see, and runs as they are seen through what is known of the state. -/

namespace Desmume.Library

variable {σ τ ε α β : Type}

theorem bind_apply (f : StateT σ Option α) (k : α → StateT σ Option β) (s : σ) :
    (f >>= k) s = (f s).bind fun r => k r.1 r.2 := rfl

/-- A loop body run so many times, unless it leaves with a result. -/
def rounds (body : τ → StateT σ Option (ε ⊕ τ)) : ℕ → τ → StateT σ Option (ε ⊕ τ)
  | 0, x => pure (.inr x)
  | n + 1, x => do
    match ← body x with
    | .inl e => pure (.inl e)
    | .inr x => rounds body n x

/-- A loop with a condition. It fails where it has not ended within so many rounds. -/
def roundsWhile (cont : τ → Prop) [DecidablePred cont] (body : τ → StateT σ Option (ε ⊕ τ)) :
    ℕ → τ → StateT σ Option (ε ⊕ τ)
  | 0, x => if cont x then failure else pure (.inr x)
  | n + 1, x =>
    if cont x then do
      match ← body x with
      | .inl e => pure (.inl e)
      | .inr x => roundsWhile cont body n x
    else pure (.inr x)

/-- The program runs alike after the change and leaves the change in place. Programs that are put
together from such programs are such programs, by instances. -/
class Unseen (g : σ → σ) (f : StateT σ Option α) : Prop where
  run : ∀ s, f (g s) = (f s).map fun r => (r.1, g r.2)

variable {g : σ → σ}

instance unseen_pure (a : α) : Unseen g (pure a) := ⟨fun _ => rfl⟩

instance unseen_failure : Unseen g (failure : StateT σ Option α) := ⟨fun _ => rfl⟩

instance unseen_bind (f : StateT σ Option α) (k : α → StateT σ Option β) [hf : Unseen g f]
    [hk : ∀ a, Unseen g (k a)] : Unseen g (f >>= k) := by
  constructor
  intro s
  rw [bind_apply, bind_apply, hf.run s]
  cases f s with
  | none => rfl
  | some r => exact (hk r.1).run r.2

instance unseen_ite (c : Prop) [Decidable c] (f f' : StateT σ Option α) [hf : Unseen g f]
    [hf' : Unseen g f'] : Unseen g (if c then f else f') := by
  split
  · exact hf
  · exact hf'

/-- The rule for a continuation that has to be split. -/
theorem Unseen.bind {f : StateT σ Option α} {k : α → StateT σ Option β} [Unseen g f]
    (hk : ∀ a, Unseen g (k a)) : Unseen g (f >>= k) := unseen_bind f k

theorem Unseen.ite {c : Prop} [Decidable c] {f f' : StateT σ Option α} (hf : Unseen g f)
    (hf' : Unseen g f') : Unseen g (if c then f else f') := unseen_ite c f f'

instance unseen_rounds (body : τ → StateT σ Option (ε ⊕ τ)) [hbody : ∀ x, Unseen g (body x)]
    (n : ℕ) (x : τ) : Unseen g (rounds body n x) := by
  induction n generalizing x with
  | zero => exact unseen_pure _
  | succ n ih =>
    refine Unseen.bind fun r => ?_
    cases r with
    | inl e => exact unseen_pure _
    | inr x => exact ih x

instance unseen_roundsWhile (cont : τ → Prop) [DecidablePred cont]
    (body : τ → StateT σ Option (ε ⊕ τ)) [hbody : ∀ x, Unseen g (body x)] (n : ℕ) (x : τ) :
    Unseen g (roundsWhile cont body n x) := by
  induction n generalizing x with
  | zero => exact unseen_ite _ _ _
  | succ n ih =>
    refine Unseen.ite (Unseen.bind fun r => ?_) (unseen_pure _)
    cases r with
    | inl e => exact unseen_pure _
    | inr x => exact ih x

/-- A program that does not see any replacement of a part leaves that part alone. -/
theorem Unseen.keeps {γ : Type} {read : σ → γ} {put : γ → σ → σ} {f : StateT σ Option α}
    (hread : ∀ c s, read (put c s) = c) (hput : ∀ s, put (read s) s = s)
    (hf : ∀ c, Unseen (put c) f) {s : σ} {r : α × σ} (h : f s = some r) : read r.2 = read s := by
  have hsame := (hf (read s)).run s
  rw [hput, h, Option.map_some, Option.some.injEq] at hsame
  rw [hsame]
  exact hread _ _

/-! ### Runs as they are seen -/

variable {ξ : Type} {seen : σ → ξ → Prop}

/-- From any state that is seen as `x` the program gets to a state that is seen as `y`, with the
result `a`. -/
def Leads (seen : σ → ξ → Prop) (f : StateT σ Option α) (x : ξ) (a : α) (y : ξ) : Prop :=
  ∀ s, seen s x → ∃ s', f s = some (a, s') ∧ seen s' y

theorem leads_pure (a : α) (x : ξ) : Leads seen (pure a) x a x := fun s hs => ⟨s, rfl, hs⟩

theorem Leads.bind {f : StateT σ Option α} {k : α → StateT σ Option β} {x y z : ξ} {a : α} {b : β}
    (hf : Leads seen f x a y) (hk : Leads seen (k a) y b z) : Leads seen (f >>= k) x b z := by
  intro s hs
  obtain ⟨s', hrun, hs'⟩ := hf s hs
  obtain ⟨s'', hrun', hs''⟩ := hk s' hs'
  refine ⟨s'', ?_, hs''⟩
  rw [bind_apply, hrun]
  exact hrun'

/-- The program leaves with the result `e` in `y` if it is `done`, and otherwise goes on with what
satisfies `Q`. -/
def Passes (seen : σ → ξ → Prop) (f : StateT σ Option (ε ⊕ τ)) (x : ξ) (done : Prop) (e : ε) (y : ξ)
    (Q : τ → ξ → Prop) : Prop :=
  (done ∧ Leads seen f x (.inl e) y) ∨ (¬ done ∧ ∃ t z, Leads seen f x (.inr t) z ∧ Q t z)

section Rules

variable {x y z : ξ} {done done' : Prop} {e : ε} {Q : τ → ξ → Prop}

theorem Leads.passes {f : StateT σ Option (ε ⊕ τ)} {t : τ} (h : Leads seen f x (.inr t) z)
    (hdone : ¬ done) (hQ : Q t z) : Passes seen f x done e y Q := .inr ⟨hdone, t, z, h, hQ⟩

/-- A program in front of which something else is run. -/
theorem Leads.bind_passes {f : StateT σ Option α} {k : α → StateT σ Option (ε ⊕ τ)} {a : α}
    (hf : Leads seen f x a z) (hk : Passes seen (k a) z done e y Q) :
    Passes seen (f >>= k) x done e y Q := by
  rcases hk with ⟨hdone, h⟩ | ⟨hdone, t, z', h, hQ⟩
  · exact .inl ⟨hdone, hf.bind h⟩
  · exact .inr ⟨hdone, t, z', hf.bind h, hQ⟩

/-- What leaves is passed on, and what goes on is continued. -/
theorem Passes.bind {τ' : Type} {f : StateT σ Option (ε ⊕ τ)}
    {k : ε ⊕ τ → StateT σ Option (ε ⊕ τ')} {R : τ' → ξ → Prop} (hf : Passes seen f x done e y Q)
    (hstay : done → done') (hleave : k (.inl e) = pure (.inl e))
    (hk : ¬ done → ∀ t z, Q t z → Passes seen (k (.inr t)) z done' e y R) :
    Passes seen (f >>= k) x done' e y R := by
  rcases hf with ⟨hdone, h⟩ | ⟨hdone, t, z, h, hQ⟩
  · refine .inl ⟨hstay hdone, h.bind ?_⟩
    rw [hleave]
    exact leads_pure _ _
  · exact h.bind_passes (hk hdone t z hQ)

variable {body : τ → StateT σ Option (ε ⊕ τ)} {t : τ} {n : ℕ}

theorem Passes.rounds_succ {R : τ → ξ → Prop} (hbody : Passes seen (body t) x done e y Q)
    (hstay : done → done')
    (hrest : ¬ done → ∀ t z, Q t z → Passes seen (rounds body n t) z done' e y R) :
    Passes seen (rounds body (n + 1) t) x done' e y R :=
  hbody.bind hstay rfl hrest

variable {cont : τ → Prop} [DecidablePred cont]

theorem Passes.roundsWhile_succ {R : τ → ξ → Prop} (hcont : cont t)
    (hbody : Passes seen (body t) x done e y Q) (hstay : done → done')
    (hrest : ¬ done → ∀ t z, Q t z → Passes seen (roundsWhile cont body n t) z done' e y R) :
    Passes seen (roundsWhile cont body (n + 1) t) x done' e y R := by
  rw [roundsWhile, if_pos hcont]
  exact hbody.bind hstay rfl hrest

theorem leads_roundsWhile_stop (hcont : ¬ cont t) (n : ℕ) (x : ξ) :
    Leads seen (roundsWhile cont body n t) x (.inr t) x := by
  cases n with
  | zero =>
    rw [roundsWhile, if_neg hcont]
    exact leads_pure _ _
  | succ n =>
    rw [roundsWhile, if_neg hcont]
    exact leads_pure _ _

theorem Leads.roundsWhile_succ {t' : τ} {r : ε ⊕ τ} (hcont : cont t)
    (hbody : Leads seen (body t) x (.inr t') y)
    (hrest : Leads seen (roundsWhile cont body n t') y r z) :
    Leads seen (roundsWhile cont body (n + 1) t) x r z := by
  rw [roundsWhile, if_pos hcont]
  exact hbody.bind hrest

theorem Leads.rounds_succ {t' : τ} {r : ε ⊕ τ} (hbody : Leads seen (body t) x (.inr t') y)
    (hrest : Leads seen (rounds body n t') y r z) : Leads seen (rounds body (n + 1) t) x r z :=
  hbody.bind hrest

end Rules

section Advances

variable {cont : τ → Prop} [DecidablePred cont] {body : τ → StateT σ Option (ε ⊕ τ)} {x y z : ξ}
  {t t' t'' : τ} {n k : ℕ}

/-- Some rounds of a loop: whatever the rest of the loop leads to from their end, the loop leads to. -/
def Advances (seen : σ → ξ → Prop) (cont : τ → Prop) [DecidablePred cont]
    (body : τ → StateT σ Option (ε ⊕ τ)) (n : ℕ) (t : τ) (x : ξ) (t' : τ) (y : ξ) : Prop :=
  ∀ fuel r z, Leads seen (roundsWhile cont body fuel t') y r z →
    Leads seen (roundsWhile cont body (fuel + n) t) x r z

theorem advances_zero (t : τ) (x : ξ) : Advances seen cont body 0 t x t x :=
  fun _ _ _ h => h

theorem Leads.advances (hcont : cont t) (h : Leads seen (body t) x (.inr t') y) :
    Advances seen cont body 1 t x t' y :=
  fun _ _ _ => Leads.roundsWhile_succ hcont h

theorem Advances.trans (h : Advances seen cont body n t x t' y)
    (h' : Advances seen cont body k t' y t'' z) : Advances seen cont body (n + k) t x t'' z := by
  intro fuel r y' hrest
  rw [Nat.add_comm n k, ← Nat.add_assoc]
  exact h _ _ _ (h' _ _ _ hrest)

/-- The loop is left behind the rounds. -/
theorem Advances.leads (h : Advances seen cont body n t x t' y) (hcont : ¬ cont t') {fuel : ℕ}
    (hfuel : n ≤ fuel) : Leads seen (roundsWhile cont body fuel t) x (.inr t') y := by
  obtain ⟨d, rfl⟩ := Nat.exists_eq_add_of_le' hfuel
  exact h _ _ _ (leads_roundsWhile_stop hcont d y)

end Advances

end Desmume.Library
