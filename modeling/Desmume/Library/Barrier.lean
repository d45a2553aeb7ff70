import Desmume.Library.Run

/-! Barriers in a list of events: behind an event that arms the barrier nothing acts before an event
that releases it. -/

namespace Desmume.Library

variable {σ ι ε : Type*} {arms acts releases : ε → Bool}

/-- Between an event that arms the barrier and a later one that acts there is a release. -/
def IsBarrier (arms acts releases : ε → Bool) (l : List ε) : Prop :=
  ∀ pre a mid c post, l = pre ++ a :: mid ++ c :: post → arms a → acts c → ∃ r ∈ mid, releases r

/-- Nothing acts before the first release. -/
def WaitsForRelease (acts releases : ε → Bool) (l : List ε) : Prop :=
  ∀ mid c post, l = mid ++ c :: post → acts c → ∃ r ∈ mid, releases r

/-- The barrier after an event. -/
def armedBy (arms releases : ε → Bool) (armed : Bool) (e : ε) : Bool :=
  arms e || (armed && !releases e)

def armedAfter (arms releases : ε → Bool) (armed : Bool) (l : List ε) : Bool :=
  l.foldl (armedBy arms releases) armed

/-- The barrier as an automaton that reads the events. -/
def BarrierFrom (arms acts releases : ε → Bool) : Bool → List ε → Prop
  | _, [] => True
  | armed, e :: es => (armed = true → acts e = false) ∧
      BarrierFrom arms acts releases (armedBy arms releases armed e) es

theorem waitsForRelease_cons {e : ε} {es : List ε} :
    WaitsForRelease acts releases (e :: es) ↔
      acts e = false ∧ (releases e = true ∨ WaitsForRelease acts releases es) := by
  constructor
  · intro h
    refine ⟨Bool.eq_false_iff.mpr fun hacts => ?_, ?_⟩
    · obtain ⟨r, hr, -⟩ := h [] e es rfl hacts
      exact absurd hr List.not_mem_nil
    · by_cases he : releases e = true
      · exact Or.inl he
      refine Or.inr fun mid c post hes hc => ?_
      obtain ⟨r, hr, hrel⟩ := h (e :: mid) c post (congrArg (e :: ·) hes) hc
      rcases List.mem_cons.mp hr with rfl | hr
      · exact absurd hrel he
      · exact ⟨r, hr, hrel⟩
  · rintro ⟨hacts, hrest⟩ mid c post heq hc
    cases mid with
    | nil =>
      obtain ⟨rfl, -⟩ := List.cons.inj heq
      rw [hacts] at hc
      exact Bool.noConfusion hc
    | cons m mid =>
      obtain ⟨rfl, hes⟩ := List.cons.inj heq
      rcases hrest with he | hrest
      · exact ⟨e, List.mem_cons_self, he⟩
      · obtain ⟨r, hr, hrel⟩ := hrest mid c post hes hc
        exact ⟨r, List.mem_cons_of_mem _ hr, hrel⟩

theorem isBarrier_cons {e : ε} {es : List ε} :
    IsBarrier arms acts releases (e :: es) ↔
      (arms e = true → WaitsForRelease acts releases es) ∧ IsBarrier arms acts releases es := by
  constructor
  · intro h
    refine ⟨fun he mid c post hes hc => ?_, fun pre a mid c post hes ha hc => ?_⟩
    · exact h [] e mid c post (congrArg (e :: ·) hes) he hc
    · exact h (e :: pre) a mid c post (congrArg (e :: ·) hes) ha hc
  · rintro ⟨hwait, hrest⟩ pre a mid c post heq ha hc
    cases pre with
    | nil =>
      obtain ⟨rfl, hes⟩ := List.cons.inj heq
      exact hwait ha mid c post hes hc
    | cons p pre =>
      obtain ⟨rfl, hes⟩ := List.cons.inj heq
      exact hrest pre a mid c post hes ha hc

theorem barrierFrom_iff {armed : Bool} {l : List ε} :
    BarrierFrom arms acts releases armed l ↔
      (armed = true → WaitsForRelease acts releases l) ∧ IsBarrier arms acts releases l := by
  induction l generalizing armed with
  | nil =>
    refine iff_of_true trivial ⟨fun _ mid c post h => ?_, fun pre a mid c post h => ?_⟩
    · cases mid <;> cases h
    · cases pre <;> cases h
  | cons e es ih =>
    rw [BarrierFrom, ih, waitsForRelease_cons, isBarrier_cons, armedBy]
    cases armed <;> cases arms e <;> cases releases e <;> simp [and_assoc]

theorem barrierFrom_append {armed : Bool} {l m : List ε} :
    BarrierFrom arms acts releases armed (l ++ m) ↔ BarrierFrom arms acts releases armed l ∧
      BarrierFrom arms acts releases (armedAfter arms releases armed l) m := by
  induction l generalizing armed with
  | nil => exact ⟨fun h => ⟨trivial, h⟩, fun h => h.2⟩
  | cons e es ih => rw [List.cons_append, BarrierFrom, BarrierFrom, ih, and_assoc]; rfl

/-- A run of a system that knows whether the barrier is armed keeps the barrier exactly if each of
its steps does. -/
theorem isBarrier_observe_iff {step : σ → ι → σ} {obs : σ → ι → List ε} {Inv : σ → Prop}
    {armed : σ → Bool} {P : σ → ι → Prop} (hinv : ∀ s op, Inv s → Inv (step s op))
    (harmed : ∀ s op, Inv s → armed (step s op) = armedAfter arms releases (armed s) (obs s op))
    (hstep : ∀ s op, Inv s → (BarrierFrom arms acts releases (armed s) (obs s op) ↔ P s op))
    {s : σ} (hs : Inv s) (hidle : armed s = false) (ops : List ι) :
    IsBarrier arms acts releases (observe step obs s ops) ↔ AtEach step P s ops := by
  have hfrom : BarrierFrom arms acts releases (armed s) (observe step obs s ops) ↔
      AtEach step P s ops := by
    clear hidle
    induction ops generalizing s with
    | nil => exact Iff.rfl
    | cons op ops ih =>
      rw [observe, barrierFrom_append, hstep s op hs, ← harmed s op hs, ih (hinv s op hs), AtEach]
  rw [← hfrom, barrierFrom_iff, hidle]
  exact ⟨fun h => ⟨fun hf => Bool.noConfusion hf, h⟩, fun h => h.2⟩

end Desmume.Library
