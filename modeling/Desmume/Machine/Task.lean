import Desmume.Library.Barrier
import Desmume.Library.PartialRun

/-! `Task`: a thread that runs the work of one client. Both meet in a mutex and one condition variable;
a wait may end without a signal. In every interleaving `finish` brings the result of the work that was
given last, and it cannot be that nobody goes on. -/

namespace Desmume.Machine
open Library

/-- Where `taskProc` is: before the lock, in `scond_wait`, after a signal, in the work, before the test
of `exitThread`, or over. It holds the mutex in the work. -/
inductive WorkerPc where
  | atLock | waiting | woken | working | atExit | ended
  deriving DecidableEq

/-- Where the client is: outside of the methods, in the `scond_wait` of `finish`, after a signal, or in
the `sthread_join` of `shutdown`. -/
inductive ClientPc where
  | outside | waiting | woken | joining
  deriving DecidableEq

/-- `Task::Impl` with both threads. A result of `none` is the null pointer. The works that were given and
those that were run, with their results, are recorded. -/
structure Task (ω ρ : Type*) where
  isThreadRunning : Bool
  workFunc : Option ω
  ret : Option ρ
  exitThread : Bool
  worker : WorkerPc
  client : ClientPc
  given : List ω
  ran : List (ω × Option ρ)

/-- What a thread does in one hold of the mutex. -/
inductive TaskAct (ω ρ : Type*) where
  | start
  | execute (work : Option ω)
  | finish
  | finishAgain
  | shutdown
  | joined
  | workerLock
  | workerDone (ret : Option ρ)
  | workerExit
  | spuriousWorker
  | spuriousClient

namespace Task

variable {ω ρ : Type*} (t : Task ω ρ)

/-- `Impl::Impl`. -/
def initial : Task ω ρ := ⟨false, none, none, false, .ended, .outside, [], []⟩

/-- The client calls a method and gets the mutex. -/
def Enters : Prop := t.client = .outside ∧ t.worker ≠ .working

instance : Decidable t.Enters := inferInstanceAs (Decidable (_ ∧ _))

/-- `scond_signal`, from the client and from the worker. -/
def signalWorker : WorkerPc := if t.worker = .waiting then .woken else t.worker

def signalClient : ClientPc := if t.client = .waiting then .woken else t.client

/-- The loop of `finish`: it waits for the work or returns. -/
def await : Task ω ρ :=
  { t with client := if t.workFunc ≠ none then .waiting else .outside }

/-- `taskProc` from the lock on: it waits, goes to the work, or is told to exit. -/
def takeWork : Task ω ρ :=
  if t.workFunc ≠ none then { t with worker := .working }
  else if t.exitThread then
    { t with ret := none, workFunc := none, client := t.signalClient, worker := .atExit }
  else { t with worker := .waiting }

def step : TaskAct ω ρ → Option (Task ω ρ)
  | .start =>
    if ¬ t.Enters then none
    else if t.isThreadRunning then some t
    else some ⟨true, none, none, false, .atLock, .outside, [], []⟩
  | .execute work =>
    if ¬ t.Enters then none
    else if work = none ∨ t.isThreadRunning = false then some t
    else some { t with
      workFunc := work
      worker := t.signalWorker
      given := t.given ++ work.toList }
  | .finish =>
    if ¬ t.Enters then none else if t.isThreadRunning then some t.await else some t
  | .finishAgain => if t.client = .woken ∧ t.worker ≠ .working then some t.await else none
  | .shutdown =>
    if ¬ t.Enters then none
    else if t.isThreadRunning then
      some { t with
        workFunc := none
        exitThread := true
        worker := t.signalWorker
        client := .joining }
    else some t
  | .joined =>
    if t.client = .joining ∧ t.worker = .ended then
      some { t with isThreadRunning := false, client := .outside }
    else none
  | .workerLock => if t.worker = .atLock ∨ t.worker = .woken then some t.takeWork else none
  | .workerDone ret =>
    if t.worker = .working then
      some { t with
        ret
        workFunc := none
        client := t.signalClient
        worker := .atExit
        ran := t.ran ++ t.workFunc.toList.map fun work => (work, ret) }
    else none
  | .workerExit =>
    if t.worker = .atExit then
      some { t with worker := if t.exitThread then .ended else .atLock }
    else none
  | .spuriousWorker => if t.worker = .waiting then some { t with worker := .woken } else none
  | .spuriousClient => if t.client = .waiting then some { t with client := .woken } else none

/-- What a call of `finish` returns, in the step that it returns in. -/
def returned : TaskAct ω ρ → Option (Option ρ)
  | .finish =>
    if t.isThreadRunning = false then some none
    else if t.workFunc = none then some t.ret else none
  | .finishAgain => if t.workFunc = none then some t.ret else none
  | _ => none

/-- The states of both threads that occur together. -/
structure Sound : Prop where
  clientWaits : t.client = .waiting →
    t.workFunc ≠ none ∧ t.isThreadRunning = true ∧ t.exitThread = false
  clientWoken : t.client = .woken → t.isThreadRunning = true ∧ t.exitThread = false
  joins : t.client = .joining → t.isThreadRunning = true ∧ t.exitThread = true ∧ t.workFunc = none
  open_ : t.isThreadRunning = true → t.client ≠ .joining → t.exitThread = false ∧ t.worker ≠ .ended
  closed : t.isThreadRunning = false → t.worker = .ended ∧ t.client = .outside ∧ t.workFunc = none
  workerWaits : t.worker = .waiting → t.workFunc = none ∧ t.exitThread = false
  works : t.worker = .working → t.workFunc ≠ none ∧ t.exitThread = false

/-- What was run is what was given, in the order, but for works that another one has replaced. Unless
the thread is told to exit, the last one given is still to be run, or it was run last and brought what
is to be returned. -/
structure Recorded : Prop where
  order : (t.ran.map Prod.fst ++ t.workFunc.toList).Sublist t.given
  waits : ∀ work, t.workFunc = some work → t.given.getLast? = some work
  settled : t.exitThread = false → t.workFunc = none →
    t.ran.getLast?.map Prod.fst = t.given.getLast? ∧ t.ret = t.ran.getLast?.bind Prod.snd

variable {t} {t' : Task ω ρ} {a : TaskAct ω ρ}

theorem sound_initial : (initial : Task ω ρ).Sound := by
  constructor <;> simp [initial]

theorem recorded_initial : (initial : Task ω ρ).Recorded := by
  constructor <;> simp [initial]

theorem Sound.await (h : t.Sound) (hrun : t.isThreadRunning = true) (hopen : t.exitThread = false)
    (hfree : t.worker ≠ .working) : t.await.Sound := by
  obtain ⟨h1, h2, h3, h4, h5, h6, h7⟩ := h
  constructor <;> grind [Task.await]

theorem Sound.takeWork (h : t.Sound) (hw : t.worker = .atLock ∨ t.worker = .woken) :
    t.takeWork.Sound := by
  obtain ⟨h1, h2, h3, h4, h5, h6, h7⟩ := h
  constructor <;> grind [Task.takeWork, signalClient]

theorem Sound.execute (h : t.Sound) (henter : t.Enters) (hrun : t.isThreadRunning = true)
    {work : Option ω} (hwork : work ≠ none) (given : List ω) :
    ({ t with workFunc := work, worker := t.signalWorker, given } : Task ω ρ).Sound := by
  obtain ⟨h1, h2, h3, h4, h5, h6, h7⟩ := h
  obtain ⟨hout, hfree⟩ := henter
  constructor <;> grind [signalWorker]

theorem Sound.shutdown (h : t.Sound) (henter : t.Enters) (hrun : t.isThreadRunning = true) :
    ({ t with workFunc := none, exitThread := true, worker := t.signalWorker, client := .joining } :
      Task ω ρ).Sound := by
  obtain ⟨h1, h2, h3, h4, h5, h6, h7⟩ := h
  obtain ⟨hout, hfree⟩ := henter
  constructor <;> grind [signalWorker]

theorem Sound.joined (h : t.Sound) (hjoin : t.client = .joining) (hw : t.worker = .ended) :
    ({ t with isThreadRunning := false, client := .outside } : Task ω ρ).Sound := by
  have hnone := (h.joins hjoin).2.2
  constructor <;> simp [hw, hnone]

theorem Sound.workerDone (h : t.Sound) (hw : t.worker = .working) (ret : Option ρ)
    (ran : List (ω × Option ρ)) :
    ({ t with ret, workFunc := none, client := t.signalClient, worker := .atExit, ran } :
      Task ω ρ).Sound := by
  obtain ⟨h1, h2, h3, h4, h5, h6, h7⟩ := h
  constructor <;> grind [signalClient]

theorem Sound.workerExit (h : t.Sound) (hw : t.worker = .atExit) :
    ({ t with worker := if t.exitThread then .ended else .atLock } : Task ω ρ).Sound := by
  obtain ⟨h1, h2, h3, h4, h5, h6, h7⟩ := h
  constructor <;> grind

theorem Sound.spuriousWorker (h : t.Sound) (hw : t.worker = .waiting) :
    ({ t with worker := .woken } : Task ω ρ).Sound := by
  obtain ⟨h1, h2, h3, h4, h5, h6, h7⟩ := h
  constructor <;> grind

theorem Sound.spuriousClient (h : t.Sound) (hc : t.client = .waiting) :
    ({ t with client := .woken } : Task ω ρ).Sound := by
  obtain ⟨h1, h2, h3, h4, h5, h6, h7⟩ := h
  constructor <;> grind

theorem sound_step (h : t.Sound) (hstep : t.step a = some t') : t'.Sound := by
  cases a with
  | start =>
    simp only [step] at hstep
    split_ifs at hstep with henter hrun
    · exact Option.some.inj hstep ▸ h
    · obtain rfl := Option.some.inj hstep
      constructor <;> simp
  | execute work =>
    simp only [step] at hstep
    split_ifs at hstep with henter hrun
    · exact Option.some.inj hstep ▸ h
    · obtain rfl := Option.some.inj hstep
      obtain ⟨hwork, hrun⟩ := not_or.mp hrun
      exact h.execute henter (Bool.not_eq_false _ ▸ hrun) hwork _
  | finish =>
    simp only [step] at hstep
    split_ifs at hstep with henter hrun
    · obtain rfl := Option.some.inj hstep
      obtain ⟨hout, hfree⟩ := henter
      have hopen := (h.open_ hrun (by simp [hout])).1
      exact h.await hrun hopen hfree
    · exact Option.some.inj hstep ▸ h
  | finishAgain =>
    simp only [step] at hstep
    split_ifs at hstep with henter
    obtain rfl := Option.some.inj hstep
    obtain ⟨hrun, hopen⟩ := h.clientWoken henter.1
    exact h.await hrun hopen henter.2
  | shutdown =>
    simp only [step] at hstep
    split_ifs at hstep with henter hrun
    · exact Option.some.inj hstep ▸ h.shutdown henter hrun
    · exact Option.some.inj hstep ▸ h
  | joined =>
    simp only [step] at hstep
    split_ifs at hstep with hjoin
    exact Option.some.inj hstep ▸ h.joined hjoin.1 hjoin.2
  | workerLock =>
    simp only [step] at hstep
    split_ifs at hstep with hw
    exact Option.some.inj hstep ▸ h.takeWork hw
  | workerDone ret =>
    simp only [step] at hstep
    split_ifs at hstep with hw
    exact Option.some.inj hstep ▸ h.workerDone hw ret _
  | workerExit =>
    by_cases hw : t.worker = .atExit
    · rw [step, if_pos hw] at hstep
      exact Option.some.inj hstep ▸ h.workerExit hw
    · simp [step, hw] at hstep
  | spuriousWorker =>
    simp only [step] at hstep
    split_ifs at hstep with hw
    exact Option.some.inj hstep ▸ h.spuriousWorker hw
  | spuriousClient =>
    simp only [step] at hstep
    split_ifs at hstep with hc
    exact Option.some.inj hstep ▸ h.spuriousClient hc

/-- What a hold of the mutex does to the works that are given, waiting and run. -/
theorem recorded_step (hsound : t.Sound) (h : t.Recorded) (hstep : t.step a = some t') :
    t'.Recorded := by
  obtain ⟨horder, hwaits, hsettled⟩ := id h
  have hran : (t.ran.map Prod.fst).Sublist t.given :=
    (List.sublist_append_left _ _).trans horder
  have hsame {t' : Task ω ρ} (hgiven : t'.given = t.given) (hran : t'.ran = t.ran)
      (hwork : t'.workFunc = t.workFunc) (hexit : t'.exitThread = t.exitThread)
      (hret : t'.exitThread = false → t'.ret = t.ret) : t'.Recorded := by
    refine ⟨by rw [hran, hwork, hgiven]; exact horder, fun work hw => ?_, fun hex hnone => ?_⟩
    · rw [hgiven]
      exact hwaits work (hwork ▸ hw)
    · rw [hgiven, hran, hret hex]
      exact hsettled (hexit ▸ hex) (hwork ▸ hnone)
  cases a with
  | start =>
    simp only [step] at hstep
    split_ifs at hstep with henter hrun
    · exact Option.some.inj hstep ▸ h
    · obtain rfl := Option.some.inj hstep
      constructor <;> simp
  | execute work =>
    simp only [step] at hstep
    split_ifs at hstep with henter hrun
    · exact Option.some.inj hstep ▸ h
    · obtain rfl := Option.some.inj hstep
      refine ⟨hran.append (List.Sublist.refl _), fun w hw => ?_, fun _ hnone => ?_⟩
      · dsimp only at hw ⊢
        rw [hw, Option.toList_some, List.getLast?_concat]
      · exact absurd hnone fun h0 => hrun (Or.inl h0)
  | finish =>
    simp only [step] at hstep
    split_ifs at hstep with henter hrun
    · obtain rfl := Option.some.inj hstep
      exact hsame rfl rfl rfl rfl fun _ => rfl
    · exact Option.some.inj hstep ▸ h
  | finishAgain =>
    simp only [step] at hstep
    split_ifs at hstep with henter
    obtain rfl := Option.some.inj hstep
    exact hsame rfl rfl rfl rfl fun _ => rfl
  | shutdown =>
    simp only [step] at hstep
    split_ifs at hstep with henter hrun
    · obtain rfl := Option.some.inj hstep
      refine ⟨?_, fun w hw => absurd hw.symm (Option.some_ne_none w),
        fun hexit => absurd hexit Bool.noConfusion⟩
      rw [Option.toList_none, List.append_nil]
      exact hran
    · exact Option.some.inj hstep ▸ h
  | joined =>
    simp only [step] at hstep
    split_ifs at hstep with hjoin
    obtain rfl := Option.some.inj hstep
    exact hsame rfl rfl rfl rfl fun _ => rfl
  | workerLock =>
    simp only [step] at hstep
    split_ifs at hstep with hw
    obtain rfl := Option.some.inj hstep
    rw [takeWork]
    split_ifs with hwork hexit
    · exact hsame rfl rfl rfl rfl fun _ => rfl
    · exact hsame rfl rfl (not_not.mp hwork).symm rfl fun hopen => absurd (hexit.symm.trans hopen)
        Bool.noConfusion
    · exact hsame rfl rfl rfl rfl fun _ => rfl
  | workerDone ret =>
    simp only [step] at hstep
    split_ifs at hstep with hw
    obtain rfl := Option.some.inj hstep
    obtain ⟨work, hwork⟩ := Option.ne_none_iff_exists'.mp (hsound.works hw).1
    rw [hwork, Option.toList_some] at horder ⊢
    refine ⟨?_, fun w hw => absurd hw.symm (Option.some_ne_none w), fun _ _ => ?_⟩
    · rw [List.map_append, Option.toList_none, List.append_nil]
      exact horder
    · dsimp only
      rw [List.map_singleton, List.getLast?_concat, hwaits work hwork]
      exact ⟨rfl, rfl⟩
  | workerExit =>
    simp only [step] at hstep
    split_ifs at hstep with hw hexit
    · obtain rfl := Option.some.inj hstep
      exact hsame rfl rfl rfl rfl fun _ => rfl
    · obtain rfl := Option.some.inj hstep
      exact hsame rfl rfl rfl rfl fun _ => rfl
  | spuriousWorker =>
    simp only [step] at hstep
    split_ifs at hstep with hw
    obtain rfl := Option.some.inj hstep
    exact hsame rfl rfl rfl rfl fun _ => rfl
  | spuriousClient =>
    simp only [step] at hstep
    split_ifs at hstep with hw
    obtain rfl := Option.some.inj hstep
    exact hsame rfl rfl rfl rfl fun _ => rfl

/-- The calls that give a work, those that take a waiting one away, and those that wait for it. -/
def gives : TaskAct ω ρ → Bool
  | .execute (some _) => true
  | _ => false

def replaces : TaskAct ω ρ → Bool
  | .execute (some _) => true
  | .shutdown => true
  | _ => false

def awaits : TaskAct ω ρ → Bool
  | .finish => true
  | _ => false

/-- Where no call replaces a work that was not waited for, none is left out, and a client outside of the
methods has a work to wait for only if `armed` says so. -/
structure Orderly (t : Task ω ρ) (armed : Bool) : Prop where
  all : t.ran.map Prod.fst ++ t.workFunc.toList = t.given
  idle : t.client = .outside → armed = false → t.workFunc = none

theorem orderly_initial : (initial : Task ω ρ).Orderly false := by
  constructor <;> simp [initial]

theorem orderly_step {armed : Bool} (hsound : t.Sound) (h : t.Orderly armed)
    (hbarrier : armed = true → replaces a = false) (hstep : t.step a = some t') :
    t'.Orderly (armedBy gives awaits armed a) := by
  obtain ⟨hall, hidle⟩ := id h
  have hclosed := hsound.closed
  cases a with
  | start =>
    simp only [step] at hstep
    split_ifs at hstep with henter hrun
    · obtain rfl := Option.some.inj hstep
      exact ⟨hall, fun hout harmed => hidle hout (by simpa [armedBy, gives, awaits] using harmed)⟩
    · obtain rfl := Option.some.inj hstep
      constructor <;> simp
  | execute work =>
    simp only [step] at hstep
    split_ifs at hstep with henter hno
    · obtain rfl := Option.some.inj hstep
      refine ⟨hall, fun hout harmed => ?_⟩
      cases work with
      | none => exact hidle hout (by simpa [armedBy, gives, awaits] using harmed)
      | some w => simp [armedBy, gives] at harmed
    · obtain rfl := Option.some.inj hstep
      obtain ⟨w, rfl⟩ := Option.ne_none_iff_exists'.mp (not_or.mp hno).1
      -- A work that still waits would be replaced here.
      have hnone : t.workFunc = none := by
        refine hidle henter.1 (Bool.eq_false_iff.mpr fun harmed => ?_)
        simpa [replaces] using hbarrier harmed
      constructor
      · rw [hnone, Option.toList_none, List.append_nil] at hall
        simp [hall]
      · simp [armedBy, gives]
  | finish =>
    simp only [step] at hstep
    split_ifs at hstep with henter hrun
    · obtain rfl := Option.some.inj hstep
      refine ⟨hall, fun hout _ => ?_⟩
      by_contra hwork
      have hwork' : t.workFunc ≠ none := hwork
      simp [Task.await, hwork'] at hout
    · obtain rfl := Option.some.inj hstep
      exact ⟨hall, fun _ _ => (hclosed (Bool.eq_false_iff.mpr hrun)).2.2⟩
  | finishAgain =>
    simp only [step] at hstep
    split_ifs at hstep with henter
    obtain rfl := Option.some.inj hstep
    refine ⟨hall, fun hout _ => ?_⟩
    by_contra hwork
    have hwork' : t.workFunc ≠ none := hwork
    simp [Task.await, hwork'] at hout
  | shutdown =>
    simp only [step] at hstep
    split_ifs at hstep with henter hrun
    · obtain rfl := Option.some.inj hstep
      have hnone : t.workFunc = none := by
        refine hidle henter.1 (Bool.eq_false_iff.mpr fun harmed => ?_)
        simpa [replaces] using hbarrier harmed
      refine ⟨?_, fun _ _ => rfl⟩
      rw [← hall, hnone]
    · obtain rfl := Option.some.inj hstep
      exact ⟨hall, fun _ _ => (hclosed (Bool.eq_false_iff.mpr hrun)).2.2⟩
  | joined =>
    simp only [step] at hstep
    split_ifs at hstep with hjoin
    obtain rfl := Option.some.inj hstep
    exact ⟨hall, fun _ _ => (hsound.joins hjoin.1).2.2⟩
  | workerLock =>
    simp only [step] at hstep
    split_ifs at hstep with hw
    obtain rfl := Option.some.inj hstep
    constructor <;> grind [Task.takeWork, signalClient, armedBy, gives, awaits]
  | workerDone ret =>
    simp only [step] at hstep
    split_ifs at hstep with hw
    obtain rfl := Option.some.inj hstep
    obtain ⟨work, hwork⟩ := Option.ne_none_iff_exists'.mp (hsound.works hw).1
    refine ⟨?_, fun _ _ => rfl⟩
    simpa [hwork] using hall
  | workerExit =>
    simp only [step] at hstep
    split_ifs at hstep with hw hexit <;> obtain rfl := Option.some.inj hstep <;>
      exact ⟨hall, fun hout harmed => hidle hout (by simpa [armedBy, gives, awaits] using harmed)⟩
  | spuriousWorker =>
    simp only [step] at hstep
    split_ifs at hstep with hw
    obtain rfl := Option.some.inj hstep
    exact ⟨hall, fun hout harmed => hidle hout (by simpa [armedBy, gives, awaits] using harmed)⟩
  | spuriousClient =>
    simp only [step] at hstep
    split_ifs at hstep with hw
    obtain rfl := Option.some.inj hstep
    exact ⟨hall, fun hout => absurd hout ClientPc.noConfusion⟩

theorem sound_run {acts : List (TaskAct ω ρ)} (hrun : runM step initial acts = some t) : t.Sound :=
  runM_invariant (fun _ _ _ h hs => sound_step h hs) sound_initial hrun

theorem recorded_run {acts : List (TaskAct ω ρ)} (hrun : runM step initial acts = some t) :
    t.Recorded := by
  have hboth : t.Sound ∧ t.Recorded :=
    @runM_invariant _ _ _ (fun t : Task ω ρ => t.Sound ∧ t.Recorded)
      (fun _ _ _ h hs => ⟨sound_step h.1 hs, recorded_step h.1 h.2 hs⟩) _ _ acts
      ⟨sound_initial, recorded_initial⟩ hrun
  exact hboth.2

theorem orderly_run {acts : List (TaskAct ω ρ)} (hbarrier : IsBarrier gives replaces awaits acts)
    (hrun : runM step initial acts = some t) : ∃ armed, t.Orderly armed := by
  have hfrom : BarrierFrom gives replaces awaits false acts :=
    barrierFrom_iff.mpr ⟨fun h => Bool.noConfusion h, hbarrier⟩
  clear hbarrier
  have hgen : ∀ (acts : List (TaskAct ω ρ)) (armed : Bool) (t₀ : Task ω ρ), t₀.Sound →
      t₀.Orderly armed → BarrierFrom gives replaces awaits armed acts →
      runM step t₀ acts = some t → ∃ armed, t.Orderly armed := by
    intro acts
    induction acts with
    | nil =>
      intro armed t₀ _ h _ hrun
      obtain rfl := Option.some.inj hrun
      exact ⟨armed, h⟩
    | cons a acts ih =>
      intro armed t₀ hsound h hfrom hrun
      obtain ⟨t₁, hstep, hrest⟩ := runM_cons_eq_some.mp hrun
      exact ih _ t₁ (sound_step hsound hstep) (orderly_step hsound h hfrom.1 hstep) hfrom.2 hrest
  exact hgen acts false initial sound_initial orderly_initial hfrom hrun

/-- In every interleaving of both threads, `finish` on a running thread brings the result of the work
that was given last, and at that time the works that were run are those given, in the order, but for
those that were replaced; all of them were run if each is waited for before the next. -/
theorem finish_brings {acts : List (TaskAct ω ρ)} {r : Option ρ}
    (hrun : runM step initial acts = some t) (hon : t.isThreadRunning = true)
    (hstep : t.step a = some t') (hret : t.returned a = some r) :
    t.ran.getLast?.map Prod.fst = t.given.getLast? ∧ r = t.ran.getLast?.bind Prod.snd ∧
      (t.ran.map Prod.fst).Sublist t.given ∧
      (IsBarrier gives replaces awaits acts → t.ran.map Prod.fst = t.given) := by
  have hsound := sound_run hrun
  have hrec := recorded_run hrun
  -- A call returns only where no work waits and the thread is not told to exit.
  obtain ⟨hnone, hopen, rfl⟩ : t.workFunc = none ∧ t.exitThread = false ∧ t.ret = r := by
    cases a with
    | finish =>
      simp only [step] at hstep
      split_ifs at hstep with henter
      simp only [returned, hon, Bool.true_eq_false, if_false] at hret
      split_ifs at hret with hnone
      refine ⟨hnone, (hsound.open_ hon ?_).1, Option.some.inj hret⟩
      rw [henter.1]
      exact ClientPc.noConfusion
    | finishAgain =>
      simp only [step] at hstep
      split_ifs at hstep with henter
      simp only [returned] at hret
      split_ifs at hret with hnone
      exact ⟨hnone, (hsound.clientWoken henter.1).2, Option.some.inj hret⟩
    | _ => simp [returned] at hret
  obtain ⟨hlast, hresult⟩ := hrec.settled hopen hnone
  refine ⟨hlast, hresult, (List.sublist_append_left _ _).trans hrec.order, fun hbarrier => ?_⟩
  obtain ⟨armed, hord⟩ := orderly_run hbarrier hrun
  simpa [hnone] using hord.all

/-- The client waits for the work, and the worker's signal lets it go on. -/
theorem finish_brings_waited :
    ∃ t : Task ℕ ℕ,
      runM step initial [.start, .execute (some 5), .finish, .workerLock, .workerDone (some 7)] =
        some t ∧
      t.returned .finishAgain = some (some 7) ∧ some 7 = t.ran.getLast?.bind Prod.snd ∧
      t.ran.map Prod.fst = t.given := by
  refine ⟨_, rfl, rfl, ?_⟩
  have h := @finish_brings ℕ ℕ _ _ .finishAgain
    [.start, .execute (some 5), .finish, .workerLock, .workerDone (some 7)] (some 7) rfl rfl rfl rfl
  refine ⟨h.2.1, h.2.2.2 (barrierFrom_iff.mp (?_ : BarrierFrom _ _ _ false _)).2⟩
  simp [BarrierFrom, armedBy, gives, replaces, awaits]

/-- The steps that the threads do not take by themselves: `scond_wait` ends without a signal. -/
def spurious : TaskAct ω ρ → Bool
  | .spuriousWorker => true
  | .spuriousClient => true
  | _ => false

/-- How many holds of the mutex are left at most until the client comes out of its method. -/
def rank (t : Task ω ρ) : ℕ :=
  (if t.client = .woken ∨ t.client = .joining then 1 else 0) +
    if t.workFunc ≠ none then
      match t.worker with
      | .working => 4
      | .atLock => 5
      | .woken => 5
      | .atExit => 6
      | _ => 0
    else
      match t.worker with
      | .atLock => if t.exitThread then 2 else 1
      | .woken => if t.exitThread then 2 else 1
      | .atExit => if t.exitThread then 1 else 2
      | _ => 0

theorem rank_le : t.rank ≤ 7 := by
  unfold rank
  split_ifs <;> cases t.worker <;> simp

/-- While the client is in a method one of the threads can go on without a spurious wake-up. -/
theorem exists_step (h : t.Sound) (hin : t.client ≠ .outside) :
    ∃ a t', spurious a = false ∧ t.step a = some t' := by
  obtain ⟨h1, h2, h3, h4, h5, h6, h7⟩ := h
  cases hw : t.worker with
  | atLock => exact ⟨.workerLock, _, rfl, if_pos (Or.inl hw)⟩
  | woken => exact ⟨.workerLock, _, rfl, if_pos (Or.inr hw)⟩
  | working => exact ⟨.workerDone none, _, rfl, if_pos hw⟩
  | atExit => exact ⟨.workerExit, _, rfl, if_pos hw⟩
  | waiting =>
    -- The client is not waiting as well: there is no work.
    cases hc : t.client with
    | outside => exact absurd hc hin
    | woken => exact ⟨.finishAgain, _, rfl, if_pos ⟨hc, by simp [hw]⟩⟩
    | waiting => exact absurd (h6 hw).1 (h1 hc).1
    | joining => exact absurd ((h3 hc).2.1.symm.trans (h6 hw).2) Bool.noConfusion
  | ended =>
    cases hc : t.client with
    | outside => exact absurd hc hin
    | woken => exact ⟨.finishAgain, _, rfl, if_pos ⟨hc, by simp [hw]⟩⟩
    | joining => exact ⟨.joined, _, rfl, if_pos ⟨hc, hw⟩⟩
    | waiting => exact absurd hw (h4 (h1 hc).2.1 (by simp [hc])).2

/-- In a method each hold of the mutex brings the client nearer to its end, if no wait ends spuriously. -/
theorem rank_step (h : t.Sound) (hin : t.client ≠ .outside) (hstep : t.step a = some t') :
    t'.client = .outside ∨
      t'.rank + (if spurious a then 0 else 1) ≤ t.rank + if spurious a then 1 else 0 := by
  obtain ⟨h1, h2, h3, h4, h5, h6, h7⟩ := h
  have hmethod : ¬ t.Enters := fun henter => hin henter.1
  cases a with
  | start => simp [step, hmethod] at hstep
  | execute work => simp [step, hmethod] at hstep
  | finish => simp [step, hmethod] at hstep
  | shutdown => simp [step, hmethod] at hstep
  | finishAgain =>
    simp only [step] at hstep
    split_ifs at hstep with henter
    obtain rfl := Option.some.inj hstep
    by_cases hwork : t.workFunc = none
    · exact Or.inl (by simp [Task.await, hwork])
    · refine Or.inr ?_
      have hrank : t.await.rank < t.rank := by simp [rank, Task.await, hwork, henter.1]
      simp only [spurious, Bool.false_eq_true, if_false]
      omega
  | joined =>
    simp only [step] at hstep
    split_ifs at hstep with hjoin
    exact Or.inl (by rw [← Option.some.inj hstep])
  | workerLock =>
    simp only [step] at hstep
    split_ifs at hstep with hw
    obtain rfl := Option.some.inj hstep
    refine Or.inr ?_
    cases hc : t.client <;> rcases hw with hw | hw <;>
      grind [rank, Task.takeWork, signalClient, spurious]
  | workerDone ret =>
    simp only [step] at hstep
    split_ifs at hstep with hw
    obtain rfl := Option.some.inj hstep
    refine Or.inr ?_
    cases hc : t.client <;> grind [rank, signalClient, spurious]
  | workerExit =>
    simp only [step] at hstep
    split_ifs at hstep with hw hexit
    · obtain rfl := Option.some.inj hstep
      refine Or.inr ?_
      cases hc : t.client <;> grind [rank, spurious]
    · obtain rfl := Option.some.inj hstep
      refine Or.inr ?_
      cases hc : t.client <;> grind [rank, spurious]
  | spuriousWorker =>
    simp only [step] at hstep
    split_ifs at hstep with hw
    obtain rfl := Option.some.inj hstep
    refine Or.inr ?_
    grind [rank, spurious]
  | spuriousClient =>
    simp only [step] at hstep
    split_ifs at hstep with hw
    obtain rfl := Option.some.inj hstep
    refine Or.inr ?_
    grind [rank, spurious]

/-- Whatever the order, a method returns: until then one of the threads can go on, and the holds of the
mutex are no more than seven and the spurious wake-ups. -/
theorem methods_return {acts more : List (TaskAct ω ρ)} (hrun : runM step initial acts = some t)
    (hmore : runM step t more = some t')
    (hin : AtEachM step (fun t _ => t.client ≠ .outside) t more) :
    more.countP (fun a => !spurious a) ≤ more.countP spurious + 8 ∧
      (t'.client ≠ .outside → ∃ a t'', spurious a = false ∧ t'.step a = some t'') := by
  have hsound := sound_run hrun
  clear hrun
  have hboth : more.countP (fun a => !spurious a) ≤ more.countP spurious + (t.rank + 1) ∧ t'.Sound := by
    induction more generalizing t with
    | nil =>
      obtain rfl := Option.some.inj hmore
      exact ⟨Nat.zero_le _, hsound⟩
    | cons a more ih =>
      obtain ⟨t₁, hstep, hrest⟩ := runM_cons_eq_some.mp hmore
      have hnext := sound_step hsound hstep
      obtain ⟨hcount, hlast⟩ := ih hrest (hin.2 t₁ hstep) hnext
      refine ⟨?_, hlast⟩
      rcases rank_step hsound hin.1 hstep with hout | hrank
      · -- The client is out, so that this was the last step.
        have hnil : more = [] := by
          cases more with
          | nil => rfl
          | cons b more => exact absurd hout (hin.2 t₁ hstep).1
        rw [hnil, List.countP_cons, List.countP_nil]
        split_ifs <;> omega
      · rw [List.countP_cons, List.countP_cons]
        cases hspur : spurious a <;> simp [hspur] at hrank ⊢ <;> omega
  refine ⟨hboth.1.trans ?_, fun hout => exists_step hboth.2 hout⟩
  have hle := @rank_le ω ρ t
  omega

/-- A wait of `finish` that ends without a signal is taken up again. -/
theorem methods_return_spurious :
    ∃ t' : Task ℕ ℕ,
      runM step initial [.start, .execute (some 5), .finish, .spuriousClient, .workerLock] = some t' ∧
        ∃ a t'', spurious a = false ∧ t'.step a = some t'' := by
  refine ⟨_, rfl, (@methods_return ℕ ℕ _ _ [.start, .execute (some 5), .finish]
    [.spuriousClient, .workerLock] rfl rfl ?_).2 ClientPc.noConfusion⟩
  exact ⟨ClientPc.noConfusion, fun t h => ⟨Option.some.inj h ▸ ClientPc.noConfusion, fun _ _ => trivial⟩⟩

end Task

end Desmume.Machine
