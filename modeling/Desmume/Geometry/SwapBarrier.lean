import Desmume.Geometry.GxFifo
import Desmume.Library.Barrier

/-! Buffer swaps: after SWAP_BUFFERS nothing should leave the command FIFO before the vblank has
flushed the lists. A batch of commands tests the swap before its first command only. -/

namespace Desmume.Geometry
open Library

variable {γ : Type*}

/-- What the other geometry commands work on. -/
structure EngineState (γ : Type*) where
  gxstat : Gxstat
  projectionPosition : ℕ
  signals : List GxSignal
  rest : γ

/-- The other geometry commands, and `gfx3d_doFlush` with the pending flush command. -/
structure Engine (γ : Type*) where
  execute : BitVec 8 → BitVec 32 → EngineState γ → EngineState γ
  doFlush : BitVec 32 → γ → γ

structure SwapState (γ : Type*) where
  gx : GxState
  isSwapBuffers : Bool
  pendingFlushCommand : BitVec 32
  rest : γ

/-- `GFX_DELAY`, which charges one cycle for any cost. -/
def gfxDelay (_cost : ℕ) (s : SwapState γ) : SwapState γ :=
  { s with gx := s.gx.signalIf true (.rescheduleGxFifo 1) }

/-- `gfx3d_glFlush`. -/
def gfx3dGlFlush (v : BitVec 32) (s : SwapState γ) : SwapState γ :=
  gfxDelay 1 { s with pendingFlushCommand := v, isSwapBuffers := true }

def isSwapCommand (cmd : BitVec 8) : Bool := cmd = 0x50#8

/-- `gfx3d_execute`. -/
def gfx3dExecute (eng : Engine γ) (cmd : BitVec 8) (param : BitVec 32) (s : SwapState γ) :
    SwapState γ :=
  if isSwapCommand cmd then gfx3dGlFlush param s
  else
    let e := eng.execute cmd param
      ⟨s.gx.gxstat, s.gx.projectionPosition, s.gx.signals, s.rest⟩
    { s with
      gx := { s.gx with
        gxstat := e.gxstat
        projectionPosition := e.projectionPosition
        signals := e.signals }
      rest := e.rest }

def hackFifoBatchSize : ℕ := 64

/-- The loop of `gfx3d_execute3D`, with the commands it executed. -/
def executeBatch (eng : Engine γ) : ℕ → SwapState γ →
    List (BitVec 8 × BitVec 32) × SwapState γ
  | 0, s => ([], s)
  | n + 1, s =>
    match gfxPipeRecv s.gx with
    | (none, gx) => ([], { s with gx := gx })
    | (some c, gx) =>
      -- a swap that this command sets is not tested before the next one
      let r := executeBatch eng n (gfx3dExecute eng c.1 c.2 (gfxDelay 1 { s with gx := gx }))
      (c :: r.1, r.2)

/-- `gfx3d_execute3D`. -/
def gfx3dExecute3D (eng : Engine γ) (s : SwapState γ) : List (BitVec 8 × BitVec 32) × SwapState γ :=
  -- the only test of the swap
  if s.isSwapBuffers then ([], s) else executeBatch eng hackFifoBatchSize s

/-- `gfx3d_VBlankSignal`. -/
def vblankSignal (eng : Engine γ) (s : SwapState γ) : SwapState γ :=
  if s.isSwapBuffers then
    { gfxDelay 392 { s with rest := eng.doFlush s.pendingFlushCommand s.rest } with
      isSwapBuffers := false }
  else s

inductive SwapOp where
  | send (cmd : BitVec 8) (param : BitVec 32)
  | gxstatWrite (val : BitVec 32)
  | clear
  | execute3D
  | vblank
  deriving DecidableEq

def swapStep (eng : Engine γ) (s : SwapState γ) : SwapOp → SwapState γ
  | .send cmd param => { s with gx := gfxFifoSend cmd param s.gx }
  | .gxstatWrite val => { s with gx := gxstatWrite32 val s.gx }
  | .clear => { s with gx := gfxFifoClear s.gx }
  | .execute3D => (gfx3dExecute3D eng s).2
  | .vblank => vblankSignal eng s

inductive SwapEvent where
  | executed (cmd : BitVec 8) (param : BitVec 32)
  | flushed
  deriving DecidableEq

namespace SwapEvent

def isSwap : SwapEvent → Bool
  | executed cmd _ => isSwapCommand cmd
  | flushed => false

def isExecuted : SwapEvent → Bool
  | executed _ _ => true
  | flushed => false

def isFlushed (e : SwapEvent) : Bool := !e.isExecuted

end SwapEvent

def swapEvents (eng : Engine γ) (s : SwapState γ) : SwapOp → List SwapEvent
  | .execute3D => (gfx3dExecute3D eng s).1.map fun c => .executed c.1 c.2
  | .vblank => if s.isSwapBuffers then [.flushed] else []
  | _ => []

/-- `gfx3d_reset`, with any memory under the FIFO and any engine. -/
def swapReset (g : GxState) (r : γ) : SwapState γ := ⟨gfxFifoClear g, false, 0, r⟩

section Batch

variable {eng : Engine γ} {s : SwapState γ}

@[simp] theorem gfx3dExecute_gxFifo (cmd : BitVec 8) (param : BitVec 32) :
    (gfx3dExecute eng cmd param s).gx.gxFifo = s.gx.gxFifo := by
  rw [gfx3dExecute]
  split_ifs <;> rfl

theorem gfx3dExecute_isSwapBuffers (cmd : BitVec 8) (param : BitVec 32) :
    (gfx3dExecute eng cmd param s).isSwapBuffers = (isSwapCommand cmd || s.isSwapBuffers) := by
  rw [gfx3dExecute]
  split_ifs with h
  · rw [h]
    rfl
  · rw [Bool.eq_false_iff.mpr h]
    rfl

/-- The cursor of the queue is inside the ring. -/
def HeadInRing (s : SwapState γ) : Prop := s.gx.gxFifo.head < hackGxfifoSize

/-- A batch executes the front of the queue, whatever it finds there. -/
theorem executeBatch_spec (eng : Engine γ) (n : ℕ) (hs : HeadInRing s) :
    (executeBatch eng n s).1 = s.gx.contents.take n ∧ HeadInRing (executeBatch eng n s).2 ∧
      (executeBatch eng n s).2.isSwapBuffers =
        ((s.gx.contents.take n).any (fun c => isSwapCommand c.1) || s.isSwapBuffers) := by
  induction n generalizing s with
  | zero => exact ⟨rfl, hs, rfl⟩
  | succ n ih =>
    by_cases hsize : s.gx.gxFifo.size = 0
    · have hnil : s.gx.contents = [] := by
        rw [← List.length_eq_zero_iff, GxState.contents, RingBuffer.contents_length, hsize]
      rw [executeBatch, gfxPipeRecv_empty hsize, hnil]
      exact ⟨rfl, hs, rfl⟩
    · have hcons := contents_recv hs hsize
      have hpop := gfxPipeRecv_gxFifo hsize
      have hvalue := gfxPipeRecv_value hsize
      generalize hrecv : gfxPipeRecv s.gx = p at hcons hpop hvalue
      obtain ⟨c, gx⟩ := p
      simp only at hcons hpop hvalue
      subst hvalue
      generalize ht : gfx3dExecute eng s.gx.gxFifo.front.1 s.gx.gxFifo.front.2
        (gfxDelay 1 { s with gx := gx }) = t
      have hfifo : t.gx.gxFifo = gx.gxFifo := by
        rw [← ht, gfx3dExecute_gxFifo]
        rfl
      have hhead : HeadInRing t := by
        rw [HeadInRing, hfifo, hpop]
        exact RingBuffer.pop_head_lt hs
      have hcontents : t.gx.contents = gx.contents := by
        rw [GxState.contents, hfifo, GxState.contents]
      have hswap : t.isSwapBuffers = (isSwapCommand s.gx.gxFifo.front.1 || s.isSwapBuffers) := by
        rw [← ht, gfx3dExecute_isSwapBuffers]
        rfl
      obtain ⟨hexec, hhead', hswap'⟩ := ih hhead
      rw [hcontents] at hexec hswap'
      rw [executeBatch, hrecv]
      simp only
      rw [ht, hexec, hswap', hswap, hcons, List.take_succ_cons, List.any_cons]
      refine ⟨rfl, hhead', ?_⟩
      -- the swap of the first command is found by the rest of the batch
      rw [Bool.or_left_comm, Bool.or_assoc]

/-- What a call executes: nothing while a swap is pending. -/
def batch (s : SwapState γ) : List (BitVec 8 × BitVec 32) :=
  if s.isSwapBuffers then [] else s.gx.contents.take hackFifoBatchSize

theorem gfx3dExecute3D_spec (eng : Engine γ) (hs : HeadInRing s) :
    (gfx3dExecute3D eng s).1 = batch s ∧ HeadInRing (gfx3dExecute3D eng s).2 ∧
      (gfx3dExecute3D eng s).2.isSwapBuffers =
        ((batch s).any (fun c => isSwapCommand c.1) || s.isSwapBuffers) := by
  rw [gfx3dExecute3D, batch]
  split_ifs
  · exact ⟨rfl, hs, rfl⟩
  · exact executeBatch_spec eng hackFifoBatchSize hs

end Batch

/-- No command of the batch is behind a swap. -/
def SwapEndsBatch (s : SwapState γ) (op : SwapOp) : Prop :=
  op = .execute3D → ∀ c ∈ (batch s).dropLast, isSwapCommand c.1 = false

section Step

open SwapEvent

variable {s : SwapState γ} (eng : Engine γ)

theorem armedAfter_executed (armed : Bool) (q : List (BitVec 8 × BitVec 32)) :
    armedAfter isSwap isFlushed armed (q.map fun c => executed c.1 c.2) =
      (q.any (fun c => isSwapCommand c.1) || armed) := by
  induction q generalizing armed with
  | nil => rfl
  | cons c q ih =>
    rw [List.map_cons, armedAfter, List.foldl_cons, ← armedAfter, ih, List.any_cons, armedBy]
    change (_ || (isSwapCommand c.1 || (armed && true))) = _
    rw [Bool.and_true, Bool.or_left_comm, Bool.or_assoc]

theorem barrierFrom_executed (armed : Bool) (q : List (BitVec 8 × BitVec 32)) :
    BarrierFrom isSwap isExecuted isFlushed armed (q.map fun c => executed c.1 c.2) ↔
      (armed = true → q = []) ∧ ∀ c ∈ q.dropLast, isSwapCommand c.1 = false := by
  induction q generalizing armed with
  | nil => exact iff_of_true trivial ⟨fun _ => rfl, fun c hc => absurd hc List.not_mem_nil⟩
  | cons c q ih =>
    rw [List.map_cons, BarrierFrom, ih, armedBy]
    change (armed = true → true = false) ∧
      ((isSwapCommand c.1 || (armed && true)) = true → _) ∧ _ ↔ _
    cases q with
    | nil => simp
    | cons d q =>
      rw [List.dropLast_cons_cons, List.forall_mem_cons]
      cases armed <;> simp

theorem swapStep_headInRing (op : SwapOp) (hs : HeadInRing s) : HeadInRing (swapStep eng s op) := by
  cases op with
  | send cmd param =>
    rw [HeadInRing, swapStep, gfxFifoSend_gxFifo]
    exact hs
  | gxstatWrite val =>
    rw [HeadInRing, swapStep, gxstatWrite32_gxFifo]
    exact hs
  | clear => exact (by decide : 0 < 200000)
  | execute3D => exact (gfx3dExecute3D_spec eng hs).2.1
  | vblank =>
    rw [swapStep, vblankSignal]
    split_ifs <;> exact hs

/-- The pending swap is the barrier of the events. -/
theorem swapStep_isSwapBuffers (op : SwapOp) (hs : HeadInRing s) :
    (swapStep eng s op).isSwapBuffers =
      armedAfter isSwap isFlushed s.isSwapBuffers (swapEvents eng s op) := by
  cases op with
  | send | gxstatWrite | clear => rfl
  | execute3D =>
    obtain ⟨hexec, -, hswap⟩ := gfx3dExecute3D_spec eng hs
    rw [swapEvents, hexec, armedAfter_executed]
    exact hswap
  | vblank =>
    rw [swapStep, vblankSignal, swapEvents]
    split_ifs with h
    · rw [h]
      rfl
    · rfl

theorem barrierFrom_swapEvents (op : SwapOp) (hs : HeadInRing s) :
    BarrierFrom isSwap isExecuted isFlushed s.isSwapBuffers (swapEvents eng s op) ↔
      SwapEndsBatch s op := by
  cases op with
  | send | gxstatWrite | clear => exact iff_of_true trivial (nomatch ·)
  | execute3D =>
    rw [swapEvents, (gfx3dExecute3D_spec eng hs).1, barrierFrom_executed]
    exact ⟨fun h _ => h.2, fun h => ⟨fun hswap => if_pos hswap, h rfl⟩⟩
  | vblank =>
    refine iff_of_true ?_ (nomatch ·)
    rw [swapEvents]
    split_ifs
    · exact ⟨fun _ => rfl, trivial⟩
    · exact trivial

end Step

/-- From the reset SWAP_BUFFERS is a barrier exactly if it is the last command of every batch it is
in. -/
theorem swapRun_isBarrier_iff (eng : Engine γ) (g : GxState) (r : γ) (ops : List SwapOp) :
    IsBarrier SwapEvent.isSwap SwapEvent.isExecuted SwapEvent.isFlushed
        (observe (swapStep eng) (swapEvents eng) (swapReset g r) ops) ↔
      AtEach (swapStep eng) SwapEndsBatch (swapReset g r) ops :=
  have hreset : HeadInRing (swapReset g r) := (by decide : 0 < 200000)
  isBarrier_observe_iff (fun _ => swapStep_headInRing eng) (fun _ => swapStep_isSwapBuffers eng)
    (fun _ => barrierFrom_swapEvents eng) hreset rfl ops

/-- The command behind a swap in the FIFO is executed in the same batch. -/
theorem swapRun_overrun :
    ¬ ∀ (eng : Engine Unit) (g : GxState) (ops : List SwapOp),
      IsBarrier SwapEvent.isSwap SwapEvent.isExecuted SwapEvent.isFlushed
        (observe (swapStep eng) (swapEvents eng) (swapReset g ()) ops) := by
  intro hall
  have hbarrier := hall ⟨fun _ _ e => e, fun _ r => r⟩ gxStart
    [.send 0x50 0, .send 0x15 0, .execute3D]
  obtain ⟨e, he, -⟩ := hbarrier [] (.executed 0x50 0) [] (.executed 0x15 0) [] rfl rfl rfl
  exact absurd he List.not_mem_nil

end Desmume.Geometry
