import Desmume.Dma.DmaDefs
import Desmume.Library.Channel
import Desmume.Library.RingBuffer

/-! The geometry command FIFO: a ring of commands with their parameters, the count of the matrix
stack commands in it and the status flags derived from both. -/

namespace Desmume.Geometry
open Library Dma

def hackGxfifoSize : ℕ := 200000

/-- `TGXSTAT`. -/
structure Gxstat where
  tb : Bool
  tr : Bool
  se : Bool
  sb : Bool
  gxfifoIrq : BitVec 2
  fifoEmpty : Bool
  fifoLow : Bool
  deriving DecidableEq

/-- The constructor of `TGXSTAT`. -/
def Gxstat.init : Gxstat := ⟨false, false, false, false, 0, true, false⟩

inductive GxSignal where
  | triggerDma (mode : EDMAMode) | reschedule | rescheduleGxFifo (cost : ℕ)

/-- `gxFIFO` with a cell for each command and its parameter, `MMU_new.gxstat` and the position of
the projection stack, which a write to GXSTAT may reset. -/
structure GxState where
  gxFifo : RingBuffer (BitVec 8 × BitVec 32)
  matrixStackOpSize : BitVec 32
  gxstat : Gxstat
  projectionPosition : ℕ
  signals : List GxSignal

def isMatrixStackCommand (cmd : BitVec 8) : Bool := cmd = 0x11#8 ∨ cmd = 0x12#8

namespace GxState

variable (s : GxState)

def signalIf (b : Bool) (x : GxSignal) : GxState :=
  { s with signals := if b then s.signals ++ [x] else s.signals }

/-- The queue of commands, the oldest first. -/
def contents : List (BitVec 8 × BitVec 32) := s.gxFifo.contents hackGxfifoSize

end GxState

/-- `GFX_FIFOclear`. -/
def gfxFifoClear (s : GxState) : GxState :=
  { s with gxFifo := s.gxFifo.clear, matrixStackOpSize := 0 }

/-- `GXF_FIFO_handleEvents`. -/
def gxfFifoHandleEvents (s : GxState) : GxState :=
  let low : Bool := s.gxFifo.size ≤ 127
  let empty : Bool := s.gxFifo.size = 0
  let change := (s.gxstat.fifoEmpty ^^ empty) || (s.gxstat.fifoLow ^^ low)
  -- the DMA is triggered on every call with room, not on a change only
  let s := s.signalIf low (.triggerDma .gxFifo)
  let s := { s with gxstat := { s.gxstat with
    fifoLow := low, fifoEmpty := empty, sb := s.matrixStackOpSize ≠ 0 } }
  s.signalIf change .reschedule

/-- `GFX_FIFOsend`. -/
def gfxFifoSend (cmd : BitVec 8) (param : BitVec 32) (s : GxState) : GxState :=
  -- there is no test for a full FIFO
  let s := { s with gxFifo := s.gxFifo.push hackGxfifoSize (cmd, param) }
  let s := if isMatrixStackCommand cmd then
    { s with matrixStackOpSize := s.matrixStackOpSize + 1 } else s
  (gxfFifoHandleEvents s).signalIf true (.rescheduleGxFifo 1)

/-- `GFX_PIPErecv`. -/
def gfxPipeRecv (s : GxState) : Option (BitVec 8 × BitVec 32) × GxState :=
  if s.gxFifo.size = 0 then (none, gxfFifoHandleEvents s)
  else
    (some s.gxFifo.front, gxfFifoHandleEvents { s with
      gxFifo := s.gxFifo.pop hackGxfifoSize
      matrixStackOpSize := if isMatrixStackCommand s.gxFifo.front.1 then
        s.matrixStackOpSize - 1 else s.matrixStackOpSize })

/-- `TGXSTAT::write32`. -/
def gxstatWrite32 (val : BitVec 32) (s : GxState) : GxState :=
  let s := { s with gxstat := { s.gxstat with gxfifoIrq := (val >>> 30).setWidth 2 } }
  if val.getLsbD 15 then
    { s with projectionPosition := 0, gxstat := { s.gxstat with se := false } }
  else s

inductive GxOp where
  | send (cmd : BitVec 8) (param : BitVec 32)
  | recv
  | clear
  | gxstatWrite (val : BitVec 32)
  deriving DecidableEq

def gxStep (s : GxState) : GxOp → GxState
  | .send cmd param => gfxFifoSend cmd param s
  | .recv => (gfxPipeRecv s).2
  | .clear => gfxFifoClear s
  | .gxstatWrite val => gxstatWrite32 val s

/-- What an operation does on the queue. -/
def gxEvents (s : GxState) : GxOp → List (ChannelEvent (BitVec 8 × BitVec 32))
  | .send cmd param => [.sent (cmd, param)]
  | .recv => (gfxPipeRecv s).1.toList.map .received
  | .clear => [.cleared]
  | .gxstatWrite _ => []

/-- A send finds a free cell. -/
def SendFits (s : GxState) : GxOp → Prop
  | .send _ _ => s.gxFifo.size < hackGxfifoSize
  | _ => True

def queuedMatrixOps (q : List (BitVec 8 × BitVec 32)) : ℕ :=
  q.countP fun x => isMatrixStackCommand x.1

section Fields

variable (s : GxState)

@[simp] theorem gxfFifoHandleEvents_gxFifo : (gxfFifoHandleEvents s).gxFifo = s.gxFifo := rfl

@[simp] theorem gxfFifoHandleEvents_matrixStackOpSize :
    (gxfFifoHandleEvents s).matrixStackOpSize = s.matrixStackOpSize := rfl

@[simp] theorem gxstatWrite32_gxFifo (val : BitVec 32) :
    (gxstatWrite32 val s).gxFifo = s.gxFifo := by
  rw [gxstatWrite32]
  split_ifs <;> rfl

@[simp] theorem gxstatWrite32_matrixStackOpSize (val : BitVec 32) :
    (gxstatWrite32 val s).matrixStackOpSize = s.matrixStackOpSize := by
  rw [gxstatWrite32]
  split_ifs <;> rfl

theorem gfxFifoSend_gxFifo (cmd : BitVec 8) (param : BitVec 32) :
    (gfxFifoSend cmd param s).gxFifo = s.gxFifo.push hackGxfifoSize (cmd, param) := by
  rw [gfxFifoSend]
  split_ifs <;> rfl

theorem gfxFifoSend_matrixStackOpSize (cmd : BitVec 8) (param : BitVec 32) :
    (gfxFifoSend cmd param s).matrixStackOpSize =
      if isMatrixStackCommand cmd then s.matrixStackOpSize + 1 else s.matrixStackOpSize := by
  rw [gfxFifoSend]
  split_ifs <;> rfl

variable {s}

theorem gfxPipeRecv_empty (h : s.gxFifo.size = 0) :
    gfxPipeRecv s = (none, gxfFifoHandleEvents s) := if_pos h

theorem gfxPipeRecv_value (h : s.gxFifo.size ≠ 0) :
    (gfxPipeRecv s).1 = some s.gxFifo.front := by
  rw [gfxPipeRecv, if_neg h]

theorem gfxPipeRecv_gxFifo (h : s.gxFifo.size ≠ 0) :
    (gfxPipeRecv s).2.gxFifo = s.gxFifo.pop hackGxfifoSize := by
  rw [gfxPipeRecv, if_neg h]
  rfl

theorem gfxPipeRecv_matrixStackOpSize (h : s.gxFifo.size ≠ 0) :
    (gfxPipeRecv s).2.matrixStackOpSize = if isMatrixStackCommand s.gxFifo.front.1 then
      s.matrixStackOpSize - 1 else s.matrixStackOpSize := by
  rw [gfxPipeRecv, if_neg h]
  rfl

end Fields

/-- The ring is a queue, and the count is that of the matrix stack commands in it. -/
structure GxInv (s : GxState) : Prop where
  ring : s.gxFifo.WellFormed hackGxfifoSize
  count : s.matrixStackOpSize.toNat = queuedMatrixOps s.contents

theorem gfxFifoClear_inv (s : GxState) : GxInv (gfxFifoClear s) :=
  ⟨RingBuffer.WellFormed.clear (by decide), rfl⟩

section Step

variable {s : GxState}

theorem GxInv.queuedMatrixOps_le (h : GxInv s) : queuedMatrixOps s.contents ≤ hackGxfifoSize := by
  refine List.countP_le_length.trans ?_
  rw [GxState.contents, RingBuffer.contents_length]
  exact h.ring.size_le

theorem contents_send (h : GxInv s) (cmd : BitVec 8) (param : BitVec 32)
    (hfits : s.gxFifo.size < hackGxfifoSize) :
    (gfxFifoSend cmd param s).contents = s.contents ++ [(cmd, param)] := by
  rw [GxState.contents, gfxFifoSend_gxFifo, RingBuffer.contents_push h.ring _ hfits]
  rfl

theorem contents_recv (h : s.gxFifo.head < hackGxfifoSize) (hsome : s.gxFifo.size ≠ 0) :
    s.contents = s.gxFifo.front :: (gfxPipeRecv s).2.contents := by
  rw [GxState.contents, GxState.contents, gfxPipeRecv_gxFifo hsome]
  exact RingBuffer.contents_pop h hsome

theorem gfxFifoSend_inv (h : GxInv s) (cmd : BitVec 8) (param : BitVec 32)
    (hfits : s.gxFifo.size < hackGxfifoSize) : GxInv (gfxFifoSend cmd param s) := by
  have hcontents := contents_send h cmd param hfits
  have hle := h.queuedMatrixOps_le
  rw [hackGxfifoSize] at hle
  refine ⟨?_, ?_⟩
  · rw [gfxFifoSend_gxFifo]
    exact h.ring.push _ hfits
  · rw [hcontents, gfxFifoSend_matrixStackOpSize, queuedMatrixOps, List.countP_append,
      List.countP_singleton]
    have hcount := h.count
    rw [queuedMatrixOps] at hcount hle
    split_ifs with hcmd
    · rw [BitVec.toNat_add, hcount]
      exact Nat.mod_eq_of_lt (by change _ + 1 < 2 ^ 32; omega)
    · exact hcount

theorem gfxPipeRecv_inv (h : GxInv s) : GxInv (gfxPipeRecv s).2 := by
  by_cases hsome : s.gxFifo.size = 0
  · rw [gfxPipeRecv_empty hsome]
    exact ⟨h.ring, h.count⟩
  · refine ⟨?_, ?_⟩
    · rw [gfxPipeRecv_gxFifo hsome]
      exact h.ring.pop hsome
    · have hcount := h.count
      rw [contents_recv h.ring.head_lt hsome, queuedMatrixOps, List.countP_cons] at hcount
      rw [gfxPipeRecv_matrixStackOpSize hsome, queuedMatrixOps]
      split_ifs at hcount ⊢ with hcmd
      · -- the command that leaves was counted, so the count is positive
        have hpos : (1 : BitVec 32) ≤ s.matrixStackOpSize := by
          rw [BitVec.le_def, hcount]
          exact Nat.le_add_left 1 _
        rw [BitVec.toNat_sub_of_le hpos, hcount]
        rfl
      · exact hcount

theorem gxStep_inv {op : GxOp} (hfits : SendFits s op) (h : GxInv s) : GxInv (gxStep s op) := by
  cases op with
  | send cmd param => exact gfxFifoSend_inv h cmd param hfits
  | recv => exact gfxPipeRecv_inv h
  | clear => exact gfxFifoClear_inv s
  | gxstatWrite val =>
    refine ⟨?_, ?_⟩
    · rw [gxStep, gxstatWrite32_gxFifo]
      exact h.ring
    · rw [gxStep, gxstatWrite32_matrixStackOpSize, GxState.contents, gxstatWrite32_gxFifo]
      exact h.count

/-- An operation takes the queue along the events it produces. -/
theorem channelTrace_gxStep {es : List (ChannelEvent (BitVec 8 × BitVec 32))} {op : GxOp}
    (hfits : SendFits s op) (hi : GxInv s) (h : ChannelTrace es s.contents) :
    ChannelTrace (es ++ gxEvents s op) (gxStep s op).contents := by
  cases op with
  | send cmd param =>
    rw [gxStep, contents_send hi cmd param hfits]
    exact h.step (.sent _ _)
  | recv =>
    rw [gxStep, gxEvents]
    by_cases hsome : s.gxFifo.size = 0
    · rw [gfxPipeRecv_empty hsome, Option.toList_none, List.map_nil, List.append_nil]
      exact h
    · rw [gfxPipeRecv_value hsome]
      rw [contents_recv hi.ring.head_lt hsome] at h
      exact h.step (.received _ _)
  | clear => exact h.step (.cleared _)
  | gxstatWrite val =>
    rw [gxStep, GxState.contents, gxstatWrite32_gxFifo, gxEvents, List.append_nil]
    exact h

theorem gfxPipeRecv_eq_head? (h : s.gxFifo.head < hackGxfifoSize) :
    (gfxPipeRecv s).1 = s.contents.head? := by
  by_cases hsome : s.gxFifo.size = 0
  · have hnil : s.contents = [] := by
      rw [← List.length_eq_zero_iff, GxState.contents, RingBuffer.contents_length, hsome]
    rw [gfxPipeRecv_empty hsome, hnil]
    rfl
  · rw [gfxPipeRecv_value hsome, contents_recv h hsome]
    rfl

end Step

/-- From a clear on the ring is a queue of what was sent since the last clear, and the count is
that of the matrix stack commands in it. -/
theorem gxRun_queue (s₀ : GxState) (ops : List GxOp)
    (hfits : AtEach gxStep SendFits (gfxFifoClear s₀) ops) :
    let s := run gxStep (gfxFifoClear s₀) ops
    let es := sinceClear (observe gxStep gxEvents (gfxFifoClear s₀) ops)
    s.gxFifo.WellFormed hackGxfifoSize ∧
      es.filterMap ChannelEvent.sent? =
        es.filterMap ChannelEvent.received? ++ s.contents ∧
      (gfxPipeRecv s).1 = s.contents.head? ∧
      s.matrixStackOpSize.toNat = queuedMatrixOps s.contents := by
  intro s es
  have hstep (t : GxState) (log) (op : GxOp) (hop : SendFits t op)
      (h : GxInv t ∧ ChannelTrace log t.contents) :
      GxInv (gxStep t op) ∧ ChannelTrace (log ++ gxEvents t op) (gxStep t op).contents :=
    ⟨gxStep_inv hop h.1, channelTrace_gxStep hop h.1 h.2⟩
  obtain ⟨hinv, htrace⟩ :=
    observe_invariant_of_atEach hstep ⟨gfxFifoClear_inv s₀, ChannelTrace.nil⟩ hfits
  exact ⟨hinv.ring, htrace.sent_sinceClear, gfxPipeRecv_eq_head? hinv.ring.head_lt,
    hinv.count⟩

/-- The state of the program before anything ran. -/
def gxStart : GxState := ⟨⟨fun _ => (0, 0), 0, 0, 0⟩, 0, .init, 0, []⟩

theorem gxRun_queue_sample :
    let ops : List GxOp := [.send 0x11 0, .send 0x10 2, .recv]
    let s := run gxStep (gfxFifoClear gxStart) ops
    let es := sinceClear (observe gxStep gxEvents (gfxFifoClear gxStart) ops)
    s.gxFifo.WellFormed hackGxfifoSize ∧
      es.filterMap ChannelEvent.sent? =
        es.filterMap ChannelEvent.received? ++ s.contents ∧
      (gfxPipeRecv s).1 = s.contents.head? ∧
      s.matrixStackOpSize.toNat = queuedMatrixOps s.contents :=
  gxRun_queue gxStart [.send 0x11 0, .send 0x10 2, .recv]
    ⟨(by decide : 0 < 200000), (by decide : 1 < 200000), trivial, trivial⟩

end Desmume.Geometry
