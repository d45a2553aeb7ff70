import Desmume.Geometry.GxFifo

/-! The status flags of the geometry FIFO against its queue, and the interrupt they generate: the
flags are those of the queue only after a send or a receive. -/

namespace Desmume.Geometry
open Library

def irqMaskArm9Gxfifo : BitVec 32 := BitVec.twoPow 32 21

/-- `MMU_Reset`, as far as the FIFO and its status go. -/
def gxReset (s : GxState) : GxState := { gfxFifoClear s with gxstat := .init }

/-- `MMU_struct::gen_IF` of the ARM9. -/
def genIf (regIfBits : BitVec 32) (g : Gxstat) : BitVec 32 :=
  if g.gxfifoIrq = 1 then if g.fifoLow then regIfBits ||| irqMaskArm9Gxfifo else regIfBits
  else if g.gxfifoIrq = 2 then
    if g.fifoEmpty then regIfBits ||| irqMaskArm9Gxfifo else regIfBits
  else regIfBits

/-- The condition under which the hardware requests the interrupt. -/
def gxfifoDemanded (s : GxState) : Bool :=
  (s.gxstat.gxfifoIrq = 1 ∧ s.gxFifo.size ≤ 127) ∨ (s.gxstat.gxfifoIrq = 2 ∧ s.gxFifo.size = 0)

/-- The flags are those of the queue, and the interrupt is the one they demand. -/
structure StatusAgrees (s : GxState) : Prop where
  empty : s.gxstat.fifoEmpty = true ↔ s.gxFifo.size = 0
  low : s.gxstat.fifoLow = true ↔ s.gxFifo.size ≤ 127
  busy : s.gxstat.sb = true ↔ ∃ x ∈ s.contents, isMatrixStackCommand x.1
  irq : ∀ bits : BitVec 32,
    (genIf bits s.gxstat).getLsbD 21 = (bits.getLsbD 21 || gxfifoDemanded s)

/-- The operations that do not run the handler. -/
def GxOp.quiet : GxOp → Bool
  | .send _ _ | .recv => false
  | .clear | .gxstatWrite _ => true

/-- The operations up to the last send or receive. -/
def uptoHandled (ops : List GxOp) : List GxOp := ops.rdropWhile GxOp.quiet

/-- The operations after it. -/
def sinceHandled (ops : List GxOp) : List GxOp := ops.rtakeWhile GxOp.quiet

/-- There was a send or a receive, and nothing was queued after the last one if a clear followed. -/
def Refreshed (s : GxState) (ops : List GxOp) : Prop :=
  uptoHandled ops ≠ [] ∧
    (GxOp.clear ∈ sinceHandled ops → (run gxStep s (uptoHandled ops)).gxFifo.size = 0)

/-! The interrupt follows from the flags. -/

theorem getLsbD_or_irqMask (bits : BitVec 32) :
    (bits ||| irqMaskArm9Gxfifo).getLsbD 21 = true := by
  rw [BitVec.getLsbD_or, irqMaskArm9Gxfifo, BitVec.getLsbD_twoPow]
  exact Bool.or_true _

theorem genIf_demanded {s : GxState} (hempty : s.gxstat.fifoEmpty = true ↔ s.gxFifo.size = 0)
    (hlow : s.gxstat.fifoLow = true ↔ s.gxFifo.size ≤ 127) (bits : BitVec 32) :
    (genIf bits s.gxstat).getLsbD 21 = (bits.getLsbD 21 || gxfifoDemanded s) := by
  have hone : (1 : BitVec 2) ≠ 2 := by decide
  rw [genIf, gxfifoDemanded]
  by_cases h₁ : s.gxstat.gxfifoIrq = 1
  · rw [if_pos h₁]
    by_cases hsize : s.gxFifo.size ≤ 127
    · simp only [hlow.mpr hsize, if_true, getLsbD_or_irqMask, h₁, hsize, and_self, true_or,
        decide_true, Bool.or_true]
    · have hoff : s.gxstat.fifoLow = false := by
        rw [Bool.eq_false_iff]
        exact fun h => hsize (hlow.mp h)
      simp only [hoff, Bool.false_eq_true, if_false, h₁, hsize, hone, and_false, false_and, or_self,
        decide_false, Bool.or_false]
  · rw [if_neg h₁]
    by_cases h₂ : s.gxstat.gxfifoIrq = 2
    · rw [if_pos h₂]
      by_cases hsize : s.gxFifo.size = 0
      · simp only [hempty.mpr hsize, if_true, getLsbD_or_irqMask, h₂, hsize, and_self, or_true,
          decide_true, Bool.or_true]
      · have hoff : s.gxstat.fifoEmpty = false := by
          rw [Bool.eq_false_iff]
          exact fun h => hsize (hempty.mp h)
        simp only [hoff, Bool.false_eq_true, if_false, h₂, hsize, hone.symm, and_false, false_and,
          or_self, decide_false, Bool.or_false]
    · simp only [h₁, h₂, if_false, false_and, or_self, decide_false, Bool.or_false]

theorem queuedMatrixOps_pos {q : List (BitVec 8 × BitVec 32)} :
    0 < queuedMatrixOps q ↔ ∃ x ∈ q, isMatrixStackCommand x.1 = true := List.countP_pos_iff

theorem GxInv.busy_iff {s : GxState} (h : GxInv s) : s.matrixStackOpSize ≠ 0 ↔
    ∃ x ∈ s.contents, isMatrixStackCommand x.1 = true := by
  rw [← queuedMatrixOps_pos, ← h.count, Nat.pos_iff_ne_zero]
  exact not_congr BitVec.toNat_eq

theorem gxfFifoHandleEvents_agrees {s : GxState} (h : GxInv s) :
    StatusAgrees (gxfFifoHandleEvents s) := by
  have hempty : (gxfFifoHandleEvents s).gxstat.fifoEmpty = true ↔ s.gxFifo.size = 0 :=
    decide_eq_true_iff
  have hlow : (gxfFifoHandleEvents s).gxstat.fifoLow = true ↔ s.gxFifo.size ≤ 127 :=
    decide_eq_true_iff
  refine ⟨hempty, hlow, ?_, genIf_demanded hempty hlow⟩
  exact decide_eq_true_iff.trans h.busy_iff

theorem StatusAgrees.congr {s t : GxState} (hfifo : t.gxFifo = s.gxFifo)
    (hempty : t.gxstat.fifoEmpty = s.gxstat.fifoEmpty) (hlow : t.gxstat.fifoLow = s.gxstat.fifoLow)
    (hsb : t.gxstat.sb = s.gxstat.sb) (h : StatusAgrees s) : StatusAgrees t := by
  have he : t.gxstat.fifoEmpty = true ↔ t.gxFifo.size = 0 := by
    rw [hempty, hfifo]
    exact h.empty
  have hl : t.gxstat.fifoLow = true ↔ t.gxFifo.size ≤ 127 := by
    rw [hlow, hfifo]
    exact h.low
  refine ⟨he, hl, ?_, genIf_demanded he hl⟩
  rw [hsb, h.busy, GxState.contents, GxState.contents, hfifo]

/-! What an operation does to the agreement. -/

section Step

variable {s : GxState} {op : GxOp}

theorem gxStep_agrees_of_handles (h : GxInv s) (hfits : SendFits s op) (hop : op.quiet = false) :
    StatusAgrees (gxStep s op) := by
  have hnext := gxStep_inv hfits h
  cases op with
  | send cmd param =>
    -- the handler runs on the new queue, then the next execution is scheduled
    have hagrees := gxfFifoHandleEvents_agrees hnext
    refine StatusAgrees.congr ?_ ?_ ?_ ?_ hagrees <;> rw [gxStep, gfxFifoSend] <;> rfl
  | recv =>
    have hagrees := gxfFifoHandleEvents_agrees hnext
    refine StatusAgrees.congr ?_ ?_ ?_ ?_ hagrees <;> rw [gxStep, gfxPipeRecv] <;>
      split_ifs <;> rfl
  | clear => exact absurd hop.symm Bool.false_ne_true
  | gxstatWrite val => exact absurd hop.symm Bool.false_ne_true

theorem gxstatWrite32_gxstat (val : BitVec 32) :
    (gxstatWrite32 val s).gxstat.fifoEmpty = s.gxstat.fifoEmpty ∧
      (gxstatWrite32 val s).gxstat.fifoLow = s.gxstat.fifoLow ∧
      (gxstatWrite32 val s).gxstat.sb = s.gxstat.sb := by
  rw [gxstatWrite32]
  split_ifs <;> exact ⟨rfl, rfl, rfl⟩

theorem gxstatWrite32_agrees (val : BitVec 32) :
    StatusAgrees (gxstatWrite32 val s) ↔ StatusAgrees s := by
  have hfifo := gxstatWrite32_gxFifo s val
  obtain ⟨hempty, hlow, hsb⟩ := gxstatWrite32_gxstat (s := s) val
  constructor
  · exact StatusAgrees.congr hfifo.symm hempty.symm hlow.symm hsb.symm
  · exact StatusAgrees.congr hfifo hempty hlow hsb

/-- A clear leaves the flags alone, so they are right afterwards only if the queue was empty. -/
theorem gfxFifoClear_agrees (hstale : s.gxFifo.size ≠ 0 → StatusAgrees s) :
    StatusAgrees (gfxFifoClear s) ↔ StatusAgrees s ∧ s.gxFifo.size = 0 := by
  constructor
  · intro hclear
    have hempty : s.gxFifo.size = 0 := by
      by_contra hsome
      exact hsome ((hstale hsome).empty.mp (hclear.empty.mpr rfl))
    have hnone : s.contents = [] := by
      rw [← List.length_eq_zero_iff, GxState.contents, RingBuffer.contents_length, hempty]
    have he : s.gxstat.fifoEmpty = true ↔ s.gxFifo.size = 0 :=
      iff_of_true (hclear.empty.mpr rfl) hempty
    have hl : s.gxstat.fifoLow = true ↔ s.gxFifo.size ≤ 127 :=
      iff_of_true (hclear.low.mpr (Nat.zero_le _)) (by omega)
    refine ⟨⟨he, hl, ?_, genIf_demanded he hl⟩, hempty⟩
    rw [hnone]
    exact hclear.busy
  · rintro ⟨hagrees, hempty⟩
    have hnone : s.contents = [] := by
      rw [← List.length_eq_zero_iff, GxState.contents, RingBuffer.contents_length, hempty]
    have he : (gfxFifoClear s).gxstat.fifoEmpty = true ↔ (gfxFifoClear s).gxFifo.size = 0 :=
      iff_of_true (hagrees.empty.mpr hempty) rfl
    have hl : (gfxFifoClear s).gxstat.fifoLow = true ↔ (gfxFifoClear s).gxFifo.size ≤ 127 :=
      iff_of_true (hagrees.low.mpr (by omega)) (Nat.zero_le _)
    refine ⟨he, hl, ?_, genIf_demanded he hl⟩
    have hbusy := hagrees.busy
    rw [hnone] at hbusy
    exact hbusy

end Step

section Concat

variable {ops : List GxOp} {op : GxOp}

theorem uptoHandled_concat (h : op.quiet = true) :
    uptoHandled (ops ++ [op]) = uptoHandled ops := List.rdropWhile_concat_pos GxOp.quiet ops op h

theorem sinceHandled_concat (h : op.quiet = true) :
    sinceHandled (ops ++ [op]) = sinceHandled ops ++ [op] :=
  List.rtakeWhile_concat_pos GxOp.quiet ops op h

theorem uptoHandled_of_handles (h : op.quiet = false) :
    uptoHandled (ops ++ [op]) = ops ++ [op] :=
  List.rdropWhile_concat_neg GxOp.quiet ops op (Bool.eq_false_iff.mp h)

theorem sinceHandled_of_handles (h : op.quiet = false) : sinceHandled (ops ++ [op]) = [] :=
  List.rtakeWhile_concat_neg GxOp.quiet ops op (Bool.eq_false_iff.mp h)

theorem refreshed_of_handles (s : GxState) (h : op.quiet = false) : Refreshed s (ops ++ [op]) := by
  rw [Refreshed, uptoHandled_of_handles h, sinceHandled_of_handles h]
  exact ⟨List.append_ne_nil_of_right_ne_nil _ (List.cons_ne_nil _ _),
    fun hmem => absurd hmem List.not_mem_nil⟩

end Concat

/-- Where a run from the reset has got to: the queue is valid, the flags can be stale only while
nothing is queued, and they are right exactly if they were refreshed. -/
structure StatusInv (s₀ : GxState) (ops : List GxOp) : Prop where
  inv : GxInv (run gxStep s₀ ops)
  stale : (run gxStep s₀ ops).gxFifo.size ≠ 0 → StatusAgrees (run gxStep s₀ ops)
  size : (run gxStep s₀ ops).gxFifo.size = if GxOp.clear ∈ sinceHandled ops then 0
    else (run gxStep s₀ (uptoHandled ops)).gxFifo.size
  agrees : StatusAgrees (run gxStep s₀ ops) ↔ Refreshed s₀ ops

section Run

variable {s₀ : GxState} {ops : List GxOp} {op : GxOp}

theorem StatusInv.handles (h : StatusInv s₀ ops) (hfits : SendFits (run gxStep s₀ ops) op)
    (hop : op.quiet = false) : StatusInv s₀ (ops ++ [op]) := by
  have hagrees := gxStep_agrees_of_handles h.inv hfits hop
  refine ⟨?_, ?_, ?_, ?_⟩
  · rw [run_concat]
    exact gxStep_inv hfits h.inv
  · rw [run_concat]
    exact fun _ => hagrees
  · rw [sinceHandled_of_handles hop, uptoHandled_of_handles hop, if_neg List.not_mem_nil]
  · rw [run_concat]
    exact iff_of_true hagrees (refreshed_of_handles s₀ hop)

theorem StatusInv.gxstatWrite (h : StatusInv s₀ ops) (val : BitVec 32) :
    StatusInv s₀ (ops ++ [.gxstatWrite val]) := by
  have hfifo := gxstatWrite32_gxFifo (run gxStep s₀ ops) val
  have hagrees := gxstatWrite32_agrees (s := run gxStep s₀ ops) val
  have hmem : GxOp.clear ∈ sinceHandled (ops ++ [.gxstatWrite val]) ↔
      GxOp.clear ∈ sinceHandled ops := by
    rw [sinceHandled_concat rfl, List.mem_append, List.mem_singleton]
    exact or_iff_left (by exact nofun)
  refine ⟨?_, ?_, ?_, ?_⟩
  · rw [run_concat]
    have hfits : SendFits (run gxStep s₀ ops) (.gxstatWrite val) := trivial
    exact gxStep_inv hfits h.inv
  · rw [run_concat, gxStep, hfifo, hagrees]
    exact h.stale
  · rw [run_concat, gxStep, hfifo, uptoHandled_concat rfl, h.size]
    simp only [hmem]
  · rw [run_concat, gxStep, hagrees, h.agrees, Refreshed, Refreshed, uptoHandled_concat rfl, hmem]

theorem StatusInv.clear (h : StatusInv s₀ ops) : StatusInv s₀ (ops ++ [.clear]) := by
  have hmem : GxOp.clear ∈ sinceHandled (ops ++ [.clear]) := by
    rw [sinceHandled_concat rfl]
    exact List.mem_append_right _ (List.mem_singleton_self _)
  refine ⟨?_, ?_, ?_, ?_⟩
  · rw [run_concat]
    exact gfxFifoClear_inv _
  · rw [run_concat]
    exact fun hsome => absurd rfl hsome
  · rw [if_pos hmem, run_concat]
    rfl
  · have hsize := h.size
    rw [run_concat, gxStep, gfxFifoClear_agrees h.stale, h.agrees, Refreshed, Refreshed,
      uptoHandled_concat rfl]
    constructor
    · rintro ⟨⟨hupto, hsince⟩, hempty⟩
      refine ⟨hupto, fun _ => ?_⟩
      by_cases hclear : GxOp.clear ∈ sinceHandled ops
      · exact hsince hclear
      · rwa [hempty, if_neg hclear, eq_comm] at hsize
    · rintro ⟨hupto, hsince⟩
      refine ⟨⟨hupto, fun _ => hsince hmem⟩, ?_⟩
      rw [hsize, hsince hmem, ite_self]

/-- From the reset on the status agrees with the queue exactly if some send or receive has
refreshed it and no clear has emptied the queue since. -/
theorem gxRun_statusAgrees_iff (s : GxState) (ops : List GxOp)
    (hfits : AtEach gxStep SendFits (gxReset s) ops) :
    StatusAgrees (run gxStep (gxReset s) ops) ↔ Refreshed (gxReset s) ops := by
  suffices hinv : StatusInv (gxReset s) ops from hinv.agrees
  induction ops using List.reverseRecOn with
  | nil =>
    have hreset : ¬ StatusAgrees (gxReset s) :=
      fun h => Bool.false_ne_true (h.low.mpr (Nat.zero_le _))
    refine ⟨?_, fun hsome => absurd rfl hsome, rfl, iff_of_false hreset fun h => h.1 rfl⟩
    exact ⟨(gfxFifoClear_inv s).ring, (gfxFifoClear_inv s).count⟩
  | append_singleton ops op ih =>
    obtain ⟨hbefore, hop⟩ := atEach_concat.mp hfits
    have hinv := ih hbefore
    cases op with
    | send cmd param => exact hinv.handles hop rfl
    | recv => exact hinv.handles hop rfl
    | clear => exact hinv.clear
    | gxstatWrite val => exact hinv.gxstatWrite val

end Run

theorem gxRun_statusAgrees_sample :
    StatusAgrees (run gxStep (gxReset gxStart) [.send 0x11 0, .gxstatWrite 0x40000000]) ↔
      Refreshed (gxReset gxStart) [.send 0x11 0, .gxstatWrite 0x40000000] :=
  gxRun_statusAgrees_iff gxStart _ ⟨(by decide : 0 < 200000), trivial, trivial⟩

/-- After the reset a program that asks for the interrupt of a FIFO less than half full does not
get it, although the FIFO is empty. -/
theorem gxReset_stale : ¬ ∀ (s : GxState) (ops : List GxOp), ops ≠ [] →
    AtEach gxStep SendFits (gxReset s) ops → StatusAgrees (run gxStep (gxReset s) ops) := by
  intro h
  have hagrees := h gxStart [.gxstatWrite 0x40000000] (List.cons_ne_nil _ _) ⟨trivial, trivial⟩
  exact absurd (hagrees.irq 0) (by decide)

end Desmume.Geometry
