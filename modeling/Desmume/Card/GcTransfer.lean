import Desmume.Card.GcBus
import Mathlib.Algebra.Order.Ring.Int

/-! The transfers of the game card bus as a small machine of their own: a command starts one, a data
access counts it down. The bus runs it for each processor, and in the order that games keep to
every transfer is ended once. -/

namespace Desmume.Card
open Library

/-- What happens to the transfer of one processor. -/
inductive CardOp where
  | start (val : BitVec 32)
  | read
  | write
  deriving DecidableEq

namespace GcBusController

def finish (c : GcBusController) : GcBusController := { c with log := .finish :: c.log }

def access (c : GcBusController) : GcBusController :=
  let c := { c with transferCount := c.transferCount - 4 }
  if c.transferCount ≤ 0 then c.finish else c

def start (c : GcBusController) (size : ℤ) : GcBusController :=
  let c := ⟨size, .start :: c.log⟩
  if size = 0 then finish c else c

def step (c : GcBusController) : CardOp → GcBusController
  | .start val => c.start (blocksize val)
  | .read => if c.transferCount = 0 then c else c.access
  | .write => c.access

end GcBusController

/-- Every transfer of the log was ended once, but for the latest one if it is pending. -/
def EndedOnce : Bool → List GcEvent → Prop
  | false, [] => True
  | false, .finish :: log => EndedOnce true log
  | true, .start :: log => EndedOnce false log
  | _, _ => False

/-- The count is a number of words, and every transfer is ended once, the latest as soon as no words
are left of it. -/
structure Lawful (c : GcBusController) : Prop where
  nonneg : 0 ≤ c.transferCount
  words : 4 ∣ c.transferCount
  ended : EndedOnce (decide (0 < c.transferCount)) c.log

/-- A command comes when no words of the last one are left, data is written while some are. -/
def InTurn (c : GcBusController) : CardOp → Prop
  | .start _ => c.transferCount = 0
  | .read => True
  | .write => 0 < c.transferCount

/-! ### One transfer -/

theorem EndedOnce.counts {pending : Bool} {log : List GcEvent} (h : EndedOnce pending log) :
    log.count .start = log.count .finish + pending.toNat := by
  induction log generalizing pending with
  | nil =>
    cases pending with
    | false => rfl
    | true => cases h
  | cons e log ih =>
    cases e with
    | start =>
      cases pending with
      | false => cases h
      | true =>
        have hrest : log.count .start = log.count .finish + false.toNat := ih h
        rw [List.count_cons_self, List.count_cons_of_ne (by decide), hrest]
        rfl
    | finish =>
      cases pending with
      | false =>
        have hrest : log.count .start = log.count .finish + true.toNat := ih h
        rw [List.count_cons_self, List.count_cons_of_ne (by decide), hrest]
        rfl
      | true => cases h

theorem blocksize_words (val : BitVec 32) : 0 ≤ blocksize val ∧ 4 ∣ blocksize val := by
  unfold blocksize
  generalize (val.extractLsb' 24 3).toFin = i
  revert i
  decide

theorem EndedOnce.not_both {log : List GcEvent} (h : EndedOnce true log) : ¬ EndedOnce false log := by
  intro hidle
  have hopen := h.counts
  rw [hidle.counts, Bool.toNat_false, Bool.toNat_true] at hopen
  omega

section Lawful

variable {c : GcBusController}

theorem start_of_none {size : ℤ} (h : size = 0) :
    c.start size = ⟨size, .finish :: .start :: c.log⟩ := if_pos h

theorem start_of_some {size : ℤ} (h : size ≠ 0) : c.start size = ⟨size, .start :: c.log⟩ := if_neg h

theorem access_of_last (h : c.transferCount - 4 ≤ 0) :
    c.access = ⟨c.transferCount - 4, .finish :: c.log⟩ := if_pos h

theorem access_of_more (h : 0 < c.transferCount - 4) : c.access = ⟨c.transferCount - 4, c.log⟩ :=
  if_neg (Int.not_le.mpr h)

theorem access_transferCount (c : GcBusController) :
    c.access.transferCount = c.transferCount - 4 := by
  rcases lt_or_ge 0 (c.transferCount - 4) with h | h
  · rw [access_of_more h]
  · rw [access_of_last h]

/-- Between two transfers the log is complete. -/
theorem Lawful.idle_iff (h : Lawful c) : EndedOnce false c.log ↔ c.transferCount = 0 := by
  have hended := h.ended
  constructor
  · intro hidle
    by_contra hne
    have hpos : 0 < c.transferCount := lt_of_le_of_ne h.nonneg (Ne.symm hne)
    rw [decide_eq_true hpos] at hended
    exact hended.not_both hidle
  · intro hzero
    rwa [hzero] at hended

theorem Lawful.start_iff (h : Lawful c) (val : BitVec 32) :
    Lawful (c.start (blocksize val)) ↔ c.transferCount = 0 := by
  obtain ⟨hnonneg, hwords⟩ := blocksize_words val
  rw [← h.idle_iff]
  generalize blocksize val = size at hnonneg hwords
  by_cases hsize : size = 0
  · rw [start_of_none hsize]
    constructor
    · intro hstart
      have hended := hstart.ended
      rwa [hsize] at hended
    · intro hidle
      refine ⟨hnonneg, hwords, ?_⟩
      rw [hsize]
      exact hidle
  · have hpos : 0 < size := lt_of_le_of_ne hnonneg (Ne.symm hsize)
    rw [start_of_some hsize]
    constructor
    · intro hstart
      have hended := hstart.ended
      rwa [decide_eq_true hpos] at hended
    · intro hidle
      refine ⟨hnonneg, hwords, ?_⟩
      rw [decide_eq_true hpos]
      exact hidle

theorem Lawful.access_iff (h : Lawful c) : Lawful c.access ↔ 0 < c.transferCount := by
  constructor
  · intro haccess
    have hnew := haccess.nonneg
    rw [access_transferCount] at hnew
    omega
  · intro hpos
    have hended := h.ended
    rw [decide_eq_true hpos] at hended
    have hwords : 4 ∣ c.transferCount - 4 := Int.dvd_sub h.words (Int.dvd_refl 4)
    rcases lt_or_ge 0 (c.transferCount - 4) with hmore | hlast
    · rw [access_of_more hmore]
      refine ⟨Int.le_of_lt hmore, hwords, ?_⟩
      rw [decide_eq_true hmore]
      exact hended
    · -- the count is a number of words, so that the last access ends at zero
      have hzero : c.transferCount - 4 = 0 := by omega
      rw [access_of_last hlast, hzero]
      exact ⟨Int.le_refl 0, Int.dvd_zero 4, hended⟩

theorem Lawful.step_iff (h : Lawful c) (op : CardOp) : Lawful (c.step op) ↔ InTurn c op := by
  cases op with
  | start val => exact h.start_iff val
  | read =>
    refine iff_of_true ?_ trivial
    unfold GcBusController.step
    dsimp only
    split_ifs with hzero
    · exact h
    · apply h.access_iff.mpr
      have hnonneg := h.nonneg
      omega
  | write => exact h.access_iff

end Lawful

/-! ### The bus -/

section Bus

variable {δ : Type} (slot1 : Slot1 δ) (s : GcBus δ) (proc : Proc)

theorem endTransfer_setCard (card : GcBusController) :
    ((s.setCard proc card).endTransfer proc).dscard =
      Function.update s.dscard proc card.finish := by
  unfold GcBus.endTransfer GcBus.setMachine GcBus.setCard
  dsimp only
  rw [Function.update_self, Function.update_idem]
  rfl

theorem updateTransferCounter_dscard :
    (s.updateTransferCounter proc).dscard =
      Function.update s.dscard proc (s.dscard proc).access := by
  have hcount : ∀ card, ((s.setCard proc card).dscard proc) = card := fun _ =>
    Function.update_self ..
  unfold GcBus.updateTransferCounter
  dsimp only
  rw [hcount]
  rcases lt_or_ge 0 ((s.dscard proc).transferCount - 4) with hmore | hlast
  · rw [access_of_more hmore, if_neg (Int.not_le.mpr hmore)]
    rfl
  · rw [access_of_last hlast, if_pos hlast, endTransfer_setCard]
    rfl

theorem startTransfer_dscard (val : BitVec 32) :
    (s.startTransfer proc val).dscard =
      Function.update s.dscard proc ((s.dscard proc).start (blocksize val)) := by
  have hcard : ∀ card, ((s.setCard proc card).dscard proc) = card := fun _ =>
    Function.update_self ..
  unfold GcBus.startTransfer
  dsimp only
  rw [hcard]
  by_cases hsize : blocksize val = 0
  · rw [start_of_none hsize, if_pos hsize, endTransfer_setCard]
    rfl
  · rw [start_of_some hsize, if_neg hsize]
    rfl

theorem writeToGcControl_dscard (val : BitVec 32) :
    (s.writeToGcControl slot1 proc val).dscard =
      if startBit val then Function.update s.dscard proc ((s.dscard proc).start (blocksize val))
      else s.dscard := by
  unfold GcBus.writeToGcControl
  dsimp only
  split_ifs
  · exact startTransfer_dscard _ proc val
  · rfl

theorem readFromGc_dscard :
    (s.readFromGc slot1 proc).2.dscard =
      Function.update s.dscard proc ((s.dscard proc).step .read) := by
  unfold GcBus.readFromGc GcBusController.step
  by_cases hzero : (s.dscard proc).transferCount = 0
  · simp only [if_pos hzero, Function.update_eq_self]
  · simp only [if_neg hzero]
    rw [updateTransferCounter_dscard]
    rfl

theorem writeToGc_dscard (val : BitVec 32) :
    (s.writeToGc slot1 proc val).dscard =
      Function.update s.dscard proc ((s.dscard proc).step .write) := by
  unfold GcBus.writeToGc
  rw [updateTransferCounter_dscard]
  rfl

/-- What a control word does to the transfer. -/
def controlOp (val : BitVec 32) : Option CardOp := if startBit val then some (.start val) else none

/-- What an access to the bus does to the transfer of its processor. -/
def cardOp : BusOp → Option (Proc × CardOp)
  | .readData proc => some (proc, .read)
  | .write32 proc adr val =>
    if adr = 0x040001A4 then (controlOp val).map (proc, ·)
    else if adr = 0x04100010 then some (proc, .write)
    else none
  | .write16 proc adr val =>
    if adr = 0x040001A4 then
      (controlOp (s.machine.gcromctrl proc &&& 0xFFFF0000 ||| val.setWidth 32)).map (proc, ·)
    else if adr = 0x040001A6 then
      (controlOp (s.machine.gcromctrl proc &&& 0xFFFF ||| val.setWidth 32 <<< 16)).map (proc, ·)
    else none
  | .write8 _ _ _ => none

/-- The transfers after an access. -/
def served (cards : Proc → GcBusController) : Option (Proc × CardOp) → Proc → GcBusController
  | none => cards
  | some (proc, op) => Function.update cards proc ((cards proc).step op)

theorem writeToGcControl_served (val : BitVec 32) :
    (s.writeToGcControl slot1 proc val).dscard =
      served s.dscard ((controlOp val).map (proc, ·)) := by
  rw [writeToGcControl_dscard, controlOp]
  split_ifs
  · rfl
  · rfl

/-- The bus runs the machine of the transfers. -/
theorem gcStep_dscard (op : BusOp) : (gcStep slot1 s op).dscard = served s.dscard (cardOp s op) := by
  cases op with
  | readData proc => exact readFromGc_dscard slot1 s proc
  | write32 proc adr val =>
    unfold gcStep GcBus.write32 cardOp
    dsimp only
    split_ifs
    · exact writeToGcControl_served slot1 s proc val
    · exact writeToGc_dscard slot1 s proc val
    · rfl
  | write16 proc adr val =>
    unfold gcStep GcBus.write16 cardOp
    dsimp only
    split_ifs
    · exact writeToGcControl_served slot1 s proc _
    · exact writeToGcControl_served slot1 s proc _
    · rfl
    · rfl
  | write8 proc adr val =>
    unfold gcStep GcBus.write8 cardOp
    dsimp only
    split_ifs
    · rfl
    · rfl
    · rfl

end Bus

/-! ### Runs -/

section Runs

variable {δ : Type} (slot1 : Slot1 δ)

/-- The processor of an access to `GCDATAIN`. -/
def dataAccess : BusOp → Option Proc
  | .readData proc => some proc
  | .write32 proc adr _ => if adr = 0x04100010 then some proc else none
  | .write16 _ _ _ => none
  | .write8 _ _ _ => none

/-- A data access takes four bytes off a transfer that is pending, and without one it changes
nothing. -/
def DataLaw (s : GcBus δ) (op : BusOp) : Prop :=
  ∀ proc, dataAccess op = some proc →
    (0 < (s.dscard proc).transferCount →
      ((gcStep slot1 s op).dscard proc).transferCount = (s.dscard proc).transferCount - 4) ∧
    ((s.dscard proc).transferCount = 0 → gcStep slot1 s op = s)

/-- All along a run the transfers are lawful and the data accesses keep to their law. -/
def KeepsProtocol (s : GcBus δ) (ops : List BusOp) : Prop :=
  (∀ pre, pre <+: ops → ∀ proc, Lawful ((run (gcStep slot1) s pre).dscard proc)) ∧
    AtEach (gcStep slot1) (DataLaw slot1) s ops

/-- The access comes in turn for the transfer that it is about. -/
def OpInTurn (s : GcBus δ) (op : BusOp) : Prop :=
  ∀ proc o, cardOp s op = some (proc, o) → InTurn (s.dscard proc) o

variable {s : GcBus δ}

theorem lawful_gcStep_iff (h : ∀ proc, Lawful (s.dscard proc)) (op : BusOp) :
    (∀ proc, Lawful ((gcStep slot1 s op).dscard proc)) ↔ OpInTurn s op := by
  rw [gcStep_dscard, OpInTurn]
  rcases hop : cardOp s op with - | ⟨p, o⟩
  · refine iff_of_true h fun proc o ho => ?_
    cases ho
  · constructor
    · rintro hnew proc o' ho
      cases ho
      have hp := hnew p
      rw [served, Function.update_self] at hp
      exact ((h p).step_iff o).mp hp
    · intro hturn proc
      rw [served]
      by_cases hproc : proc = p
      · rw [hproc, Function.update_self]
        exact ((h p).step_iff o).mpr (hturn p o rfl)
      · rw [Function.update_of_ne hproc]
        exact h proc

theorem dataLaw_of_inTurn {op : BusOp} (h : OpInTurn s op) : DataLaw slot1 s op := by
  intro proc hdata
  rw [gcStep_dscard]
  cases op with
  | readData p =>
    obtain rfl : p = proc := Option.some.inj hdata
    rw [cardOp, served, Function.update_self]
    constructor
    · intro hpos
      rw [GcBusController.step, if_neg (Int.ne_of_gt hpos), access_transferCount]
    · intro hzero
      show (s.readFromGc slot1 p).2 = s
      rw [GcBus.readFromGc, if_pos hzero]
  | write32 p adr val =>
    unfold dataAccess at hdata
    dsimp only at hdata
    split_ifs at hdata with hadr
    obtain rfl : p = proc := Option.some.inj hdata
    have hop : cardOp s (.write32 p adr val) = some (p, .write) := by
      rw [cardOp, hadr]
      rfl
    have hpos : 0 < (s.dscard p).transferCount := h p .write hop
    rw [hop, served, Function.update_self]
    exact ⟨fun _ => access_transferCount _, fun hzero => absurd hzero (Int.ne_of_gt hpos)⟩
  | write16 p adr val => cases hdata
  | write8 p adr val => cases hdata

/-- From a reset on, for every card and every machine, the protocol is kept exactly if data is
written only while words are left and a command is started only when none are. -/
theorem run_keepsProtocol_iff (m : Machine δ) (ops : List BusOp) :
    KeepsProtocol slot1 (gcReset m) ops ↔ AtEach (gcStep slot1) OpInTurn (gcReset m) ops := by
  have hreset : ∀ proc, Lawful ((gcReset m).dscard proc) :=
    fun _ => ⟨Int.le_refl 0, Int.dvd_zero 4, trivial⟩
  have hiff : (∀ pre, pre <+: ops →
      ∀ proc, Lawful ((run (gcStep slot1) (gcReset m) pre).dscard proc)) ↔
        AtEach (gcStep slot1) OpInTurn (gcReset m) ops :=
    always_iff_atEach (Q := fun s : GcBus δ => ∀ proc, Lawful (s.dscard proc))
      (fun s op h => lawful_gcStep_iff slot1 h op) hreset
  constructor
  · intro h
    exact hiff.mp h.1
  · intro h
    refine ⟨hiff.mpr h, h.imp_of_kept (Q := fun _ => True) ?_ (fun _ _ _ _ => trivial) trivial⟩
    exact fun _ _ _ hturn => dataLaw_of_inTurn slot1 hturn

/-- Data written before any command: the count goes below zero, and a transfer that was never
started is ended with its interrupt. -/
theorem run_unstarted :
    ∃ s, run (gcStep slot1None) (gcReset { idleMachine with auxSpiCnt := 0x4000 })
        [.write32 .arm9 0x04100010 0] = s ∧
      s.dscard .arm9 = ⟨-4, [.finish]⟩ ∧ s.machine.irqs = [(.arm9, 19)] ∧
      ¬ KeepsProtocol slot1None (gcReset { idleMachine with auxSpiCnt := 0x4000 })
        [.write32 .arm9 0x04100010 0] := by
  refine ⟨_, rfl, rfl, by decide, fun h => ?_⟩
  have hcard := h.1 _ (List.prefix_refl _) .arm9
  have hnonneg : (0 : ℤ) ≤ -4 := hcard.nonneg
  omega

end Runs

end Desmume.Card
