import Desmume.Machine.Types
import Mathlib.Logic.Function.Basic
import Mathlib.Tactic.SplitIfs

/-! The synchronisation registers of the processors at offset 0x180: each has a nibble that the
other processor writes and a nibble of its own, and may ask for an interrupt on a write. -/

namespace Desmume.Ipc
open Library

def ipcsyncIrqSend : BitVec 32 := 0x2000
def ipcsyncIrqRecv : BitVec 32 := 0x4000

def irqBitIpcsync : ℕ := 16

structure SyncState where
  reg : Proc → BitVec 32
  ensataEmulation : Bool
  ensataIpcSyncCounter : ℕ
  irq : List (Proc × ℕ)

def syncReset : SyncState := ⟨fun _ => 0, false, 0, []⟩

/-- The handshake of the ensata hack, on the two registers and its counter. -/
def ensataHandshake (val syncL syncR : BitVec 32) (counter : ℕ) : BitVec 32 × BitVec 32 × ℕ :=
  let iteration := (val &&& 0x0F00#32) >>> 8
  ((syncL &&& 0xFFF0#32) ||| iteration, (syncR &&& 0xF0FF#32) ||| (iteration <<< 8),
    if iteration.toNat = 8 - counter then counter + 1 else counter)

/-- `MMU_IPCSync`. -/
def ipcSync (proc : Proc) (val : BitVec 32) (s : SyncState) : SyncState :=
  let syncL := s.reg proc &&& 0xFFFF#32
  let syncR := s.reg proc.remote &&& 0xFFFF#32
  let syncL := (syncL &&& 0x000F#32) ||| (val &&& 0x0F00#32)
  let syncR := (syncR &&& 0x6F00#32) ||| ((val >>> 8) &&& 0x000F#32)
  let syncL := syncL ||| (val &&& 0x6000#32)
  let (syncL, syncR, counter) :=
    if s.ensataEmulation ∧ proc = .arm7 ∧ s.ensataIpcSyncCounter < 9 then
      ensataHandshake val syncL syncR s.ensataIpcSyncCounter
    else (syncL, syncR, s.ensataIpcSyncCounter)
  { s with
    reg := Function.update (Function.update s.reg proc syncL) proc.remote syncR
    ensataIpcSyncCounter := counter
    irq := if syncL &&& ipcsyncIrqSend ≠ 0 ∧ syncR &&& ipcsyncIrqRecv ≠ 0 then
      s.irq ++ [(proc.remote, irqBitIpcsync)] else s.irq }

def syncStep (s : SyncState) (op : Proc × BitVec 32) : SyncState := ipcSync op.1 op.2 s

def inputNibble (sync : BitVec 32) : BitVec 32 := sync &&& 0xF#32

def outputNibble (sync : BitVec 32) : BitVec 32 := (sync >>> 8) &&& 0xF#32

/-- The last value a processor wrote, zero after the reset. -/
def lastWrite (p : Proc) (ops : List (Proc × BitVec 32)) : BitVec 32 :=
  ops.foldl (fun last op => if op.1 = p then op.2 else last) 0

/-- The interrupt a write has to request. -/
def syncRequest (s : SyncState) (op : Proc × BitVec 32) : List (Proc × ℕ) :=
  if op.2 &&& ipcsyncIrqSend ≠ 0 ∧ s.reg op.1.remote &&& ipcsyncIrqRecv ≠ 0 then
    [(op.1.remote, irqBitIpcsync)] else []

/-! The register of a processor as a function of the two last writes. -/

def syncWord (own other : BitVec 32) : BitVec 32 :=
  (own &&& 0x6F00#32) ||| ((other >>> 8) &&& 0x000F#32)

theorem and_or_and (a b m n k : BitVec 32) :
    ((a &&& m) ||| (b &&& n)) &&& k = (a &&& (m &&& k)) ||| (b &&& (n &&& k)) := by
  rw [BitVec.and_or_distrib_right, BitVec.and_assoc, BitVec.and_assoc]

section SyncWord

variable (own other : BitVec 32)

theorem inputNibble_syncWord : inputNibble (syncWord own other) = outputNibble other := by
  rw [inputNibble, syncWord, and_or_and]
  change (own &&& 0#32) ||| ((other >>> 8) &&& 0xF#32) = _
  rw [BitVec.and_zero, BitVec.zero_or]
  rfl

theorem outputNibble_syncWord : outputNibble (syncWord own other) = outputNibble own := by
  rw [outputNibble, syncWord, BitVec.ushiftRight_or_distrib, BitVec.ushiftRight_and_distrib,
    BitVec.ushiftRight_and_distrib, and_or_and]
  change ((own >>> 8) &&& 0xF#32) ||| ((other >>> 8 >>> 8) &&& 0#32) = _
  rw [BitVec.and_zero, BitVec.or_zero]
  rfl

theorem syncWord_and_recv :
    syncWord own other &&& ipcsyncIrqRecv = own &&& ipcsyncIrqRecv := by
  rw [syncWord, and_or_and]
  change (own &&& 0x4000#32) ||| ((other >>> 8) &&& 0#32) = _
  rw [BitVec.and_zero, BitVec.or_zero]
  rfl

end SyncWord

theorem lastWrite_concat (p : Proc) (ops : List (Proc × BitVec 32)) (op : Proc × BitVec 32) :
    lastWrite p (ops ++ [op]) = if op.1 = p then op.2 else lastWrite p ops := by
  rw [lastWrite, List.foldl_concat]
  rfl

/-! One write, without the ensata hack. -/

section Step

variable {s : SyncState} (proc : Proc) (val : BitVec 32)

theorem ipcSync_own (h : s.ensataEmulation = false) : (ipcSync proc val s).reg proc =
    (val &&& 0x6F00#32) ||| inputNibble (s.reg proc) := by
  have hlow : s.reg proc &&& 0xFFFF#32 &&& 0x000F#32 = inputNibble (s.reg proc) :=
    BitVec.and_assoc ..
  have hval : (val &&& 0x0F00#32) ||| (val &&& 0x6000#32) = val &&& 0x6F00#32 :=
    BitVec.and_or_distrib_left.symm
  simp only [ipcSync, h, Bool.false_eq_true, false_and, if_false]
  rw [Function.update_of_ne proc.ne_remote, Function.update_self, hlow, BitVec.or_assoc, hval,
    BitVec.or_comm]

theorem ipcSync_remote (h : s.ensataEmulation = false) : (ipcSync proc val s).reg proc.remote =
    (s.reg proc.remote &&& 0x6F00#32) ||| outputNibble val := by
  have hhigh : s.reg proc.remote &&& 0xFFFF#32 &&& 0x6F00#32 = s.reg proc.remote &&& 0x6F00#32 :=
    BitVec.and_assoc ..
  simp only [ipcSync, h, Bool.false_eq_true, false_and, if_false]
  rw [Function.update_self, hhigh]
  rfl

theorem ipcSync_irq (h : s.ensataEmulation = false) :
    (ipcSync proc val s).irq = s.irq ++ syncRequest s (proc, val) := by
  have hsend : ((s.reg proc &&& 0xFFFF#32 &&& 0x000F#32) ||| (val &&& 0x0F00#32) |||
      (val &&& 0x6000#32)) &&& ipcsyncIrqSend = val &&& ipcsyncIrqSend := by
    rw [BitVec.or_assoc, BitVec.and_or_distrib_left.symm, BitVec.and_assoc, and_or_and]
    change (s.reg proc &&& 0#32) ||| (val &&& ipcsyncIrqSend) = _
    rw [BitVec.and_zero, BitVec.zero_or]
  have hrecv : ((s.reg proc.remote &&& 0xFFFF#32 &&& 0x6F00#32) |||
      ((val >>> 8) &&& 0x000F#32)) &&& ipcsyncIrqRecv = s.reg proc.remote &&& ipcsyncIrqRecv := by
    rw [BitVec.and_assoc, and_or_and]
    change (s.reg proc.remote &&& ipcsyncIrqRecv) ||| ((val >>> 8) &&& 0#32) = _
    rw [BitVec.and_zero, BitVec.or_zero]
  simp only [ipcSync, h, Bool.false_eq_true, false_and, if_false, hsend, hrecv, syncRequest]
  split_ifs
  · rfl
  · rw [List.append_nil]

end Step

/-- The registers after the writes `ops`. -/
structure SyncInv (s : SyncState) (ops : List (Proc × BitVec 32)) : Prop where
  ensata : s.ensataEmulation = false
  reg : ∀ p, s.reg p = syncWord (lastWrite p ops) (lastWrite p.remote ops)

theorem syncStep_inv {s : SyncState} {ops : List (Proc × BitVec 32)} (h : SyncInv s ops)
    (op : Proc × BitVec 32) : SyncInv (syncStep s op) (ops ++ [op]) := by
  obtain ⟨proc, val⟩ := op
  refine ⟨?_, fun p => ?_⟩
  · exact h.ensata
  · rw [lastWrite_concat, lastWrite_concat, syncStep]
    rcases proc.eq_or_eq_remote p with rfl | rfl
    · rw [ipcSync_own _ _ h.ensata, h.reg, inputNibble_syncWord, if_pos rfl,
        if_neg (Proc.ne_remote _)]
      rfl
    · rw [ipcSync_remote _ _ h.ensata, h.reg, Proc.remote_remote, if_pos rfl,
        if_neg (Proc.ne_remote _)]
      rw [syncWord, and_or_and]
      change (lastWrite proc.remote ops &&& 0x6F00#32) |||
        ((lastWrite proc ops >>> 8) &&& 0#32) ||| outputNibble val = _
      rw [BitVec.and_zero, BitVec.or_zero]
      rfl

theorem syncRun_inv (ops : List (Proc × BitVec 32)) :
    SyncInv (run syncStep syncReset ops) ops := by
  induction ops using List.reverseRecOn with
  | nil => exact ⟨rfl, fun p => by cases p <;> rfl⟩
  | append_singleton ops op ih =>
    rw [run_concat]
    exact syncStep_inv ih op

theorem syncRun_irq (ops : List (Proc × BitVec 32)) :
    (run syncStep syncReset ops).irq = observe syncStep syncRequest syncReset ops := by
  induction ops using List.reverseRecOn with
  | nil => rfl
  | append_singleton ops op ih =>
    rw [run_concat, observe_append, ← ih, syncStep, ipcSync_irq _ _ (syncRun_inv ops).ensata]
    exact congrArg _ (List.append_nil _).symm

/-- Every interleaving of writes mirrors the nibbles, keeps the enable bits and requests the
interrupts that are due. -/
theorem syncRun_mirrors (ops : List (Proc × BitVec 32)) :
    (∀ p, inputNibble ((run syncStep syncReset ops).reg p) =
      outputNibble ((run syncStep syncReset ops).reg p.remote)) ∧
    (∀ p, (run syncStep syncReset ops).reg p &&& ipcsyncIrqRecv =
      lastWrite p ops &&& ipcsyncIrqRecv) ∧
    (run syncStep syncReset ops).irq = observe syncStep syncRequest syncReset ops := by
  have hreg := (syncRun_inv ops).reg
  refine ⟨fun p => ?_, fun p => ?_, syncRun_irq ops⟩
  · rw [hreg, hreg, inputNibble_syncWord, outputNibble_syncWord]
  · rw [hreg, syncWord_and_recv]

end Desmume.Ipc
