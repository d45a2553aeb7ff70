import Desmume.Library.RingBuffer
import Desmume.Machine.Types

/-! The inter-processor FIFO: two rings of sixteen words and the two status words at offset
0x184 of the processors' register pages, driven by send, receive and control writes. -/

namespace Desmume.Ipc
open Library

namespace Ipcfifocnt

def sendEmpty : BitVec 16 := 0x0001
def sendFull : BitVec 16 := 0x0002
def sendIrqEn : BitVec 16 := 0x0004
def sendClear : BitVec 16 := 0x0008
def recvEmpty : BitVec 16 := 0x0100
def recvFull : BitVec 16 := 0x0200
def recvIrqEn : BitVec 16 := 0x0400
def fifoError : BitVec 16 := 0x4000
def fifoEnable : BitVec 16 := 0x8000
def writeable : BitVec 16 := sendIrqEn ||| recvIrqEn ||| fifoEnable

end Ipcfifocnt

open Ipcfifocnt

def irqBitIpcfifoSendEmpty : ℕ := 17
def irqBitIpcfifoRecvNonEmpty : ℕ := 18

/-- `ipc_fifo`, the status word at 0x184 of each processor's page, and the interrupts
requested so far. -/
structure IpcState where
  ipcFifo : Proc → RingBuffer (BitVec 32)
  cnt : Proc → BitVec 16
  irq : List (Proc × ℕ)

namespace IpcState

def setFifo (s : IpcState) (p : Proc) (r : RingBuffer (BitVec 32)) : IpcState :=
  { s with ipcFifo := Function.update s.ipcFifo p r }

def setCnt (s : IpcState) (p : Proc) (c : BitVec 16) : IpcState :=
  { s with cnt := Function.update s.cnt p c }

def makeIrq (s : IpcState) (p : Proc) (num : ℕ) : IpcState :=
  { s with irq := s.irq ++ [(p, num)] }

def makeIrqIf (s : IpcState) (cond : Bool) (p : Proc) (num : ℕ) : IpcState :=
  if cond then s.makeIrq p num else s

variable (s : IpcState) (p : Proc)

@[simp] theorem setFifo_cnt (r : RingBuffer (BitVec 32)) : (s.setFifo p r).cnt = s.cnt := rfl
@[simp] theorem setFifo_ipcFifo (r : RingBuffer (BitVec 32)) :
    (s.setFifo p r).ipcFifo = Function.update s.ipcFifo p r := rfl
@[simp] theorem setCnt_cnt (c : BitVec 16) : (s.setCnt p c).cnt = Function.update s.cnt p c := rfl
@[simp] theorem setCnt_ipcFifo (c : BitVec 16) : (s.setCnt p c).ipcFifo = s.ipcFifo := rfl

@[simp] theorem makeIrqIf_cnt (cond : Bool) (num : ℕ) :
    (s.makeIrqIf cond p num).cnt = s.cnt := by
  unfold makeIrqIf
  split_ifs <;> rfl

@[simp] theorem makeIrqIf_ipcFifo (cond : Bool) (num : ℕ) :
    (s.makeIrqIf cond p num).ipcFifo = s.ipcFifo := by
  unfold makeIrqIf
  split_ifs <;> rfl

end IpcState

/-- `IPC_FIFOinit`. -/
def ipcFifoInit (proc : Proc) (s : IpcState) : IpcState :=
  (s.setFifo proc ⟨fun _ => 0, 0, 0, 0⟩).setCnt proc 0x0101

/-- `IPC_FIFOsend`. -/
def ipcFifoSend (proc : Proc) (val : BitVec 32) (s : IpcState) : IpcState :=
  let cntL := s.cnt proc
  if cntL &&& fifoEnable = 0 then s
  else if (s.ipcFifo proc).size > 15 then s.setCnt proc (cntL ||| fifoError)
  else
    let cntR := s.cnt proc.remote
    let cntL := cntL &&& 0xBFFC
    let cntR := cntR &&& 0xBCFF
    let fifo := (s.ipcFifo proc).push 16 val
    let cntL := if fifo.size > 15 then cntL ||| sendFull else cntL
    let cntR := if fifo.size > 15 then cntR ||| recvFull else cntR
    (((s.setFifo proc fifo).setCnt proc cntL).setCnt proc.remote cntR).makeIrqIf
      (cntR &&& recvIrqEn ≠ 0) proc.remote irqBitIpcfifoRecvNonEmpty

/-- `IPC_FIFOrecv`. -/
def ipcFifoRecv (proc : Proc) (s : IpcState) : BitVec 32 × IpcState :=
  let cntL := s.cnt proc
  if cntL &&& fifoEnable = 0 then (0, s)
  else if (s.ipcFifo proc.remote).size = 0 then (0, s.setCnt proc (cntL ||| fifoError))
  else
    let cntR := s.cnt proc.remote
    let cntL := cntL &&& 0xBCFF
    let cntR := cntR &&& 0xBFFC
    let val := (s.ipcFifo proc.remote).front
    let fifo := (s.ipcFifo proc.remote).pop 16
    let cntL := if fifo.size = 0 then cntL ||| recvEmpty else cntL
    let cntR := if fifo.size = 0 then cntR ||| sendEmpty else cntR
    (val, (((s.setFifo proc.remote fifo).makeIrqIf
      (fifo.size = 0 ∧ cntR &&& sendIrqEn ≠ 0) proc.remote irqBitIpcfifoSendEmpty).setCnt
        proc cntL).setCnt proc.remote cntR)

/-- `IPC_FIFOcnt`. -/
def ipcFifoCnt (proc : Proc) (val : BitVec 16) (s : IpcState) : IpcState :=
  let cntL := s.cnt proc
  let cntR := s.cnt proc.remote
  let cntL := if val &&& fifoError ≠ 0 then cntL &&& ~~~fifoError else cntL
  let clear : Bool := val &&& sendClear ≠ 0
  let fifo := if clear then (s.ipcFifo proc).clear else s.ipcFifo proc
  let cntL := if clear then (cntL ||| sendEmpty) &&& ~~~sendFull else cntL
  let cntR := if clear then (cntR ||| recvEmpty) &&& ~~~recvFull else cntR
  let cntL := (cntL &&& ~~~writeable) ||| (val &&& writeable)
  (((((s.setFifo proc fifo).makeIrqIf
    (cntL &&& sendIrqEn ≠ 0 ∧ cntL &&& sendEmpty ≠ 0) proc irqBitIpcfifoSendEmpty).makeIrqIf
    (cntL &&& recvIrqEn ≠ 0 ∧ cntL &&& recvEmpty = 0) proc irqBitIpcfifoRecvNonEmpty).setCnt
      proc cntL).setCnt proc.remote cntR)

inductive IpcOp where
  | send (proc : Proc) (val : BitVec 32)
  | recv (proc : Proc)
  | cnt (proc : Proc) (val : BitVec 16)

def ipcStep (s : IpcState) : IpcOp → IpcState
  | .send p v => ipcFifoSend p v s
  | .recv p => (ipcFifoRecv p s).2
  | .cnt p v => ipcFifoCnt p v s

/-- The state after `IPC_FIFOinit(ARMCPU_ARM9)` and `IPC_FIFOinit(ARMCPU_ARM7)`, whatever the
memory held before. -/
def ipcReset (s : IpcState) : IpcState := ipcFifoInit .arm7 (ipcFifoInit .arm9 s)

/-- A flag of a status word is set. -/
def Flag (f c : BitVec 16) : Prop := c &&& f ≠ 0

instance (f c : BitVec 16) : Decidable (Flag f c) := inferInstanceAs (Decidable (_ ≠ _))

def Enabled (s : IpcState) (p : Proc) : Prop := Flag fifoEnable (s.cnt p)

/-- The sends that go through: the enable bit set and the ring not full. -/
def SendSucceeds (s : IpcState) (p : Proc) : Prop := Enabled s p ∧ ¬ (s.ipcFifo p).size > 15

/-- The receives that go through: the enable bit set and the remote ring not empty. -/
def RecvSucceeds (s : IpcState) (p : Proc) : Prop := Enabled s p ∧ (s.ipcFifo p.remote).size ≠ 0

instance (s : IpcState) (p : Proc) : Decidable (Enabled s p) := inferInstanceAs (Decidable (Flag ..))
instance (s : IpcState) (p : Proc) : Decidable (SendSucceeds s p) :=
  inferInstanceAs (Decidable (_ ∧ _))
instance (s : IpcState) (p : Proc) : Decidable (RecvSucceeds s p) :=
  inferInstanceAs (Decidable (_ ∧ _))

/-! Each flag is one bit of the word. -/

theorem flag_twoPow (c : BitVec 16) {i : ℕ} (hi : i < 16) :
    Flag (BitVec.twoPow 16 i) c ↔ c.getLsbD i = true := by
  unfold Flag
  rw [BitVec.and_twoPow]
  split_ifs with h
  · simp only [h, iff_true, ne_eq]
    intro h0
    have := congrArg (fun b : BitVec 16 => b.getLsbD i) h0
    simp [hi] at this
  · simp [h]

theorem flag_sendEmpty (c : BitVec 16) : Flag sendEmpty c ↔ c.getLsbD 0 = true :=
  @flag_twoPow c 0 (by decide)
theorem flag_sendFull (c : BitVec 16) : Flag sendFull c ↔ c.getLsbD 1 = true :=
  @flag_twoPow c 1 (by decide)
theorem flag_recvEmpty (c : BitVec 16) : Flag recvEmpty c ↔ c.getLsbD 8 = true :=
  @flag_twoPow c 8 (by decide)
theorem flag_recvFull (c : BitVec 16) : Flag recvFull c ↔ c.getLsbD 9 = true :=
  @flag_twoPow c 9 (by decide)
theorem flag_fifoError (c : BitVec 16) : Flag fifoError c ↔ c.getLsbD 14 = true :=
  @flag_twoPow c 14 (by decide)

end Desmume.Ipc
