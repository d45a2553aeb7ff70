import Desmume.Ipc.FifoDefs
import Desmume.Library.Channel

/-! What each IPC FIFO operation can do, the invariant that ties the status words to the rings in
every reachable state, and the error flag: which steps keep it. With this each direction of the IPC FIFO
is a first-in first-out channel under every interleaving of the two processors. -/

namespace Desmume.Ipc
open Library Ipcfifocnt

variable (s : IpcState) (p : Proc)

theorem not_enabled_iff : ¬ Enabled s p ↔ s.cnt p &&& fifoEnable = 0 := by
  simp only [Enabled, Flag, ne_eq, not_not]

/-! One lemma per outcome of an operation. -/

theorem ipcFifoSend_disabled {v : BitVec 32} (h : ¬ Enabled s p) : ipcFifoSend p v s = s :=
  if_pos ((not_enabled_iff s p).mp h)

theorem ipcFifoSend_full {v : BitVec 32} (h : Enabled s p) (hf : (s.ipcFifo p).size > 15) :
    ipcFifoSend p v s = s.setCnt p (s.cnt p ||| fifoError) :=
  (if_neg h).trans (if_pos hf)

/-- The effect of a transfer: what the ring of `owner` becomes and the two status words. -/
structure Transfer (s s' : IpcState) (owner : Proc) (r : RingBuffer (BitVec 32))
    (cOwn cOther : BitVec 16) : Prop where
  fifo : s'.ipcFifo = Function.update s.ipcFifo owner r
  own : s'.cnt owner = cOwn
  other : s'.cnt owner.remote = cOther

theorem ipcFifoSend_succeeds {v : BitVec 32} (h : SendSucceeds s p) :
    Transfer s (ipcFifoSend p v s) p ((s.ipcFifo p).push 16 v)
      (if ((s.ipcFifo p).push 16 v).size > 15 then (s.cnt p &&& 0xBFFC) ||| sendFull
        else s.cnt p &&& 0xBFFC)
      (if ((s.ipcFifo p).push 16 v).size > 15 then (s.cnt p.remote &&& 0xBCFF) ||| recvFull
        else s.cnt p.remote &&& 0xBCFF) := by
  have h0 : s.cnt p &&& fifoEnable ≠ 0#16 := h.1
  have h1 : ¬ 15 < (s.ipcFifo p).size := h.2
  constructor <;> simp [ipcFifoSend, h0, h1]

theorem ipcFifoRecv_disabled (h : ¬ Enabled s p) : ipcFifoRecv p s = (0, s) :=
  if_pos ((not_enabled_iff s p).mp h)

theorem ipcFifoRecv_empty (h : Enabled s p) (he : (s.ipcFifo p.remote).size = 0) :
    ipcFifoRecv p s = (0, s.setCnt p (s.cnt p ||| fifoError)) :=
  (if_neg h).trans (if_pos he)

theorem ipcFifoRecv_value (h : RecvSucceeds s p) :
    (ipcFifoRecv p s).1 = (s.ipcFifo p.remote).front := by
  have h0 : s.cnt p &&& fifoEnable ≠ 0#16 := h.1
  simp [ipcFifoRecv, h0, h.2]

theorem ipcFifoRecv_succeeds (h : RecvSucceeds s p) :
    Transfer s (ipcFifoRecv p s).2 p.remote ((s.ipcFifo p.remote).pop 16)
      (if ((s.ipcFifo p.remote).pop 16).size = 0 then (s.cnt p.remote &&& 0xBFFC) ||| sendEmpty
        else s.cnt p.remote &&& 0xBFFC)
      (if ((s.ipcFifo p.remote).pop 16).size = 0 then (s.cnt p &&& 0xBCFF) ||| recvEmpty
        else s.cnt p &&& 0xBCFF) := by
  have h0 : s.cnt p &&& fifoEnable ≠ 0#16 := h.1
  constructor <;> simp [ipcFifoRecv, h0, h.2]

/-- The local status word after a control write, before the ring is considered. -/
def acknowledged (val c : BitVec 16) : BitVec 16 :=
  if val &&& fifoError ≠ 0 then c &&& ~~~fifoError else c

def written (val c : BitVec 16) : BitVec 16 := (c &&& ~~~writeable) ||| (val &&& writeable)

theorem ipcFifoCnt_clear {v : BitVec 16} (h : Flag sendClear v) :
    Transfer s (ipcFifoCnt p v s) p (s.ipcFifo p).clear
      (written v ((acknowledged v (s.cnt p) ||| sendEmpty) &&& ~~~sendFull))
      ((s.cnt p.remote ||| recvEmpty) &&& ~~~recvFull) := by
  have h0 : v &&& sendClear ≠ 0#16 := h
  constructor <;> simp [ipcFifoCnt, h0, acknowledged, written]

theorem ipcFifoCnt_noClear {v : BitVec 16} (h : ¬ Flag sendClear v) :
    Transfer s (ipcFifoCnt p v s) p (s.ipcFifo p) (written v (acknowledged v (s.cnt p)))
      (s.cnt p.remote) := by
  have h0 : v &&& sendClear = 0#16 := not_not.mp h
  constructor <;> simp [ipcFifoCnt, h0, acknowledged, written]

/-! The invariant. -/

/-- A ring agrees with the send flags of its owner's word and the receive flags of the other. -/
structure Agrees (r : RingBuffer (BitVec 32)) (cOwn cOther : BitVec 16) : Prop where
  ring : r.WellFormed 16
  sendEmpty : cOwn.getLsbD 0 = decide (r.size = 0)
  sendFull : cOwn.getLsbD 1 = decide (r.size = 16)
  recvEmpty : cOther.getLsbD 8 = decide (r.size = 0)
  recvFull : cOther.getLsbD 9 = decide (r.size = 16)

/-- The two send flags of two words are the same. -/
def SameSend (c c' : BitVec 16) : Prop := c'.getLsbD 0 = c.getLsbD 0 ∧ c'.getLsbD 1 = c.getLsbD 1

def SameRecv (c c' : BitVec 16) : Prop := c'.getLsbD 8 = c.getLsbD 8 ∧ c'.getLsbD 9 = c.getLsbD 9

theorem SameSend.trans {a b c : BitVec 16} (h : SameSend a b) (h' : SameSend b c) :
    SameSend a c := ⟨h'.1.trans h.1, h'.2.trans h.2⟩

theorem SameRecv.trans {a b c : BitVec 16} (h : SameRecv a b) (h' : SameRecv b c) :
    SameRecv a c := ⟨h'.1.trans h.1, h'.2.trans h.2⟩

theorem Agrees.congr {r : RingBuffer (BitVec 32)} {c d c' d' : BitVec 16} (h : Agrees r c d)
    (hs : SameSend c c') (hr : SameRecv d d') : Agrees r c' d' where
  ring := h.ring
  sendEmpty := hs.1.trans h.sendEmpty
  sendFull := hs.2.trans h.sendFull
  recvEmpty := hr.1.trans h.recvEmpty
  recvFull := hr.2.trans h.recvFull

def IpcInv (s : IpcState) : Prop :=
  ∀ p, Agrees (s.ipcFifo p) (s.cnt p) (s.cnt p.remote)

variable {s}

/-- A transfer on the ring of `owner` keeps the invariant when the new words agree with the new
ring and leave the flags of the opposite direction alone. -/
theorem IpcInv.transfer {s' : IpcState} {owner : Proc} {r : RingBuffer (BitVec 32)}
    {cOwn cOther : BitVec 16} (hi : IpcInv s) (ht : Transfer s s' owner r cOwn cOther)
    (hr : Agrees r cOwn cOther) (hown : SameRecv (s.cnt owner) cOwn)
    (hother : SameSend (s.cnt owner.remote) cOther) : IpcInv s' := by
  intro q
  rcases owner.eq_or_eq_remote q with rfl | rfl
  · rw [ht.fifo, Function.update_self, ht.own, ht.other]
    exact hr
  · rw [ht.fifo, Function.update_of_ne owner.remote_ne, Proc.remote_remote, ht.own, ht.other]
    have h := hi owner.remote
    rw [Proc.remote_remote] at h
    exact h.congr hother hown

theorem IpcInv.error (hi : IpcInv s) (p : Proc) : IpcInv (s.setCnt p (s.cnt p ||| fifoError)) := by
  have ht : Transfer s (s.setCnt p (s.cnt p ||| fifoError)) p (s.ipcFifo p)
      (s.cnt p ||| fifoError) (s.cnt p.remote) := by
    constructor <;> simp
  have hrecv : SameRecv (s.cnt p) (s.cnt p ||| fifoError) := by
    constructor <;> simp [fifoError]
  have hsend : SameSend (s.cnt p) (s.cnt p ||| fifoError) := by
    constructor <;> simp [fifoError]
  exact hi.transfer ht ((hi p).congr hsend ⟨rfl, rfl⟩) hrecv ⟨rfl, rfl⟩

theorem push_agrees {r : RingBuffer (BitVec 32)} {c d : BitVec 16} (h : Agrees r c d)
    (v : BitVec 32) (room : ¬ r.size > 15) :
    Agrees (r.push 16 v)
      (if (r.push 16 v).size > 15 then (c &&& 0xBFFC) ||| sendFull else c &&& 0xBFFC)
      (if (r.push 16 v).size > 15 then (d &&& 0xBCFF) ||| recvFull else d &&& 0xBCFF) := by
  have hring := h.ring.push v (by omega)
  by_cases hf : r.size = 15
  · refine ⟨hring, ?_, ?_, ?_, ?_⟩ <;> simp [hf, sendFull, recvFull]
  · have hlt : ¬ 15 < r.size + 1 := by omega
    refine ⟨hring, ?_, ?_, ?_, ?_⟩ <;> simp [hf, hlt]

theorem pop_agrees {r : RingBuffer (BitVec 32)} {c d : BitVec 16} (h : Agrees r c d)
    (some : r.size ≠ 0) :
    Agrees (r.pop 16)
      (if (r.pop 16).size = 0 then (c &&& 0xBFFC) ||| sendEmpty else c &&& 0xBFFC)
      (if (r.pop 16).size = 0 then (d &&& 0xBCFF) ||| recvEmpty else d &&& 0xBCFF) := by
  have hfull : ¬ r.size - 1 = 16 := by
    have := h.ring.size_le
    omega
  by_cases he : r.size - 1 = 0
  · refine ⟨h.ring.pop some, ?_, ?_, ?_, ?_⟩ <;> simp [he, sendEmpty, recvEmpty]
  · refine ⟨h.ring.pop some, ?_, ?_, ?_, ?_⟩ <;> simp only [RingBuffer.pop_size, he, hfull] <;> simp

theorem ipcFifoSend_inv (hi : IpcInv s) (v : BitVec 32) : IpcInv (ipcFifoSend p v s) := by
  by_cases he : Enabled s p
  · by_cases hf : (s.ipcFifo p).size > 15
    · rw [ipcFifoSend_full s p he hf]
      exact hi.error p
    · refine hi.transfer (ipcFifoSend_succeeds s p ⟨he, hf⟩) (push_agrees (hi p) v hf) ?_ ?_ <;>
        constructor <;> split_ifs <;> simp [sendFull, recvFull]
  · rw [ipcFifoSend_disabled s p he]
    exact hi

theorem ipcFifoRecv_inv (hi : IpcInv s) : IpcInv (ipcFifoRecv p s).2 := by
  by_cases he : Enabled s p
  · by_cases hf : (s.ipcFifo p.remote).size = 0
    · rw [ipcFifoRecv_empty s p he hf]
      exact hi.error p
    · have h := hi p.remote
      rw [Proc.remote_remote] at h
      refine hi.transfer (ipcFifoRecv_succeeds s p ⟨he, hf⟩) (pop_agrees h hf) ?_ ?_ <;>
        constructor <;> split_ifs <;> simp [sendEmpty, recvEmpty]
  · rw [ipcFifoRecv_disabled s p he]
    exact hi

theorem sameSend_written (v c : BitVec 16) : SameSend c (written v c) := by
  constructor <;> simp [written, writeable, sendIrqEn, recvIrqEn, fifoEnable]

theorem sameRecv_written (v c : BitVec 16) : SameRecv c (written v c) := by
  constructor <;> simp [written, writeable, sendIrqEn, recvIrqEn, fifoEnable]

theorem sameSend_acknowledged (v c : BitVec 16) : SameSend c (acknowledged v c) := by
  constructor <;> unfold acknowledged <;> split_ifs <;> simp [fifoError]

theorem sameRecv_acknowledged (v c : BitVec 16) : SameRecv c (acknowledged v c) := by
  constructor <;> unfold acknowledged <;> split_ifs <;> simp [fifoError]

theorem ipcFifoCnt_inv (hi : IpcInv s) (v : BitVec 16) : IpcInv (ipcFifoCnt p v s) := by
  by_cases hc : Flag sendClear v
  · refine hi.transfer (ipcFifoCnt_clear s p hc) ⟨.clear (by decide), ?_, ?_, ?_, ?_⟩ ?_ ?_
    · rw [(sameSend_written ..).1]
      simp [sendEmpty, sendFull]
    · rw [(sameSend_written ..).2]
      simp [sendEmpty, sendFull]
    · simp [recvEmpty, recvFull]
    · simp [recvEmpty, recvFull]
    · have hmark : SameRecv (acknowledged v (s.cnt p))
          ((acknowledged v (s.cnt p) ||| sendEmpty) &&& ~~~sendFull) := by
        constructor <;> simp [sendEmpty, sendFull]
      exact ((sameRecv_acknowledged v (s.cnt p)).trans hmark).trans (sameRecv_written ..)
    · constructor <;> simp [recvEmpty, recvFull]
  · have hsend := (sameSend_acknowledged v (s.cnt p)).trans (sameSend_written v _)
    have hrecv := (sameRecv_acknowledged v (s.cnt p)).trans (sameRecv_written v _)
    exact hi.transfer (ipcFifoCnt_noClear s p hc) ((hi p).congr hsend ⟨rfl, rfl⟩) hrecv ⟨rfl, rfl⟩

theorem ipcStep_inv (op : IpcOp) (hi : IpcInv s) : IpcInv (ipcStep s op) := by
  cases op with
  | send p v => exact ipcFifoSend_inv p hi v
  | recv p => exact ipcFifoRecv_inv p hi
  | cnt p v => exact ipcFifoCnt_inv p hi v

theorem ipcReset_cnt (s : IpcState) (p : Proc) : (ipcReset s).cnt p = 0x0101 := by
  cases p <;> rfl

theorem ipcReset_ipcFifo (s : IpcState) (p : Proc) :
    (ipcReset s).ipcFifo p = ⟨fun _ => 0, 0, 0, 0⟩ := by
  cases p <;> rfl

theorem ipcReset_inv (s : IpcState) : IpcInv (ipcReset s) := by
  intro p
  rw [ipcReset_ipcFifo, ipcReset_cnt, ipcReset_cnt]
  exact ⟨⟨by decide, by decide, by decide, rfl⟩, rfl, rfl, rfl, rfl⟩

theorem ipcRun_inv (s : IpcState) (ops : List IpcOp) : IpcInv (run ipcStep (ipcReset s) ops) :=
  run_invariant (fun _ op h => ipcStep_inv op h) (ipcReset_inv s) ops

/-- In every reachable state each ring is within its sixteen cells and the status words of the
two processors mirror it exactly. -/
theorem ipcRun_mirrors (s : IpcState) (ops : List IpcOp) (p : Proc) :
    let t := run ipcStep (ipcReset s) ops
    (t.ipcFifo p).size ≤ 16 ∧ (t.ipcFifo p).head < 16 ∧ (t.ipcFifo p).tail < 16 ∧
      (t.ipcFifo p).tail = ((t.ipcFifo p).head + (t.ipcFifo p).size) % 16 ∧
      (Flag sendEmpty (t.cnt p) ↔ (t.ipcFifo p).size = 0) ∧
      (Flag sendFull (t.cnt p) ↔ (t.ipcFifo p).size = 16) ∧
      (Flag recvEmpty (t.cnt p.remote) ↔ (t.ipcFifo p).size = 0) ∧
      (Flag recvFull (t.cnt p.remote) ↔ (t.ipcFifo p).size = 16) := by
  intro t
  have h := ipcRun_inv s ops p
  refine ⟨h.ring.size_le, h.ring.head_lt, h.ring.tail_lt, h.ring.tail_eq, ?_, ?_, ?_, ?_⟩
  · rw [flag_sendEmpty, h.sendEmpty, decide_eq_true_iff]
  · rw [flag_sendFull, h.sendFull, decide_eq_true_iff]
  · rw [flag_recvEmpty, h.recvEmpty, decide_eq_true_iff]
  · rw [flag_recvFull, h.recvFull, decide_eq_true_iff]

/-! ### The error flag -/

def HasError (p : Proc) (s : IpcState) : Prop := Flag fifoError (s.cnt p)

instance (p : Proc) (s : IpcState) : Decidable (HasError p s) := inferInstanceAs (Decidable (Flag ..))

/-- The control writes by which `p` acknowledges its error. -/
def Acknowledges (p : Proc) : IpcOp → Prop
  | .cnt q v => q = p ∧ Flag fifoError v
  | _ => False

/-- The sends and receives that move a word. -/
def Transfers (s : IpcState) : IpcOp → Prop
  | .send q _ => SendSucceeds s q
  | .recv q => RecvSucceeds s q
  | .cnt .. => False

variable {p}

theorem hasError_iff : HasError p s ↔ (s.cnt p).getLsbD 14 = true := flag_fifoError _

/-- The masks 0xBFFC and 0xBCFF of a transfer drop bit 14 of both words. -/
theorem Transfer.not_hasError {s' : IpcState} {owner : Proc} {r : RingBuffer (BitVec 32)}
    {c d : BitVec 16} (h : Transfer s s' owner r c d) (hc : c.getLsbD 14 = false)
    (hd : d.getLsbD 14 = false) (p : Proc) : ¬ HasError p s' := by
  rw [hasError_iff]
  rcases owner.eq_or_eq_remote p with rfl | rfl
  · simp only [h.own, hc, Bool.false_eq_true, not_false_eq_true]
  · simp only [h.other, hd, Bool.false_eq_true, not_false_eq_true]

theorem not_hasError_of_transfers {op : IpcOp} (h : Transfers s op) (p : Proc) :
    ¬ HasError p (ipcStep s op) := by
  cases op with
  | send q v =>
    refine (ipcFifoSend_succeeds s q (v := v) h).not_hasError ?_ ?_ p <;> split_ifs <;>
      simp [sendFull, recvFull]
  | recv q =>
    refine (ipcFifoRecv_succeeds s q h).not_hasError ?_ ?_ p <;> split_ifs <;>
      simp [sendEmpty, recvEmpty]
  | cnt q v => exact h.elim

theorem hasError_setCnt_error (q : Proc) (h : HasError p s) :
    HasError p (s.setCnt q (s.cnt q ||| fifoError)) := by
  rw [hasError_iff] at h ⊢
  by_cases hq : p = q
  · subst hq
    simp [fifoError]
  · simpa [hq] using h

theorem bit14_written (v c : BitVec 16) : (written v c).getLsbD 14 = c.getLsbD 14 := by
  simp [written, writeable, sendIrqEn, recvIrqEn, fifoEnable]

theorem acknowledged_of_not_flag {v : BitVec 16} (h : ¬ Flag fifoError v) (c : BitVec 16) :
    acknowledged v c = c := if_neg h

theorem hasError_cnt {q : Proc} {v : BitVec 16} (h : HasError p s)
    (hack : ¬ Acknowledges p (.cnt q v)) : HasError p (ipcFifoCnt q v s) := by
  have hv : p = q → ¬ Flag fifoError v := fun hp hf => hack ⟨hp.symm, hf⟩
  rw [hasError_iff] at h ⊢
  by_cases hc : Flag sendClear v
  · have ht := ipcFifoCnt_clear s q hc
    rcases q.eq_or_eq_remote p with rfl | rfl
    · rw [ht.own, bit14_written, acknowledged_of_not_flag (hv rfl)]
      simpa [sendEmpty, sendFull] using h
    · rw [ht.other]
      simpa [recvEmpty, recvFull] using h
  · have ht := ipcFifoCnt_noClear s q hc
    rcases q.eq_or_eq_remote p with rfl | rfl
    · rw [ht.own, bit14_written, acknowledged_of_not_flag (hv rfl)]
      exact h
    · rw [ht.other]
      exact h

theorem hasError_step {op : IpcOp} (h : HasError p s) (hack : ¬ Acknowledges p op)
    (hmove : ¬ Transfers s op) : HasError p (ipcStep s op) := by
  cases op with
  | send q v =>
    by_cases he : Enabled s q
    · have hf : (s.ipcFifo q).size > 15 := by
        by_contra hf
        exact hmove ⟨he, hf⟩
      rw [ipcStep, ipcFifoSend_full s q he hf]
      exact hasError_setCnt_error q h
    · rw [ipcStep, ipcFifoSend_disabled s q he]
      exact h
  | recv q =>
    by_cases he : Enabled s q
    · have hf : (s.ipcFifo q.remote).size = 0 := by
        by_contra hf
        exact hmove ⟨he, hf⟩
      rw [ipcStep, ipcFifoRecv_empty s q he hf]
      exact hasError_setCnt_error q h
    · rw [ipcStep, ipcFifoRecv_disabled s q he]
      exact h
  | cnt q v => exact hasError_cnt h hack

/-- In a run, an error of `p` stays until `p` acknowledges it exactly when no send or receive,
of either processor, moves a word while the error is up. -/
theorem ipcRun_keepsError_iff (s : IpcState) (ops : List IpcOp) (p : Proc) :
    KeptUntil ipcStep (HasError p) (Acknowledges p) (ipcReset s) ops ↔
      ∀ pre op post, ops = pre ++ op :: post → HasError p (run ipcStep (ipcReset s) pre) →
        ¬ Transfers (run ipcStep (ipcReset s) pre) op := by
  rw [keptUntil_iff_step]
  constructor
  · intro h pre op post hops he hmove
    have hack : ¬ Acknowledges p op := by
      cases op with
      | cnt => exact hmove.elim
      | _ => exact id
    exact not_hasError_of_transfers hmove p (h pre op post hops he hack)
  · intro h pre op post hops he hack
    exact hasError_step he hack (h pre op post hops he)

/-- A receive from the empty FIFO raises the error of the ARM9; its next send, which has nothing
to do with that FIFO, takes it down again. -/
theorem ipcRun_loses_error : ¬ KeptUntil ipcStep (HasError .arm9) (Acknowledges .arm9)
    (ipcReset ⟨fun _ => ⟨fun _ => 0, 0, 0, 0⟩, fun _ => 0, []⟩)
    [.cnt .arm9 0x8000, .recv .arm9, .send .arm9 0x12345678] := by
  intro h
  have hlost := h [.cnt .arm9 0x8000, .recv .arm9] [.send .arm9 0x12345678] [] rfl (by decide)
    (by simp [Acknowledges])
  exact absurd hlost (by decide)

/-! ### Delivery -/

section Delivery

/-- The queue of values `sender` has sent that were neither received nor cleared. -/
def contents (s : IpcState) (sender : Proc) : List (BitVec 32) := (s.ipcFifo sender).contents 16

/-- What an operation does on the channel of `sender`: a successful send of `sender`, a
successful receive of the other processor with the value it returned, or a clear. -/
def channelEvents (sender : Proc) (s : IpcState) : IpcOp → List (ChannelEvent (BitVec 32))
  | .send p v => if p = sender ∧ SendSucceeds s p then [.sent v] else []
  | .recv p => if p = sender.remote ∧ RecvSucceeds s p then [.received (ipcFifoRecv p s).1] else []
  | .cnt p v => if p = sender ∧ Flag sendClear v then [.cleared] else []

variable {s : IpcState} (p : Proc)

theorem Transfer.contents_other {s' : IpcState} {owner q : Proc} {r : RingBuffer (BitVec 32)}
    {c d : BitVec 16} (h : Transfer s s' owner r c d) (hq : q ≠ owner) :
    contents s' q = contents s q := by
  rw [contents, h.fifo, Function.update_of_ne hq]
  rfl

theorem Transfer.contents_own {s' : IpcState} {owner : Proc} {r : RingBuffer (BitVec 32)}
    {c d : BitVec 16} (h : Transfer s s' owner r c d) :
    contents s' owner = r.contents 16 := by
  rw [contents, h.fifo, Function.update_self]

theorem contents_send_failed {q : Proc} {v : BitVec 32} (h : ¬ SendSucceeds s p) :
    contents (ipcFifoSend p v s) q = contents s q := by
  by_cases he : Enabled s p
  · have hf : (s.ipcFifo p).size > 15 := by
      by_contra hf
      exact h ⟨he, hf⟩
    rw [ipcFifoSend_full s p he hf]
    rfl
  · rw [ipcFifoSend_disabled s p he]

theorem contents_recv_failed {q : Proc} (h : ¬ RecvSucceeds s p) :
    contents (ipcFifoRecv p s).2 q = contents s q := by
  by_cases he : Enabled s p
  · have hf : (s.ipcFifo p.remote).size = 0 := by
      by_contra hf
      exact h ⟨he, hf⟩
    rw [ipcFifoRecv_empty s p he hf]
    rfl
  · rw [ipcFifoRecv_disabled s p he]

/-- One operation takes the channel of `sender` along the events it produces. -/
theorem channelTrace_step (hi : IpcInv s) (sender : Proc) (op : IpcOp)
    {es : List (ChannelEvent (BitVec 32))} (h : ChannelTrace es (contents s sender)) :
    ChannelTrace (es ++ channelEvents sender s op) (contents (ipcStep s op) sender) := by
  cases op with
  | send p v =>
    simp only [channelEvents, ipcStep]
    by_cases hs : SendSucceeds s p
    · have ht := ipcFifoSend_succeeds s p (v := v) hs
      by_cases hp : p = sender
      · subst hp
        rw [if_pos ⟨rfl, hs⟩, ht.contents_own, RingBuffer.contents_push (hi p).ring v
          (by have := hs.2; omega)]
        exact h.step (.sent _ v)
      · rw [if_neg (fun hc => hp hc.1), ht.contents_other (Ne.symm hp), List.append_nil]
        exact h
    · rw [if_neg (fun hc => hs hc.2), contents_send_failed p hs, List.append_nil]
      exact h
  | recv p =>
    simp only [channelEvents, ipcStep]
    by_cases hs : RecvSucceeds s p
    · have ht := ipcFifoRecv_succeeds s p hs
      by_cases hp : p = sender.remote
      · subst hp
        rw [Proc.remote_remote] at ht
        have hsome : (s.ipcFifo sender).size ≠ 0 := by
          have := hs.2
          rwa [Proc.remote_remote] at this
        rw [if_pos ⟨rfl, hs⟩, ht.contents_own, ipcFifoRecv_value s _ hs, Proc.remote_remote]
        rw [contents, RingBuffer.contents_pop (hi sender).ring.head_lt hsome] at h
        exact h.step (.received _ _)
      · have hother : sender ≠ p.remote := by
          rintro rfl
          exact hp (Proc.remote_remote p).symm
        rw [if_neg (fun hc => hp hc.1), ht.contents_other hother, List.append_nil]
        exact h
    · rw [if_neg (fun hc => hs hc.2), contents_recv_failed p hs, List.append_nil]
      exact h
  | cnt p v =>
    simp only [channelEvents, ipcStep]
    by_cases hc : Flag sendClear v
    · have ht := ipcFifoCnt_clear s p hc
      by_cases hp : p = sender
      · subst hp
        rw [if_pos ⟨rfl, hc⟩, ht.contents_own, RingBuffer.contents_clear]
        exact h.step (.cleared _)
      · rw [if_neg (fun h => hp h.1), ht.contents_other (Ne.symm hp), List.append_nil]
        exact h
    · have ht := ipcFifoCnt_noClear s p hc
      have hsame : contents (ipcFifoCnt p v s) sender = contents s sender := by
        rw [contents, ht.fifo, Function.update_eq_self]
        rfl
      rw [if_neg (fun h => hc h.2), hsame, List.append_nil]
      exact h

theorem channelTrace_run (s : IpcState) (ops : List IpcOp) (sender : Proc) :
    ChannelTrace (observe ipcStep (channelEvents sender) (ipcReset s) ops)
      (contents (run ipcStep (ipcReset s) ops) sender) := by
  have hstart : ChannelTrace [] (contents (ipcReset s) sender) := by
    rw [contents, ipcReset_ipcFifo]
    exact .nil
  have hstep (t : IpcState) (es) (op : IpcOp)
      (h : IpcInv t ∧ ChannelTrace es (contents t sender)) :
      IpcInv (ipcStep t op) ∧
        ChannelTrace (es ++ channelEvents sender t op) (contents (ipcStep t op) sender) :=
    ⟨ipcStep_inv op h.1, channelTrace_step h.1 sender op h.2⟩
  have hboth := observe_invariant hstep ⟨ipcReset_inv s, hstart⟩ ops
  exact hboth.2

/-- Every value sent gets one fate: the received ones are what the receives returned, in order;
a clear discards exactly what is still pending, and what is pending is the ring. -/
theorem ipcRun_delivers (s : IpcState) (ops : List IpcOp) (receiver : Proc) :
    let es := observe ipcStep (channelEvents receiver.remote) (ipcReset s) ops
    let journal := Journal.ofEvents es
    journal.map Prod.fst = es.filterMap ChannelEvent.sent? ∧
      journal.values .received = es.filterMap ChannelEvent.received? ∧
      journal.values .pending = contents (run ipcStep (ipcReset s) ops) receiver.remote := by
  intro es journal
  have law := (channelTrace_run s ops receiver.remote).journalLaw
  exact ⟨law.sends, law.receives, law.pending⟩

end Delivery

end Desmume.Ipc
