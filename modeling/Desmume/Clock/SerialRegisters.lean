import Desmume.Clock.Serial
import Desmume.Library.PartialRun

/-! The registers of the clock across whole transactions: what was written is read back exactly as
long as no write finds bits of an earlier one in the buffer. -/

namespace Desmume.Clock
open Library

/-- The registers that keep what is written to them. -/
inductive Stored where
  | status2 | adjustment | free

def Stored.index : Stored → Fin 8
  | .status2 => 1
  | .adjustment => 6
  | .free => 7

def Rtc.stored (s : Rtc) : Stored → Byte
  | .status2 => s.regStatus2
  | .adjustment => s.regAdjustment
  | .free => s.regFree

/-- The bits of a byte in the order they are sent, and the byte of some bits. -/
def byteBits (b : Byte) : Bits := (List.range 8).map b.getLsbD

def byteOf (bits : Bits) : Byte := (BitVec.ofBoolListLE bits).setWidth 8

namespace Transaction

/-- The data bits sent. -/
def bits (t : Transaction) : Bits := t.data.filterMap Pulse.sio

def Writes (t : Transaction) (r : Stored) : Prop := t.reading = false ∧ t.register = r.index

def Reads (t : Transaction) (r : Stored) : Prop := t.reading = true ∧ t.register = r.index

end Transaction

instance (t : Transaction) (r : Stored) : Decidable (t.Writes r) :=
  inferInstanceAs (Decidable (_ ∧ _))

/-- The bytes most recently written, after one more transaction and after a list of them. -/
def writtenBy (w : Stored → Byte) (t : Transaction) : Stored → Byte :=
  fun r => if t.Writes r then byteOf t.bits else w r

def written (w : Stored → Byte) (ts : List Transaction) : Stored → Byte :=
  ts.foldl writtenBy w

/-- Transactions with all the data bits of their commands. -/
def AllComplete (w : Stored → Byte) : List Transaction → Prop
  | [] => True
  | t :: ts => t.data.length = dataBits (w .status2) t.register ∧ AllComplete (writtenBy w t) ts

namespace Rtc

variable (s : Rtc)

/-- A transaction whose data are not looked at. -/
def serve (t : Transaction) : Option Rtc := (s.transact t).map Prod.fst

/-- Each register reads as a byte. -/
def ReadsBack (w : Stored → Byte) : Prop :=
  ∀ (r : Stored) (t : Transaction), t.Reads r → t.data.length = 8 →
    ∃ s', s.transact t = some (s', byteBits (w r))

/-- A write to one of the registers finds no bit in the buffer that it does not set. -/
def CleanFor (t : Transaction) : Prop :=
  ∀ r, t.Writes r → s.data 0 &&& ~~~byteOf t.bits = 0

end Rtc

/-! The buffer and the command, bit by bit. -/

theorem joinBits_zero (data : Fin 8 → Byte) (bits : Bits) {k : ℕ} (hlen : k + bits.length ≤ 64)
    {i : ℕ} (hi : i < 8) :
    (joinBits data k bits 0).getLsbD i =
      ((data 0).getLsbD i || (decide (k ≤ i) && bits.getD (i - k) false)) := by
  induction bits generalizing data k with
  | nil => simp [joinBits]
  | cons b bits ih =>
    rw [List.length_cons] at hlen
    have hfirst (d : Byte) : (d ||| ((1 : Byte) <<< (k % 8))).getLsbD i =
        (d.getLsbD i || decide (i = k % 8)) := by
      rw [BitVec.getLsbD_or, BitVec.getLsbD_shiftLeft, show (1 : Byte) = 1#8 from rfl,
        BitVec.getLsbD_one]
      grind
    have hindex : (0 : Fin 8) = Fin.ofNat 8 (k / 8) ↔ k < 8 := by
      rw [Fin.ext_iff, Fin.val_ofNat]
      change 0 = k / 8 % 8 ↔ _
      omega
    have hdata : ((if b then Function.update data (Fin.ofNat 8 (k / 8))
        (data (Fin.ofNat 8 (k / 8)) ||| ((1 : Byte) <<< (k % 8))) else data) 0).getLsbD i =
        ((data 0).getLsbD i || (b && decide (i = k))) := by
      cases b with
      | false => simp
      | true =>
        by_cases hk : k < 8
        · rw [← hindex.mpr hk, if_pos rfl, Function.update_self, hfirst, Nat.mod_eq_of_lt hk,
            Bool.true_and]
        · rw [if_pos rfl, Function.update_of_ne (mt hindex.mp hk)]
          simp [show i ≠ k by omega]
    rw [joinBits, ih _ (by omega), hdata]
    rcases Nat.lt_trichotomy i k with hlt | rfl | hgt
    · simp [hlt.ne, show ¬ k ≤ i by omega, show ¬ k + 1 ≤ i by omega]
    · simp
    · obtain ⟨m, hm⟩ : ∃ m, i - k = m + 1 := ⟨i - k - 1, by omega⟩
      have : i - (k + 1) = m := by omega
      simp [hgt.ne', hm, this, show k ≤ i by omega, show k + 1 ≤ i by omega]

theorem joinBits_eq (data : Fin 8 → Byte) {bits : Bits} (hlen : bits.length ≤ 64) :
    joinBits data 0 bits 0 = data 0 ||| byteOf bits := by
  apply BitVec.eq_of_getLsbD_eq
  intro i hi
  rw [joinBits_zero data bits (by omega) hi, BitVec.getLsbD_or, byteOf, BitVec.getLsbD_setWidth,
    BitVec.getLsbD_ofBoolListLE]
  simp [hi]

theorem bufferBits_zero (data : Fin 8 → Byte) : bufferBits data 0 8 = byteBits (data 0) := rfl

theorem byteBits_injective : Function.Injective byteBits := by
  intro a b h
  apply BitVec.eq_of_getLsbD_eq
  intro i hi
  exact List.map_inj_left.mp h i (List.mem_range.mpr hi)

/-- Either order of the bits gives the command. -/
theorem decodeCommand_commandBits : ∀ (register : Fin 8) (reading highFirst : Bool),
    decodeCommand (joinCommand 0 0 (commandBits register reading highFirst)) =
      BitVec.ofNat 8 (2 * register + reading.toNat) := by
  decide

/-! One transaction. -/

/-- The clock between two transactions. -/
structure Rtc.AtRest (s : Rtc) : Prop where
  idle : s.cmdStat = .idle
  sizes : ∀ j ≠ 4, s.cmdBitsSize j = kDefaultCmdBitsSize j

theorem rtcInit_atRest : rtcInit.AtRest := ⟨rfl, fun _ _ => rfl⟩

/-- An accepted command leaves the registers, and a read finds its register in the buffer. -/
structure Rtc.Accepts (s s' : Rtc) (register : Fin 8) (reading : Bool) : Prop where
  transfer : s'.Transfer (if reading then .read else .write) register 0
    (dataBits s.regStatus2 register)
  sizes : ∀ j ≠ 4, s'.cmdBitsSize j = kDefaultCmdBitsSize j
  stored : s'.stored = s.stored
  buffer : s'.data = s.data ∨ reading = true
  found : reading = true → ∀ r : Stored, register = r.index → s'.data 0 = s.stored r

variable {s : Rtc}

theorem Rtc.Accepts.onBus {s' : Rtc} {register : Fin 8} {reading : Bool}
    (h : s.Accepts s' register reading) (bus : Bus) : s.Accepts (s'.onBus bus) register reading :=
  ⟨⟨h.1.1, h.1.2, h.1.3, h.1.4, h.1.5, h.1.6⟩, h.2, h.3, h.4, h.5⟩

theorem command_index : ∀ (register : Fin 8) (reading : Bool),
    (BitVec.ofNat 8 (2 * register + reading.toNat) >>> 1).toNat = register ∧
      (BitVec.ofNat 8 (2 * register + reading.toNat)).getLsbD 0 = reading ∧
      (BitVec.ofNat 8 (2 * register + reading.toNat) >>> 1 = 4 ↔ register = 4) := by
  decide

theorem dataBits_pos_le (status2 : Byte) (register : Fin 8) :
    0 < dataBits status2 register ∧ dataBits status2 register ≤ 64 := by
  unfold dataBits
  split <;> revert register <;> decide

theorem default_eq_dataBits (status2 : Byte) : ∀ register ≠ 4,
    (kDefaultCmdBitsSize register).toNat = dataBits status2 register := by
  unfold dataBits
  split <;> decide

theorem expect_transfer (hs : s.AtRest) (register : Fin 8) (reading : Bool) (c : CmdStat) :
    (s.expect (.ofNat 8 (2 * register + reading.toNat)) c).Transfer c register 0
      (dataBits s.regStatus2 register) := by
  obtain ⟨hindex, -, hfour⟩ := command_index register reading
  obtain ⟨hpos, hle⟩ := dataBits_pos_le s.regStatus2 register
  refine ⟨rfl, rfl, ?_, ?_, hle, hpos⟩
  · unfold Rtc.cmdIndex
    simp [Rtc.expect, hindex]
  · change ((if _ then _ else _ : Fin 8 → Byte) register).toNat = _
    by_cases h4 : register = 4
    · rw [if_pos (hfour.mpr h4), h4, Function.update_self]
      simp only [dataBits]
      split <;> rfl
    · rw [if_neg (mt hfour.mp h4), hs.sizes _ h4, default_eq_dataBits s.regStatus2 _ h4]

theorem expect_sizes (hs : s.AtRest) (cmd : Byte) (c : CmdStat) :
    ∀ j ≠ 4, (s.expect cmd c).cmdBitsSize j = kDefaultCmdBitsSize j := by
  intro j hj
  change (if _ then _ else _ : Fin 8 → Byte) j = _
  split
  · rw [Function.update_of_ne hj, hs.sizes j hj]
  · exact hs.sizes j hj

theorem rtcRecv_found (now : DateTime) {r : Stored} (h : (s.cmd >>> 1).toNat = r.index) :
    (s.rtcRecv now).data 0 = s.stored r := by
  unfold Rtc.rtcRecv
  rw [h]
  cases r <;> rfl

theorem accept_accepts (hs : s.AtRest) (now : DateTime) (register : Fin 8) (reading : Bool) :
    s.Accepts (s.accept now (.ofNat 8 (2 * register + reading.toNat))) register reading := by
  obtain ⟨hindex, hreading, -⟩ := command_index register reading
  unfold Rtc.accept
  rw [hreading]
  have htransfer := expect_transfer hs register reading
  have hsizes := expect_sizes hs (.ofNat 8 (2 * register + reading.toNat))
  generalize hcmd : BitVec.ofNat 8 (2 * register + reading.toNat) = cmd at *
  cases reading with
  | false => exact ⟨htransfer .write, hsizes _, rfl, .inl rfl, fun h => nomatch h⟩
  | true =>
    obtain ⟨h₁, h₂, h₃, h₄, h₅, h₆⟩ := htransfer .read
    have hfound (r : Stored) := rtcRecv_found (s := s.expect cmd .read) now (r := r)
    obtain ⟨status1, data, hrecv⟩ := (s.expect cmd .read).rtcRecv_frame now
    rw [if_pos rfl, hrecv]
    rw [hrecv] at hfound
    exact ⟨⟨h₁, h₂, h₃, h₄, h₅, h₆⟩, hsizes .read, rfl, .inr rfl,
      fun _ r hr => hfound r (by rw [← hr]; exact hindex)⟩

/-- The data phase, after the command of a transaction. -/
def Rtc.finishTransaction (s : Rtc) (t : Transaction) : Option (Rtc × Bits) := do
  let (s, bits) ← s.pulses t.data
  let s ← s.level t.deselect
  return (s, bits)

theorem commandBits_length (register : Fin 8) (reading highFirst : Bool) :
    (commandBits register reading highFirst).length = 8 := by
  cases highFirst <;> rfl

theorem transact_opening (hs : s.AtRest) (t : Transaction) :
    ∃ s', s.transact t = s'.finishTransaction t ∧ s'.bus.Selected ∧
      s.Accepts s' t.register t.reading := by
  obtain ⟨s₁, hs₁⟩ : ∃ s₁, s₁ = s.onBus (s.busAfter t.start) := ⟨_, rfl⟩
  obtain ⟨s₂, hs₂⟩ : ∃ s₂, s₂ = Rtc.onBus
    { s₁ with cmdStat := .command, bitsCount := 0, cmd := 0 } (s₁.busAfter t.select) := ⟨_, rfl⟩
  have hstart : s.level t.start = some s₁ := by
    rw [level_idle hs.idle t.start (fun h => nomatch h), hs₁]
  have hselect : s₁.level t.select = some s₂ := by
    rw [hs₂, level_select]
    all_goals rw [hs₁]
    · exact hs.idle
    · exact busAfter_prevCS _
    · exact busAfter_prevSCK _
  have hlen := commandBits_length t.register t.reading t.highFirst
  obtain ⟨now, bus, x, hcommand, hsel⟩ := pulses_command (s := s₂) (k := 0) (by rw [hs₂]; rfl)
    (by rw [hs₂]; exact busAfter_selected _) (by rw [hs₂]; rfl)
    (List.ne_nil_of_length_eq_add_one hlen) t.command_bits (by omega)
  have haccept : s₂.accept now (decodeCommand (joinCommand s₂.cmd 0
      (commandBits t.register t.reading t.highFirst))) =
      (s.accept now (.ofNat 8 (2 * t.register + t.reading.toNat))).onBus s₂.bus := by
    rw [hs₂, hs₁, ← decodeCommand_commandBits _ _ t.highFirst, ← accept_onBus]
    rfl
  rw [haccept] at hcommand
  refine ⟨_, ?_, hsel, ((accept_accepts hs now _ _).onBus s₂.bus).onBus bus⟩
  simp only [Rtc.transact, hstart, hselect, hcommand, Option.bind_eq_bind, Option.bind_some]
  rfl

theorem level_deselect (hs : s.AtRest) (l : Level false true) :
    s.level l = some (s.onBus (s.busAfter l)) := level_idle hs.idle l fun h => nomatch h

theorem atRest_onBus (hs : s.AtRest) (bus : Bus) : (s.onBus bus).AtRest := ⟨hs.1, hs.2⟩

theorem finishTransaction_eq {t : Transaction} {r : Rtc} {bits : Bits}
    (hp : s.pulses t.data = some (r, bits)) (hr : r.AtRest) :
    s.finishTransaction t = some (r.onBus (r.busAfter t.deselect), bits) := by
  rw [Rtc.finishTransaction, hp]
  simp only [Option.bind_eq_bind, Option.bind_some, level_deselect hr]
  rfl

/-- A read leaves the registers, and shows the one it names. -/
theorem transact_read (hs : s.AtRest) {t : Transaction} (hread : t.reading = true)
    (hlen : t.data.length = dataBits s.regStatus2 t.register) :
    ∃ s' bits, s.transact t = some (s', bits) ∧ s'.AtRest ∧ s'.stored = s.stored ∧
      ∀ r, t.Reads r → bits = byteBits (s.stored r) := by
  obtain ⟨s₁, htransact, hbus, haccepts⟩ := transact_opening hs t
  rw [hread] at haccepts
  have hcount : 0 + t.data.length = dataBits s.regStatus2 t.register := by omega
  obtain ⟨bus, hpulses, -⟩ := pulses_read haccepts.transfer hbus hcount
  have hrest : (Rtc.onBus { s₁.after s₁.data (dataBits s.regStatus2 t.register) with
      cmdStat := .idle } bus).AtRest := ⟨rfl, haccepts.sizes⟩
  refine ⟨_, _, htransact.trans (finishTransaction_eq hpulses hrest), atRest_onBus hrest _,
    haccepts.stored, ?_⟩
  rintro r ⟨-, hr⟩
  have h8 : t.data.length = 8 := by
    rw [hlen, hr]
    cases r <;> rfl
  rw [h8, bufferBits_zero, haccepts.found rfl r hr]

theorem bits_of_write {t : Transaction} (hwrite : t.reading = false) :
    t.data.map Pulse.sio = t.bits.map some := by
  have hdriven := t.data_driven
  rw [hwrite] at hdriven
  unfold Transaction.bits
  generalize t.data = ps at hdriven
  induction ps with
  | nil => rfl
  | cons p ps ih =>
    obtain ⟨b, hb⟩ : ∃ b, p.sio = some b := by
      have := hdriven p (List.mem_cons_self ..)
      cases hsio : p.sio with
      | none => simp [hsio] at this
      | some b => exact ⟨b, rfl⟩
    rw [List.map_cons, List.filterMap_cons_some hb, List.map_cons, hb,
      ih fun q hq => hdriven q (List.mem_cons_of_mem _ hq)]

theorem cmdIndex_toNat {j : Fin 8} (h : s.cmdIndex = some j) : (s.cmd >>> 1).toNat = j := by
  unfold Rtc.cmdIndex at h
  split at h
  · exact congrArg Fin.val (Option.some.inj h)
  · exact nomatch h

theorem finish_stored {j : Fin 8} (h : s.cmdIndex = some j) (r : Stored) :
    s.finish.stored r = if j = r.index then s.data 0 else s.stored r := by
  unfold Rtc.finish Rtc.rtcSend
  rw [cmdIndex_toNat h]
  fin_cases j <;> cases r <;> rfl

theorem finish_atRest (h : ∀ j ≠ 4, s.cmdBitsSize j = kDefaultCmdBitsSize j) :
    s.finish.AtRest := by
  obtain ⟨status1, status2, adjustment, free, hsend⟩ := s.rtcSend_frame
  unfold Rtc.finish
  rw [hsend]
  exact ⟨rfl, h⟩

/-- A write joins its bits to the buffer, and its register takes what is there. -/
theorem transact_write (hs : s.AtRest) {t : Transaction} (hwrite : t.reading = false)
    (hlen : t.data.length = dataBits s.regStatus2 t.register) :
    ∃ s' bits, s.transact t = some (s', bits) ∧ s'.AtRest ∧
      ∀ r, s'.stored r = if t.register = r.index then s.data 0 ||| byteOf t.bits else s.stored r := by
  obtain ⟨s₁, htransact, hbus, haccepts⟩ := transact_opening hs t
  rw [hwrite] at haccepts
  have hbits : t.bits.length = dataBits s.regStatus2 t.register := by
    rw [← hlen, ← List.length_map (f := some), ← bits_of_write hwrite, List.length_map]
  obtain ⟨bus, x, hpulses, -⟩ :=
    pulses_write haccepts.transfer hbus (bits_of_write hwrite) (by omega)
  obtain ⟨s₂, hs₂⟩ : ∃ s₂, s₂ = s₁.after (joinBits s₁.data 0 t.bits)
    (dataBits s.regStatus2 t.register) := ⟨_, rfl⟩
  rw [← hs₂] at hpulses
  have hrest : s₂.finish.AtRest := finish_atRest (by rw [hs₂]; exact haccepts.sizes)
  have hindex : s₂.cmdIndex = some t.register := by
    rw [hs₂]
    exact haccepts.transfer.cmdIndex_eq
  have hdata : s₂.data 0 = s.data 0 ||| byteOf t.bits := by
    have hbuffer : s₁.data = s.data := haccepts.buffer.resolve_right (by simp)
    have hshort := haccepts.transfer.short
    rw [hs₂, ← hbuffer]
    exact joinBits_eq _ (by omega)
  have hstored : s₂.stored = s.stored := by
    rw [hs₂, ← haccepts.stored]
    rfl
  refine ⟨_, _, htransact.trans (finishTransaction_eq hpulses (atRest_onBus hrest bus)),
    atRest_onBus (atRest_onBus hrest bus) _, fun r => ?_⟩
  rw [← hdata, ← hstored, ← finish_stored hindex]
  rfl

end Desmume.Clock
