import Desmume.Clock.RtcDefs
import Mathlib.Data.List.Range
import Mathlib.Tactic

/-! Transactions on the serial bus of the clock, what each of their phases does, and what all the bits of
a command, of a write and of a read make of the clock. -/

namespace Desmume.Clock

abbrev Bits := List Bool

/-- A value written to the port that drives the select and the clock line. -/
structure Level (cs sck : Bool) where
  now : DateTime
  val : BitVec 16
  clock_driven : val.getLsbD 5 = true
  clock : val.getLsbD 1 = sck
  select_driven : val.getLsbD 6 = true
  select : val.getLsbD 2 = cs

/-- The data line carries a bit, or is released for the clock to drive. -/
def Level.Carries {cs sck : Bool} (l : Level cs sck) (sio : Option Bool) : Prop :=
  l.val.getLsbD 4 = sio.isSome ∧ ∀ b ∈ sio, l.val.getLsbD 0 = b

/-- The clock falls and rises once, the data line steady. -/
structure Pulse where
  sio : Option Bool
  low : Level true false
  high : Level true true
  low_sio : low.Carries sio
  high_sio : high.Carries sio

/-- The bits of a command in the order they are sent. -/
def commandBits (register : Fin 8) (reading highFirst : Bool) : Bits :=
  let r : BitVec 3 := .ofFin register
  if highFirst then [false, true, true, false, r.getLsbD 2, r.getLsbD 1, r.getLsbD 0, reading]
  else [reading, r.getLsbD 0, r.getLsbD 1, r.getLsbD 2, false, true, true, false]

/-- A transaction, from the select to the deselect. -/
structure Transaction where
  register : Fin 8
  reading : Bool
  highFirst : Bool
  start : Level false true
  select : Level true true
  command : List Pulse
  command_bits : command.map Pulse.sio = (commandBits register reading highFirst).map some
  data : List Pulse
  data_driven : ∀ p ∈ data, p.sio.isNone = reading
  deselect : Level false true

/-- The number of data bits: register 4 is an alarm or a frequency, as status 2 says. -/
def dataBits (status2 : Byte) (register : Fin 8) : ℕ :=
  ![8, 8, 56, 24, if status2 &&& 0x0F = 0x04 then 24 else 8, 24, 8, 8] register

namespace Rtc

variable (s : Rtc)

def level {cs sck : Bool} (l : Level cs sck) : Option Rtc := s.rtcWrite l.now l.val

/-- A pulse, and the data bit of the port after it. -/
def pulse (p : Pulse) : Option (Rtc × Bool) := do
  let s ← s.level p.low
  let s ← s.level p.high
  return (s, s.rtcRead.getLsbD 0)

def pulses (s : Rtc) : List Pulse → Option (Rtc × Bits)
  | [] => some (s, [])
  | p :: ps => do
    let (s, b) ← s.pulse p
    let (s, bits) ← pulses s ps
    return (s, b :: bits)

/-- A whole transaction, and the data bits read in it. -/
def transact (t : Transaction) : Option (Rtc × Bits) := do
  let s ← s.level t.start
  let s ← s.level t.select
  let (s, _) ← s.pulses t.command
  let (s, bits) ← s.pulses t.data
  let s ← s.level t.deselect
  return (s, bits)

end Rtc

/-- The bus between two pulses of a transaction. -/
structure Bus.Selected (b : Bus) : Prop where
  prevCS : b.prevCS = true
  prevSCK : b.prevSCK = true

def Rtc.onBus (s : Rtc) (bus : Bus) : Rtc := { s with bus := bus }

/-- The bus that a value leaves. -/
def Rtc.busAfter (s : Rtc) {cs sck : Bool} (l : Level cs sck) : Bus := (s.drive l.val).latch.bus

section Phases

variable {s : Rtc} {cs sck : Bool}

theorem drive_level (l : Level cs sck) :
    s.drive l.val = s.onBus { s.bus with
      DD := l.val.getLsbD 4
      SIO := if l.val.getLsbD 4 then l.val.getLsbD 0 else s.bus.prevSIO
      SCK := sck
      CS := cs } := by
  unfold Rtc.drive
  rw [l.clock_driven, l.clock, l.select_driven, l.select, if_pos rfl, if_pos rfl]
  rfl

@[simp] theorem busAfter_prevCS (l : Level cs sck) : (s.busAfter l).prevCS = cs := by
  simp [Rtc.busAfter, drive_level, Rtc.onBus, Rtc.latch]

@[simp] theorem busAfter_prevSCK (l : Level cs sck) : (s.busAfter l).prevSCK = sck := by
  simp [Rtc.busAfter, drive_level, Rtc.onBus, Rtc.latch]

@[simp] theorem busAfter_REG (l : Level cs sck) : (s.busAfter l).REG = s.bus.REG := rfl

theorem busAfter_selected (l : Level true true) : (s.busAfter l).Selected := ⟨by simp, by simp⟩

/-- A step that leaves the lines alone is a step of the rest of the clock. -/
theorem level_eq {l : Level cs sck} {r : Rtc}
    (h : (s.drive l.val).step l.now l.val = some (r.onBus (s.drive l.val).bus)) :
    s.level l = some (r.onBus (s.busAfter l)) := by
  unfold Rtc.level Rtc.rtcWrite
  rw [h]
  rfl

/-- The clock at rest does nothing, unless it is selected. -/
theorem level_idle (hs : s.cmdStat = .idle) (l : Level cs sck)
    (hsel : cs = true → s.bus.prevCS = true) : s.level l = some (s.onBus (s.busAfter l)) := by
  apply level_eq
  rw [drive_level]
  cases cs
  · simp [Rtc.step, Rtc.onBus, hs]
  · simp [Rtc.step, Rtc.onBus, hs, hsel rfl]

/-- The select wakes the clock up. -/
theorem level_select (hs : s.cmdStat = .idle) (hcs : s.bus.prevCS = false)
    (hsck : s.bus.prevSCK = true) (l : Level true true) :
    s.level l = some (
      { s with cmdStat := .command, bitsCount := 0, cmd := 0 }.onBus (s.busAfter l)) := by
  apply level_eq
  rw [drive_level]
  simp [Rtc.step, Rtc.onBus, hs, hcs, hsck]

/-- The clock rising moves no bit. -/
theorem level_high (l : Level true true) (hsck : s.bus.prevSCK = false)
    (hdd : s.cmdStat = .command → l.val.getLsbD 4 = true) :
    s.level l = some (s.onBus (s.busAfter l)) := by
  apply level_eq
  rw [drive_level]
  unfold Rtc.step
  cases hs : s.cmdStat with
  | idle => simp [Rtc.onBus, hs, hsck]
  | command => simp [Rtc.onBus, hs, Rtc.commandStep, hdd hs]
  | write => simp [Rtc.onBus, hs, Rtc.writeStep, Rtc.falls]
  | read => simp [Rtc.onBus, hs, Rtc.readStep, Rtc.falls]

/-- A bit of a command, before what follows the last one. -/
def Rtc.shiftCommand (s : Rtc) (b : Bool) : Rtc :=
  { s with cmd := s.cmd ||| ((BitVec.ofBool b).setWidth 8 <<< s.bitsCount) }.countBit

/-- The state in which a command is accepted, and what it makes of the registers. -/
def Rtc.expect (s : Rtc) (cmd : Byte) (cmdStat : CmdStat) : Rtc :=
  { s with
    cmd := cmd
    cmdStat := cmdStat
    bitsCount := 0
    cmdBitsSize := if cmd >>> 1 = 4 then
      Function.update s.cmdBitsSize 4 (if s.regStatus2 &&& 0x0F = 0x04 then 24 else 8)
      else s.cmdBitsSize }

def Rtc.accept (s : Rtc) (now : DateTime) (cmd : Byte) : Rtc :=
  if cmd.getLsbD 0 then (s.expect cmd .read).rtcRecv now else s.expect cmd .write

theorem startCommand_of_falls (hs : s.falls = true) (now : DateTime) :
    s.startCommand now = s.accept now (decodeCommand s.cmd) := by
  have hf : ({ s with cmd := decodeCommand s.cmd } : Rtc).falls = true := hs
  unfold Rtc.startCommand Rtc.accept
  simp only [hf, if_true]
  unfold Rtc.expect
  split <;> rfl

theorem rtcRecv_onBus (bus : Bus) (now : DateTime) :
    (s.onBus bus).rtcRecv now = (s.rtcRecv now).onBus bus := by
  unfold Rtc.rtcRecv Rtc.onBus
  dsimp only
  split <;> rfl

theorem accept_onBus (bus : Bus) (now : DateTime) (cmd : Byte) :
    (s.onBus bus).accept now cmd = (s.accept now cmd).onBus bus := by
  unfold Rtc.accept
  split
  · exact rtcRecv_onBus (s := s.expect cmd .read) ..
  · rfl

/-- A bit of a driven data line is sampled when the clock falls. -/
theorem level_low (hprev : s.bus.prevSCK = true) {l : Level true false} {b : Bool}
    (hl : l.Carries (some b)) {r : Rtc}
    (h : ∀ bus : Bus, (s.onBus bus).falls = true → bus.CS = true → bus.SCK = false →
      bus.DD = true → bus.SIO = b → (s.onBus bus).step l.now l.val = some (r.onBus bus)) :
    s.level l = some (r.onBus (s.busAfter l)) := by
  apply level_eq
  rw [drive_level, hl.1, hl.2 b rfl]
  apply h
  · simp [Rtc.falls, Rtc.onBus, hprev]
  all_goals rfl

/-- A command bit. -/
theorem low_command (hs : s.cmdStat = .command) (hprev : s.bus.prevSCK = true)
    {l : Level true false} {b : Bool} (hl : l.Carries (some b)) :
    s.level l = some ((if s.bitsCount + 1 = 8 then
      (s.shiftCommand b).accept l.now (decodeCommand (s.shiftCommand b).cmd)
      else s.shiftCommand b).onBus (s.busAfter l)) := by
  apply level_low hprev hl
  rintro bus hfalls hcs hsck hdd rfl
  have hshift : (s.onBus bus).commandStep l.now = if s.bitsCount + 1 = 8 then
      ((s.shiftCommand bus.SIO).onBus bus).startCommand l.now
      else (s.shiftCommand bus.SIO).onBus bus := by
    unfold Rtc.commandStep
    simp only [Rtc.onBus, hcs, hsck, hdd]
    rfl
  unfold Rtc.step
  simp only [show (s.onBus bus).cmdStat = .command from hs, hshift]
  split
  · rw [startCommand_of_falls (by exact hfalls), accept_onBus]
    rfl
  · rfl

/-! Data bits. -/

/-- A data bit received. -/
def Rtc.store (s : Rtc) (i : Fin 8) (b : Bool) : Rtc :=
  { s with
    data := if b then
      Function.update s.data i (s.data i ||| ((1 : Byte) <<< (s.bitsCount &&& 0x07))) else s.data }

def Rtc.finish (s : Rtc) : Rtc := { s.rtcSend with cmdStat := .idle }

theorem finish_onBus (bus : Bus) : (s.onBus bus).finish = s.finish.onBus bus := by
  unfold Rtc.finish Rtc.rtcSend Rtc.onBus
  dsimp only
  split <;> rfl

theorem storeBit_eq {i : Fin 8} (hi : s.dataIndex = some i) (bus : Bus) :
    (s.onBus bus).storeBit = some ((s.store i bus.SIO).onBus bus) := by
  unfold Rtc.storeBit
  rw [show (s.onBus bus).dataIndex = some i from hi]
  unfold Rtc.store Rtc.onBus
  cases bus.SIO <;> rfl

theorem low_write (hs : s.cmdStat = .write) (hprev : s.bus.prevSCK = true)
    {l : Level true false} {b : Bool} (hl : l.Carries (some b)) {i j : Fin 8}
    (hi : s.dataIndex = some i) (hj : s.cmdIndex = some j) :
    s.level l = some ((if s.bitsCount + 1 = s.cmdBitsSize j then (s.store i b).countBit.finish
      else (s.store i b).countBit).onBus (s.busAfter l)) := by
  apply level_low hprev hl
  rintro bus hfalls - - - rfl
  unfold Rtc.step Rtc.writeStep
  have hcmd : ((s.store i bus.SIO).onBus bus).countBit.cmdIndex = some j := hj
  simp only [show (s.onBus bus).cmdStat = .write from hs, hfalls, if_true, storeBit_eq hi, hcmd,
    Option.bind_eq_bind, Option.bind_some]
  change some (if s.bitsCount + 1 = s.cmdBitsSize j then
    ((s.store i bus.SIO).countBit.onBus bus).finish else _) = _
  rw [finish_onBus]
  split <;> rfl

@[simp] theorem showBit_REG (val : BitVec 16) (b : Bool) :
    (s.showBit val b).bus.REG.getLsbD 0 = b := by
  cases b <;> simp [Rtc.showBit]

/-- The bit that a read shows, and what is left of the read. -/
theorem low_read (hs : s.cmdStat = .read) (hprev : s.bus.prevSCK = true) (l : Level true false)
    {i j : Fin 8} (hi : s.dataIndex = some i) (hj : s.cmdIndex = some j) :
    ∃ bus : Bus, s.level l = some ((if s.bitsCount + 1 = s.cmdBitsSize j then
        { s.countBit with cmdStat := .idle } else s.countBit).onBus bus) ∧
      bus.prevSCK = false ∧
      bus.REG.getLsbD 0 = (s.data i).getLsbD (s.bitsCount &&& 0x07).toNat := by
  unfold Rtc.level Rtc.rtcWrite
  rw [drive_level]
  generalize hbus : Bus.mk _ _ _ _ _ _ _ _ = bus
  obtain ⟨b, hb⟩ : ∃ b, ((s.data i) >>> (s.bitsCount &&& 0x07)).getLsbD 0 = b := ⟨_, rfl⟩
  refine ⟨((s.onBus bus).showBit l.val b).latch.bus, ?_, ?_, ?_⟩
  · have hfalls : (s.onBus bus).falls = true := by
      simp [Rtc.falls, Rtc.onBus, hprev, ← hbus]
    have hindex : (s.onBus bus).dataIndex = some i := hi
    have hbit : (((s.onBus bus).data i) >>> ((s.onBus bus).bitsCount &&& 0x07)).getLsbD 0 = b := hb
    have hcmd : ((s.onBus bus).showBit l.val b).countBit.cmdIndex = some j := hj
    unfold Rtc.step Rtc.readStep
    simp only [show (s.onBus bus).cmdStat = .read from hs, hfalls, if_true, hindex, hbit, hcmd,
      Option.bind_eq_bind, Option.bind_some, l.select, Bool.not_true, Bool.or_false]
    change some (Rtc.latch (if decide (s.bitsCount + 1 = s.cmdBitsSize j) = true then _ else _)) = _
    simp only [decide_eq_true_eq]
    split <;> rfl
  · rw [← hbus]
    rfl
  · have hread : ((s.onBus bus).showBit l.val b).bus.REG.getLsbD 0 = b := showBit_REG ..
    refine hread.trans (hb.symm.trans ?_)
    simp

end Phases

/-! ### Whole phases -/

section Phases

/-- The bits from the `k`-th of a buffer on. -/
def bufferBits (data : Fin 8 → Byte) (k n : ℕ) : Bits :=
  (List.range' k n).map fun j => (data (Fin.ofNat 8 (j / 8))).getLsbD (j % 8)

/-- Bits joined to a buffer from the `k`-th on. -/
def joinBits (data : Fin 8 → Byte) (k : ℕ) : Bits → Fin 8 → Byte
  | [] => data
  | b :: bs =>
    joinBits (if b then Function.update data (Fin.ofNat 8 (k / 8))
      (data (Fin.ofNat 8 (k / 8)) ||| ((1 : Byte) <<< (k % 8))) else data) (k + 1) bs

/-- Bits joined to a command from the `k`-th on. -/
def joinCommand (cmd : Byte) (k : ℕ) : Bits → Byte
  | [] => cmd
  | b :: bs => joinCommand (cmd ||| ((BitVec.ofBool b).setWidth 8 <<< k)) (k + 1) bs

variable {s : Rtc}

theorem pulse_eq {p : Pulse} {r : Rtc} {bus : Bus} (hlow : s.level p.low = some (r.onBus bus))
    (hsck : bus.prevSCK = false) (hdd : r.cmdStat = .command → p.sio.isSome = true) :
    ∃ bus' : Bus, s.pulse p = some (r.onBus bus', bus.REG.getLsbD 0) ∧ bus'.Selected := by
  have hhigh := level_high (s := r.onBus bus) p.high hsck fun h => p.high_sio.1.trans (hdd h)
  refine ⟨(r.onBus bus).busAfter p.high, ?_, busAfter_selected _⟩
  simp only [Rtc.pulse, hlow, Option.bind_eq_bind, Option.bind_some, hhigh]
  rfl

theorem pulses_cons {p : Pulse} {ps : List Pulse} {r r' : Rtc} {b : Bool} {bits : Bits}
    (hp : s.pulse p = some (r, b)) (hps : r.pulses ps = some (r', bits)) :
    s.pulses (p :: ps) = some (r', b :: bits) := by
  simp [Rtc.pulses, hp, hps]

theorem exists_cons_of_map {ps : List Pulse} {b : Bool} {bits : Bits}
    (h : ps.map Pulse.sio = (b :: bits).map some) :
    ∃ p ps', ps = p :: ps' ∧ p.sio = some b ∧ ps'.map Pulse.sio = bits.map some := by
  cases ps with
  | nil => simp at h
  | cons p ps =>
    simp only [List.map_cons, List.cons.injEq] at h
    exact ⟨p, ps, rfl, h⟩

theorem ofNat_add_one (k : ℕ) : BitVec.ofNat 8 k + 1 = BitVec.ofNat 8 (k + 1) :=
  (BitVec.ofNat_add k 1).symm

theorem ofNat_eq_iff {k n : ℕ} (hk : k < 256) (hn : n < 256) :
    BitVec.ofNat 8 k = BitVec.ofNat 8 n ↔ k = n := by
  rw [← BitVec.toNat_inj, BitVec.toNat_ofNat, BitVec.toNat_ofNat, Nat.mod_eq_of_lt hk,
    Nat.mod_eq_of_lt hn]

/-- What the bits of a command make of the clock. -/
theorem pulses_command {bits : Bits} (hs : s.cmdStat = .command) (hbus : s.bus.Selected) {k : ℕ}
    (hk : s.bitsCount = .ofNat 8 k) {ps : List Pulse} (hne : bits ≠ [])
    (hps : ps.map Pulse.sio = bits.map some) (hlen : k + bits.length = 8) :
    ∃ now bus x, s.pulses ps =
      some ((s.accept now (decodeCommand (joinCommand s.cmd k bits))).onBus bus, x) ∧
      bus.Selected := by
  induction bits generalizing s k ps with
  | nil => exact absurd rfl hne
  | cons b bits ih =>
    obtain ⟨p, ps, rfl, hb, hps⟩ := exists_cons_of_map hps
    rw [List.length_cons] at hlen
    have hlow := low_command hs hbus.2 (hb ▸ p.low_sio)
    have hcmd : (s.shiftCommand b).cmd = s.cmd ||| ((BitVec.ofBool b).setWidth 8 <<< k) := by
      have : k % 256 = k := Nat.mod_eq_of_lt (by omega)
      simp [Rtc.shiftCommand, Rtc.countBit, hk, this]
    have hlast : s.bitsCount + 1 = 8 ↔ bits = [] := by
      rw [hk, ofNat_add_one, show (8 : Byte) = BitVec.ofNat 8 8 from rfl,
        ofNat_eq_iff (by omega) (by omega), ← List.length_eq_zero_iff]
      omega
    by_cases hbits : bits = []
    · subst hbits
      obtain rfl : ps = [] := by simpa using hps
      rw [if_pos (hlast.mpr rfl)] at hlow
      obtain ⟨bus, hpulse, hsel⟩ := pulse_eq hlow (by simp) fun _ => by simp [hb]
      have hlist := pulses_cons hpulse (show Rtc.pulses _ [] = _ from rfl)
      rw [hcmd] at hlist
      exact ⟨p.low.now, bus, _, hlist, hsel⟩
    · rw [if_neg (mt hlast.mp hbits)] at hlow
      obtain ⟨bus, hpulse, hsel⟩ := pulse_eq hlow (by simp) fun _ => by simp [hb]
      obtain ⟨now, bus', x, hrest, hsel'⟩ := ih (s := (s.shiftCommand b).onBus bus) (k := k + 1) hs
        hsel (by rw [← ofNat_add_one, ← hk]; rfl) hbits hps (by omega)
      have hlist := pulses_cons hpulse hrest
      rw [accept_onBus, show ((s.shiftCommand b).onBus bus).cmd =
        s.cmd ||| ((BitVec.ofBool b).setWidth 8 <<< k) from hcmd] at hlist
      exact ⟨now, bus', _, hlist, hsel'⟩

/-- A transfer under way: the command and the number of its bits, `k` of them done. -/
structure Rtc.Transfer (s : Rtc) (cmdStat : CmdStat) (j : Fin 8) (k n : ℕ) : Prop where
  cmdStat_eq : s.cmdStat = cmdStat
  bitsCount_eq : s.bitsCount = .ofNat 8 k
  cmdIndex_eq : s.cmdIndex = some j
  size : (s.cmdBitsSize j).toNat = n
  short : n ≤ 64
  under_way : k < n

theorem Rtc.Transfer.dataIndex_eq {c : CmdStat} {j : Fin 8} {k n : ℕ} (h : s.Transfer c j k n) :
    s.dataIndex = some (.ofNat 8 (k / 8)) := by
  have := h.short
  have := h.under_way
  have hk : (s.bitsCount >>> 3).toNat = k / 8 := by
    rw [h.bitsCount_eq, BitVec.toNat_ushiftRight, BitVec.toNat_ofNat, Nat.mod_eq_of_lt (by omega),
      Nat.shiftRight_eq_div_pow]
  unfold Rtc.dataIndex
  rw [dif_pos (by omega), Option.some.injEq]
  apply Fin.ext
  rw [Fin.val_ofNat, Nat.mod_eq_of_lt (by omega)]
  exact hk

theorem Rtc.Transfer.bit_eq {c : CmdStat} {j : Fin 8} {k n : ℕ} (h : s.Transfer c j k n) :
    (s.bitsCount &&& 0x07).toNat = k % 8 := by
  have := h.short
  have := h.under_way
  rw [h.bitsCount_eq, BitVec.toNat_and, BitVec.toNat_ofNat, Nat.mod_eq_of_lt (by omega)]
  exact Nat.and_two_pow_sub_one_eq_mod k 3

theorem Rtc.Transfer.last_iff {c : CmdStat} {j : Fin 8} {k n : ℕ} (h : s.Transfer c j k n) :
    s.bitsCount + 1 = s.cmdBitsSize j ↔ k + 1 = n := by
  have := h.short
  have := h.under_way
  rw [h.bitsCount_eq, ofNat_add_one, ← BitVec.toNat_inj, BitVec.toNat_ofNat,
    Nat.mod_eq_of_lt (by omega), h.size]

/-- The clock with `k` bits of a transfer done. -/
def Rtc.after (s : Rtc) (data : Fin 8 → Byte) (k : ℕ) : Rtc :=
  { s with data := data, bitsCount := .ofNat 8 k }

theorem Rtc.Transfer.next {c : CmdStat} {j : Fin 8} {k n : ℕ} (h : s.Transfer c j k n)
    (hmore : k + 1 < n) (data : Fin 8 → Byte) (bus : Bus) :
    ((s.after data (k + 1)).onBus bus).Transfer c j (k + 1) n :=
  ⟨h.cmdStat_eq, rfl, h.cmdIndex_eq, h.size, h.short, hmore⟩

theorem Rtc.Transfer.countBit_eq {c : CmdStat} {j : Fin 8} {k n : ℕ} (h : s.Transfer c j k n) :
    s.countBit = s.after s.data (k + 1) := by
  unfold Rtc.countBit
  rw [h.bitsCount_eq, ofNat_add_one]
  rfl

/-- What the bits of a write make of the clock. -/
theorem pulses_write {bits : Bits} {j : Fin 8} {k n : ℕ} (hs : s.Transfer .write j k n)
    (hbus : s.bus.Selected) {ps : List Pulse} (hps : ps.map Pulse.sio = bits.map some)
    (hlen : k + bits.length = n) :
    ∃ bus x, s.pulses ps = some ((s.after (joinBits s.data k bits) n).finish.onBus bus, x) ∧
      bus.Selected := by
  induction bits generalizing s k ps with
  | nil => exact absurd hs.under_way (by simp at hlen; omega)
  | cons b bits ih =>
    obtain ⟨p, ps, rfl, hb, hps⟩ := exists_cons_of_map hps
    rw [List.length_cons] at hlen
    have hlow := low_write hs.1 hbus.2 (hb ▸ p.low_sio) hs.dataIndex_eq hs.cmdIndex_eq
    have hdata : (s.store (.ofNat 8 (k / 8)) b).countBit =
        s.after (joinBits s.data k [b]) (k + 1) := by
      unfold Rtc.countBit
      rw [show (s.store _ b).bitsCount = s.bitsCount from rfl, hs.bitsCount_eq, ofNat_add_one]
      unfold Rtc.store
      rw [BitVec.shiftLeft_eq', hs.bit_eq]
      rfl
    rw [hdata] at hlow
    by_cases hbits : bits = []
    · subst hbits
      obtain rfl : ps = [] := by simpa using hps
      obtain rfl : k + 1 = n := hlen
      rw [if_pos (hs.last_iff.mpr rfl)] at hlow
      obtain ⟨bus, hpulse, hsel⟩ := pulse_eq hlow (by simp) fun h => nomatch h
      exact ⟨bus, _, pulses_cons hpulse (show Rtc.pulses _ [] = _ from rfl), hsel⟩
    · have hmore : k + 1 < n := by
        have := List.length_pos_iff.mpr hbits
        omega
      rw [if_neg (mt hs.last_iff.mp hmore.ne)] at hlow
      obtain ⟨bus, hpulse, hsel⟩ := pulse_eq hlow (by simp) fun _ => by simp [hb]
      obtain ⟨bus', x, hrest, hsel'⟩ := ih (hs.next hmore _ bus) hsel hps (by omega)
      have hlist := pulses_cons hpulse hrest
      have hafter (d : Fin 8 → Byte) : ((s.after (joinBits s.data k [b]) (k + 1)).onBus bus).after
        d n = (s.after d n).onBus bus := rfl
      rw [hafter, finish_onBus] at hlist
      exact ⟨bus', _, hlist, hsel'⟩

/-- What the pulses of a read make of the clock, and the bits they show. -/
theorem pulses_read {ps : List Pulse} {j : Fin 8} {k n : ℕ} (hs : s.Transfer .read j k n)
    (hbus : s.bus.Selected) (hlen : k + ps.length = n) :
    ∃ bus, s.pulses ps = some ({ s.after s.data n with cmdStat := .idle }.onBus bus,
        bufferBits s.data k ps.length) ∧ bus.Selected := by
  induction ps generalizing s k with
  | nil => exact absurd hs.under_way (by simp at hlen; omega)
  | cons p ps ih =>
    rw [List.length_cons] at hlen
    obtain ⟨bus₁, hlow, hsck, hshow⟩ := low_read hs.1 hbus.2 p.low hs.dataIndex_eq hs.cmdIndex_eq
    rw [hs.countBit_eq] at hlow
    rw [hs.bit_eq] at hshow
    by_cases hps : ps = []
    · subst hps
      obtain rfl : k + 1 = n := hlen
      rw [if_pos (hs.last_iff.mpr rfl)] at hlow
      obtain ⟨bus, hpulse, hsel⟩ := pulse_eq hlow hsck fun h => nomatch h
      refine ⟨bus, ?_, hsel⟩
      rw [pulses_cons hpulse (show Rtc.pulses _ [] = _ from rfl), hshow]
      rfl
    · have hmore : k + 1 < n := by
        have := List.length_pos_iff.mpr hps
        omega
      rw [if_neg (mt hs.last_iff.mp hmore.ne)] at hlow
      obtain ⟨bus, hpulse, hsel⟩ := pulse_eq hlow hsck fun h => by
        rw [show (s.after _ _).cmdStat = .read from hs.1] at h
        exact nomatch h
      obtain ⟨bus', hrest, hsel'⟩ := ih (hs.next hmore _ bus) hsel (by omega)
      refine ⟨bus', ?_, hsel'⟩
      rw [pulses_cons hpulse hrest, hshow]
      rfl

end Phases

end Desmume.Clock
