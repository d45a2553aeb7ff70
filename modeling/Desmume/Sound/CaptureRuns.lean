import Desmume.Sound.MixerDefs
import Desmume.Sound.SpuReads

/-! The captures of the sound unit under the mixer: the register writes and the mixing steps in any
order, where a sample of a capture may itself be a register write. -/

namespace Desmume.Sound
open Library

namespace SpuFifo

/-- `SPUFifo::enqueue`. -/
def enqueue (val : BitVec 16) (f : SpuFifo) : SpuFifo :=
  if f.size = 16 then f
  else
    { f with
      buffer := Function.update f.buffer (Fin.ofNat 16 f.tail.toNat) val
      tail := (f.tail + 1) % 16
      size := f.size + 1 }

/-- `SPUFifo::dequeue`. -/
def dequeue (f : SpuFifo) : BitVec 16 × SpuFifo :=
  if f.size = 0 then (0, f)
  else
    let head := (f.head + 1) % 16
    (f.buffer (Fin.ofNat 16 head.toNat), { f with head, size := f.size - 1 })

end SpuFifo

/-- A write to the sound registers. -/
inductive SoundWrite where
  | byte (addr : BitVec 32) (val : BitVec 8)
  | word (addr : BitVec 32) (val : BitVec 16)
  | long (addr : BitVec 32) (val : BitVec 32)

namespace SoundWrite

/-- The register, after the mask of `SPU_WriteByte` and the like. -/
def reg : SoundWrite → ℕ
  | byte addr _ | word addr _ | long addr _ => (addr &&& 0xFFF#32).toNat

def apply (env : SpuEnv ℚ) (s : SpuStruct ℚ) (w : SoundWrite) : SpuStruct ℚ :=
  match w with
  | byte _ val => s.writeByte env w.reg val
  | word _ val => s.writeWord env w.reg val
  | long _ val => s.writeLong env w.reg val

/-- The write ends in `ProbeCapture` of this capture. -/
def probes (w : SoundWrite) (which : Fin 2) : Bool :=
  match w with
  | byte .. => w.reg = 0x508 + which
  | word .. => w.reg = 0x508
  | long .. => w.reg = 0x504 ∨ w.reg = 0x508

end SoundWrite

/-- What has become of a capture since it was started: the buffer, counted in words, the samples written
and queued, where it went when the buffer was full, and whether it was one of its own samples that
started it. -/
structure CaptureRun where
  dad : BitVec 32
  words : ℕ
  written : ℕ
  queued : ℕ
  returned : BitVec 32
  own : Bool
  deriving DecidableEq

def CaptureRun.start (k : Cap ℚ) (own : Bool) : CaptureRun :=
  ⟨k.dad, max k.len.toNat 1, 0, 0, k.dad, own⟩

def Cap.sampleSize (k : Cap ℚ) : ℕ := if k.bits8 ≠ 0 then 1 else 2

/-- The address moves on, and returns to the register at the end of the buffer. -/
def Cap.advance (k : Cap ℚ) (size : ℕ) : Cap ℚ :=
  let curdad := k.curdad + BitVec.ofNat 32 size
  if k.maxdad ≤ curdad then
    let multiplier := if size = 1 then 4 else 2
    { k with curdad := k.dad, sampcnt := k.sampcnt - (k.len.toNat * multiplier : ℕ) }
  else { k with curdad }

def CaptureRun.advance (r : CaptureRun) (k : Cap ℚ) (size : ℕ) : CaptureRun :=
  if k.maxdad ≤ k.curdad + BitVec.ofNat 32 size then { r with returned := k.dad } else r

/-- A sample that a capture writes, as the unit is before it. -/
structure CaptureWrite where
  running : Bool
  address : BitVec 32
  size : ℕ
  val : BitVec 16
  run : CaptureRun
  deriving DecidableEq

/-- The unit. `runs` and `log` are not in the source. -/
structure CaptureUnit where
  spu : SpuStruct ℚ
  runs : Fin 2 → CaptureRun
  log : List CaptureWrite

namespace CaptureUnit

variable (env : SpuEnv ℚ) (m : CaptureUnit) (which : Fin 2)

def setCap (k : Cap ℚ) : CaptureUnit := { m with spu := m.spu.setCap which k }

def setRun (r : CaptureRun) : CaptureUnit := { m with runs := Function.update m.runs which r }

/-- A register write, by the guest or by a sample of a capture. -/
def register (source : Option (Fin 2)) (w : SoundWrite) : CaptureUnit :=
  let spu := w.apply env m.spu
  { m with
    spu
    runs := fun c =>
      if w.probes c = true ∧ (spu.cap c).active ≠ 0 then .start (spu.cap c) (source = some c)
      else m.runs c }

/-- `_MMU_write08` and `_MMU_write16` of the ARM7, as far as the sound unit is concerned. -/
def mmuWrite (address : BitVec 32) (size : ℕ) (val : BitVec 16) : CaptureUnit :=
  let adr := address &&& (if size = 1 then 0x0FFFFFFF#32 else 0x0FFFFFFE#32)
  if 0x04000400 ≤ adr ∧ adr < 0x04000520 then
    m.register env (some which) (if size = 1 then .byte adr (val.setWidth 8) else .word adr val)
  else m

/-- The end of a sample. -/
def advance (size : ℕ) : CaptureUnit :=
  (m.setCap which ((m.spu.cap which).advance size)).setRun which
    ((m.runs which).advance (m.spu.cap which) size)

/-- The queue takes a sample and gives none yet. -/
def queueSample (capout : BitVec 16) : CaptureUnit :=
  let cap := m.spu.cap which
  let r := m.runs which
  (m.setCap which { cap with fifo := cap.fifo.enqueue capout }).setRun which
    { r with queued := r.queued + 1 }

/-- The sample that a full queue gives: a byte of it, if the capture has 8 bits. -/
def nextWrite : CaptureWrite :=
  let cap := m.spu.cap which
  let sample := cap.fifo.dequeue.1
  ⟨cap.running ≠ 0, cap.curdad, cap.sampleSize,
    if cap.bits8 ≠ 0 then sample.sshiftRight 8 else sample, m.runs which⟩

/-- What of the unit changes ahead of the write itself. -/
def takeSample (capout : BitVec 16) : CaptureUnit :=
  let cap := m.spu.cap which
  let r := m.runs which
  ({ m with log := m.log ++ [m.nextWrite which] }.setCap which
    { cap with fifo := cap.fifo.dequeue.2.enqueue capout }).setRun which
      { r with written := r.written + 1, queued := r.queued + 1 }

/-- A round of the loop over the samples. -/
def captureSample (capout : BitVec 16) : CaptureUnit :=
  if (m.spu.cap which).fifo.size < 16 then m.queueSample which capout
  else
    let w := m.nextWrite which
    ((m.takeSample which capout).mmuWrite env which w.address w.size w.val).advance which w.size

/-- One capture in a mixing step. The channel that times it is the first or the third. -/
def captureChannel (capout : BitVec 16) : CaptureUnit :=
  let cap := m.spu.cap which
  if cap.running ≠ 0 then
    let last := sputrunc cap.sampcnt
    let sampcnt := cap.sampcnt + (m.spu.channels (Fin.ofNat 16 (1 + 2 * which))).sampinc
    let curr := sputrunc sampcnt
    run (fun m _ => m.captureSample env which capout) (m.setCap which { cap with sampcnt })
      (List.range (curr.toNat - last.toNat))
  else m

end CaptureUnit

/-- What happens to the unit. A mixing step comes with what it does to the channels and the samples that
it has for the captures. -/
inductive CaptureOp where
  | write (w : SoundWrite)
  | mix (channels : (Fin 16 → ChannelStruct ℚ) → Fin 16 → ChannelStruct ℚ) (capout : Fin 2 → BitVec 16)

def captureStep (env : SpuEnv ℚ) (m : CaptureUnit) : CaptureOp → CaptureUnit
  | .write w => m.register env none w
  | .mix channels capout =>
    run (fun m which => m.captureChannel env which (capout which))
      { m with spu := { m.spu with channels := channels m.spu.channels } } [0, 1]

def captureInit (env : SpuEnv ℚ) : CaptureUnit :=
  ⟨spuReset env, fun which => .start ((spuReset env).cap which) false, []⟩

namespace CaptureWrite

variable (w : CaptureWrite)

/-- The samples that the buffer has room for. -/
def places : ℕ := 4 * w.run.words / w.size

/-- A sample of a running capture as it should be: in the buffer, at the place of its number, and not
before the queue was full. -/
structure Lawful : Prop where
  queued : 16 ≤ w.run.queued
  low : w.run.dad.toNat ≤ w.address.toNat
  high : w.address.toNat + w.size ≤ w.run.dad.toNat + 4 * w.run.words
  place : w.address.toNat = w.run.dad.toNat + w.run.written % w.places * w.size

/-- The capture was not started by one of its own samples, and has found the register as at the start
whenever the buffer was full. -/
def Stays : Prop := w.run.returned = w.run.dad ∧ w.run.own = false

end CaptureWrite

/-! ### The registers -/

/-- The bits that no write to a destination address sets. -/
def DadFits (dad : BitVec 32) : Prop :=
  dad.getLsbD 0 = false ∧ dad.getLsbD 1 = false ∧ dad.getLsbD 31 = false

instance (dad : BitVec 32) : Decidable (DadFits dad) := inferInstanceAs (Decidable (_ ∧ _))

theorem DadFits.toNat {dad : BitVec 32} (h : DadFits dad) : 4 ∣ dad.toNat ∧ dad.toNat < 2 ^ 31 := by
  obtain ⟨h0, h1, h31⟩ := h
  rw [BitVec.getLsbD] at h0 h1 h31
  have hlt := dad.isLt
  rw [Nat.testBit_eq_decide_div_mod_eq, decide_eq_false_iff_not] at h0 h1 h31
  omega

section Registers

variable {env : SpuEnv ℚ} {k l : Cap ℚ} {dad : BitVec 32}

theorem DadFits.patch (h : DadFits dad) {n lo : ℕ} {y : BitVec n}
    (hy : ∀ i < n, lo + i = 0 ∨ lo + i = 1 ∨ lo + i = 31 → y.getLsbD i = false) :
    DadFits (patch dad lo y) := by
  have hbit (i : ℕ) (hi : i = 0 ∨ i = 1 ∨ i = 31) (hdad : dad.getLsbD i = false) :
      (Library.patch dad lo y).getLsbD i = false := by
    rw [getLsbD_patch dad lo y (by omega)]
    split_ifs with hin
    · exact hy (i - lo) (by omega) (by omega)
    · exact hdad
  exact ⟨hbit 0 (by simp) h.1, hbit 1 (by simp) h.2.1, hbit 31 (by simp) h.2.2⟩

/-- A part that is masked so that those bits stay clear. -/
theorem DadFits.patch_and (h : DadFits dad) {n lo : ℕ} (y : BitVec n) {mask : BitVec n}
    (hmask : ∀ i < n, lo + i = 0 ∨ lo + i = 1 ∨ lo + i = 31 → mask.getLsbD i = false) :
    DadFits (Library.patch dad lo (y &&& mask)) := by
  refine h.patch fun i hi hbit => ?_
  rw [BitVec.getLsbD_and, hmask i hi hbit, Bool.and_false]

theorem dadFits_and (val : BitVec 32) : DadFits (val &&& 0x07FFFFFC) := by
  refine ⟨?_, ?_, ?_⟩ <;> rw [BitVec.getLsbD_and] <;> exact Bool.and_false _

/-- `ProbeCapture` after some control bits have changed. -/
def Probed (env : SpuEnv ℚ) (k l : Cap ℚ) : Prop :=
  ∃ x : Cap ℚ, x.dad = k.dad ∧ x.len = k.len ∧ x.fifo = k.fifo ∧ l = x.probeCapture env

/-- The destination and the length may have changed. -/
def Reprogrammed (k l : Cap ℚ) : Prop :=
  ∃ dad len, (DadFits k.dad → DadFits dad) ∧ l = { k with dad := dad, len := len }

theorem Reprogrammed.refl (k : Cap ℚ) : Reprogrammed k k := ⟨k.dad, k.len, id, rfl⟩

theorem probed_writeControl {w : ℕ} (k : Cap ℚ) (val : BitVec w) (lo : ℕ) :
    Probed env k (k.writeControl env val lo) := by
  refine ⟨_, ?_, ?_, ?_, rfl⟩ <;> rfl

theorem reprogrammed_dad (h : DadFits k.dad → DadFits dad) : Reprogrammed k { k with dad := dad } :=
  ⟨dad, k.len, h, rfl⟩

theorem reprogrammed_len (k : Cap ℚ) (len : BitVec 16) : Reprogrammed k { k with len := len } :=
  ⟨k.dad, len, id, rfl⟩

variable {s : SpuStruct ℚ}

theorem reprogrammed_setDad (which : Fin 2) (h : DadFits (s.cap which).dad → DadFits dad) (c : Fin 2) :
    Reprogrammed (s.cap c) ((s.setDad which dad).cap c) := by
  rw [SpuStruct.setDad]
  by_cases hc : c = which
  · subst hc
    rw [SpuStruct.setCap_cap_self]
    exact reprogrammed_dad h
  · rw [SpuStruct.setCap_cap_of_ne s hc]
    exact .refl _

theorem reprogrammed_setLen (which : Fin 2) (len : BitVec 16) (c : Fin 2) :
    Reprogrammed (s.cap c) ((s.setLen which len).cap c) := by
  rw [SpuStruct.setLen]
  by_cases hc : c = which
  · subst hc
    rw [SpuStruct.setCap_cap_self]
    exact reprogrammed_len _ len
  · rw [SpuStruct.setCap_cap_of_ne s hc]
    exact .refl _

/-- A write probes the captures that it is for, and reprograms the others at most. -/
def Outcome (env : SpuEnv ℚ) (probes : Prop) (k l : Cap ℚ) : Prop :=
  probes ∧ Probed env k l ∨ ¬ probes ∧ Reprogrammed k l

theorem outcome_setCap {w : ℕ} (val : BitVec w) (lo : ℕ) (which c : Fin 2) :
    Outcome env (c = which) (s.cap c)
      ((s.setCap which ((s.cap which).writeControl env val lo)).cap c) := by
  by_cases hc : c = which
  · subst hc
    rw [SpuStruct.setCap_cap_self]
    exact .inl ⟨rfl, probed_writeControl _ val lo⟩
  · rw [SpuStruct.setCap_cap_of_ne s hc]
    exact .inr ⟨hc, .refl _⟩

theorem Outcome.congr {P Q : Prop} (h : Outcome env P k l) (hPQ : P ↔ Q) : Outcome env Q k l := by
  rwa [Outcome, hPQ] at h

theorem probed_writeCaptures {w : ℕ} (val : BitVec w) (c : Fin 2) :
    Probed env (s.cap c) ((s.writeCaptures env val).cap c) := by
  rw [SpuStruct.writeCaptures]
  match c with
  | 0 => exact probed_writeControl _ val 0
  | 1 => exact probed_writeControl _ val 8

theorem eq_fin_iff {addr : ℕ} {which c : Fin 2} (h : addr = 0x508 + which) :
    c = which ↔ addr = 0x508 + c := by
  omega

theorem not_channel_control (c : Fin 2) {addr : ℕ} (h : SpuStruct.isChannel addr) :
    addr ≠ 0x508 + c := by
  rintro rfl
  revert h c
  decide

theorem writeByte_cap (s : SpuStruct ℚ) (addr : ℕ) (val : BitVec 8) (c : Fin 2) :
    Outcome env (addr = 0x508 + c) (s.cap c) ((s.writeByte env addr val).cap c) := by
  unfold SpuStruct.writeByte
  split
  · rename_i hch
    exact .inr ⟨not_channel_control c hch, .refl _⟩
  · split
    · exact .inr ⟨by omega, .refl _⟩
    · exact .inr ⟨by omega, .refl _⟩
    · exact .inr ⟨by omega, .refl _⟩
    · exact .inr ⟨by omega, .refl _⟩
    · exact (outcome_setCap val 0 0 c).congr (eq_fin_iff rfl)
    · exact (outcome_setCap val 0 1 c).congr (eq_fin_iff rfl)
    · exact .inr ⟨by omega, reprogrammed_setDad 0 (fun h => h.patch_and val (by decide)) c⟩
    · exact .inr ⟨by omega, reprogrammed_setDad 0 (fun h => h.patch (by omega)) c⟩
    · exact .inr ⟨by omega, reprogrammed_setDad 0 (fun h => h.patch (by omega)) c⟩
    · exact .inr ⟨by omega, reprogrammed_setDad 0 (fun h => h.patch_and val (by decide)) c⟩
    · exact .inr ⟨by omega, reprogrammed_setLen 0 _ c⟩
    · exact .inr ⟨by omega, reprogrammed_setLen 0 _ c⟩
    · exact .inr ⟨by omega, reprogrammed_setDad 1 (fun h => h.patch_and val (by decide)) c⟩
    · exact .inr ⟨by omega, reprogrammed_setDad 1 (fun h => h.patch (by omega)) c⟩
    · exact .inr ⟨by omega, reprogrammed_setDad 1 (fun h => h.patch (by omega)) c⟩
    · exact .inr ⟨by omega, reprogrammed_setDad 1 (fun h => h.patch_and val (by decide)) c⟩
    · exact .inr ⟨by omega, reprogrammed_setLen 1 _ c⟩
    · exact .inr ⟨by omega, reprogrammed_setLen 1 _ c⟩
    · match c with
      | 0 => exact .inr ⟨by assumption, .refl _⟩
      | 1 => exact .inr ⟨by assumption, .refl _⟩

theorem writeWord_cap (s : SpuStruct ℚ) (addr : ℕ) (val : BitVec 16) (c : Fin 2) :
    Outcome env (addr = 0x508) (s.cap c) ((s.writeWord env addr val).cap c) := by
  unfold SpuStruct.writeWord
  split
  · rename_i hch
    exact .inr ⟨not_channel_control 0 hch, .refl _⟩
  · split
    · exact .inr ⟨by omega, .refl _⟩
    · exact .inr ⟨by omega, .refl _⟩
    · exact .inl ⟨rfl, probed_writeCaptures val c⟩
    · exact .inr ⟨by omega, reprogrammed_setDad 0 (fun h => h.patch_and val (by decide)) c⟩
    · exact .inr ⟨by omega, reprogrammed_setDad 0 (fun h => h.patch_and val (by decide)) c⟩
    · exact .inr ⟨by omega, reprogrammed_setLen 0 _ c⟩
    · exact .inr ⟨by omega, reprogrammed_setDad 1 (fun h => h.patch_and val (by decide)) c⟩
    · exact .inr ⟨by omega, reprogrammed_setDad 1 (fun h => h.patch_and val (by decide)) c⟩
    · exact .inr ⟨by omega, reprogrammed_setLen 1 _ c⟩
    · exact .inr ⟨by omega, .refl _⟩

theorem writeLong_cap (s : SpuStruct ℚ) (addr : ℕ) (val : BitVec 32) (c : Fin 2) :
    Outcome env (addr = 0x504 ∨ addr = 0x508) (s.cap c) ((s.writeLong env addr val).cap c) := by
  unfold SpuStruct.writeLong
  split
  · rename_i hch
    refine .inr ⟨fun haddr => ?_, .refl _⟩
    rcases haddr with rfl | rfl <;> exact absurd hch (by decide)
  · split
    · exact .inr ⟨by omega, .refl _⟩
    · exact .inl ⟨.inl rfl, probed_writeCaptures (s := { s with soundbias := _ }) val c⟩
    · exact .inl ⟨.inr rfl, probed_writeCaptures val c⟩
    · exact .inr ⟨by omega, reprogrammed_setDad 0 (fun _ => dadFits_and val) c⟩
    · exact .inr ⟨by omega, reprogrammed_setLen 0 _ c⟩
    · exact .inr ⟨by omega, reprogrammed_setDad 1 (fun _ => dadFits_and val) c⟩
    · exact .inr ⟨by omega, reprogrammed_setLen 1 _ c⟩
    · exact .inr ⟨fun haddr => haddr.elim (by assumption) (by assumption), .refl _⟩

theorem SoundWrite.apply_cap (w : SoundWrite) (s : SpuStruct ℚ) (c : Fin 2) :
    Outcome env (w.probes c = true) (s.cap c) ((w.apply env s).cap c) := by
  cases w with
  | byte addr val => exact (writeByte_cap s _ val c).congr (by simp [SoundWrite.probes])
  | word addr val => exact (writeWord_cap s _ val c).congr (by simp [SoundWrite.probes])
  | long addr val => exact (writeLong_cap s _ val c).congr (by simp [SoundWrite.probes])

end Registers

/-! ### The invariant -/

/-- The address is the place of the next sample. -/
def AtPlace (k : Cap ℚ) (r : CaptureRun) : Prop :=
  (r.returned = r.dad ∧ r.own = false) ∧
    k.curdad.toNat = r.dad.toNat + r.written % (4 * r.words / k.sampleSize) * k.sampleSize

/-- The next sample would be the first of the buffer, and goes elsewhere. -/
def Astray (k : Cap ℚ) (r : CaptureRun) : Prop :=
  ¬ (r.returned = r.dad ∧ r.own = false) ∧ r.written % (4 * r.words / k.sampleSize) = 0 ∧
    k.curdad ≠ r.dad

structure RunInv (k : Cap ℚ) (r : CaptureRun) : Prop where
  dad : DadFits r.dad
  pos : 0 < r.words
  lt : r.words < 2 ^ 16
  maxdad : k.maxdad.toNat = r.dad.toNat + 4 * r.words
  queued : k.fifo.size ≤ r.queued
  place : AtPlace k r ∨ Astray k r

structure CapInv (k : Cap ℚ) (r : CaptureRun) : Prop where
  dad : DadFits k.dad
  nonneg : 0 ≤ k.fifo.size
  le : k.fifo.size ≤ 16
  run : k.running ≠ 0 → RunInv k r

section Invariant

variable {env : SpuEnv ℚ} {k l : Cap ℚ} {r : CaptureRun}

theorem sampleSize_cases (k : Cap ℚ) : k.sampleSize = 1 ∨ k.sampleSize = 2 := by
  rw [Cap.sampleSize]
  split_ifs <;> simp

theorem CapInv.reprogrammed (h : CapInv k r) (hl : Reprogrammed k l) : CapInv l r := by
  obtain ⟨dad, len, hdad, rfl⟩ := hl
  refine ⟨hdad h.dad, h.nonneg, h.le, fun hrunning => ?_⟩
  have hrun := h.run hrunning
  exact ⟨hrun.dad, hrun.pos, hrun.lt, hrun.maxdad, hrun.queued, hrun.place⟩

theorem probeCapture_active (x : Cap ℚ) : (x.probeCapture env).active = x.active := by
  rw [Cap.probeCapture]
  split <;> rfl

/-- A capture that is not active stops. -/
theorem CapInv.stopped (h : CapInv k r) (hl : Probed env k l) (hactive : l.active = 0)
    (r' : CaptureRun) : CapInv l r' := by
  obtain ⟨x, hdad, -, hfifo, rfl⟩ := hl
  have hx : x.active = 0 := by rwa [probeCapture_active] at hactive
  rw [Cap.probeCapture, if_pos hx]
  refine ⟨?_, ?_, ?_, fun hrunning => absurd rfl hrunning⟩
  · exact hdad ▸ h.dad
  · exact hfifo ▸ h.nonneg
  · exact hfifo ▸ h.le

/-- A capture as it is started. -/
structure Started (k : Cap ℚ) : Prop where
  dad : DadFits k.dad
  curdad : k.curdad = k.dad
  maxdad : k.maxdad.toNat = k.dad.toNat + 4 * max k.len.toNat 1
  fifo : k.fifo.size = 0

theorem started_of_probed (hdad : DadFits k.dad) (hl : Probed env k l) (hactive : l.active ≠ 0) :
    Started l := by
  obtain ⟨x, hx, -, -, rfl⟩ := hl
  have hxactive : x.active ≠ 0 := by rwa [probeCapture_active] at hactive
  rw [Cap.probeCapture, if_neg hxactive]
  rw [← hx] at hdad
  refine ⟨hdad, rfl, ?_, rfl⟩
  have hlt := hdad.toNat.2
  have hlen := x.len.isLt
  have hlong : (if x.len = 0 then 1 else x.len.setWidth 32 : BitVec 32).toNat = max x.len.toNat 1 := by
    split_ifs with hzero
    · rw [hzero]
      rfl
    · have hne : x.len.toNat ≠ 0 := fun h => hzero (BitVec.eq_of_toNat_eq h)
      rw [BitVec.toNat_setWidth, Nat.mod_eq_of_lt (by omega)]
      omega
  dsimp only
  rw [BitVec.toNat_add, BitVec.toNat_mul, hlong]
  change (x.dad.toNat + max x.len.toNat 1 * 4 % 2 ^ 32) % 2 ^ 32 = _
  omega

theorem Started.runInv (h : Started k) : RunInv k (.start k false) := by
  have hlen := k.len.isLt
  refine ⟨h.dad, ?_, ?_, h.maxdad, ?_, .inl ⟨⟨rfl, rfl⟩, ?_⟩⟩
  · exact Nat.lt_of_lt_of_le Nat.zero_lt_one (Nat.le_max_right ..)
  · simp only [CaptureRun.start]
    omega
  · rw [h.fifo]
    exact Int.natCast_nonneg _
  · simp [CaptureRun.start, h.curdad]

theorem Started.capInv (h : Started k) : CapInv k (.start k false) :=
  ⟨h.dad, h.fifo.ge, h.fifo.trans_le (by decide), fun _ => h.runInv⟩

/-- A capture that is started by one of its own samples begins behind the first place. -/
theorem Started.advance (h : Started k) {size : ℕ} (hsize : size = 1 ∨ size = 2) :
    CapInv (k.advance size) ((CaptureRun.start k true).advance k size) := by
  have hlt := h.dad.toNat.2
  have hnext : (k.curdad + BitVec.ofNat 32 size).toNat = k.dad.toNat + size := by
    rw [h.curdad, BitVec.toNat_add, BitVec.toNat_ofNat]
    omega
  have hinside : ¬ k.maxdad ≤ k.curdad + BitVec.ofNat 32 size := by
    rw [BitVec.le_def, hnext, h.maxdad]
    omega
  have hrun := h.runInv
  rw [Cap.advance, CaptureRun.advance, if_neg hinside, if_neg hinside]
  refine ⟨h.dad, h.fifo.ge, h.fifo.trans_le (by decide), fun _ => ?_⟩
  refine ⟨hrun.dad, hrun.pos, hrun.lt, hrun.maxdad, hrun.queued, .inr ⟨nofun, Nat.zero_mod _, ?_⟩⟩
  intro heq
  have htoNat := congrArg BitVec.toNat heq
  dsimp only [CaptureRun.start] at htoNat
  omega

/-- A running capture after its sample number `i`, before the address moves on. -/
structure SampledRun (k : Cap ℚ) (r : CaptureRun) (size i : ℕ) : Prop where
  dad : DadFits r.dad
  pos : 0 < r.words
  lt : r.words < 2 ^ 16
  maxdad : k.maxdad.toNat = r.dad.toNat + 4 * r.words
  queued : k.fifo.size ≤ r.queued
  size_eq : size = k.sampleSize
  home : r.returned = r.dad ∧ r.own = false
  written : r.written = i + 1
  curdad : k.curdad.toNat = r.dad.toNat + i % (4 * r.words / size) * size

/-- The same of any capture. -/
structure Sampled (k : Cap ℚ) (r : CaptureRun) (size : ℕ) : Prop where
  dad : DadFits k.dad
  nonneg : 0 ≤ k.fifo.size
  le : k.fifo.size ≤ 16
  run : k.running ≠ 0 → ∃ i, SampledRun k r size i

theorem succ_mod_cases (i : ℕ) {p : ℕ} (hp : 0 < p) :
    i % p + 1 = p ∧ (i + 1) % p = 0 ∨ i % p + 1 < p ∧ (i + 1) % p = i % p + 1 := by
  have hlt := Nat.mod_lt i hp
  rw [Nat.add_mod_eq_ite]
  rcases Nat.lt_or_ge 1 p with hone | hone
  · rw [Nat.mod_eq_of_lt hone]
    split_ifs <;> omega
  · obtain rfl : p = 1 := by omega
    split_ifs <;> omega

theorem places_mul (words : ℕ) {size : ℕ} (hsize : size = 1 ∨ size = 2) :
    4 * words / size * size = 4 * words := by
  rcases hsize with rfl | rfl <;> omega

/-- The address moves to the place of the next sample, or astray at the end of the buffer. -/
theorem SampledRun.advance {size i : ℕ} (h : SampledRun k r size i) :
    RunInv (k.advance size) (r.advance k size) := by
  have hsize : size = 1 ∨ size = 2 := h.size_eq ▸ sampleSize_cases k
  have hwhole := places_mul r.words hsize
  have hdad := h.dad.toNat.2
  have hwords := h.lt
  have hpos := h.pos
  have hmax := h.maxdad
  have hcurdad := h.curdad
  have hhome := h.home
  have hsample : k.sampleSize = size := h.size_eq.symm
  generalize hp : 4 * r.words / size = p at hwhole hcurdad
  have hppos : 0 < p := by
    rcases Nat.eq_zero_or_pos p with rfl | hlt
    · omega
    · exact hlt
  have hmod := Nat.mod_lt i hppos
  have hplace : i % p * size + size ≤ 4 * r.words := by
    rw [← hwhole, ← Nat.succ_mul]
    exact Nat.mul_le_mul_right size hmod
  have hnext : (k.curdad + BitVec.ofNat 32 size).toNat = r.dad.toNat + (i % p + 1) * size := by
    rw [BitVec.toNat_add, BitVec.toNat_ofNat, hcurdad, Nat.succ_mul]
    omega
  rw [Cap.advance, CaptureRun.advance]
  rcases succ_mod_cases i hppos with ⟨hlast, hzero⟩ | ⟨hin, hsucc⟩
  · -- the buffer is full
    have hfull : k.maxdad ≤ k.curdad + BitVec.ofNat 32 size := by
      rw [BitVec.le_def, hnext, hmax, hlast, hwhole]
    rw [if_pos hfull, if_pos hfull]
    refine ⟨h.dad, hpos, hwords, hmax, h.queued, ?_⟩
    by_cases hreg : k.dad = r.dad
    · refine .inl ⟨⟨hreg, hhome.2⟩, ?_⟩
      change k.dad.toNat = r.dad.toNat + r.written % (4 * r.words / k.sampleSize) * k.sampleSize
      rw [hsample, hp, h.written, hzero, hreg, Nat.zero_mul, Nat.add_zero]
    · refine .inr ⟨fun hstays => hreg hstays.1, ?_, hreg⟩
      change r.written % (4 * r.words / k.sampleSize) = 0
      rw [hsample, hp, h.written, hzero]
  · have hroom : ¬ k.maxdad ≤ k.curdad + BitVec.ofNat 32 size := by
      have hlt := Nat.mul_lt_mul_of_pos_right hin (show 0 < size by omega)
      rw [BitVec.le_def, hnext, hmax]
      omega
    rw [if_neg hroom, if_neg hroom]
    refine ⟨h.dad, hpos, hwords, hmax, h.queued, .inl ⟨hhome, ?_⟩⟩
    change (k.curdad + BitVec.ofNat 32 size).toNat =
      r.dad.toNat + r.written % (4 * r.words / k.sampleSize) * k.sampleSize
    rw [hsample, hp, h.written, hsucc, hnext]

theorem Sampled.advance {size : ℕ} (h : Sampled k r size) :
    CapInv (k.advance size) (r.advance k size) := by
  have hdad : (k.advance size).dad = k.dad := by
    rw [Cap.advance]
    split <;> rfl
  have hfifo : (k.advance size).fifo = k.fifo := by
    rw [Cap.advance]
    split <;> rfl
  have hrunning : (k.advance size).running = k.running := by
    rw [Cap.advance]
    split <;> rfl
  refine ⟨hdad ▸ h.dad, hfifo ▸ h.nonneg, hfifo ▸ h.le, fun hrun => ?_⟩
  obtain ⟨i, hi⟩ := h.run (hrunning ▸ hrun)
  exact hi.advance

theorem Sampled.reprogrammed {size : ℕ} (h : Sampled k r size) (hl : Reprogrammed k l) :
    Sampled l r size := by
  obtain ⟨dad, len, hdad, rfl⟩ := hl
  refine ⟨hdad h.dad, h.nonneg, h.le, fun hrunning => ?_⟩
  obtain ⟨i, hi⟩ := h.run hrunning
  exact ⟨i, hi.dad, hi.pos, hi.lt, hi.maxdad, hi.queued, hi.size_eq, hi.home, hi.written, hi.curdad⟩

theorem CapInv.sampled_of_stopped (h : CapInv k r) (hrunning : k.running = 0) (size : ℕ)
    (r' : CaptureRun) : Sampled k r' size :=
  ⟨h.dad, h.nonneg, h.le, fun hrun => absurd hrunning hrun⟩

end Invariant

namespace CaptureUnit

variable {env : SpuEnv ℚ} {m : CaptureUnit} {which c : Fin 2}

@[simp] theorem setCap_cap_self (m : CaptureUnit) (which : Fin 2) (k : Cap ℚ) :
    (m.setCap which k).spu.cap which = k := SpuStruct.setCap_cap_self ..

theorem setCap_cap_of_ne (m : CaptureUnit) (h : c ≠ which) (k : Cap ℚ) :
    (m.setCap which k).spu.cap c = m.spu.cap c := SpuStruct.setCap_cap_of_ne m.spu h k

@[simp] theorem setCap_runs (m : CaptureUnit) (which : Fin 2) (k : Cap ℚ) :
    (m.setCap which k).runs = m.runs := rfl

@[simp] theorem setRun_spu (m : CaptureUnit) (which : Fin 2) (r : CaptureRun) :
    (m.setRun which r).spu = m.spu := rfl

@[simp] theorem setRun_runs_self (m : CaptureUnit) (which : Fin 2) (r : CaptureRun) :
    (m.setRun which r).runs which = r := Function.update_self ..

theorem setRun_runs_of_ne (m : CaptureUnit) (h : c ≠ which) (r : CaptureRun) :
    (m.setRun which r).runs c = m.runs c := Function.update_of_ne h ..

/-- All captures are where their runs say. -/
def InPlace (m : CaptureUnit) : Prop := ∀ c, CapInv (m.spu.cap c) (m.runs c)

theorem register_cap (env : SpuEnv ℚ) (m : CaptureUnit) (source : Option (Fin 2)) (w : SoundWrite)
    (c : Fin 2) :
    ((m.register env source w).runs c = m.runs c ∧
        Reprogrammed (m.spu.cap c) ((m.register env source w).spu.cap c)) ∨
      (((m.register env source w).spu.cap c).active = 0 ∧
        Probed env (m.spu.cap c) ((m.register env source w).spu.cap c)) ∨
      (((m.register env source w).spu.cap c).active ≠ 0 ∧
        Probed env (m.spu.cap c) ((m.register env source w).spu.cap c) ∧
        (m.register env source w).runs c =
          .start ((m.register env source w).spu.cap c) (source = some c)) := by
  have hcap : Outcome env (w.probes c = true) (m.spu.cap c) ((w.apply env m.spu).cap c) :=
    w.apply_cap m.spu c
  rcases hcap with ⟨hprobes, hprobed⟩ | ⟨hnot, hsame⟩
  · by_cases hactive : ((m.register env source w).spu.cap c).active = 0
    · exact .inr (.inl ⟨hactive, hprobed⟩)
    · exact .inr (.inr ⟨hactive, hprobed, if_pos ⟨hprobes, hactive⟩⟩)
  · exact .inl ⟨if_neg fun h => hnot h.1, hsame⟩

theorem capInv_register (h : CapInv (m.spu.cap c) (m.runs c)) {source : Option (Fin 2)}
    (hsource : source ≠ some c) (w : SoundWrite) :
    CapInv ((m.register env source w).spu.cap c) ((m.register env source w).runs c) := by
  rcases register_cap env m source w c with ⟨hruns, hsame⟩ | ⟨hactive, hprobed⟩ |
    ⟨hactive, hprobed, hruns⟩
  · rw [hruns]
    exact h.reprogrammed hsame
  · exact h.stopped hprobed hactive _
  · rw [hruns, decide_eq_false hsource]
    exact (started_of_probed h.dad hprobed hactive).capInv

theorem running_of_stopped {k l : Cap ℚ} (hl : Probed env k l) (hactive : l.active = 0) :
    l.running = 0 := by
  obtain ⟨x, -, -, -, rfl⟩ := hl
  rw [probeCapture_active] at hactive
  rw [Cap.probeCapture, if_pos hactive]

/-- A sample that is a register write, and the move of the address behind it. -/
theorem capInv_register_own {size : ℕ} (h : Sampled (m.spu.cap c) (m.runs c) size)
    (hsize : size = 1 ∨ size = 2) (w : SoundWrite) :
    CapInv (((m.register env (some c) w).spu.cap c).advance size)
      (((m.register env (some c) w).runs c).advance ((m.register env (some c) w).spu.cap c) size) := by
  rcases register_cap env m (some c) w c with ⟨hruns, hsame⟩ | ⟨hactive, hprobed⟩ |
    ⟨hactive, hprobed, hruns⟩
  · rw [hruns]
    exact (h.reprogrammed hsame).advance
  · have hzero := running_of_stopped hprobed hactive
    have hidle : CapInv { m.spu.cap c with running := 0 } (m.runs c) :=
      ⟨h.dad, h.nonneg, h.le, fun hrun => absurd rfl hrun⟩
    have hprobed' : Probed env { m.spu.cap c with running := 0 }
        ((m.register env (some c) w).spu.cap c) := hprobed
    exact ((hidle.stopped hprobed' hactive (m.runs c)).sampled_of_stopped hzero size _).advance
  · rw [hruns, decide_eq_true rfl]
    exact (started_of_probed h.dad hprobed hactive).advance hsize

theorem mmuWrite_cases (env : SpuEnv ℚ) (m : CaptureUnit) (which : Fin 2) (address : BitVec 32)
    (size : ℕ) (val : BitVec 16) : m.mmuWrite env which address size val = m ∨
      ∃ w, m.mmuWrite env which address size val = m.register env (some which) w := by
  rw [mmuWrite]
  exact (ite_eq_or_eq _ _ _).elim (fun h => .inr ⟨_, h⟩) .inl

/-- A sample of another capture. -/
theorem capInv_mmuWrite (h : CapInv (m.spu.cap c) (m.runs c)) (hc : c ≠ which) (address : BitVec 32)
    (size : ℕ) (val : BitVec 16) :
    CapInv ((m.mmuWrite env which address size val).spu.cap c)
      ((m.mmuWrite env which address size val).runs c) := by
  rcases mmuWrite_cases env m which address size val with heq | ⟨w, heq⟩
  · rwa [heq]
  · rw [heq]
    exact capInv_register h (fun hsome => hc (Option.some.inj hsome).symm) w

theorem capInv_mmuWrite_own {size : ℕ} (h : Sampled (m.spu.cap c) (m.runs c) size)
    (hsize : size = 1 ∨ size = 2) (address : BitVec 32) (val : BitVec 16) :
    CapInv (((m.mmuWrite env c address size val).spu.cap c).advance size)
      (((m.mmuWrite env c address size val).runs c).advance
        ((m.mmuWrite env c address size val).spu.cap c) size) := by
  rcases mmuWrite_cases env m c address size val with heq | ⟨w, heq⟩
  · rw [heq]
    exact h.advance
  · rw [heq]
    exact capInv_register_own h hsize w

theorem mmuWrite_log (env : SpuEnv ℚ) (m : CaptureUnit) (which : Fin 2) (address : BitVec 32)
    (size : ℕ) (val : BitVec 16) : (m.mmuWrite env which address size val).log = m.log := by
  rcases mmuWrite_cases env m which address size val with heq | ⟨w, heq⟩ <;> rw [heq]
  rfl

/-- A capture and its run are exchanged for others that are in place. -/
theorem InPlace.set (h : m.InPlace) {k : Cap ℚ} {r : CaptureRun} (hk : CapInv k r) :
    ((m.setCap which k).setRun which r).InPlace := by
  intro c
  by_cases hc : c = which
  · subst hc
    rwa [setRun_spu, setCap_cap_self, setRun_runs_self]
  · rw [setRun_spu, setCap_cap_of_ne m hc, setRun_runs_of_ne _ hc, setCap_runs]
    exact h c

end CaptureUnit

/-! ### The samples of a run -/

/-- What a sample has to meet if its capture runs. -/
def CaptureWrite.LawfulRunning (w : CaptureWrite) : Prop := w.running = true → w.Lawful

def CaptureWrite.StaysRunning (w : CaptureWrite) : Prop := w.running = true → w.Stays

namespace CaptureUnit

variable {env : SpuEnv ℚ} {m : CaptureUnit} {which : Fin 2}

/-- So far all samples are lawful and stay, and the captures are in place; or there is a sample of
either kind that does not. -/
def LogInv (m : CaptureUnit) : Prop :=
  (∀ w ∈ m.log, w.LawfulRunning ∧ w.StaysRunning) ∧ m.InPlace ∨
    (∃ w ∈ m.log, ¬ w.LawfulRunning) ∧ ∃ w ∈ m.log, ¬ w.StaysRunning

theorem takeSample_log (m : CaptureUnit) (which : Fin 2) (capout : BitVec 16) :
    (m.takeSample which capout).log = m.log ++ [m.nextWrite which] := rfl

theorem captureSample_log_queue (env : SpuEnv ℚ) (h : (m.spu.cap which).fifo.size < 16) (capout : BitVec 16) :
    (m.captureSample env which capout).log = m.log := by
  rw [captureSample, if_pos h]
  rfl

theorem captureSample_log_write (env : SpuEnv ℚ) (h : ¬ (m.spu.cap which).fifo.size < 16) (capout : BitVec 16) :
    (m.captureSample env which capout).log = m.log ++ [m.nextWrite which] := by
  rw [captureSample, if_neg h]
  exact (mmuWrite_log env _ which _ _ _).trans (takeSample_log m which capout)

theorem inPlace_queueSample (h : m.InPlace) (hsize : (m.spu.cap which).fifo.size < 16)
    (capout : BitVec 16) : (m.queueSample which capout).InPlace := by
  obtain ⟨hdad, hnonneg, hle, hrun⟩ := h which
  have hfifo : ((m.spu.cap which).fifo.enqueue capout).size = (m.spu.cap which).fifo.size + 1 := by
    rw [SpuFifo.enqueue, if_neg (by omega)]
  refine h.set ⟨hdad, ?_, ?_, fun hrunning => ?_⟩
  · dsimp only
    omega
  · dsimp only
    omega
  · obtain ⟨hrdad, hpos, hlt, hmax, hqueued, hplace⟩ := hrun hrunning
    refine ⟨hrdad, hpos, hlt, hmax, ?_, hplace⟩
    dsimp only
    push_cast
    omega

theorem nextWrite_running : (m.nextWrite which).running = true ↔ (m.spu.cap which).running ≠ 0 := by
  rw [nextWrite]
  exact decide_eq_true_iff

/-- The sample of a capture that is at its place. -/
theorem nextWrite_lawful (hrun : RunInv (m.spu.cap which) (m.runs which))
    (hplace : AtPlace (m.spu.cap which) (m.runs which)) (hsize : 16 ≤ (m.spu.cap which).fifo.size) :
    (m.nextWrite which).Lawful := by
  have hqueued := hrun.queued
  have hcases := sampleSize_cases (m.spu.cap which)
  have hwhole := places_mul (m.runs which).words hcases
  have hpos := hrun.pos
  have haddress := hplace.2
  have hppos : 0 < 4 * (m.runs which).words / (m.spu.cap which).sampleSize := by
    rcases hcases with hone | htwo
    · rw [hone]
      omega
    · rw [htwo]
      omega
  have hmod := Nat.mod_lt (m.runs which).written hppos
  have hin := Nat.mul_le_mul_right (m.spu.cap which).sampleSize (Nat.succ_le_of_lt hmod)
  rw [hwhole, Nat.succ_mul] at hin
  refine ⟨?_, ?_, ?_, haddress⟩
  · change 16 ≤ (m.runs which).queued
    omega
  · change (m.runs which).dad.toNat ≤ (m.spu.cap which).curdad.toNat
    omega
  · change (m.spu.cap which).curdad.toNat + (m.spu.cap which).sampleSize ≤
      (m.runs which).dad.toNat + 4 * (m.runs which).words
    omega

/-- A sample of a capture in place is lawful exactly if it stays. -/
theorem nextWrite_cases (h : m.InPlace) (hsize : ¬ (m.spu.cap which).fifo.size < 16) :
    ((m.nextWrite which).LawfulRunning ∧ (m.nextWrite which).StaysRunning ∧
        ((m.spu.cap which).running ≠ 0 → AtPlace (m.spu.cap which) (m.runs which))) ∨
      ¬ (m.nextWrite which).LawfulRunning ∧ ¬ (m.nextWrite which).StaysRunning := by
  by_cases hrunning : (m.spu.cap which).running = 0
  · have hidle : ¬ (m.nextWrite which).running = true := by
      rwa [nextWrite_running, not_not]
    exact .inl ⟨fun h => absurd h hidle, fun h => absurd h hidle, fun h => absurd hrunning h⟩
  · have hrun := (h which).run hrunning
    rcases hrun.place with hplace | ⟨hstray, hzero, hcurdad⟩
    · exact .inl ⟨fun _ => nextWrite_lawful hrun hplace (by omega), fun _ => hplace.1, fun _ => hplace⟩
    · have hon := nextWrite_running.mpr hrunning
      refine .inr ⟨fun hlawful => hcurdad (BitVec.eq_of_toNat_eq ?_), fun hstays => hstray (hstays hon)⟩
      have hplace : (m.spu.cap which).curdad.toNat = (m.runs which).dad.toNat +
          (m.runs which).written % (4 * (m.runs which).words / (m.spu.cap which).sampleSize) *
            (m.spu.cap which).sampleSize := (hlawful hon).place
      rwa [hzero, Nat.zero_mul] at hplace

/-- The capture behind its sample. -/
theorem sampled_takeSample (h : m.InPlace) (hsize : ¬ (m.spu.cap which).fifo.size < 16)
    (hplace : (m.spu.cap which).running ≠ 0 → AtPlace (m.spu.cap which) (m.runs which))
    (capout : BitVec 16) :
    Sampled ((m.takeSample which capout).spu.cap which) ((m.takeSample which capout).runs which)
      (m.nextWrite which).size := by
  obtain ⟨hdad, hnonneg, hle, hrun⟩ := h which
  have hfifo : ((m.spu.cap which).fifo.dequeue.2.enqueue capout).size = 16 := by
    have hsixteen : (m.spu.cap which).fifo.size = 16 := by omega
    rw [SpuFifo.dequeue, if_neg (by omega), SpuFifo.enqueue, if_neg (by dsimp only; omega)]
    dsimp only
    omega
  rw [takeSample, setRun_spu, setCap_cap_self, setRun_runs_self]
  refine ⟨hdad, ?_, ?_, fun hrunning => ⟨(m.runs which).written, ?_⟩⟩
  · dsimp only
    omega
  · dsimp only
    omega
  · obtain ⟨hrdad, hpos, hlt, hmax, hqueued, -⟩ := hrun hrunning
    obtain ⟨hhome, hcurdad⟩ := hplace hrunning
    refine ⟨hrdad, hpos, hlt, hmax, ?_, rfl, hhome, rfl, hcurdad⟩
    dsimp only
    rw [hfifo]
    push_cast
    omega

theorem takeSample_other (h : m.InPlace) {c : Fin 2} (hc : c ≠ which) (capout : BitVec 16) :
    CapInv ((m.takeSample which capout).spu.cap c) ((m.takeSample which capout).runs c) := by
  rw [takeSample, setRun_spu, setCap_cap_of_ne _ hc, setRun_runs_of_ne _ hc]
  exact h c

theorem inPlace_captureSample (h : m.InPlace)
    (hplace : (m.spu.cap which).running ≠ 0 → AtPlace (m.spu.cap which) (m.runs which))
    (capout : BitVec 16) : (m.captureSample env which capout).InPlace := by
  rw [captureSample]
  split_ifs with hsize
  · exact inPlace_queueSample h hsize capout
  · intro c
    dsimp only [advance]
    by_cases hc : c = which
    · subst hc
      rw [setRun_spu, setCap_cap_self, setRun_runs_self]
      exact capInv_mmuWrite_own (sampled_takeSample h hsize hplace capout) (sampleSize_cases _) _ _
    · rw [setRun_spu, setCap_cap_of_ne _ hc, setRun_runs_of_ne _ hc, setCap_runs]
      exact capInv_mmuWrite (takeSample_other h hc capout) hc _ _ _

theorem logInv_captureSample (h : m.LogInv) (capout : BitVec 16) :
    (m.captureSample env which capout).LogInv := by
  by_cases hsize : (m.spu.cap which).fifo.size < 16
  · have hlog := captureSample_log_queue env hsize capout
    rw [LogInv, hlog]
    refine h.imp_left fun hgood => ⟨hgood.1, ?_⟩
    rw [captureSample, if_pos hsize]
    exact inPlace_queueSample hgood.2 hsize capout
  · have hlog := captureSample_log_write env hsize capout
    have hlast : m.nextWrite which ∈ m.log ++ [m.nextWrite which] :=
      List.mem_append_right _ List.mem_cons_self
    rw [LogInv, hlog]
    rcases h with ⟨hall, hin⟩ | ⟨⟨w, hw, hlaw⟩, v, hv, hstay⟩
    · rcases nextWrite_cases hin hsize with ⟨hlaw, hstay, hplace⟩ | ⟨hlaw, hstay⟩
      · refine .inl ⟨fun w hw => ?_, inPlace_captureSample hin hplace capout⟩
        rcases List.mem_append.mp hw with hw | hw
        · exact hall w hw
        · obtain rfl := List.mem_singleton.mp hw
          exact ⟨hlaw, hstay⟩
      · exact .inr ⟨⟨_, hlast, hlaw⟩, _, hlast, hstay⟩
    · exact .inr ⟨⟨w, List.mem_append_left _ hw, hlaw⟩, v, List.mem_append_left _ hv, hstay⟩

/-- What leaves the log and the captures in place keeps the invariant. -/
theorem LogInv.of_inPlace {m' : CaptureUnit} (h : m.LogInv) (hlog : m'.log = m.log)
    (hin : m.InPlace → m'.InPlace) : m'.LogInv := by
  rw [LogInv, hlog]
  exact h.imp_left fun hgood => ⟨hgood.1, hin hgood.2⟩

theorem InPlace.setCap (h : m.InPlace) {k : Cap ℚ} (hk : CapInv k (m.runs which)) :
    (m.setCap which k).InPlace := by
  intro c
  by_cases hc : c = which
  · subst hc
    rwa [setCap_cap_self]
  · rw [setCap_cap_of_ne m hc]
    exact h c

theorem logInv_captureChannel (h : m.LogInv) (capout : BitVec 16) :
    (m.captureChannel env which capout).LogInv := by
  have hsample (m : CaptureUnit) (_ : ℕ) (hm : m.LogInv) : (m.captureSample env which capout).LogInv :=
    logInv_captureSample hm capout
  have htimed (sampcnt : ℚ) : (m.setCap which { m.spu.cap which with sampcnt }).LogInv := by
    refine h.of_inPlace rfl fun hin => hin.setCap ?_
    obtain ⟨hdad, hnonneg, hle, hrun⟩ := hin which
    refine ⟨hdad, hnonneg, hle, fun hrunning => ?_⟩
    obtain ⟨hrdad, hpos, hlt, hmax, hqueued, hplace⟩ := hrun hrunning
    exact ⟨hrdad, hpos, hlt, hmax, hqueued, hplace⟩
  rw [captureChannel]
  split_ifs
  · exact run_invariant hsample (htimed _) _
  · exact h

theorem logInv_step (env : SpuEnv ℚ) (m : CaptureUnit) (op : CaptureOp) (h : m.LogInv) :
    (captureStep env m op).LogInv := by
  cases op with
  | write w =>
    have hin (hm : m.InPlace) : (m.register env none w).InPlace := fun c =>
      capInv_register (hm c) (by exact nofun) w
    have hkept : (m.register env none w).LogInv := h.of_inPlace rfl hin
    exact hkept
  | mix channels capout =>
    have hchannel (m : CaptureUnit) (which : Fin 2) (hm : m.LogInv) :
        (m.captureChannel env which (capout which)).LogInv := logInv_captureChannel hm _
    have hmixed : LogInv { m with spu := { m.spu with channels := channels m.spu.channels } } :=
      h.of_inPlace rfl id
    exact run_invariant hchannel hmixed _

theorem logInv_init (env : SpuEnv ℚ) : (captureInit env).LogInv := by
  refine .inl ⟨fun w hw => absurd hw List.not_mem_nil, fun c => ?_⟩
  refine ⟨?_, ?_, ?_, fun h => absurd rfl h⟩
  · change DadFits 0
    decide
  · change (0 : ℤ) ≤ 0
    decide
  · change (0 : ℤ) ≤ 16
    decide

end CaptureUnit

/-- In every run of register writes and mixing steps all samples of the running captures are as they
should be exactly if each finds that the capture was not started by a sample of its own and has gone
back to where it was started whenever the buffer was full. -/
theorem capture_iff (bus : SoundBus) (ops : List CaptureOp) :
    (∀ w ∈ (run (captureStep bus.env) (captureInit bus.env) ops).log, w.LawfulRunning) ↔
      ∀ w ∈ (run (captureStep bus.env) (captureInit bus.env) ops).log, w.StaysRunning := by
  have hinv : (run (captureStep bus.env) (captureInit bus.env) ops).LogInv :=
    run_invariant (CaptureUnit.logInv_step bus.env) (CaptureUnit.logInv_init bus.env) ops
  rcases hinv with ⟨hall, -⟩ | ⟨⟨w, hw, hlaw⟩, v, hv, hstay⟩
  · exact iff_of_true (fun w hw => (hall w hw).1) fun w hw => (hall w hw).2
  · exact iff_of_false (fun h => hlaw (h w hw)) fun h => hstay (h v hv)

/-! ### A destination that changes while the capture runs -/

/-- Two samples of 16 bits fit in the buffer, and the destination is written after the start. -/
def movedCapture : List CaptureOp :=
  [.write (.word 0x04000418 0xFFED), .write (.long 0x04000510 0x02000000),
    .write (.word 0x04000514 1), .write (.byte 0x04000508 0x80),
    .write (.long 0x04000510 0x02100000), .mix id fun _ => 0]

theorem movedCapture_strays : ∃ (bus : SoundBus) (ops : List CaptureOp),
    ¬ ∀ w ∈ (run (captureStep bus.env) (captureInit bus.env) ops).log, w.LawfulRunning := by
  refine ⟨⟨fun _ => 0, fun _ => 0⟩, movedCapture, fun h => ?_⟩
  have hstray : ∃ w ∈ (run (captureStep (SoundBus.env ⟨fun _ => 0, fun _ => 0⟩))
      (captureInit (SoundBus.env ⟨fun _ => 0, fun _ => 0⟩)) movedCapture).log, w.running = true ∧
        w.address = 0x02100000 ∧ w.run.dad = 0x02000000 ∧ w.run.words = 1 := by
    decide +kernel
  obtain ⟨w, hw, hrunning, haddress, hdad, hwords⟩ := hstray
  have hhigh := (h w hw hrunning).high
  rw [haddress, hdad, hwords] at hhigh
  exact absurd (Nat.le_of_add_right_le hhigh) (by decide)

end Desmume.Sound
