import Desmume.Timing.HstartDefs
import Mathlib.Algebra.Order.BigOperators.Group.List
import Mathlib.Algebra.Order.Floor.Ring
import Mathlib.Data.Rat.Floor

/-! The buffer that the mixer fills line by line and the frontend takes once per frame: the rate is not
a whole number of samples for a line, and the guest has a say in how many lines a frame has. -/

namespace Desmume.Sound
open Library Timing Memory

/-! ### What is left of the samples -/

section Accumulator

variable (rate : ℚ) (k : ℕ)

/-- The samples of a line, with what the lines before it have left. -/
def lineSamples : ℤ := ⌊((k + 1 : ℕ) : ℚ) * rate⌋ - ⌊(k : ℚ) * rate⌋

theorem floor_add_fract : ⌊Int.fract ((k : ℚ) * rate) + rate⌋ = lineSamples rate k := by
  have hnext : Int.fract ((k : ℚ) * rate) + rate =
      ((k + 1 : ℕ) : ℚ) * rate - (⌊(k : ℚ) * rate⌋ : ℤ) := by
    rw [Int.fract, Nat.cast_succ]
    ring
  rw [hnext, Int.floor_sub_intCast, lineSamples]

theorem fract_add_sub_floor : Int.fract ((k : ℚ) * rate) + rate - (lineSamples rate k : ℤ) =
    Int.fract (((k + 1 : ℕ) : ℚ) * rate) := by
  rw [lineSamples, Int.fract, Int.fract, Nat.cast_succ, Int.cast_sub]
  ring

theorem sum_lineSamples (a n : ℕ) : ((List.range' a n).map (lineSamples rate)).sum =
    ⌊((a + n : ℕ) : ℚ) * rate⌋ - ⌊(a : ℚ) * rate⌋ := by
  induction n generalizing a with
  | zero => simp
  | succ n ih =>
    have hend : a + 1 + n = a + (n + 1) := by omega
    rw [List.range'_succ, List.map_cons, List.sum_cons, ih, lineSamples, hend]
    omega

variable {rate}

theorem lineSamples_nonneg (h : 0 ≤ rate) : 0 ≤ lineSamples rate k := by
  rw [lineSamples, sub_nonneg]
  exact Int.floor_le_floor (mul_le_mul_of_nonneg_right (by exact_mod_cast Nat.le_succ k) h)

theorem le_lineSamples {n : ℤ} (h : n ≤ rate) : n ≤ lineSamples rate k := by
  rw [← floor_add_fract, Int.le_floor]
  exact le_add_of_nonneg_of_le (Int.fract_nonneg _) h

/-- The samples of some lines in a row. -/
theorem floor_sub_floor_bounds (rate : ℚ) (a n : ℕ) :
    ⌊(n : ℚ) * rate⌋ ≤ ⌊((a + n : ℕ) : ℚ) * rate⌋ - ⌊(a : ℚ) * rate⌋ ∧
      ⌊((a + n : ℕ) : ℚ) * rate⌋ - ⌊(a : ℚ) * rate⌋ ≤ ⌊(n : ℚ) * rate⌋ + 1 := by
  have hsum : ((a + n : ℕ) : ℚ) * rate = a * rate + n * rate := by
    rw [Nat.cast_add, add_mul]
  have hlow := Int.le_floor_add ((a : ℚ) * rate) (n * rate)
  have hhigh := Int.le_floor_add_floor ((a : ℚ) * rate) (n * rate)
  rw [hsum]
  omega

end Accumulator

/-! ### The frame loop -/

/-- What the display unit does next, `ESI_DISPCNT_*`. -/
inductive DispcntEvent where
  | hStart | hStartIRQ | hDraw | hBlank
  deriving DecidableEq

def desmumeSampleRate : ℚ := 44100

def samplesPerHline : ℚ := desmumeSampleRate / (598261 / 10000) / 263

/-- The samples that `outbuf` has room for, with two values each. -/
def outbufSamples : ℕ := 768

/-- The state of the loop, with the buffer of `SPU_core`. The last three are not in the source: the
lines mixed so far, those of them before the current `NDS_exec`, and the ones in it that were not
silent. -/
structure AudioState where
  line : LineState
  param : DispcntEvent
  masteren : Bool
  samples : ℚ
  outbufptr : ℕ
  lines : ℕ
  first : ℕ
  mixed : List ℕ

namespace AudioState

variable (s : AudioState)

/-- The samples that `SPU_Emulate_core` has mixed for this line. -/
def coreSamples : ℤ := ⌊s.samples + samplesPerHline⌋

/-- The indices that `SPU_MixAudio` writes: none without the master enable. -/
def outbufIndices : List ℕ :=
  if s.masteren then List.range' s.outbufptr (s.coreSamples.toNat * 2) else []

/-- `SPU_Emulate_core`. -/
def emulateCore : AudioState :=
  { s with
    samples := s.samples + samplesPerHline - s.coreSamples
    outbufptr := s.outbufptr + s.outbufIndices.length
    lines := s.lines + 1
    mixed := if s.masteren then s.mixed ++ [s.lines] else s.mixed }

/-- The end of `NDS_exec`, `SPU_Emulate_user`, and the start of the next one. -/
def nextExec : AudioState :=
  { s with
    line := { s.line with vblankEnded := false }
    outbufptr := 0
    first := s.lines
    mixed := [] }

def execDispcnt (rigorousTiming : Bool) : AudioState :=
  match s.param with
  | .hStart => { s with line := execHardwareHstart rigorousTiming s.line, param := .hStartIRQ }
  | .hStartIRQ => { s with param := .hDraw }
  | .hDraw => { s with param := .hBlank }
  | .hBlank => { s.emulateCore with param := .hStart }

/-- The loop of `NDS_exec` is left once per frame. -/
def breakOut : AudioState := if s.line.vblankEnded then s.nextExec else s

end AudioState

/-- What happens in the loop: `halt` is an `NDS_exec` that returns for another reason, because the
system sleeps or has been stopped. -/
inductive AudioOp where
  | dispcnt
  | write (proc : Proc) (width : Width) (adr val : BitVec 32)
  | master (on : Bool)
  | halt

def audioStep (env : LineEnv) (s : AudioState) : AudioOp → AudioState
  | .dispcnt => (s.execDispcnt env.rigorousTiming).breakOut
  | .write proc width adr val => { s with line := writeReg env proc width adr val s.line }
  | .master on => { s with masteren := on }
  | .halt => s.nextExec

def audioInit : AudioState := ⟨initSchedule, .hStart, false, 0, 0, 0, 0, []⟩

/-- What a step writes is in the buffer. -/
def InOutbuf (s : AudioState) (op : AudioOp) : Prop :=
  op = .dispcnt → s.param = .hBlank → ∀ i ∈ s.outbufIndices, i < outbufSamples * 2

/-- The lines of this `NDS_exec` that are not silent do not have more samples than the buffer. -/
def LinesFit (s : AudioState) (op : AudioOp) : Prop :=
  op = .dispcnt → s.param = .hBlank → s.masteren = true →
    ((s.mixed ++ [s.lines]).map (lineSamples samplesPerHline)).sum ≤ outbufSamples

/-- Where the accumulator and the write index are. -/
structure AudioInv (s : AudioState) : Prop where
  samples : s.samples = Int.fract ((s.lines : ℚ) * samplesPerHline)
  outbufptr : (s.outbufptr : ℤ) = (s.mixed.map (lineSamples samplesPerHline)).sum * 2
  first : s.first ≤ s.lines
  mixed : s.mixed.Sublist (List.range' s.first (s.lines - s.first))

section Invariant

variable {s : AudioState}

theorem samplesPerHline_eq : samplesPerHline = 441000000 / 157342643 := by
  rw [samplesPerHline, desmumeSampleRate]
  norm_num

theorem samplesPerHline_nonneg : 0 ≤ samplesPerHline := by
  rw [samplesPerHline_eq]
  norm_num

theorem audioInv_init : AudioInv audioInit := ⟨by simp [audioInit], rfl, Nat.le_refl 0, .refl []⟩

theorem AudioInv.coreSamples (h : AudioInv s) : s.coreSamples = lineSamples samplesPerHline s.lines := by
  rw [AudioState.coreSamples, h.samples, floor_add_fract]

theorem AudioInv.emulateCore (h : AudioInv s) : AudioInv s.emulateCore := by
  have hnonneg := lineSamples_nonneg s.lines samplesPerHline_nonneg
  have hfirst := h.first
  have hrange : List.range' s.first (s.lines + 1 - s.first) =
      List.range' s.first (s.lines - s.first) ++ [s.lines] := by
    have hlength : s.lines + 1 - s.first = s.lines - s.first + 1 := by omega
    have hlast : s.first + (s.lines - s.first) = s.lines := by omega
    rw [hlength, List.range'_1_concat, hlast]
  refine ⟨?_, ?_, Nat.le_succ_of_le h.first, ?_⟩
  · simp only [AudioState.emulateCore]
    rw [h.coreSamples, h.samples, fract_add_sub_floor]
  · simp only [AudioState.emulateCore, AudioState.outbufIndices]
    have hptr := h.outbufptr
    split_ifs with hon
    · rw [List.length_range', List.map_append, List.sum_append, h.coreSamples]
      simp only [List.map_cons, List.map_nil, List.sum_singleton]
      omega
    · simpa using hptr
  · simp only [AudioState.emulateCore]
    rw [hrange]
    split_ifs
    · exact h.mixed.append (.refl _)
    · exact h.mixed.trans (List.sublist_append_left _ _)

theorem AudioInv.nextExec (h : AudioInv s) : AudioInv s.nextExec := by
  refine ⟨h.samples, rfl, Nat.le_refl _, ?_⟩
  exact List.nil_sublist _

theorem AudioInv.breakOut (h : AudioInv s) : AudioInv s.breakOut := by
  rw [AudioState.breakOut]
  split_ifs
  · exact h.nextExec
  · exact h

theorem AudioInv.execDispcnt (h : AudioInv s) (rigorousTiming : Bool) :
    AudioInv (s.execDispcnt rigorousTiming) := by
  rw [AudioState.execDispcnt]
  split
  · exact ⟨h.samples, h.outbufptr, h.first, h.mixed⟩
  · exact ⟨h.samples, h.outbufptr, h.first, h.mixed⟩
  · exact ⟨h.samples, h.outbufptr, h.first, h.mixed⟩
  · have hcore := h.emulateCore
    exact ⟨hcore.samples, hcore.outbufptr, hcore.first, hcore.mixed⟩

theorem AudioInv.step (env : LineEnv) (h : AudioInv s) (op : AudioOp) : AudioInv (audioStep env s op) := by
  cases op with
  | dispcnt => exact (h.execDispcnt _).breakOut
  | write proc width adr val => exact ⟨h.samples, h.outbufptr, h.first, h.mixed⟩
  | master on => exact ⟨h.samples, h.outbufptr, h.first, h.mixed⟩
  | halt => exact h.nextExec

/-- One line has samples, so the last index is the one that matters. -/
theorem AudioInv.inOutbuf_iff (h : AudioInv s) (op : AudioOp) : InOutbuf s op ↔ LinesFit s op := by
  refine imp_congr_right fun _ => imp_congr_right fun _ => ?_
  rw [AudioState.outbufIndices]
  cases s.masteren with
  | false => simp
  | true =>
    have hlow : 2 ≤ lineSamples samplesPerHline s.lines := by
      refine le_lineSamples s.lines ?_
      rw [samplesPerHline_eq]
      norm_num
    have hptr := h.outbufptr
    rw [if_pos rfl, h.coreSamples, List.map_append, List.sum_append, outbufSamples]
    simp only [List.map_cons, List.map_nil, List.sum_singleton, List.mem_range'_1, forall_const]
    constructor
    · intro hall
      have hlast := hall (s.outbufptr + ((lineSamples samplesPerHline s.lines).toNat * 2 - 1)) (by omega)
      push_cast
      omega
    · intro hsum i hi
      push_cast at hsum
      omega

end Invariant

/-- In every run the mixer stays in the buffer exactly if no `NDS_exec` has more samples on the lines
on which sound is enabled than the buffer. -/
theorem outbuf_iff (env : LineEnv) (ops : List AudioOp) :
    AtEach (audioStep env) InOutbuf audioInit ops ↔ AtEach (audioStep env) LinesFit audioInit ops := by
  have hkeep (s : AudioState) (op : AudioOp) (h : AudioInv s) : AudioInv (audioStep env s op) :=
    h.step env op
  exact ⟨fun h => h.imp_of_kept (fun s op hs => (hs.inOutbuf_iff op).mp)
      (fun s op hs _ => hkeep s op hs) audioInv_init,
    fun h => h.imp_of_kept (fun s op hs => (hs.inOutbuf_iff op).mpr)
      (fun s op hs _ => hkeep s op hs) audioInv_init⟩

/-! ### How many lines that is -/

/-- The buffer has room for 274 lines in a row, wherever they begin. -/
theorem lines_fit_iff (a n : ℕ) :
    ((List.range' a n).map (lineSamples samplesPerHline)).sum ≤ outbufSamples ↔ n ≤ 274 := by
  obtain ⟨hlow, hhigh⟩ := floor_sub_floor_bounds samplesPerHline a n
  have hnonneg := samplesPerHline_nonneg
  rw [sum_lineSamples, outbufSamples]
  constructor
  · intro hfit
    by_contra hmore
    have hfloor : 770 ≤ ⌊(n : ℚ) * samplesPerHline⌋ := by
      have hn : (275 : ℚ) ≤ n := by exact_mod_cast (show 275 ≤ n by omega)
      have hmul := mul_le_mul_of_nonneg_right hn hnonneg
      refine Int.le_floor.mpr (le_trans ?_ hmul)
      rw [samplesPerHline_eq]
      norm_num
    omega
  · intro hn
    have hfloor : ⌊(n : ℚ) * samplesPerHline⌋ < 768 := by
      have hcast : (n : ℚ) ≤ 274 := by exact_mod_cast hn
      have hmul := mul_le_mul_of_nonneg_right hcast hnonneg
      refine Int.floor_lt.mpr (lt_of_le_of_lt hmul ?_)
      rw [samplesPerHline_eq]
      norm_num
    omega

/-- Before each line that is mixed the current `NDS_exec` has had 273 lines at most. -/
def FewLines (s : AudioState) (op : AudioOp) : Prop :=
  op = .dispcnt → s.param = .hBlank → s.lines < s.first + 274

theorem AudioInv.linesFit {s : AudioState} (h : AudioInv s) {op : AudioOp} (hfew : FewLines s op) :
    LinesFit s op := by
  intro hop hparam _
  have hlines := hfew hop hparam
  have hnonneg : ∀ x ∈ (List.range' s.first (s.lines + 1 - s.first)).map (lineSamples samplesPerHline),
      0 ≤ x := by
    intro x hx
    obtain ⟨k, -, rfl⟩ := List.mem_map.mp hx
    exact lineSamples_nonneg k samplesPerHline_nonneg
  have hrow := (lines_fit_iff s.first (s.lines + 1 - s.first)).mpr (by omega)
  refine le_trans ((List.Sublist.map _ ?_).sum_le_sum hnonneg) hrow
  have hfirst := h.first
  have hlength : s.lines + 1 - s.first = s.lines - s.first + 1 := by omega
  have hlast : s.first + (s.lines - s.first) = s.lines := by omega
  rw [hlength, List.range'_1_concat, hlast]
  exact h.mixed.append (.refl _)

/-- With at most 274 lines in every `NDS_exec` the mixer stays in the buffer. -/
theorem inOutbuf_of_fewLines (env : LineEnv) {ops : List AudioOp}
    (h : AtEach (audioStep env) FewLines audioInit ops) :
    AtEach (audioStep env) InOutbuf audioInit ops :=
  h.imp_of_kept (fun _ op hs hfew => (hs.inOutbuf_iff op).mpr (hs.linesFit hfew))
    (fun _ op hs _ => hs.step env op) audioInv_init

/-! ### A frame that is lengthened twice -/

section Lengthened

/-- The events of one line. -/
def hline : List AudioOp := [.dispcnt, .dispcnt, .dispcnt, .dispcnt]

def hlines (m : ℕ) : List AudioOp := (List.replicate m hline).flatten

/-- Line `v` is the current one, `n` lines with sound have been mixed in the first `NDS_exec`. -/
structure Sounding (s : AudioState) (param : DispcntEvent) (v n : ℕ) : Prop where
  param : s.param = param
  vcount : s.line.vcount.toNat = v
  vblankEnded : s.line.vblankEnded = false
  masteren : s.masteren = true
  lines : s.lines = n
  mixed : s.mixed = List.range' 0 n

variable (env : LineEnv) {s : AudioState} {param : DispcntEvent} {v n : ℕ}

theorem execHardwareHstart_running (rigorousTiming : Bool) {l : LineState} (hline : l.vcount.toNat ≠ 261)
    (hended : l.vblankEnded = false) :
    (execHardwareHstart rigorousTiming l).vblankEnded = false := by
  have hnext : l.vcount + 1 ≠ 262 := by
    intro heq
    have htoNat := congrArg BitVec.toNat heq
    rw [BitVec.toNat_add] at htoNat
    change (l.vcount.toNat + 1) % 2 ^ 32 = 262 at htoNat
    omega
  rw [execHardwareHstart, LineState.announceLine_vblankEnded, LineState.enterLine]
  split_ifs <;> exact hended

theorem AudioState.breakOut_of_running (h : s.line.vblankEnded = false) : s.breakOut = s := by
  rw [AudioState.breakOut, if_neg (by simp [h])]

theorem Sounding.hStart (h : Sounding s .hStart v n) (hv : v ≤ 262) (hnot : v ≠ 261) :
    Sounding (audioStep env s .dispcnt) .hStartIRQ (if v = 262 then 0 else v + 1) n := by
  have hended := execHardwareHstart_running env.rigorousTiming (by rwa [h.vcount]) h.vblankEnded
  have hvcount := execHardwareHstart_line env.rigorousTiming (h.vcount.trans_le hv)
  rw [h.vcount] at hvcount
  rw [audioStep, AudioState.execDispcnt, h.param, AudioState.breakOut_of_running hended]
  exact ⟨rfl, hvcount, hended, h.masteren, h.lines, h.mixed⟩

theorem Sounding.hStartIRQ (h : Sounding s .hStartIRQ v n) :
    Sounding (audioStep env s .dispcnt) .hDraw v n := by
  have hrunning := AudioState.breakOut_of_running (s := { s with param := .hDraw }) h.vblankEnded
  rw [audioStep, AudioState.execDispcnt, h.param, hrunning]
  exact ⟨rfl, h.vcount, h.vblankEnded, h.masteren, h.lines, h.mixed⟩

theorem Sounding.hDraw (h : Sounding s .hDraw v n) :
    Sounding (audioStep env s .dispcnt) .hBlank v n := by
  have hrunning := AudioState.breakOut_of_running (s := { s with param := .hBlank }) h.vblankEnded
  rw [audioStep, AudioState.execDispcnt, h.param, hrunning]
  exact ⟨rfl, h.vcount, h.vblankEnded, h.masteren, h.lines, h.mixed⟩

theorem Sounding.hBlank (h : Sounding s .hBlank v n) :
    Sounding (audioStep env s .dispcnt) .hStart v (n + 1) := by
  have hmixed : s.emulateCore.mixed = List.range' 0 (n + 1) := by
    rw [AudioState.emulateCore, if_pos h.masteren, h.lines, h.mixed, List.range'_1_concat, Nat.zero_add]
  have hrunning :=
    AudioState.breakOut_of_running (s := { s.emulateCore with param := .hStart }) h.vblankEnded
  rw [audioStep, AudioState.execDispcnt, h.param, hrunning]
  exact ⟨rfl, h.vcount, h.vblankEnded, h.masteren, congrArg (· + 1) h.lines, hmixed⟩

theorem Sounding.hline (h : Sounding s .hStart v n) (hv : v ≤ 262) (hnot : v ≠ 261) :
    Sounding (run (audioStep env) s hline) .hStart (if v = 262 then 0 else v + 1) (n + 1) :=
  (((h.hStart env hv hnot).hStartIRQ env).hDraw env).hBlank env

theorem Sounding.hlines (h : Sounding s .hStart v n) {m : ℕ} (hm : v + m ≤ 261) :
    Sounding (run (audioStep env) s (hlines m)) .hStart (v + m) (n + m) := by
  induction m generalizing s v n with
  | zero => exact h
  | succ m ih =>
    have hnext := h.hline env (by omega) (by omega)
    rw [if_neg (by omega)] at hnext
    have hrest := ih hnext (by omega)
    rw [show Sound.hlines (m + 1) = Sound.hline ++ Sound.hlines m from rfl, run_append]
    convert hrest using 1 <;> omega

/-- The counter is set back to the first line of the window. -/
def setBack : AudioOp := .write .arm7 .w16 regDispaVcount 202

theorem Sounding.setBack (h : Sounding s param 212 n) :
    Sounding (audioStep env s setBack) param 202 n := by
  have hwrite : writeReg env .arm7 .w16 regDispaVcount 202 s.line = { s.line with vcount := 202 } := by
    rw [writeReg, if_pos (by decide), if_pos (by rw [h.vcount]; decide)]
    rfl
  rw [Sound.setBack, audioStep, hwrite]
  exact ⟨h.param, rfl, h.vblankEnded, h.masteren, h.lines, h.mixed⟩

theorem Sounding.again (h : Sounding s .hStart 212 n) {m : ℕ} (hm : 202 + m ≤ 261) :
    Sounding (run (audioStep env) s (Sound.setBack :: Sound.hlines m)) .hStart (202 + m) (n + m) :=
  (h.setBack env).hlines env hm

/-- The first three events of a line. -/
theorem Sounding.drawn (h : Sounding s .hStart v n) (hv : v < 261) :
    Sounding (run (audioStep env) s [.dispcnt, .dispcnt, .dispcnt]) .hBlank (v + 1) n := by
  have hstart := h.hStart env (by omega) (by omega)
  rw [if_neg (by omega)] at hstart
  exact (hstart.hStartIRQ env).hDraw env

/-- Some run leads there. -/
def SoundsAt (param : DispcntEvent) (v n : ℕ) : Prop :=
  ∃ ops, Sounding (run (audioStep env) audioInit ops) param v n

variable {env} in
theorem SoundsAt.extend {param' : DispcntEvent} {v' n' : ℕ} (h : SoundsAt env param v n)
    (ops : List AudioOp)
    (hops : ∀ s, Sounding s param v n → Sounding (run (audioStep env) s ops) param' v' n') :
    SoundsAt env param' v' n' := by
  obtain ⟨before, hbefore⟩ := h
  refine ⟨before ++ ops, ?_⟩
  rw [run_append]
  exact hops _ hbefore

/-- The lines up to the first of 212, two times the window, and the rest up to line 254. -/
theorem soundsAt_lengthened : SoundsAt env .hBlank 254 274 := by
  have hinit : SoundsAt env .hStart 262 0 := ⟨[.master true], rfl, rfl, rfl, rfl, rfl, rfl⟩
  have hzero : SoundsAt env .hStart 0 1 :=
    hinit.extend hline fun s h => by simpa using h.hline env (by decide) (by decide)
  have hwindow : SoundsAt env .hStart (0 + 212) (1 + 212) :=
    hzero.extend (hlines 212) fun s h => h.hlines env (by decide)
  have hagain : SoundsAt env .hStart (202 + 10) (1 + 212 + 10) :=
    hwindow.extend (setBack :: hlines 10) fun s h => h.again env (by decide)
  have hrest : SoundsAt env .hStart (202 + 51) (1 + 212 + 10 + 51) :=
    hagain.extend (setBack :: hlines 51) fun s h => h.again env (by decide)
  exact hrest.extend [.dispcnt, .dispcnt, .dispcnt] fun s h => h.drawn env (by decide)

/-- Two writes to VCOUNT make a frame of more lines than the buffer has room for. -/
theorem exists_overflow : ∃ ops, ¬ AtEach (audioStep env) InOutbuf audioInit ops := by
  obtain ⟨ops, hsounding⟩ := soundsAt_lengthened env
  refine ⟨ops ++ [.dispcnt], fun h => ?_⟩
  have hinv : AudioInv (run (audioStep env) audioInit ops) :=
    run_invariant (fun s op hs => hs.step env op) audioInv_init ops
  have hfit := (hinv.inOutbuf_iff .dispcnt).mp (atEach_concat.mp h).2 rfl hsounding.param hsounding.masteren
  have hlines : List.range' 0 274 ++ [274] = List.range' 0 275 := List.range'_1_concat.symm
  rw [hsounding.mixed, hsounding.lines, hlines, lines_fit_iff] at hfit
  exact absurd hfit (by decide)

end Lengthened

/-- The guest can make the mixer run over the buffer. -/
theorem outbuf_overflow : ∃ (env : LineEnv) (ops : List AudioOp),
    ¬ AtEach (audioStep env) InOutbuf audioInit ops :=
  ⟨⟨false, fun _ _ _ _ r => r⟩, exists_overflow _⟩

end Desmume.Sound
