import Desmume.Cheat.ArLoops

/-! The copy of the parameter bytes, E. Its length is compared with the place of the last byte of the
code array, not with the lines of the list. -/

namespace Desmume.Cheat
open Library

variable {μ : Type*} {bus : ArBus μ} {list : CheatsList}

namespace CheatsList

/-- The same code, with anything behind it. -/
def SameCode (list list' : CheatsList) : Prop :=
  list'.num = list.num ∧ ∀ j < list.num, list'.code j = list.code j

/-- How many bytes the list has behind a line. -/
def bytesBehind (list : CheatsList) (i : ℕ) : ℕ := 8 * (list.num - i - 1)

end CheatsList

/-- The memory with bytes of the code behind the line `i` written to an address. -/
def writeBytes (bus : ArBus μ) (list : CheatsList) (i : ℕ) (address : BitVec 32) (n : ℕ) (mem : μ) :
    μ := (List.range n).foldl
  (fun mem t => bus.write08 (address + BitVec.ofNat 32 t) (list.byte (i + 1) t) mem) mem

/-- The line `i` copies the bytes that are asked for and that the list has, whatever is behind it,
and the interpreter goes on behind them. -/
structure CheatsList.ParametersCopied (list : CheatsList) (i : ℕ) : Prop where
  reads : ∀ {μ : Type} (bus : ArBus μ) (list' : CheatsList) (s : ArState μ), s.i = i → s.ifFlag = 0 →
    list.SameCode list' → s.step bus list' = s.step bus list
  copies : ∀ {μ : Type} (bus : ArBus μ) (s : ArState μ), s.i = i → s.ifFlag = 0 →
    (s.step bus list).data.mem = writeBytes bus list i (ArLine.hi (list.code i) + s.data.offset)
      (min (list.code i).2.toNat (list.bytesBehind i)) s.data.mem
  resumes : ∀ {μ : Type} (bus : ArBus μ) (s : ArState μ), s.i = i → s.ifFlag = 0 →
    (s.step bus list).InList list ∨ i + ((list.code i).2.toNat + 7) / 8 + 1 < list.num →
      (s.step bus list).i = (i + ((list.code i).2.toNat + 7) / 8 + 1 : ℕ)

/-- How many bytes are really copied. -/
def copied (i : ℕ) (lo : BitVec 32) : ℕ := if lo ≤ ArData.maxByteReadLocation i then lo.toNat else 0

theorem toNat_maxByteReadLocation {i : ℕ} (h : i < maxXxCode) :
    (ArData.maxByteReadLocation i).toNat = if i = 1023 then 2 ^ 32 - 1 else 8 * (1023 - i) - 1 := by
  rw [maxXxCode] at h
  rw [ArData.maxByteReadLocation, BitVec.toNat_ofInt, maxXxCode]
  split_ifs <;> omega

theorem copied_eq {i : ℕ} (h : i < maxXxCode) (lo : BitVec 32) :
    copied i lo = if i = 1023 ∨ lo.toNat ≤ 8 * (1023 - i) - 1 then lo.toNat else 0 := by
  have hlo := lo.isLt
  have hiff : lo ≤ ArData.maxByteReadLocation i ↔ i = 1023 ∨ lo.toNat ≤ 8 * (1023 - i) - 1 := by
    rw [BitVec.le_def, toNat_maxByteReadLocation h]
    split_ifs <;> omega
  simp only [copied, hiff]

theorem command_parameters (bus : ArBus μ) (d : ArData μ) {i : ℤ} (h : (list.line i).type = 0xE) :
    d.command bus list i = (d.copyParameters bus list i (list.line i).hi (list.line i).lo, none) := by
  simp only [ArData.command, h]

section Step

variable {s : ArState μ} {i : ℕ}

/-- What the line does. -/
theorem step_parameters (bus : ArBus μ) (hs : s.i = i) (h0 : s.ifFlag = 0)
    (hline : ArLine.type (list.code i) = 0xE) :
    s.step bus list =
      { s with
        i := i + ArLine.parameterLines (list.code i) + 1
        data := { s.data with
          mem := writeBytes bus list i (ArLine.hi (list.code i) + s.data.offset)
            (copied i (list.code i).2) s.data.mem } } := by
  have hcode : list.line s.i = list.code i := by
    rw [CheatsList.line, hs, Int.toNat_natCast]
  have htype : (list.line s.i).type = 0xE := by rwa [hcode]
  have hstraight : (list.line s.i).IsStraight := by
    simp only [ArLine.IsStraight, ArLine.IsIf, ArLine.IsFor, ArLine.IsNext, ArLine.IsNextFlush, htype]
    omega
  have hwidth : (list.line s.i).width = ArLine.parameterLines (list.code i) := by
    rw [ArLine.width, if_pos htype, hcode]
  rw [step_straight bus h0 hstraight, command_parameters bus s.data htype, hwidth, hcode, hs]
  have hcopy : s.data.copyParameters bus list i (ArLine.hi (list.code i)) (ArLine.lo (list.code i)) =
      { s.data with
        mem := writeBytes bus list i (ArLine.hi (list.code i) + s.data.offset)
          (copied i (list.code i).2) s.data.mem } := by
    rw [ArData.copyParameters, copied]
    by_cases hle : (list.code i).2 ≤ ArData.maxByteReadLocation i
    · rw [if_pos hle]
      exact if_pos hle
    · rw [if_neg hle]
      exact if_neg hle
  rw [hcopy]

end Step

section Spec

variable {i : ℕ}

/-- Only lines of the list are behind the bytes it has. -/
theorem writeBytes_sameCode {list' : CheatsList} (h : list.SameCode list') {n : ℕ}
    (hn : n ≤ list.bytesBehind i) (address : BitVec 32) (m : μ) :
    writeBytes bus list' i address n m = writeBytes bus list i address n m := by
  refine List.foldl_ext _ _ _ fun mem t ht => ?_
  have hlt : i + 1 + t / 8 < list.num := by
    have := List.mem_range.mp ht
    rw [CheatsList.bytesBehind] at hn
    omega
  have hcode : list'.line (i + 1 + (t / 8 : ℕ)) = list.line (i + 1 + (t / 8 : ℕ)) := h.2 _ hlt
  rw [CheatsList.byte, CheatsList.byte, hcode]

/-- A memory that only records the stores. -/
def storeLog : ArBus (List (BitVec 32 × BitVec 8)) where
  read32 _ m := (0, m)
  read16 _ m := (0, m)
  read08 _ m := (0, m)
  write32 _ _ m := m
  write16 _ _ m := m
  write08 a v m := (a, v) :: m

theorem length_writeBytes_storeLog (address : BitVec 32) (n : ℕ) (m : List (BitVec 32 × BitVec 8)) :
    (writeBytes storeLog list i address n m).length = n + m.length := by
  induction n with
  | zero => exact (Nat.zero_add _).symm
  | succ n ih =>
    rw [writeBytes, List.range_succ, List.foldl_concat]
    change (writeBytes storeLog list i address n m).length + 1 = _
    rw [ih]
    omega

/-- The specification is one of the number of bytes and of the next line. -/
theorem parametersCopied_iff_copied (hi : i < list.num) (hline : ArLine.type (list.code i) = 0xE) :
    list.ParametersCopied i ↔
      copied i (list.code i).2 = min (list.code i).2.toNat (list.bytesBehind i) ∧
        (i + ArLine.parameterLines (list.code i) + 1 < list.num ∨
            i + ((list.code i).2.toNat + 7) / 8 + 1 < list.num →
          ArLine.parameterLines (list.code i) = ((list.code i).2.toNat + 7) / 8) := by
  constructor
  · intro h
    let s : ArState (List (BitVec 32 × BitVec 8)) := { ArState.start [] with i := i }
    have hstep := step_parameters storeLog (s := s) rfl rfl hline
    have hcopies := h.copies storeLog s rfl rfl
    have hresumes := h.resumes storeLog s rfl rfl
    rw [hstep] at hcopies
    rw [ArState.InList, hstep] at hresumes
    dsimp only at hresumes
    refine ⟨?_, fun hin => ?_⟩
    · have hlength := congrArg List.length hcopies
      rw [length_writeBytes_storeLog, length_writeBytes_storeLog] at hlength
      exact Nat.add_right_cancel hlength
    · have := hresumes (by omega)
      omega
  · rintro ⟨hcopied, hlines⟩
    refine ⟨fun bus list' s hs h0 hsame => ?_, fun bus s hs h0 => ?_, fun bus s hs h0 hin => ?_⟩
    · have hcode : list'.code i = list.code i := hsame.2 i hi
      have hline' : ArLine.type (list'.code i) = 0xE := by rwa [hcode]
      have hle : copied i (list.code i).2 ≤ list.bytesBehind i := hcopied.trans_le (min_le_right _ _)
      rw [step_parameters bus hs h0 hline, step_parameters bus hs h0 hline', hcode,
        writeBytes_sameCode hsame hle]
    · rw [step_parameters bus hs h0 hline, hcopied]
    · rw [ArState.InList, step_parameters bus hs h0 hline] at hin
      dsimp only at hin
      rw [step_parameters bus hs h0 hline, hlines (by omega)]
      push_cast
      rfl

theorem toNat_parameterLines (line : ArLine) :
    line.parameterLines = (line.2.toNat + 7) % 2 ^ 32 / 8 := by
  rw [ArLine.parameterLines, ArLine.lo, BitVec.toNat_udiv, BitVec.toNat_add]
  rfl

end Spec

/-- The parameters are copied as the list has them exactly if they end in the list and before the
last byte of the array, or if the last line of a list asks for more than the array has behind it. -/
theorem parametersCopied_iff (list : CheatsList) (i : ℕ) (hi : i < list.num)
    (hline : ArLine.type (list.code i) = 0xE) :
    list.ParametersCopied i ↔
      (list.code i).2.toNat ≤ 8 * (list.num - i - 1) ∧
          ((list.code i).2 = 0 ∨ (list.code i).2.toNat < 8 * (maxXxCode - 1 - i)) ∨
        i + 1 = list.num ∧ i + 1 < maxXxCode ∧
          8 * (maxXxCode - 1 - i) ≤ (list.code i).2.toNat := by
  have hnum := list.num_le
  have hlo := (list.code i).2.isLt
  have hzero : (list.code i).2 = 0 ↔ (list.code i).2.toNat = 0 := by
    rw [← BitVec.toNat_inj]
    rfl
  rw [parametersCopied_iff_copied hi hline, copied_eq (hi.trans_le hnum), toNat_parameterLines, hzero,
    CheatsList.bytesBehind]
  rw [maxXxCode] at hnum ⊢
  generalize (list.code i).2.toNat = lo at *
  split_ifs <;> omega

/-- A copy of one line. -/
def copyList (lo : BitVec 32) : CheatsList where
  code
    | 0 => (0xE2000000#32, lo)
    | _ => (0, 0)
  num := 2
  num_le := by decide

theorem parametersCopied_iff_copyList : (copyList 8).ParametersCopied 0 :=
  (parametersCopied_iff (copyList 8) 0 (by decide) (by decide)).mpr (by decide)

/-- A copy in the last line of a full list. -/
def fullList : CheatsList where
  code j := if j = 1023 then (0xE2000000#32, 4) else (0, 0)
  num := maxXxCode
  num_le := le_rfl

/-- It reads behind the code array. -/
theorem fullList_not_copied : ¬ fullList.ParametersCopied 1023 := by
  rw [parametersCopied_iff_copied (by decide) (by decide)]
  exact fun h => absurd h.1 (by decide)

end Desmume.Cheat
