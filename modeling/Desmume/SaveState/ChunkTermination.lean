import Desmume.Library.Loop
import Desmume.SaveState.Sformat

/-! Termination of `ReadStateChunk`: a round moves on in the stream or leaves the loop, unless it
skips an unknown field whose byte count is negative as an `int`. -/

namespace Desmume.SaveState
open Library Filter

/-- The loop between two rounds: still reading, or left with a result, which is missing when an
access left the stream. -/
inductive ChunkLoop where
  | running (r : ChunkReader)
  | left (result : Option (Bool × ChunkReader))

namespace ChunkLoop

/-- The condition of the loop. -/
def Reading (stop : ℤ) : ChunkLoop → Prop
  | running r => r.is.ftell < stop
  | left _ => False

instance (stop : ℤ) : DecidablePred (Reading stop)
  | running r => inferInstanceAs (Decidable (r.is.ftell < stop))
  | left _ => inferInstanceAs (Decidable False)

/-- One round. -/
def round (table : List SFormat) : ChunkLoop → ChunkLoop
  | running r =>
    match readEntry table r with
    | some (true, r) => running r
    | result => left result
  | left result => left result

def result : ChunkLoop → Option (Bool × ChunkReader)
  | running r => some (true, r)
  | left result => result

end ChunkLoop

open ChunkLoop

section Loop

variable {table : List SFormat} {stop : ℤ} {n : ℕ} {r r' : ChunkReader}

theorem round_running_iff : round table (running r) = running r' ↔
    readEntry table r = some (true, r') := by
  rw [ChunkLoop.round]
  rcases readEntry table r with _ | ⟨_ | _, r₁⟩ <;> simp

theorem round_left_iff {result : Option (Bool × ChunkReader)} :
    round table (running r) = left result ↔
      readEntry table r = result ∧ ∀ r', result ≠ some (true, r') := by
  rw [ChunkLoop.round]
  rcases readEntry table r with _ | ⟨_ | _, r₁⟩
  · simp only [left.injEq, iff_self_and]
    rintro rfl r' h
    cases h
  · simp only [left.injEq, iff_self_and]
    rintro rfl r' h
    cases h
  · simp only [reduceCtorEq, false_iff, not_and, not_forall, not_not]
    rintro rfl
    exact ⟨r₁, rfl⟩

theorem runWhile_left {result : Option (Bool × ChunkReader)} :
    runWhile (Reading stop) (round table) n (left result) = some (left result) := by
  cases n <;> exact if_neg not_false

/-- The loop with rounds to spare has the result of the loop that ended. -/
theorem readStateChunkLoop_of_runWhile {s : ChunkLoop}
    (h : runWhile (Reading stop) (round table) n (running r) = some s) :
    readStateChunkLoop table stop (n + 1) r = s.result := by
  induction n generalizing r with
  | zero =>
    rw [runWhile] at h
    split_ifs at h with hread
    obtain rfl := Option.some.inj h
    exact if_neg hread
  | succ n ih =>
    rw [runWhile] at h
    split_ifs at h with hread
    · rw [readStateChunkLoop]
      refine (if_pos hread).trans ?_
      cases hround : round table (running r) with
      | running r' =>
        rw [hround] at h
        rw [round_running_iff.mp hround]
        exact ih h
      | left result =>
        obtain ⟨hr, hleft⟩ := round_left_iff.mp hround
        rw [hround, runWhile_left] at h
        obtain rfl := Option.some.inj h
        rw [hr]
        rcases result with _ | ⟨_ | _, r'⟩
        · rfl
        · rfl
        · exact absurd rfl (hleft r')
    · obtain rfl := Option.some.inj h
      exact if_neg hread

end Loop

/-- The header of the next field, and the stream behind it. -/
def readHeader (is : EmufileMemory) :
    Option (List Byte × BitVec 32 × BitVec 32 × EmufileMemory) := do
  let (toa, is) ← is.fread 4
  let (sz?, is) ← is.read32le
  let (count?, is) ← is.read32le
  let sz ← sz?
  let count ← count?
  return (toa, sz, count, is)

/-- The next field is unknown, and skipping it leads back to where it begins or before. -/
def SkipsBack (table : List SFormat) : ChunkLoop → Prop
  | running r => ∃ toa sz count is, readHeader r.is = some (toa, sz, count, is) ∧
      checkS r.guessSF table sz count toa = none ∧ (sz * count).toInt ≤ -12
  | left _ => False

/-- The header of the next field lies in the vector. -/
def InVec (is : EmufileMemory) : Prop := 0 ≤ is.pos ∧ is.pos + 12 ≤ is.vec.length

instance (is : EmufileMemory) : Decidable (InVec is) := inferInstanceAs (Decidable (_ ∧ _))

/-! What a round does. -/

section Round

variable {table : List SFormat} {f g : EmufileMemory} {r r' : ChunkReader}

theorem fread_spec {n : ℕ} {data : List Byte} (hn : n < 2 ^ 32)
    (h : f.fread n = some (data, g)) :
    g.vec = f.vec ∧ data.length ≤ n ∧
      (0 ≤ f.pos ∧ f.pos + data.length ≤ f.vec.length ∧ g.pos = s32 (f.pos + data.length) ∨
        data = [] ∧ g.failbit = true ∧ g.pos = f.pos) ∧ (g.failbit = false → data.length = n) := by
  rw [EmufileMemory.fread] at h
  split_ifs at h with hlen
  · obtain ⟨rfl, rfl⟩ := Prod.mk.inj (Option.some.inj h)
    exact ⟨rfl, Nat.zero_le _, .inr ⟨rfl, rfl, rfl⟩, fun hfail => nomatch hfail⟩
  · obtain ⟨bytes, hload, hg⟩ := Option.map_eq_some_iff.mp h
    obtain ⟨rfl, rfl⟩ := Prod.mk.inj hg
    rw [loadBytes] at hload
    split_ifs at hload with hin
    obtain rfl := Option.some.inj hload
    rw [Nat.mod_eq_of_lt hn] at hin ⊢
    have hle : min (u32 (s32 (f.len - f.pos))) n ≤ n := min_le_right ..
    generalize min (u32 (s32 (f.len - f.pos))) n = todo at hin hle ⊢
    have hdata : ((f.vec.drop f.pos.toNat).take todo).length = todo := by
      rw [List.length_take, List.length_drop]
      omega
    rw [hdata]
    refine ⟨rfl, hle, .inl ⟨hin.1, hin.2, rfl⟩, fun hfail => ?_⟩
    have hfull : decide (todo < n) = false := (Bool.or_eq_false_iff.mp hfail).2
    exact le_antisymm hle (not_lt.mp (of_decide_eq_false hfull))

theorem read32le_spec {x : BitVec 32} (h : f.read32le = some (some x, g)) :
    g.vec = f.vec ∧ 0 ≤ f.pos ∧ f.pos + 4 ≤ f.vec.length ∧ g.pos = s32 (f.pos + 4) := by
  rw [EmufileMemory.read32le] at h
  obtain ⟨⟨data, g'⟩, hread, hx⟩ := Option.map_eq_some_iff.mp h
  obtain ⟨hshort, rfl⟩ := Prod.mk.inj hx
  obtain ⟨hvec, hle, hpos, -⟩ := fread_spec (by decide) hread
  have hfour : data.length = 4 := by
    by_contra hne
    rw [if_pos (show data.length < 4 by omega)] at hshort
    cases hshort
  rcases hpos with ⟨h0, hin, hpos⟩ | ⟨rfl, -⟩
  · rw [hfour] at hin hpos
    exact ⟨hvec, h0, hin, hpos⟩
  · cases hfour

/-- A round after which the loop goes on has read a header and what belongs to it. -/
theorem readEntry_continues (hrange : r.is.vec.length < 2 ^ 31 ∨ r.is.pos < 2 ^ 31)
    (h : readEntry table r = some (true, r')) :
    ∃ toa sz count is, readHeader r.is = some (toa, sz, count, is) ∧ is.vec = r.is.vec ∧
      InVec r.is ∧ is.pos = s32 (r.is.pos + 12) ∧
      ((∃ data, is.fread (sz * count).toNat = some (data, r'.is)) ∨
        checkS r.guessSF table sz count toa = none ∧
          r'.is = is.fseek (sz * count).toInt .cur) := by
  rw [readEntry] at h
  rcases h₁ : r.is.fread 4 with _ | ⟨toa, f₁⟩
  · simp only [h₁, Option.bind_eq_bind, Option.bind_none, reduceCtorEq] at h
  have hok : f₁.failbit = false := by
    by_contra hfail
    rw [Bool.not_eq_false] at hfail
    simp only [h₁, hfail, Option.bind_eq_bind, Option.bind_some, Option.pure_def, if_true,
      Option.some.injEq, Prod.mk.injEq, Bool.false_eq_true, false_and] at h
  simp only [h₁, hok, Option.bind_eq_bind, Option.bind_some, Option.pure_def, Bool.false_eq_true,
    if_false] at h
  rcases h₂ : f₁.read32le with _ | ⟨_ | sz, f₂⟩
  · simp only [h₂, Option.bind_none, reduceCtorEq] at h
  · simp only [h₂, Option.bind_some, Option.some.injEq, Prod.mk.injEq, Bool.false_eq_true,
      false_and] at h
  simp only [h₂, Option.bind_some] at h
  rcases h₃ : f₂.read32le with _ | ⟨_ | count, f₃⟩
  · simp only [h₃, Option.bind_none, reduceCtorEq] at h
  · simp only [h₃, Option.bind_some, Option.some.injEq, Prod.mk.injEq, Bool.false_eq_true,
      false_and] at h
  simp only [h₃, Option.bind_some] at h
  obtain ⟨hvec₁, -, hpos₁, hfull⟩ := fread_spec (by decide) h₁
  obtain ⟨hvec₂, h0₂, hin₂, hpos₂⟩ := read32le_spec h₂
  obtain ⟨hvec₃, h0₃, hin₃, hpos₃⟩ := read32le_spec h₃
  rw [hvec₁] at hin₂ hvec₂
  rw [hvec₂] at hin₃ hvec₃
  have hstart : 0 ≤ r.is.pos ∧ f₁.pos = s32 (r.is.pos + 4) ∧ r.is.pos + 4 ≤ r.is.vec.length := by
    rcases hpos₁ with ⟨h0, hin, hpos⟩ | ⟨-, hfail, -⟩
    · rw [hfull hok] at hin hpos
      exact ⟨h0, hpos, hin⟩
    · rw [hok] at hfail
      cases hfail
  obtain ⟨h0, hpos₁, hin₁⟩ := hstart
  -- a wrapped position would be negative
  have hfit₁ : r.is.pos + 4 < 2 ^ 31 := by
    by_contra hwrap
    have := s32_neg (not_lt.mp hwrap) (by omega)
    omega
  rw [s32_of_fits (by omega) hfit₁] at hpos₁
  rw [hpos₁] at hpos₂ hin₂
  have hfit₂ : r.is.pos + 4 + 4 < 2 ^ 31 := by
    by_contra hwrap
    have := s32_neg (not_lt.mp hwrap) (by omega)
    omega
  rw [s32_of_fits (by omega) hfit₂] at hpos₂
  rw [hpos₂] at hpos₃ hin₃
  refine ⟨toa, sz, count, f₃, by simp [readHeader, h₁, h₂, h₃], hvec₃, ⟨h0, by omega⟩, ?_, ?_⟩
  · rw [hpos₃]
    congr 1
    omega
  rcases hcheck : checkS r.guessSF table sz count toa with _ | i
  · right
    simp only [hcheck, Option.some.injEq, Prod.mk.injEq, true_and] at h
    exact ⟨rfl, by rw [← h]⟩
  · left
    simp only [hcheck, Option.bind_eq_some_iff, Option.some.injEq, Prod.mk.injEq, true_and] at h
    obtain ⟨⟨data, g⟩, hread, hr⟩ := h
    refine ⟨data, ?_⟩
    rw [← hr]
    exact hread

/-- The vector has the size of an `int`, or it was grown by a seek behind which nothing can be
read. -/
def ChunkInv : ChunkLoop → Prop
  | running r => r.is.vec.length < 2 ^ 31 ∨ ¬ InVec r.is ∧ r.is.pos < 2 ^ 31
  | left _ => True

/-- What is left of the chunk. -/
def bytesLeft (stop : ℤ) : ChunkLoop → ℕ
  | running r => if InVec r.is then (stop - r.is.pos).toNat + 2 else 1
  | left _ => 0

theorem not_inVec_of_neg {is : EmufileMemory} (h : is.pos < 0) : ¬ InVec is :=
  fun hin => absurd hin.1 (not_le.mpr h)

theorem fseek_spec (f : EmufileMemory) (offset : ℤ) :
    (f.fseek offset .cur).pos = s32 (f.pos + offset) ∧
      ((f.fseek offset .cur).vec = f.vec ∨ ¬ InVec (f.fseek offset .cur)) := by
  have hpos : (f.fseek offset .cur).pos = s32 (f.pos + offset) := by
    rw [EmufileMemory.fseek, EmufileMemory.reserve]
    split_ifs <;> rfl
  refine ⟨hpos, ?_⟩
  by_cases hneg : s32 (f.pos + offset) < 0
  · exact .inr (not_inVec_of_neg (hpos ▸ hneg))
  rw [EmufileMemory.fseek, EmufileMemory.reserve]
  split_ifs with hgrow
  · right
    rintro ⟨-, hin⟩
    rw [List.takeD_length] at hin
    simp only [EmufileMemory.seekPos, u32] at hin
    omega
  · exact .inl rfl

/-- A round that goes on stands in a vector of that size; it has moved on, cannot read again, or
has skipped back. -/
theorem round_continues (hinv : ChunkInv (running r))
    (h : round table (running r) = running r') :
    InVec r.is ∧ ChunkInv (running r') ∧
      (SkipsBack table (running r) ∨ ¬ InVec r'.is ∨ r.is.pos < r'.is.pos) := by
  obtain ⟨toa, sz, count, is, hheader, hvec, hin, hpos, hrest⟩ :=
    readEntry_continues (hinv.imp_right And.right) (round_running_iff.mp h)
  have hlen : r.is.vec.length < 2 ^ 31 := hinv.resolve_right fun hout => hout.1 hin
  have hend := hin.2
  have hbegin := hin.1
  rw [s32_of_fits (by omega) (by omega)] at hpos
  refine ⟨hin, ?_⟩
  rcases hrest with ⟨data, hread⟩ | ⟨hcheck, hseek⟩
  · obtain ⟨hvec', -, hpos', -⟩ := fread_spec (sz * count).isLt hread
    rw [hvec, hpos] at hpos'
    refine ⟨.inl (by rwa [hvec', hvec]), .inr (.inr ?_)⟩
    rcases hpos' with ⟨-, hdata, hpos'⟩ | ⟨-, -, hpos'⟩
    · rw [hpos', s32_of_fits (by omega) (by omega)]
      omega
    · omega
  · obtain ⟨hpos', hgrown⟩ := fseek_spec is (sz * count).toInt
    rw [← hseek, hpos] at hpos'
    rw [← hseek, hvec] at hgrown
    refine ⟨?_, ?_⟩
    · rcases hgrown with hsame | hout
      · exact .inl (by rwa [hsame])
      · exact .inr ⟨hout, hpos' ▸ s32_lt _⟩
    · by_cases hback : (sz * count).toInt ≤ -12
      · exact .inl ⟨toa, sz, count, is, hheader, hcheck, hback⟩
      · right
        have hmax := BitVec.toInt_lt (x := sz * count)
        by_cases hfit : r.is.pos + 12 + (sz * count).toInt < 2 ^ 31
        · right
          rw [hpos', s32_of_fits (by omega) hfit]
          omega
        · left
          refine not_inVec_of_neg (hpos' ▸ s32_neg (not_lt.mp hfit) ?_)
          omega

theorem chunkInv_round {s : ChunkLoop} (hinv : ChunkInv s) : ChunkInv (round table s) := by
  cases s with
  | left result => exact trivial
  | running r =>
    cases hround : round table (running r) with
    | left result => exact trivial
    | running r' => exact (round_continues hinv hround).2.1

/-- A round that does not skip back lowers what is left. -/
theorem bytesLeft_round {stop : ℤ} {s : ChunkLoop} (hinv : ChunkInv s) (hread : Reading stop s)
    (hback : ¬ SkipsBack table s) : bytesLeft stop (round table s) < bytesLeft stop s := by
  cases s with
  | left result => exact hread.elim
  | running r =>
    have hmore : r.is.pos < stop := hread
    cases hround : round table (running r) with
    | left result =>
      simp only [bytesLeft]
      split_ifs <;> omega
    | running r' =>
      obtain ⟨hin, -, hstep⟩ := round_continues hinv hround
      simp only [bytesLeft, if_pos hin]
      split_ifs with hin'
      · rcases hstep with h | h | h
        · exact absurd h hback
        · exact absurd hin' h
        · omega
      · omega

end Round

/-- The loop of `ReadStateChunk` terminates exactly if it skips back finitely often. -/
theorem readStateChunk_terminates_iff (table : List SFormat) (is : EmufileMemory)
    (his : is.vec.length < 2 ^ 31) (mem : Memory) (size : ℤ) :
    Terminates (Reading (s32 (is.ftell + size))) (round table) (running ⟨is, mem, none⟩) ↔
      ∀ᶠ n in atTop,
        Runs (Reading (s32 (is.ftell + size))) (round table) (running ⟨is, mem, none⟩) n →
          ¬ SkipsBack table ((round table)^[n] (running ⟨is, mem, none⟩)) :=
  terminates_iff_eventually (bytesLeft (s32 (is.ftell + size))) (fun _ h _ => chunkInv_round h)
    (fun _ h hread hback => bytesLeft_round h hread hback) (.inl his)

section Sample

/-- A field of an unknown name without data. -/
def emptyField : EmufileMemory := .ofUnderlying [0, 0, 0, 0, 0, 0, 0, 0, 1, 0, 0, 0]

theorem emptyField_terminates : Terminates (Reading (s32 (emptyField.ftell + 12))) (round [])
    (running ⟨emptyField, fun _ => 0, none⟩) := by
  refine (readStateChunk_terminates_iff [] emptyField (by decide) (fun _ => 0) 12).mpr ?_
  refine eventually_atTop.mpr ⟨1, fun n hn hruns => ?_⟩
  exact absurd (hruns 1 hn) (show ¬ (12 : ℤ) < 12 by decide)

/-- A field of an unknown name with one element of −12 bytes, read up to a position. -/
def backwardField (pos : ℤ) : EmufileMemory :=
  ⟨[0, 0, 0, 0, 0xF4, 0xFF, 0xFF, 0xFF, 1, 0, 0, 0], pos, 12, false⟩

theorem backwardField_round (mem : Memory) :
    round [] (running ⟨backwardField 0, mem, none⟩) = running ⟨backwardField 0, mem, none⟩ := by
  have h₁ : (backwardField 0).fread 4 = some ([0, 0, 0, 0], backwardField 4) := by decide
  have h₂ : (backwardField 4).read32le = some (some 0xFFFFFFF4, backwardField 8) := by decide
  have h₃ : (backwardField 8).read32le = some (some 1, backwardField 12) := by decide
  have h₄ : (backwardField 12).fseek (0xFFFFFFF4 * 1 : BitVec 32).toInt .cur =
      backwardField 0 := by
    decide
  have hok : (backwardField 4).failbit = false := rfl
  rw [round_running_iff, readEntry]
  simp only [h₁, h₂, h₃, hok, checkS, checkFrom, Option.bind_eq_bind, Option.bind_some,
    Option.pure_def, Bool.false_eq_true, if_false, h₄]

/-- The loop reads the field again and again. -/
theorem backwardField_diverges :
    ¬ ∀ (table : List SFormat) (is : EmufileMemory), is.vec.length < 2 ^ 31 →
      ∀ (mem : Memory) (size : ℤ),
        Terminates (Reading (s32 (is.ftell + size))) (round table) (running ⟨is, mem, none⟩) := by
  intro h
  refine not_terminates_of_trap (P := fun s => s = running ⟨backwardField 0, fun _ => 0, none⟩) ?_
    rfl (h [] (backwardField 0) (by decide) (fun _ => 0) 12)
  rintro s rfl
  exact ⟨show (0 : ℤ) < 12 by decide, backwardField_round _⟩

end Sample

end Desmume.SaveState
