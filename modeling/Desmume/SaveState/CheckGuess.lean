import Desmume.SaveState.SformatRoundTrip
import Mathlib.Data.List.Nodup
import Mathlib.Data.List.TakeWhile

/-! The guess of `CheckS` against the scan of the whole table: it fails on the terminator, so that
a chunk loses the row that follows the last one of the table. -/

namespace Desmume.SaveState
open Library

/-- No two rows share a descriptor. -/
def DistinctDescs (table : List SFormat) : Prop := ((rows table).map SFormat.desc).Nodup

instance (table : List SFormat) : Decidable (DistinctDescs table) :=
  inferInstanceAs (Decidable (List.Nodup _))

/-- The guesses of `ReadStateChunk`: none, a row, or the position behind one. -/
def IsGuess (table : List SFormat) (guess : Option ℕ) : Prop :=
  ∀ i ∈ guess, i ≤ (rows table).length

variable {table : List SFormat} {sf : SFormat} {i : ℕ}

theorem v_ne_zero_of_mem_rows (h : sf ∈ rows table) : sf.v ≠ 0 := by
  simpa using List.mem_takeWhile_imp h

theorem getElem?_of_rows (h : (rows table)[i]? = some sf) : table[i]? = some sf := by
  obtain ⟨hlt, hget⟩ := List.getElem?_eq_some_iff.mp h
  rw [← hget]
  exact List.prefix_iff_getElem?.mp (List.takeWhile_prefix _) i hlt

/-- The row behind the rows ends the table. -/
theorem v_eq_zero_of_terminator (h : table[(rows table).length]? = some sf) : sf.v = 0 := by
  induction table with
  | nil => cases h
  | cons row table ih =>
    by_cases hv : row.v = 0
    · rw [rows_cons_of_null hv] at h
      obtain rfl := Option.some.inj h
      exact hv
    · rw [rows_cons hv] at h
      exact ih h

section Scan

variable (size count : BitVec 32) (desc : List Byte)

/-- The scan stops at the one row that has the descriptor. -/
theorem checkFrom_of_row (hd : DistinctDescs table) (hi : (rows table)[i]? = some sf) (k : ℕ) :
    checkFrom size count sf.desc table k =
      if sf.size ≠ size ∨ sf.count ≠ count then none else some (k + i) := by
  induction table generalizing i k with
  | nil => cases hi
  | cons row table ih =>
    by_cases hv : row.v = 0
    · rw [rows_cons_of_null hv] at hi
      cases hi
    · rw [rows_cons hv] at hi
      rw [DistinctDescs, rows_cons hv, List.map_cons, List.nodup_cons] at hd
      rw [checkFrom, if_neg hv]
      cases i with
      | zero =>
        obtain rfl := Option.some.inj hi
        rw [if_pos rfl, Nat.add_zero]
      | succ i =>
        have hmem : sf ∈ rows table := List.mem_of_getElem? hi
        have hne : sf.desc ≠ row.desc := fun h =>
          hd.1 (h ▸ List.mem_map_of_mem hmem)
        rw [if_neg hne, ih hd.2 hi (k + 1), Nat.add_right_comm, Nat.add_assoc]

theorem checkS_row (hd : DistinctDescs table) (hi : (rows table)[i]? = some sf) :
    checkS (some i) table size count desc = checkS none table size count desc := by
  have hv := v_ne_zero_of_mem_rows (List.mem_of_getElem? hi)
  simp only [checkS, getElem?_of_rows hi, if_neg hv]
  by_cases hdesc : desc = sf.desc
  · rw [if_pos hdesc, hdesc, checkFrom_of_row size count hd hi, Nat.zero_add]
  · rw [if_neg hdesc]

theorem checkS_terminator :
    checkS (some (rows table).length) table size count desc = none := by
  rw [checkS]
  cases h : table[(rows table).length]? with
  | none => rfl
  | some sf => exact if_pos (v_eq_zero_of_terminator h)

theorem checkS_eq_scan {guess : Option ℕ} (hd : DistinctDescs table) (hg : IsGuess table guess)
    (hend : guess ≠ some (rows table).length) :
    checkS guess table size count desc = checkS none table size count desc := by
  cases guess with
  | none => rfl
  | some i =>
    have hle := hg i rfl
    have hne : i ≠ (rows table).length := fun h => hend (congrArg some h)
    obtain ⟨sf, hsf⟩ : ∃ sf, (rows table)[i]? = some sf :=
      ⟨_, List.getElem?_eq_getElem (by omega)⟩
    exact checkS_row size count desc hd hsf

/-- The guess gives what the scan gives, unless it is the terminator and the scan finds a row. -/
theorem checkS_eq_scan_iff {guess : Option ℕ} (hd : DistinctDescs table)
    (hg : IsGuess table guess) :
    checkS guess table size count desc = checkS none table size count desc ↔
      guess ≠ some (rows table).length ∨ checkS none table size count desc = none := by
  constructor
  · intro h
    by_cases hend : guess = some (rows table).length
    · right
      rw [← h, hend]
      exact checkS_terminator size count desc
    · exact .inl hend
  · rintro (h | h)
    · exact checkS_eq_scan size count desc hd hg h
    · by_cases hend : guess = some (rows table).length
      · rw [hend, h]
        exact checkS_terminator size count desc
      · exact checkS_eq_scan size count desc hd hg hend

end Scan

/-! Chunks whose rows come in another order. -/

def orderBytes (mem : Memory) (order : List SFormat) : List Byte :=
  (order.map (entryBytes mem)).flatten

/-- What is left of the rows of a chunk: the one behind the last row of the table is lost. -/
def readBack (last : Option SFormat) : List SFormat → List SFormat
  | [] => []
  | [sf] => [sf]
  | sf :: next :: order =>
    if some sf = last then sf :: readBack last order else sf :: readBack last (next :: order)

variable {mem : Memory} {b : ByteFile Byte}

theorem orderBytes_cons (mem : Memory) (sf : SFormat) (order : List SFormat) :
    orderBytes mem (sf :: order) = entryBytes mem sf ++ orderBytes mem order := by
  rw [orderBytes, List.map_cons, List.flatten_cons, orderBytes]

/-- A row that the table does not give is skipped. -/
theorem readEntry_skips {r : ChunkReader} (h : Represents r.is b) (hfail : b.fail = false)
    (hcheck : checkS r.guessSF table sf.size sf.count sf.desc = none)
    (hold : b.Holds (entryBytes mem sf)) :
    ∃ g, readEntry table r = some (true, ⟨g, r.mem, none⟩) ∧
      Represents g (b.seek (b.pos + (entryBytes mem sf).length)) := by
  have hlen := length_entryBytes mem sf
  have hend := hold.pos_le (List.ne_nil_of_length_pos (by omega))
  have hlt := h.len_lt
  have hdesc := sf.desc_length
  rw [hlen] at hend
  have hne : b.data.length ≠ 0 := by omega
  obtain ⟨f₁, h₁, r₁⟩ := fread_holds h hold.left hne (by omega)
  obtain ⟨f₂, h₂, r₂⟩ := fread_holds r₁ hold.right.left hne
    (by simp only [ByteFile.seek, length_leBytes]; omega)
  obtain ⟨f₃, h₃, r₃⟩ := fread_holds r₂ hold.right.right.left hne
    (by simp only [ByteFile.seek, length_leBytes]; omega)
  have hhead : Represents f₃ (b.seek (b.pos + 12)) := by
    have hpos : b.pos + 12 = b.pos + sf.desc.length + (leBytes 4 sf.size.toNat).length +
        (leBytes 4 sf.count.toNat).length := by
      rw [hdesc, length_leBytes, length_leBytes]
    rw [hpos]
    exact r₃
  have htarget : seekTarget (b.seek (b.pos + 12)) (sf.size * sf.count).toInt .cur =
      (b.pos + (entryBytes mem sf).length : ℕ) := by
    rw [sf.toInt_bytes (by omega), hlen]
    simp only [seekTarget, ByteFile.seek]
    omega
  have r₄ := fseek_represents hhead (sf.size * sf.count).toInt .cur
    (by rw [htarget]; omega) (by rw [htarget, hlen]; omega)
  rw [htarget, Int.toNat_natCast] at r₄
  rw [hdesc] at h₁
  rw [length_leBytes] at h₂ h₃
  have hok : f₁.failbit = false := r₁.failbit_eq.trans hfail
  have hvalue (x : BitVec 32) : BitVec.ofNat 32 (ofLeBytes (leBytes 4 x.toNat)) = x := by
    rw [ofLeBytes_leBytes_of_lt x.isLt, BitVec.ofNat_toNat, BitVec.setWidth_eq]
  refine ⟨_, ?_, r₄⟩
  simp [readEntry, EmufileMemory.read32le, h₁, hok, h₂, h₃, hvalue, hcheck, -BitVec.toNat_mul]

theorem nodup_rows (hd : DistinctDescs table) : (rows table).Nodup := List.Nodup.of_map _ hd

theorem some_eq_getLast?_iff (hd : DistinctDescs table) (hi : (rows table)[i]? = some sf) :
    some sf = (rows table).getLast? ↔ i + 1 = (rows table).length := by
  have hlt := (List.getElem?_eq_some_iff.mp hi).1
  rw [List.getLast?_eq_getElem?, ← hi]
  constructor
  · intro h
    have := (List.getElem?_inj hlt (nodup_rows hd)).mp h
    omega
  · intro h
    rw [show (rows table).length - 1 = i by omega]

theorem readStateChunkLoop_round {stop : ℤ} {fuel : ℕ} {r r' : ChunkReader}
    (hmore : r.is.ftell < stop) (hr : readEntry table r = some (true, r')) :
    readStateChunkLoop table stop (fuel + 1) r = readStateChunkLoop table stop fuel r' := by
  rw [readStateChunkLoop, if_pos hmore, hr]
  rfl

theorem readStateChunkLoop_stop {stop : ℤ} {fuel : ℕ} {r : ChunkReader} (h : Represents r.is b)
    (hstop : stop = b.pos + (orderBytes mem []).length) :
    readStateChunkLoop table stop (fuel + 1) r = some (true, r) := by
  rw [readStateChunkLoop, if_neg]
  rw [EmufileMemory.ftell, h.pos_eq, hstop, orderBytes]
  simp

theorem ftell_lt_stop {order : List SFormat} {r : ChunkReader} {stop : ℤ}
    (h : Represents r.is b) (hstop : stop = b.pos + (orderBytes mem (sf :: order)).length) :
    r.is.ftell < stop := by
  rw [EmufileMemory.ftell, h.pos_eq, hstop, orderBytes_cons, List.length_append, length_entryBytes]
  omega

theorem stop_eq_seek {order : List SFormat} {stop : ℤ}
    (hstop : stop = b.pos + (orderBytes mem (sf :: order)).length) :
    stop = (b.seek (b.pos + (entryBytes mem sf).length)).pos + (orderBytes mem order).length := by
  rw [hstop, orderBytes_cons, List.length_append, ByteFile.seek]
  push_cast
  ring

/-- A round whose guess is not the terminator reads its row. -/
theorem readEntry_row (hd : DistinctDescs table) (hsf : sf ∈ rows table) {r : ChunkReader}
    (h : Represents r.is b) (hfail : b.fail = false) (hold : b.Holds (entryBytes mem sf))
    (hguess : IsGuess table r.guessSF) (hend : r.guessSF ≠ some (rows table).length) :
    ∃ i g, (rows table)[i]? = some sf ∧ readEntry table r =
        some (true, ⟨g, store r.mem sf.v (load mem sf.v sf.byteCount), some (i + 1)⟩) ∧
      Represents g (b.seek (b.pos + (entryBytes mem sf).length)) := by
  obtain ⟨i, hi⟩ := List.mem_iff_getElem?.mp hsf
  have hcheck : checkS r.guessSF table sf.size sf.count sf.desc = some i := by
    rw [checkS_eq_scan _ _ _ hd hguess hend, checkS, checkFrom_of_row _ _ hd hi, if_neg (by simp),
      Nat.zero_add]
  obtain ⟨g, hg, hrep⟩ := readEntry_restores h hfail (getElem?_of_rows hi) hcheck hold
  exact ⟨i, g, hi, hg, hrep⟩

/-- The loop over rows of the table in any order, from a round on whose guess is not the
terminator. -/
theorem readStateChunkLoop_readBack (hd : DistinctDescs table) {order : List SFormat}
    (hsub : ∀ sf ∈ order, sf ∈ rows table) {r : ChunkReader} {stop : ℤ} {fuel : ℕ}
    (h : Represents r.is b) (hfail : b.fail = false) (hold : b.Holds (orderBytes mem order))
    (hguess : IsGuess table r.guessSF) (hend : r.guessSF ≠ some (rows table).length)
    (hstop : stop = b.pos + (orderBytes mem order).length) (hfuel : order.length < fuel) :
    ∃ r', readStateChunkLoop table stop fuel r = some (true, r') ∧
      r'.mem = restore mem (readBack (rows table).getLast? order) r.mem := by
  fun_induction readBack (rows table).getLast? order generalizing r b fuel with
  | case1 =>
    obtain ⟨n, rfl⟩ : ∃ n, fuel = n + 1 := ⟨fuel - 1, by omega⟩
    exact ⟨r, readStateChunkLoop_stop h hstop, rfl⟩
  | case2 sf =>
    obtain ⟨n, rfl⟩ : ∃ n, fuel = n + 2 := ⟨fuel - 2, by rw [List.length_singleton] at hfuel; omega⟩
    rw [orderBytes_cons] at hold
    obtain ⟨i, g, hi, hg, hrep⟩ :=
      readEntry_row hd (hsub sf List.mem_cons_self) h hfail hold.left hguess hend
    refine ⟨⟨g, store r.mem sf.v (load mem sf.v sf.byteCount), some (i + 1)⟩, ?_, rfl⟩
    rw [readStateChunkLoop_round (ftell_lt_stop h hstop) hg]
    exact readStateChunkLoop_stop hrep (stop_eq_seek hstop)
  | case3 sf next order hlast ih =>
    obtain ⟨n, rfl⟩ : ∃ n, fuel = n + 2 := ⟨fuel - 2, by simp only [List.length_cons] at hfuel; omega⟩
    simp only [List.length_cons] at hfuel
    rw [orderBytes_cons, orderBytes_cons] at hold
    obtain ⟨i, g, hi, hg, hrep⟩ :=
      readEntry_row hd (hsub sf List.mem_cons_self) h hfail hold.left hguess hend
    -- the guess is the terminator now
    have hcheck : checkS (some (i + 1)) table next.size next.count next.desc = none := by
      rw [(some_eq_getLast?_iff hd hi).mp hlast]
      exact checkS_terminator _ _ _
    obtain ⟨g', hg', hrep'⟩ := readEntry_skips
      (r := ⟨g, store r.mem sf.v (load mem sf.v sf.byteCount), some (i + 1)⟩) hrep hfail hcheck
      hold.right.left
    have hstop' := stop_eq_seek hstop
    obtain ⟨r', hr', hmem⟩ := ih
      (fun row hrow => hsub row (List.mem_cons_of_mem _ (List.mem_cons_of_mem _ hrow)))
      (r := ⟨g', store r.mem sf.v (load mem sf.v sf.byteCount), none⟩) hrep' hfail hold.right.right
      (fun j hj => absurd hj.symm (Option.some_ne_none j))
      (fun hnone => absurd hnone.symm (Option.some_ne_none _)) (stop_eq_seek hstop')
      (by omega : order.length < n)
    refine ⟨r', ?_, hmem⟩
    rw [readStateChunkLoop_round (ftell_lt_stop h hstop) hg,
      readStateChunkLoop_round (ftell_lt_stop hrep hstop') hg', hr']
  | case4 sf next order hne ih =>
    obtain ⟨n, rfl⟩ : ∃ n, fuel = n + 1 := ⟨fuel - 1, by omega⟩
    rw [List.length_cons] at hfuel
    rw [orderBytes_cons] at hold
    obtain ⟨i, g, hi, hg, hrep⟩ :=
      readEntry_row hd (hsub sf List.mem_cons_self) h hfail hold.left hguess hend
    have hlt := (List.getElem?_eq_some_iff.mp hi).1
    have hmid : i + 1 ≠ (rows table).length := fun h => hne ((some_eq_getLast?_iff hd hi).mpr h)
    obtain ⟨r', hr', hmem⟩ := ih (fun row hrow => hsub row (List.mem_cons_of_mem _ hrow))
      (r := ⟨g, store r.mem sf.v (load mem sf.v sf.byteCount), some (i + 1)⟩) hrep hfail hold.right
      (fun j hj => by obtain rfl := Option.some.inj hj; exact hlt)
      (fun hsome => hmid (Option.some.inj hsome)) (stop_eq_seek hstop) (by omega : _ < n)
    refine ⟨r', ?_, hmem⟩
    rw [readStateChunkLoop_round (ftell_lt_stop h hstop) hg, hr']

theorem readStateChunk_readBack (hd : DistinctDescs table) {order : List SFormat}
    (hsub : ∀ sf ∈ order, sf ∈ rows table) {f : EmufileMemory} (h : Represents f b)
    (hfail : b.fail = false) (hold : b.Holds (orderBytes mem order)) (mem' : Memory) {fuel : ℕ}
    (hfuel : order.length < fuel) :
    ∃ r, readStateChunk fuel f mem' table (orderBytes mem order).length = some (true, r) ∧
      r.mem = restore mem (readBack (rows table).getLast? order) mem' := by
  have hend : b.pos + (orderBytes mem order).length < 2 ^ 31 := by
    have hpos := h.pos_lt
    have hlen := h.len_lt
    by_cases hne : orderBytes mem order = []
    · rw [hne]
      exact hpos
    · have := hold.pos_le hne
      omega
  have hstop : s32 (f.ftell + (orderBytes mem order).length) =
      b.pos + (orderBytes mem order).length := by
    rw [EmufileMemory.ftell, h.pos_eq]
    exact_mod_cast s32_natCast hend
  exact readStateChunkLoop_readBack hd hsub (r := ⟨f, mem', none⟩) h hfail hold
    (fun j hj => absurd hj.symm (Option.some_ne_none j))
      (fun hnone => absurd hnone.symm (Option.some_ne_none _)) hstop hfuel

/-- The row comes behind the last row of the table. -/
def Lost (table order : List SFormat) (sf : SFormat) : Prop :=
  ∃ last ∈ (rows table).getLast?, [last, sf] <:+: order

theorem pair_infix_cons {l row next : SFormat} {order : List SFormat} :
    [l, row] <:+: sf :: next :: order ↔ l = sf ∧ row = next ∨ [l, row] <:+: next :: order := by
  rw [List.infix_cons_iff, List.cons_prefix_cons, List.cons_prefix_cons,
    and_iff_left (List.nil_prefix)]

theorem not_infix_pair {l row : SFormat} {order : List SFormat} (h : l ∉ order) :
    ¬ [l, row] <:+: order := fun hpair => h (hpair.subset List.mem_cons_self)

theorem mem_readBack_iff {last : Option SFormat} {order : List SFormat} (hnodup : order.Nodup)
    (row : SFormat) :
    row ∈ readBack last order ↔ row ∈ order ∧ ¬ ∃ l ∈ last, [l, row] <:+: order := by
  fun_induction readBack last order with
  | case1 => simp
  | case2 sf =>
    have hnone : ¬ ∃ l ∈ last, [l, row] <:+: [sf] := by
      rintro ⟨l, -, hpair⟩
      exact absurd hpair.length_le (by simp)
    rw [and_iff_left hnone]
  | case3 sf next order hlast ih =>
    subst hlast
    obtain ⟨hsf, hnodup⟩ := List.nodup_cons.mp hnodup
    obtain ⟨hnext, hnodup⟩ := List.nodup_cons.mp hnodup
    have hrest : sf ∉ order := fun h => hsf (List.mem_cons_of_mem _ h)
    have hlost : (∃ l ∈ some sf, [l, row] <:+: sf :: next :: order) ↔ row = next := by
      constructor
      · rintro ⟨l, hl, hpair⟩
        obtain rfl := Option.some.inj hl
        rcases pair_infix_cons.mp hpair with ⟨-, h⟩ | h
        · exact h
        · exact absurd h (not_infix_pair hsf)
      · rintro rfl
        exact ⟨sf, rfl, pair_infix_cons.mpr (.inl ⟨rfl, rfl⟩)⟩
    have hkept : ¬ ∃ l ∈ some sf, [l, row] <:+: order := by
      rintro ⟨l, hl, hpair⟩
      obtain rfl := Option.some.inj hl
      exact not_infix_pair hrest hpair
    rw [hlost, List.mem_cons, ih hnodup, and_iff_left hkept, List.mem_cons, List.mem_cons]
    constructor
    · rintro (rfl | h)
      · exact ⟨.inl rfl, fun h => hsf (h ▸ List.mem_cons_self)⟩
      · exact ⟨.inr (.inr h), fun hrow => hnext (hrow ▸ h)⟩
    · rintro ⟨rfl | h | h, hne⟩
      · exact .inl rfl
      · exact absurd h hne
      · exact .inr h
  | case4 sf next order hne ih =>
    obtain ⟨hsf, hnodup⟩ := List.nodup_cons.mp hnodup
    have hlost : (∃ l ∈ last, [l, row] <:+: sf :: next :: order) ↔
        ∃ l ∈ last, [l, row] <:+: next :: order := by
      refine exists_congr fun l => and_congr_right fun hl => ?_
      rw [pair_infix_cons, or_iff_right]
      rintro ⟨rfl, -⟩
      exact hne hl.symm
    rw [hlost, List.mem_cons, ih hnodup, List.mem_cons (a := row) (b := sf)]
    constructor
    · rintro (rfl | ⟨h, hkept⟩)
      · refine ⟨.inl rfl, ?_⟩
        rintro ⟨l, -, hpair⟩
        exact hsf (hpair.subset (List.mem_cons_of_mem _ List.mem_cons_self))
      · exact ⟨.inr h, hkept⟩
    · rintro ⟨rfl | h, hkept⟩
      · exact .inl rfl
      · exact .inr ⟨h, hkept⟩

theorem pair_infix_unique {l row row' : SFormat} {order : List SFormat} (hnodup : order.Nodup)
    (h : [l, row] <:+: order) (h' : [l, row'] <:+: order) : row = row' := by
  induction order with
  | nil => exact absurd h.length_le (by simp)
  | cons sf order ih =>
    obtain ⟨hsf, hnodup⟩ := List.nodup_cons.mp hnodup
    cases order with
    | nil => exact absurd h.length_le (by simp)
    | cons next order =>
      rcases pair_infix_cons.mp h with ⟨rfl, rfl⟩ | hrest
      · rcases pair_infix_cons.mp h' with ⟨-, hrow⟩ | hrest
        · exact hrow.symm
        · exact absurd hrest (not_infix_pair hsf)
      · rcases pair_infix_cons.mp h' with ⟨rfl, -⟩ | hrest'
        · exact absurd hrest (not_infix_pair hsf)
        · exact ih hnodup hrest hrest'

theorem Lost.unique {order : List SFormat} {row : SFormat} (h : Lost table order row)
    (hnodup : order.Nodup) (h' : Lost table order sf) : row = sf := by
  obtain ⟨l, hl, hpair⟩ := h
  obtain ⟨l', hl', hpair'⟩ := h'
  obtain rfl : l = l' := Option.mem_unique hl hl'
  exact pair_infix_unique hnodup hpair hpair'

variable (mem) in
theorem restore_readBack_iff {order : List SFormat} (hd : DistinctDescs table)
    (hperm : order.Perm (rows table)) (mem' : Memory) :
    restore mem (readBack (rows table).getLast? order) mem' = restore mem (rows table) mem' ↔
      ∀ sf a, Lost table order sf → sf.Covers a → mem a ≠ mem' a →
        ∃ row ∈ rows table, row ≠ sf ∧ row.Covers a := by
  have hnodup : order.Nodup := hperm.nodup_iff.mpr (nodup_rows hd)
  have hback (row : SFormat) : row ∈ readBack (rows table).getLast? order ↔
      row ∈ rows table ∧ ¬ Lost table order row := by
    rw [mem_readBack_iff hnodup, hperm.mem_iff]
    rfl
  rw [funext_iff]
  simp only [restore_apply]
  constructor
  · intro h sf a hlost hcovers hne
    have hsf : sf ∈ rows table := by
      obtain ⟨l, -, hpair⟩ := hlost
      exact hperm.subset (hpair.subset (List.mem_cons_of_mem _ List.mem_cons_self))
    have ha := h a
    rw [if_pos (⟨sf, hsf, hcovers⟩ : ∃ sf ∈ rows table, sf.Covers a)] at ha
    split_ifs at ha with hkept
    · obtain ⟨row, hrow, hrowCovers⟩ := hkept
      obtain ⟨hrow, hfound⟩ := (hback row).mp hrow
      refine ⟨row, hrow, ?_, hrowCovers⟩
      rintro rfl
      exact hfound hlost
    · exact absurd ha.symm hne
  · intro h a
    by_cases hcovers : ∃ sf ∈ rows table, sf.Covers a
    · rw [if_pos hcovers]
      obtain ⟨sf, hsf, ha⟩ := hcovers
      split_ifs with hkept
      · rfl
      · have hlost : Lost table order sf := by
          by_contra hfound
          exact hkept ⟨sf, (hback sf).mpr ⟨hsf, hfound⟩, ha⟩
        by_contra hne
        obtain ⟨row, hrow, hother, hrowCovers⟩ := h sf a hlost ha (Ne.symm hne)
        exact hkept ⟨row, (hback row).mpr ⟨hrow, fun hlost' => hother (hlost'.unique hnodup hlost)⟩,
          hrowCovers⟩
    · rw [if_neg hcovers, if_neg]
      rintro ⟨sf, hsf, ha⟩
      exact hcovers ⟨sf, ((hback sf).mp hsf).1, ha⟩

/-- The guess and the scan agree except on the terminator, so that a chunk restores every variable
of the table unless the row that follows the last one is missed. -/
theorem checkS_restores_iff (table : List SFormat) (hd : DistinctDescs table) :
    (∀ guess, IsGuess table guess → ∀ size count desc,
      (checkS guess table size count desc = checkS none table size count desc ↔
        guess ≠ some (rows table).length ∨ checkS none table size count desc = none)) ∧
    ∀ order, order.Perm (rows table) → ∀ (mem mem' : Memory) (f : EmufileMemory)
      (b : ByteFile Byte) (fuel : ℕ), Represents f b → b.fail = false →
      b.Holds (orderBytes mem order) → order.length < fuel →
        ∃ r, readStateChunk fuel f mem' table (orderBytes mem order).length = some (true, r) ∧
          (r.mem = restore mem (rows table) mem' ↔
            ∀ sf a, Lost table order sf → sf.Covers a → mem a ≠ mem' a →
              ∃ row ∈ rows table, row ≠ sf ∧ row.Covers a) := by
  constructor
  · intro guess hg size count desc
    exact checkS_eq_scan_iff size count desc hd hg
  · intro order hperm mem mem' f b fuel h hfail hold hfuel
    obtain ⟨r, hr, hmem⟩ :=
      readStateChunk_readBack hd (fun sf hsf => hperm.subset hsf) h hfail hold mem' hfuel
    refine ⟨r, hr, ?_⟩
    rw [hmem]
    exact restore_readBack_iff mem hd hperm mem'

section Sample

/-- Two variables of one byte. -/
def sampleRow (name : Byte) (v : ℕ) : SFormat := ⟨[name, 0, 0, 0], 1, 1, v, rfl⟩

def sampleTable : List SFormat := [sampleRow 1 100, sampleRow 2 200, ⟨[0, 0, 0, 0], 0, 0, 0, rfl⟩]

/-- Rows in the order of the table. -/
theorem sampleTable_restores :
    (checkS (some 1) sampleTable 1 1 [2, 0, 0, 0] = checkS none sampleTable 1 1 [2, 0, 0, 0]) ∧
    ∃ r, readStateChunk 3 (.ofUnderlying (orderBytes (fun _ => 7) (rows sampleTable))) (fun _ => 0)
        sampleTable (orderBytes (fun _ => 7) (rows sampleTable)).length = some (true, r) ∧
      r.mem = restore (fun _ => 7) (rows sampleTable) (fun _ => 0) := by
  obtain ⟨hcheck, horder⟩ := checkS_restores_iff sampleTable (by decide)
  refine ⟨?_, ?_⟩
  · refine (hcheck (some 1) ?_ 1 1 [2, 0, 0, 0]).mpr (.inl (by decide))
    rintro i hi
    obtain rfl := Option.some.inj hi
    decide
  · obtain ⟨r, hr, hiff⟩ := horder (rows sampleTable) (List.Perm.refl _) (fun _ => 7) (fun _ => 0)
      (.ofUnderlying (orderBytes (fun _ => 7) (rows sampleTable)))
      ⟨orderBytes (fun _ => 7) (rows sampleTable), 0, false⟩ 3
      (ofUnderlying_represents _ (by decide)) rfl ⟨[], (List.append_nil _).symm⟩ (by decide)
    refine ⟨r, hr, hiff.mpr ?_⟩
    rintro sf a ⟨last, hlast, hpair⟩
    exfalso
    obtain rfl : last = sampleRow 2 200 := (Option.some.inj hlast).symm
    rcases pair_infix_cons.mp hpair with ⟨h, -⟩ | h
    · exact absurd h (by decide)
    · exact absurd h.length_le (show ¬ 2 ≤ 1 by decide)

/-- The other order: the guess behind the second row misses the first, whose variable is lost. -/
theorem sampleTable_loses :
    ¬ ((∀ table, DistinctDescs table → ∀ guess, IsGuess table guess → ∀ size count desc,
        checkS guess table size count desc = checkS none table size count desc)) ∧
    ¬ ∀ table, DistinctDescs table → ∀ order, order.Perm (rows table) → ∀ (mem mem' : Memory)
      (f : EmufileMemory) (b : ByteFile Byte) (fuel : ℕ), Represents f b → b.fail = false →
      b.Holds (orderBytes mem order) → order.length < fuel →
        ∃ r, readStateChunk fuel f mem' table (orderBytes mem order).length = some (true, r) ∧
          r.mem = restore mem (rows table) mem' := by
  constructor
  · intro h
    have hguess : IsGuess sampleTable (some 2) := by
      rintro i hi
      obtain rfl := Option.some.inj hi
      decide
    exact absurd (h sampleTable (by decide) (some 2) hguess 1 1 [1, 0, 0, 0]) (by decide)
  · intro h
    have hperm : [sampleRow 2 200, sampleRow 1 100].Perm (rows sampleTable) :=
      List.Perm.swap _ _ _
    obtain ⟨r, hr, hmem⟩ := h sampleTable (by decide) _ hperm (fun _ => 7) (fun _ => 0)
      (.ofUnderlying (orderBytes (fun _ => 7) [sampleRow 2 200, sampleRow 1 100]))
      ⟨orderBytes (fun _ => 7) [sampleRow 2 200, sampleRow 1 100], 0, false⟩ 3
      (ofUnderlying_represents _ (by decide)) rfl ⟨[], (List.append_nil _).symm⟩ (by decide)
    obtain ⟨r', hr', hmem'⟩ := readStateChunk_readBack (by decide : DistinctDescs sampleTable)
      (fun sf hsf => hperm.subset hsf)
      (ofUnderlying_represents (orderBytes (fun _ => 7) [sampleRow 2 200, sampleRow 1 100])
        (by decide)) rfl ⟨[], (List.append_nil _).symm⟩ (fun _ => 0) (by decide : 2 < 3)
    obtain rfl : r = r' := by simpa using hr.symm.trans hr'
    have hlost := congrFun (hmem.symm.trans hmem') 100
    rw [restore_apply, restore_apply] at hlost
    revert hlost
    decide

end Sample

end Desmume.SaveState
