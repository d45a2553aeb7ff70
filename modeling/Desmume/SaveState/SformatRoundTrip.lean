import Desmume.SaveState.EmufileRefinement
import Desmume.SaveState.Sformat

/-! Reading back a chunk that `SubWrite` wrote restores its variables. -/

namespace Desmume.SaveState
open Library

namespace SFormat

variable (sf : SFormat)

def byteCount : ℕ := sf.size.toNat * sf.count.toNat

/-- The addresses of the variable of a row. -/
def Covers (a : ℕ) : Prop := sf.v ≤ a ∧ a < sf.v + sf.byteCount

instance (a : ℕ) : Decidable (sf.Covers a) := inferInstanceAs (Decidable (_ ∧ _))

theorem ofNat_byteCount : BitVec.ofNat 32 sf.byteCount = sf.size * sf.count := by
  rw [byteCount, BitVec.ofNat_mul, BitVec.ofNat_toNat, BitVec.ofNat_toNat, BitVec.setWidth_eq,
    BitVec.setWidth_eq]

theorem toNat_bytes (h : sf.byteCount < 2 ^ 31) : (sf.size * sf.count).toNat = sf.byteCount := by
  rw [← ofNat_byteCount, BitVec.toNat_ofNat, Nat.mod_eq_of_lt (by omega)]

theorem toInt_bytes (h : sf.byteCount < 2 ^ 31) : (sf.size * sf.count).toInt = sf.byteCount := by
  rw [BitVec.toInt_eq_toNat_of_lt (by rw [sf.toNat_bytes h]; omega), sf.toNat_bytes h]

end SFormat

/-- The rows in front of the terminator. -/
def rows (table : List SFormat) : List SFormat := table.takeWhile fun sf => decide (sf.v ≠ 0)

/-- What a row looks like in a chunk. -/
def entryBytes (mem : Memory) (sf : SFormat) : List Byte :=
  sf.desc ++ (leBytes 4 sf.size.toNat ++ (leBytes 4 sf.count.toNat ++
    load mem sf.v sf.byteCount))

def chunkBytes (mem : Memory) (table : List SFormat) : List Byte :=
  ((rows table).map (entryBytes mem)).flatten

theorem length_entryBytes (mem : Memory) (sf : SFormat) :
    (entryBytes mem sf).length = 12 + sf.byteCount := by
  simp only [entryBytes, List.length_append, sf.desc_length, length_leBytes, length_load]
  omega

section Rows

variable (mem : Memory) {sf : SFormat} {table : List SFormat}

theorem rows_cons_of_null (h : sf.v = 0) : rows (sf :: table) = [] :=
  List.takeWhile_cons_of_neg (by simp [h])

theorem rows_cons (h : sf.v ≠ 0) : rows (sf :: table) = sf :: rows table :=
  List.takeWhile_cons_of_pos (by simp [h])

theorem chunkBytes_cons (h : sf.v ≠ 0) :
    chunkBytes mem (sf :: table) = entryBytes mem sf ++ chunkBytes mem table := by
  rw [chunkBytes, rows_cons h, List.map_cons, List.flatten_cons, chunkBytes]

theorem chunkBytes_of_null (h : sf.v = 0) : chunkBytes mem (sf :: table) = [] := by
  rw [chunkBytes, rows_cons_of_null h, List.map_nil, List.flatten_nil]

end Rows

/-! The writer. -/

variable {mem : Memory} {f : EmufileMemory} {b : ByteFile Byte}

theorem subWriteEntry_represents (mem : Memory) (h : Represents f b) (sf : SFormat)
    (hlim : b.pos + (entryBytes mem sf).length < 2 ^ 31) :
    ∃ g, subWriteEntry mem f sf = some g ∧ Represents g (b.write (entryBytes mem sf)) := by
  rw [length_entryBytes] at hlim
  have hdesc := sf.desc_length
  obtain ⟨f₁, h₁, r₁⟩ := fwrite_represents h sf.desc (by omega)
  obtain ⟨f₂, h₂, r₂⟩ := fwrite_represents r₁ (leBytes 4 sf.size.toNat)
    (by simp only [ByteFile.write, length_leBytes]; omega)
  obtain ⟨f₃, h₃, r₃⟩ := fwrite_represents r₂ (leBytes 4 sf.count.toNat)
    (by simp only [ByteFile.write, length_leBytes]; omega)
  obtain ⟨f₄, h₄, r₄⟩ := fwrite_represents r₃ (load mem sf.v sf.byteCount)
    (by simp only [ByteFile.write, length_leBytes, length_load]; omega)
  refine ⟨f₄, ?_, ?_⟩
  · have hbytes := sf.toInt_bytes (by omega)
    simp only [subWriteEntry, EmufileMemory.write32le, h₁, h₂, h₃, hbytes, Int.toNat_natCast, h₄,
      Option.bind_eq_bind, Option.bind_some]
    rw [if_neg (by omega)]
  · simpa only [ByteFile.write_write, List.append_assoc, entryBytes] using r₄

/-- The count of a row is the number of its bytes, as a 32-bit number. -/
theorem count_entry (mem : Memory) (sf : SFormat) (acc : BitVec 32) :
    acc + (4 + 4 + 4) + sf.count * sf.size =
      acc + BitVec.ofNat 32 (entryBytes mem sf).length := by
  rw [length_entryBytes, BitVec.ofNat_add, sf.ofNat_byteCount, BitVec.mul_comm sf.count,
    BitVec.add_assoc]
  rfl

theorem count_chunk (sf : SFormat) (h : sf.v ≠ 0) (table : List SFormat) (acc : BitVec 32) :
    acc + (4 + 4 + 4) + sf.count * sf.size + BitVec.ofNat 32 (chunkBytes mem table).length =
      acc + BitVec.ofNat 32 (chunkBytes mem (sf :: table)).length := by
  rw [count_entry mem, chunkBytes_cons mem h, List.length_append, BitVec.ofNat_add,
    BitVec.add_assoc]

theorem subWrite_counts (mem : Memory) (table : List SFormat) (acc : BitVec 32) :
    subWrite mem none table acc =
      some (acc + BitVec.ofNat 32 (chunkBytes mem table).length, none) := by
  induction table generalizing acc with
  | nil => simp [subWrite, chunkBytes, rows]
  | cons sf table ih =>
    by_cases h : sf.v = 0
    · simp [subWrite, h, chunkBytes_of_null mem h]
    · rw [subWrite, if_neg h]
      simp only [ih, count_chunk sf h]

theorem subWrite_represents (mem : Memory) (h : Represents f b) (table : List SFormat)
    (hlim : b.pos + (chunkBytes mem table).length < 2 ^ 31) (acc : BitVec 32) :
    ∃ g, subWrite mem (some f) table acc =
        some (acc + BitVec.ofNat 32 (chunkBytes mem table).length, some g) ∧
      Represents g (b.writeAll ((rows table).map (entryBytes mem))) := by
  induction table generalizing f b acc with
  | nil => exact ⟨f, by simp [subWrite, chunkBytes, rows], h⟩
  | cons sf table ih =>
    by_cases hv : sf.v = 0
    · refine ⟨f, by simp [subWrite, hv, chunkBytes_of_null mem hv], ?_⟩
      rw [rows_cons_of_null hv]
      exact h
    · rw [chunkBytes_cons mem hv, List.length_append] at hlim
      obtain ⟨g, hg, hrep⟩ := subWriteEntry_represents mem h sf (by omega)
      obtain ⟨g', hg', hrep'⟩ := ih hrep (by simp only [ByteFile.write]; omega)
        (acc + (4 + 4 + 4) + sf.count * sf.size)
      refine ⟨g', ?_, ?_⟩
      · rw [subWrite, if_neg hv]
        simp only [hg, Option.bind_eq_bind, Option.bind_some, hg', count_chunk sf hv]
      · rw [rows_cons hv, List.map_cons]
        exact hrep'

theorem savestateWriteChunk_represents (h : Represents f b) {table : List SFormat}
    (hlim : b.pos + (8 + (chunkBytes mem table).length) < 2 ^ 31) (type : BitVec 32) :
    ∃ g, savestateWriteChunk mem f type (some table) =
        some (8 + BitVec.ofNat 32 (chunkBytes mem table).length, some g) ∧
      Represents g (b.write (leBytes 4 type.toNat ++
        (leBytes 4 (chunkBytes mem table).length ++ chunkBytes mem table))) := by
  obtain ⟨f₁, h₁, r₁⟩ := fwrite_represents h (leBytes 4 type.toNat)
    (by rw [length_leBytes]; omega)
  obtain ⟨f₂, h₂, r₂⟩ := fwrite_represents r₁ (leBytes 4 (chunkBytes mem table).length)
    (by simp only [ByteFile.write, length_leBytes]; omega)
  obtain ⟨f₃, h₃, r₃⟩ := subWrite_represents mem r₂ table
    (by simp only [ByteFile.write, length_leBytes]; omega) 0#32
  refine ⟨f₃, ?_, ?_⟩
  · have hsize : (0#32 + BitVec.ofNat 32 (chunkBytes mem table).length).toNat =
        (chunkBytes mem table).length := by
      rw [BitVec.zero_add, BitVec.toNat_ofNat, Nat.mod_eq_of_lt (by omega)]
    simp only [savestateWriteChunk, EmufileMemory.write32le, h₁, subWrite_counts, hsize, h₂, h₃,
      Option.bind_eq_bind, Option.bind_some, Option.pure_def]
    split_ifs with hzero
    · rw [BitVec.zero_add] at hzero
      rw [hzero, BitVec.add_zero]
    · rw [BitVec.zero_add, BitVec.add_comm]
  · rw [ByteFile.writeAll_eq_write (ByteFile.pos_le_length_write ..), ByteFile.write_write,
      ByteFile.write_write] at r₃
    exact r₃

/-! The reader. -/

theorem fread_holds (h : Represents f b) {bs : List Byte} (hold : b.Holds bs)
    (hne : b.data.length ≠ 0) (hin : b.pos + bs.length ≤ b.data.length) :
    ∃ g, f.fread bs.length = some (bs, g) ∧ Represents g (b.seek (b.pos + bs.length)) := by
  have hlen := h.len_lt
  have hexact : ReadExact b bs.length := by
    rw [ReadExact, if_neg hne, if_pos (by omega), Nat.mod_eq_of_lt (by omega)]
    exact min_le_left ..
  obtain ⟨g, hg, hrep, -⟩ := fread_represents h hexact
  rw [ByteFile.holds_iff.mp hold] at hg
  rw [hold.read] at hrep
  exact ⟨g, hg, hrep⟩

theorem checkFrom_head {sf : SFormat} (hv : sf.v ≠ 0) (rest : List SFormat) (i : ℕ) :
    checkFrom sf.size sf.count sf.desc (sf :: rest) i = some i := by
  simp [checkFrom, hv]

theorem checkS_guess {table : List SFormat} {sf : SFormat} {i : ℕ} (hi : table[i]? = some sf)
    (hv : sf.v ≠ 0) : checkS (some i) table sf.size sf.count sf.desc = some i := by
  simp [checkS, hi, hv]

theorem readEntry_restores {r : ChunkReader} (h : Represents r.is b) (hfail : b.fail = false)
    {table : List SFormat} {sf : SFormat} {i : ℕ} (hi : table[i]? = some sf)
    (hcheck : checkS r.guessSF table sf.size sf.count sf.desc = some i)
    (hold : b.Holds (entryBytes mem sf)) :
    ∃ g, readEntry table r =
        some (true, ⟨g, store r.mem sf.v (load mem sf.v sf.byteCount), some (i + 1)⟩) ∧
      Represents g (b.seek (b.pos + (entryBytes mem sf).length)) := by
  have hlen := length_entryBytes mem sf
  have hend := hold.pos_le (List.ne_nil_of_length_pos (by omega))
  have hlt := h.len_lt
  have hdesc := sf.desc_length
  rw [hlen] at hend
  have hne : b.data.length ≠ 0 := by omega
  obtain ⟨f₁, h₁, r₁⟩ := fread_holds h hold.left hne (by omega)
  obtain ⟨f₂, h₂, r₂⟩ := fread_holds r₁ hold.right.left hne
    (by simp only [ByteFile.seek, length_leBytes]; omega)
  obtain ⟨f₃, h₃, r₃⟩ := fread_holds r₂ hold.right.right.left hne
    (by simp only [ByteFile.seek, length_leBytes]; omega)
  obtain ⟨f₄, h₄, r₄⟩ := fread_holds r₃ hold.right.right.right hne
    (by simp only [ByteFile.seek, length_leBytes, length_load]; omega)
  rw [hdesc] at h₁
  rw [length_leBytes] at h₂ h₃
  have hbytes : f₃.fread (sf.size * sf.count).toNat = some (load mem sf.v sf.byteCount, f₄) := by
    rw [sf.toNat_bytes (by omega)]
    rwa [length_load] at h₄
  have hok : f₁.failbit = false := r₁.failbit_eq.trans hfail
  have hvalue (x : BitVec 32) : BitVec.ofNat 32 (ofLeBytes (leBytes 4 x.toNat)) = x := by
    rw [ofLeBytes_leBytes_of_lt x.isLt, BitVec.ofNat_toNat, BitVec.setWidth_eq]
  refine ⟨f₄, ?_, ?_⟩
  · simp [readEntry, EmufileMemory.read32le, h₁, hok, h₂, h₃, hvalue, hcheck, hbytes, hi,
      -BitVec.toNat_mul]
  · have hpos : b.pos + (entryBytes mem sf).length = b.pos + sf.desc.length +
        (leBytes 4 sf.size.toNat).length + (leBytes 4 sf.count.toNat).length +
          (load mem sf.v sf.byteCount).length := by
      rw [hlen, hdesc, length_leBytes, length_leBytes, length_load]
      omega
    rw [hpos]
    exact r₄

/-- The memory after the rows were copied back one by one. -/
def restore (mem : Memory) (sfs : List SFormat) (mem' : Memory) : Memory :=
  sfs.foldl (fun m sf => store m sf.v (load mem sf.v sf.byteCount)) mem'

theorem restore_apply (mem : Memory) (sfs : List SFormat) (mem' : Memory) (a : ℕ) :
    restore mem sfs mem' a = if ∃ sf ∈ sfs, sf.Covers a then mem a else mem' a := by
  induction sfs generalizing mem' with
  | nil => simp [restore]
  | cons sf sfs ih =>
    rw [restore, List.foldl_cons, ← restore, ih, store_load_apply]
    by_cases hrest : ∃ sf ∈ sfs, sf.Covers a
    · rw [if_pos hrest, if_pos (by simp only [List.exists_mem_cons_iff, hrest, or_true])]
    · simp only [List.exists_mem_cons_iff, hrest, or_false, if_false]
      rfl

theorem readStateChunkLoop_finished {table todo : List SFormat} {r : ChunkReader} {stop : ℤ}
    {fuel : ℕ} (h : Represents r.is b) (he : chunkBytes mem todo = []) (hrows : rows todo = [])
    (hstop : stop = b.pos + (chunkBytes mem todo).length) (hfuel : 0 < fuel) :
    ∃ r', readStateChunkLoop table stop fuel r = some (true, r') ∧
      Represents r'.is (b.seek (b.pos + (chunkBytes mem todo).length)) ∧
      r'.mem = restore mem (rows todo) r.mem := by
  obtain ⟨n, rfl⟩ : ∃ n, fuel = n + 1 := ⟨fuel - 1, by omega⟩
  refine ⟨r, ?_, ?_, by rw [hrows]; rfl⟩
  · rw [readStateChunkLoop, if_neg]
    rw [EmufileMemory.ftell, h.pos_eq, hstop, he]
    simp
  · rw [he]
    exact h

/-- The loop reads the rows that are left; the guess points at the first of them. -/
theorem readStateChunkLoop_restores (done : List SFormat) {todo : List SFormat} {r : ChunkReader}
    {stop : ℤ} {fuel : ℕ} (h : Represents r.is b) (hfail : b.fail = false)
    (hold : b.Holds (chunkBytes mem todo))
    (hguess : r.guessSF = some done.length ∨ r.guessSF = none ∧ done = [])
    (hstop : stop = b.pos + (chunkBytes mem todo).length) (hfuel : todo.length < fuel) :
    ∃ r', readStateChunkLoop (done ++ todo) stop fuel r = some (true, r') ∧
      Represents r'.is (b.seek (b.pos + (chunkBytes mem todo).length)) ∧
      r'.mem = restore mem (rows todo) r.mem := by
  induction todo generalizing done r b fuel with
  | nil => exact readStateChunkLoop_finished h rfl rfl hstop (by omega)
  | cons sf todo ih =>
    by_cases hv : sf.v = 0
    · exact readStateChunkLoop_finished h (chunkBytes_of_null mem hv) (rows_cons_of_null hv) hstop
        (by omega)
    · have hi : (done ++ sf :: todo)[done.length]? = some sf := by simp
      have hcheck : checkS r.guessSF (done ++ sf :: todo) sf.size sf.count sf.desc =
          some done.length := by
        rcases hguess with hg | ⟨hg, rfl⟩
        · rw [hg]
          exact checkS_guess hi hv
        · rw [hg]
          exact checkFrom_head hv todo 0
      rw [chunkBytes_cons mem hv] at hold hstop ⊢
      obtain ⟨g, hg, hrep⟩ := readEntry_restores h hfail hi hcheck hold.left
      have hlen := length_entryBytes mem sf
      have hmore : r.is.ftell < stop := by
        rw [EmufileMemory.ftell, h.pos_eq, hstop, List.length_append]
        omega
      obtain ⟨n, rfl⟩ : ∃ n, fuel = n + 1 := ⟨fuel - 1, by omega⟩
      rw [List.length_cons] at hfuel
      rw [List.length_append] at hstop
      obtain ⟨r', hr', hrep', hmem'⟩ := ih (done ++ [sf])
        (r := ⟨g, store r.mem sf.v (load mem sf.v sf.byteCount), some (done.length + 1)⟩) hrep
        hfail hold.right (.inl (by rw [List.length_append, List.length_singleton]))
        (by simp only [ByteFile.seek, hstop, Nat.cast_add]; omega) (by omega : todo.length < n)
      refine ⟨r', ?_, ?_, ?_⟩
      · rw [List.append_assoc, List.singleton_append] at hr'
        rw [readStateChunkLoop, if_pos hmore, hg]
        exact hr'
      · rw [List.length_append, ← Nat.add_assoc]
        exact hrep'
      · rw [hmem', rows_cons hv]
        rfl

theorem readStateChunk_restores (h : Represents f b) (hfail : b.fail = false)
    {table : List SFormat} (hold : b.Holds (chunkBytes mem table)) (mem' : Memory) {fuel : ℕ}
    (hfuel : table.length < fuel) :
    ∃ r, readStateChunk fuel f mem' table (chunkBytes mem table).length = some (true, r) ∧
      Represents r.is (b.seek (b.pos + (chunkBytes mem table).length)) ∧
      r.mem = restore mem (rows table) mem' := by
  have hend : b.pos + (chunkBytes mem table).length < 2 ^ 31 := by
    have hpos := h.pos_lt
    have hlen := h.len_lt
    by_cases hne : chunkBytes mem table = []
    · rw [hne]
      exact hpos
    · have := hold.pos_le hne
      omega
  have hstop : s32 (f.ftell + (chunkBytes mem table).length) =
      b.pos + (chunkBytes mem table).length := by
    rw [EmufileMemory.ftell, h.pos_eq]
    exact_mod_cast s32_natCast hend
  exact readStateChunkLoop_restores [] (r := ⟨f, mem', none⟩) h hfail hold
    (.inr ⟨rfl, rfl⟩) hstop hfuel

/-- `SubWrite` appends a chunk and returns the number of its bytes, `savestate_WriteChunk` puts
exactly that number in front of it, and `ReadStateChunk` on any stream that holds the chunk gives
every variable its content back, ends behind it and returns true. The guess of `CheckS` is what
finds the rows, so this needs nothing of their descriptors. -/
theorem sformat_roundTrip (mem : Memory) (table : List SFormat) (type : BitVec 32) :
    (∀ {f b}, Represents f b → b.pos + (chunkBytes mem table).length < 2 ^ 31 →
      ∃ g c, subWrite mem (some f) table 0#32 =
          some (BitVec.ofNat 32 (chunkBytes mem table).length, some g) ∧
        Represents g c ∧ c.fail = b.fail ∧ c.pos = b.pos + (chunkBytes mem table).length ∧
        (c.seek b.pos).Holds (chunkBytes mem table)) ∧
    (∀ {f b}, Represents f b → b.pos + (8 + (chunkBytes mem table).length) < 2 ^ 31 →
      ∃ g, savestateWriteChunk mem f type (some table) =
          some (8 + BitVec.ofNat 32 (chunkBytes mem table).length, some g) ∧
        Represents g (b.write (leBytes 4 type.toNat ++
          (leBytes 4 (chunkBytes mem table).length ++ chunkBytes mem table)))) ∧
    (∀ {f b}, Represents f b → b.fail = false → b.Holds (chunkBytes mem table) →
      ∀ (mem' : Memory) {fuel : ℕ}, table.length < fuel →
        ∃ r, readStateChunk fuel f mem' table (chunkBytes mem table).length = some (true, r) ∧
          r.is.pos = f.pos + (chunkBytes mem table).length ∧
          ∀ a, r.mem a = if ∃ sf ∈ rows table, sf.Covers a then mem a else mem' a) := by
  refine ⟨fun h hlim => ?_, fun h hlim => savestateWriteChunk_represents h hlim type,
    fun h hfail hold mem' fuel hfuel => ?_⟩
  · obtain ⟨g, hg, hrep⟩ := subWrite_represents mem h table hlim 0#32
    rw [BitVec.zero_add] at hg
    exact ⟨g, _, hg, hrep, ByteFile.writeAll_fail .., ByteFile.writeAll_pos ..,
      ByteFile.writeAll_holds ..⟩
  · obtain ⟨r, hr, hrep, hmem⟩ := readStateChunk_restores h hfail hold mem' hfuel
    refine ⟨r, hr, ?_, fun a => by rw [hmem, restore_apply]⟩
    rw [hrep.pos_eq, h.pos_eq]
    simp only [ByteFile.seek, Nat.cast_add]

/-- One variable of two halfwords, written to an empty stream, rewound and read back. -/
theorem sformat_roundTrip_sample :
    let mem : Memory := fun a => BitVec.ofNat 8 a
    let table : List SFormat := [⟨[0x41, 0x42, 0x43, 0x44], 2, 2, 100, rfl⟩,
      ⟨[0, 0, 0, 0], 0, 0, 0, rfl⟩]
    ∃ g, subWrite mem (some (EmufileMemory.ofUnderlying [])) table 0#32 = some (16, some g) ∧
      ∃ r, readStateChunk 3 (g.fseek 0 .set) (fun _ => 0) table 16 = some (true, r) ∧
        r.mem 103 = 103 := by
  intro mem table
  have hstart := ofUnderlying_represents [] (by decide)
  have hlen : (chunkBytes mem table).length = 16 := by decide
  obtain ⟨g, c, hg, hrep, hfail, -, hold⟩ := (sformat_roundTrip mem table 0).1 hstart
    (by rw [hlen]; decide)
  rw [hlen] at hg
  refine ⟨g, hg, ?_⟩
  obtain ⟨r, hr, -, hmem⟩ := (sformat_roundTrip mem table 0).2.2
    (fseek_represents hrep 0 .set le_rfl (Int.pow_pos (by decide)))
    hfail hold
    (fun _ => 0) (Nat.lt_add_one 2)
  rw [hlen] at hr
  refine ⟨r, hr, ?_⟩
  rw [hmem]
  decide

end Desmume.SaveState
