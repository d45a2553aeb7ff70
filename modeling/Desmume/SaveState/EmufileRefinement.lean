import Desmume.Library.Run
import Desmume.SaveState.Emufile

/-! `EMUFILE_MEMORY` against a file as a list of bytes and a position: the vector is the file
followed by zeros. -/

namespace Desmume.SaveState
open Library EmufileMemory

/-- The stream of a file with `room` zero bytes of the vector behind its end. -/
def layout (b : ByteFile Byte) (room : ℕ) : EmufileMemory :=
  ⟨b.data ++ List.replicate room 0, b.pos, b.data.length, b.fail⟩

structure Represents (f : EmufileMemory) (b : ByteFile Byte) : Prop where
  eq_layout : ∃ room, f = layout b room ∧ b.pos ≤ b.data.length + room
  pos_lt : b.pos < 2 ^ 31
  len_lt : b.data.length < 2 ^ 31

theorem ofUnderlying_represents (data : List Byte) (h : data.length < 2 ^ 31) :
    Represents (ofUnderlying data) ⟨data, 0, false⟩ where
  eq_layout := ⟨0, by simp [ofUnderlying, layout, s32_natCast h], Nat.zero_le _⟩
  pos_lt := Nat.two_pow_pos 31
  len_lt := h

/-! Growing the vector. -/

section Grow

variable (b : ByteFile Byte) (room amt : ℕ)

theorem reserve_layout :
    (layout b room).reserve amt = layout b (max room (amt - b.data.length)) := by
  unfold reserve
  split_ifs with h
  · have hlt : b.data.length + room < amt := by simpa [layout] using h
    have hroom : max room (amt - b.data.length) = amt - b.data.length := by omega
    have hvec : (b.data ++ List.replicate room 0).takeD amt 0 =
        b.data ++ List.replicate (amt - b.data.length) 0 := by
      rw [takeD_eq_append, List.take_of_length_le (by simp; omega), List.append_assoc,
        List.replicate_append_replicate, List.length_append, List.length_replicate]
      congr 2
      omega
    rw [hroom, layout, hvec]
    rfl
  · have hge : amt ≤ b.data.length + room := by simpa [layout] using h
    rw [show max room (amt - b.data.length) = room by omega]

theorem buf_layout : ∃ room', (layout b room).buf = layout b room' ∧ room ≤ room' := by
  unfold buf
  split_ifs
  · exact ⟨_, reserve_layout b room 1, le_max_left ..⟩
  · exact ⟨room, rfl, le_rfl⟩

end Grow

/-! Accesses to a vector that is a file followed by zeros. -/

theorem loadBytes_layout (b : ByteFile Byte) {room n : ℕ} (h : b.pos + n ≤ b.data.length) :
    loadBytes (layout b room).vec b.pos n = some (b.readData n) := by
  have hin : (0 : ℤ) ≤ b.pos ∧ (b.pos : ℤ) + n ≤ (layout b room).vec.length := by
    simp only [layout, List.length_append]
    omega
  rw [loadBytes, if_pos hin, layout, Int.toNat_natCast, ByteFile.readData,
    List.drop_append_of_le_length (by omega),
    List.take_append_of_le_length (by rw [List.length_drop]; omega)]

theorem storeBytes_layout (b : ByteFile Byte) (room : ℕ) (bs : List Byte)
    (h : b.pos + bs.length ≤ b.data.length + room) :
    ∃ room', storeBytes (layout b room).vec b.pos bs =
      some (splice b.data b.pos bs ++ List.replicate room' 0) := by
  have hin : (0 : ℤ) ≤ b.pos ∧ (b.pos : ℤ) + bs.length ≤ (layout b room).vec.length := by
    simp only [layout, List.length_append, List.length_replicate]
    omega
  refine ⟨room - (b.pos + bs.length - b.data.length), ?_⟩
  rw [storeBytes, if_pos hin, layout, Int.toNat_natCast, take_append_zeros _ (by omega),
    drop_append_zeros, splice, List.append_assoc (_ ++ bs)]

/-! One lemma per operation. -/

variable {f : EmufileMemory} {b : ByteFile Byte}

theorem fwrite_represents (h : Represents f b) (bs : List Byte)
    (hlim : b.pos + bs.length < 2 ^ 31) :
    ∃ g, f.fwrite bs = some g ∧ Represents g (b.write bs) := by
  obtain ⟨room, rfl, -⟩ := h.eq_layout
  have hend : s32 ((layout b room).pos + s32 bs.length) = (b.pos + bs.length : ℕ) := by
    rw [s32_natCast (by omega), layout]
    exact_mod_cast s32_natCast hlim
  obtain ⟨room', hbuf, hle⟩ := buf_layout b (max room (b.pos + bs.length - b.data.length))
  obtain ⟨rest, hstore⟩ := storeBytes_layout b room' bs (by omega)
  have hlen := length_splice b.data b.pos bs
  refine ⟨layout (b.write bs) rest, ?_, ⟨rest, rfl, ?_⟩, hlim, ?_⟩
  · simp only [fwrite, hend, u32_natCast (show b.pos + bs.length < 2 ^ 32 by omega),
      reserve_layout, hbuf]
    rw [show (layout b room').pos = (b.pos : ℤ) from rfl, hstore]
    have hmax : max ((b.pos + bs.length : ℕ) : ℤ) b.data.length =
        (max (b.pos + bs.length) b.data.length : ℕ) := by omega
    simp only [Option.map_some, layout, ByteFile.write, hlen, hmax]
  · simp only [ByteFile.write, hlen]
    omega
  · have := h.len_lt
    simp only [ByteFile.write, hlen]
    omega

/-- The position a seek goes to. -/
def seekTarget (b : ByteFile Byte) (offset : ℤ) : SeekOrigin → ℤ
  | .set => offset
  | .cur => b.pos + offset
  | .fromEnd => b.data.length + offset

theorem fseek_represents (h : Represents f b) (offset : ℤ) (origin : SeekOrigin)
    (h0 : 0 ≤ seekTarget b offset origin) (hlim : seekTarget b offset origin < 2 ^ 31) :
    Represents (f.fseek offset origin) (b.seek (seekTarget b offset origin).toNat) := by
  obtain ⟨room, rfl, -⟩ := h.eq_layout
  obtain ⟨p, hp⟩ := Int.eq_ofNat_of_zero_le h0
  have hpos : (layout b room).seekPos offset origin = p := by
    cases origin <;> simp only [seekTarget, seekPos, layout] at hp hlim ⊢
    · exact hp
    · rw [hp, s32_natCast (by omega)]
    · rw [hp, s32_natCast (by omega)]
  have hgrow : (layout b room).fseek offset origin = (layout (b.seek p) room).reserve p := by
    simp only [fseek, hpos, u32_natCast (show p < 2 ^ 32 by omega)]
    rfl
  rw [hgrow, hp, Int.toNat_natCast, reserve_layout]
  refine ⟨⟨_, rfl, ?_⟩, ?_, h.len_lt⟩ <;> simp only [ByteFile.seek] <;> omega

theorem truncate_represents (h : Represents f b) {length : ℤ} (h0 : 0 ≤ length)
    (hlim : length < 2 ^ 31) :
    ∃ g, f.truncate length = some g ∧ Represents g (b.truncate length.toNat) := by
  obtain ⟨room, rfl, -⟩ := h.eq_layout
  obtain ⟨l, rfl⟩ := Int.eq_ofNat_of_zero_le h0
  have hvec : (b.data ++ List.replicate room 0).takeD l 0 = b.data.takeD l 0 := by
    rcases le_total l (b.data.length + room) with hle | hle
    · rw [List.takeD_eq_take _ (by simpa using hle), take_append_zeros _ hle]
    · rw [takeD_eq_append, takeD_eq_append, List.take_of_length_le (by simpa using hle),
        List.take_of_length_le (by omega), List.append_assoc, List.replicate_append_replicate,
        List.length_append, List.length_replicate]
      congr 2
      omega
  refine ⟨layout (b.truncate l) 0, ?_, ⟨0, rfl, ?_⟩, ?_, ?_⟩
  · rw [EmufileMemory.truncate, if_neg (by omega)]
    simp only [layout, Int.toNat_natCast, hvec, ByteFile.truncate, List.takeD_length,
      List.replicate_zero, List.append_nil, Option.some.injEq, EmufileMemory.mk.injEq, and_true,
      true_and]
    split_ifs <;> omega
  · simp [ByteFile.truncate]
  · simp only [ByteFile.truncate]
    omega
  · simp only [ByteFile.truncate, Int.toNat_natCast, List.takeD_length]
    omega

/-- When `_fread` reads as a file does: the differences it takes do not wrap and the empty file
is not asked for nothing. -/
def ReadExact (b : ByteFile Byte) (n : ℕ) : Prop :=
  if b.data.length = 0 then 0 < n ∨ b.fail = true
  else if b.pos ≤ b.data.length then min n (b.data.length - b.pos) ≤ n % 2 ^ 32
  else n % 2 ^ 32 = 0

theorem remain_layout (h : Represents f b) : u32 (s32 (f.len - f.pos)) =
    if b.pos ≤ b.data.length then b.data.length - b.pos
    else 2 ^ 32 - (b.pos - b.data.length) := by
  obtain ⟨room, rfl, -⟩ := h.eq_layout
  have hpos := h.pos_lt
  have hlen := h.len_lt
  simp only [layout]
  rw [s32_of_fits (by omega) (by omega)]
  split_ifs with hle
  · rw [← Nat.cast_sub hle, u32_natCast (by omega)]
  · exact u32_sub_of_lt (by omega) (by omega)

theorem length_loadBytes {vec data : List Byte} {off : ℤ} {n : ℕ}
    (h : loadBytes vec off n = some data) : data.length = n := by
  unfold loadBytes at h
  split_ifs at h with hin
  rw [← Option.some.inj h, List.length_take, List.length_drop]
  omega

theorem Represents.failbit_eq (h : Represents f b) : f.failbit = b.fail := by
  obtain ⟨room, rfl, -⟩ := h.eq_layout
  rfl

theorem Represents.len_eq (h : Represents f b) : f.len = b.data.length := by
  obtain ⟨room, rfl, -⟩ := h.eq_layout
  rfl

theorem Represents.pos_eq (h : Represents f b) : f.pos = b.pos := by
  obtain ⟨room, rfl, -⟩ := h.eq_layout
  rfl

theorem fread_empty (h : Represents f b) (he : b.data.length = 0) (n : ℕ) :
    f.fread n = some ([], { f with failbit := true }) := by
  rw [EmufileMemory.fread, if_pos (by rw [h.len_eq, he]; rfl)]

/-- On a file that is not empty the number of bytes copied decides the whole read. -/
theorem fread_represents_of_todo (h : Represents f b) (hne : b.data.length ≠ 0) {n : ℕ}
    (htodo : min (u32 (s32 (f.len - f.pos))) (n % 2 ^ 32) = (b.readData n).length) :
    ∃ g, f.fread n = some (b.readData n, g) ∧ Represents g (b.read n) ∧
      f.freadCells n = List.range' b.pos (b.readData n).length := by
  have hlen : f.len ≠ 0 := by
    rw [h.len_eq]
    omega
  have hcount := b.length_readData n
  have hload : loadBytes f.vec f.pos (b.readData n).length = some (b.readData n) := by
    obtain ⟨room, rfl, hroom⟩ := h.eq_layout
    by_cases hle : b.pos ≤ b.data.length
    · have hsame : b.readData (b.readData n).length = b.readData n := by
        rw [ByteFile.readData, ByteFile.readData, List.take_eq_take_iff, List.length_take,
          Nat.min_assoc, Nat.min_self]
      exact (loadBytes_layout b (by omega)).trans (congrArg some hsame)
    · have hnil : b.readData n = [] := List.eq_nil_of_length_eq_zero (by omega)
      rw [hnil, loadBytes, if_pos]
      · rfl
      · simp only [layout, List.length_append, List.length_replicate, List.length_nil]
        omega
  refine ⟨layout (b.read n) (f.vec.length - b.data.length), ?_, ?_, ?_⟩
  · rw [EmufileMemory.fread, if_neg hlen, htodo, hload]
    obtain ⟨room, rfl, hroom⟩ := h.eq_layout
    have hpos := h.pos_lt
    have hsize := h.len_lt
    simp only [Option.map_some, layout, ByteFile.read, List.length_append, List.length_replicate,
      Nat.add_sub_cancel_left]
    rw [s32_of_fits (by omega) (by omega)]
    rfl
  · obtain ⟨room, rfl, hroom⟩ := h.eq_layout
    have hpos := h.pos_lt
    have hsize := h.len_lt
    refine ⟨⟨_, rfl, ?_⟩, ?_, hsize⟩ <;>
      simp only [ByteFile.read, layout, List.length_append, List.length_replicate] <;> omega
  · rw [freadCells, if_neg hlen, htodo, h.pos_eq, Int.toNat_natCast]

theorem fread_represents (h : Represents f b) {n : ℕ} (hexact : ReadExact b n) :
    ∃ g, f.fread n = some (b.readData n, g) ∧ Represents g (b.read n) ∧
      f.freadCells n = List.range' b.pos (b.readData n).length := by
  unfold ReadExact at hexact
  have hcount := b.length_readData n
  by_cases he : b.data.length = 0
  · rw [if_pos he] at hexact
    have hnil : b.readData n = [] := List.eq_nil_of_length_eq_zero (by omega)
    have hfail : (b.fail || decide (0 < n)) = true := by
      rcases hexact with hn | hf
      · simp [hn]
      · simp [hf]
    refine ⟨{ f with failbit := true }, ?_, ?_, ?_⟩
    · rw [fread_empty h he, hnil]
    · obtain ⟨room, rfl, hroom⟩ := h.eq_layout
      refine ⟨⟨room, ?_, ?_⟩, ?_, h.len_lt⟩
      · simp only [layout, ByteFile.read, hnil, List.length_nil, hfail, Nat.add_zero]
      · simpa only [ByteFile.read, hnil, List.length_nil, Nat.add_zero] using hroom
      · simpa only [ByteFile.read, hnil, List.length_nil, Nat.add_zero] using h.pos_lt
    · rw [freadCells, if_pos (by rw [h.len_eq, he]; rfl), hnil]
      rfl
  · rw [if_neg he] at hexact
    refine fread_represents_of_todo h he ?_
    rw [remain_layout h]
    split_ifs at hexact ⊢ <;> omega

theorem readExact_of_fread (h : Represents f b) {n : ℕ} {g : EmufileMemory}
    (hread : f.fread n = some (b.readData n, g)) (hg : Represents g (b.read n)) :
    ReadExact b n := by
  unfold ReadExact
  have hcount := b.length_readData n
  by_cases he : b.data.length = 0
  · rw [if_pos he]
    rw [fread_empty h he, Option.some.injEq, Prod.mk.injEq] at hread
    have hfail := hg.failbit_eq
    rw [← hread.2] at hfail
    have hread' : (b.fail || decide ((b.readData n).length < n)) = true := hfail.symm
    rw [Bool.or_eq_true, decide_eq_true_iff] at hread'
    rcases hread' with hf | hlt
    · exact Or.inr hf
    · exact Or.inl (by omega)
  · rw [if_neg he]
    have hlen : f.len ≠ 0 := by
      rw [h.len_eq]
      omega
    rw [EmufileMemory.fread, if_neg hlen, Option.map_eq_some_iff] at hread
    obtain ⟨data, hload, heq⟩ := hread
    have hdata : data = b.readData n := congrArg Prod.fst heq
    have htodo := length_loadBytes hload
    rw [hdata, remain_layout h] at htodo
    have hpos := h.pos_lt
    split_ifs at htodo ⊢ <;> omega

/-! Whole runs. -/

/-- What an operation does on a file, and what it returns. -/
def fileStep (b : ByteFile Byte) : EmufileOp → Response × ByteFile Byte
  | .fwrite bs => (.done, b.write bs)
  | .fputc c => (.int 0, b.write [BitVec.ofInt 8 c])
  | .fread n => (.read (List.range' b.pos (b.readData n).length) (b.readData n), b.read n)
  | .fseek offset origin => (.int 0, b.seek (seekTarget b offset origin).toNat)
  | .ftell => (.int b.pos, b)
  | .truncate length => (.done, b.truncate length.toNat)
  | .size => (.int b.data.length, b)

def fileNext (b : ByteFile Byte) (op : EmufileOp) : ByteFile Byte := (fileStep b op).2

/-- Positions and lengths stay non-negative and below the 2GB limit of the format. -/
def WithinLimits (b : ByteFile Byte) : EmufileOp → Prop
  | .fwrite bs => b.pos + bs.length < 2 ^ 31
  | .fputc _ => b.pos + 1 < 2 ^ 31
  | .fseek offset origin =>
    0 ≤ seekTarget b offset origin ∧ seekTarget b offset origin < 2 ^ 31
  | .truncate length => 0 ≤ length ∧ length < 2 ^ 31
  | .fread _ | .ftell | .size => True

def OpExact (b : ByteFile Byte) : EmufileOp → Prop
  | .fread n => ReadExact b n
  | _ => True

/-- At every operation the stream returns what the file returns and goes on representing it:
its bytes, its position and its fail bit. -/
def Refines : EmufileMemory → ByteFile Byte → List EmufileOp → Prop
  | _, _, [] => True
  | f, b, op :: ops => ∃ g, f.step op = some ((fileStep b op).1, g) ∧
      Represents g (fileNext b op) ∧ Refines g (fileNext b op) ops

theorem step_refines_iff (h : Represents f b) {op : EmufileOp} (hlim : WithinLimits b op) :
    (∃ g, f.step op = some ((fileStep b op).1, g) ∧ Represents g (fileNext b op)) ↔
      OpExact b op := by
  cases op with
  | fwrite bs =>
    obtain ⟨g, hg, hrep⟩ := fwrite_represents h bs hlim
    exact ⟨fun _ => trivial, fun _ => ⟨g, by rw [step, hg]; rfl, hrep⟩⟩
  | fputc c =>
    obtain ⟨g, hg, hrep⟩ := fwrite_represents h [BitVec.ofInt 8 c] hlim
    exact ⟨fun _ => trivial, fun _ => ⟨g, by rw [step, fputc, hg]; rfl, hrep⟩⟩
  | fread n =>
    constructor
    · rintro ⟨g, hg, hrep⟩
      rw [step, Option.map_eq_some_iff] at hg
      obtain ⟨⟨data, g'⟩, hread, heq⟩ := hg
      simp only [fileStep, Prod.mk.injEq, Response.read.injEq] at heq
      obtain ⟨⟨-, rfl⟩, rfl⟩ := heq
      exact readExact_of_fread h hread hrep
    · intro hexact
      obtain ⟨g, hg, hrep, hcells⟩ := fread_represents h hexact
      exact ⟨g, by rw [step, hg, hcells]; rfl, hrep⟩
  | fseek offset origin =>
    exact ⟨fun _ => trivial, fun _ => ⟨_, rfl, fseek_represents h _ _ hlim.1 hlim.2⟩⟩
  | ftell =>
    exact ⟨fun _ => trivial, fun _ => ⟨f, by rw [step, ftell, h.pos_eq]; rfl, h⟩⟩
  | truncate length =>
    obtain ⟨g, hg, hrep⟩ := truncate_represents h hlim.1 hlim.2
    exact ⟨fun _ => trivial, fun _ => ⟨g, by rw [step, hg]; rfl, hrep⟩⟩
  | size =>
    exact ⟨fun _ => trivial, fun _ => ⟨f, by rw [step, size, h.len_eq]; rfl, h⟩⟩

theorem refines_iff_of_represents (h : Represents f b) {ops : List EmufileOp}
    (hlim : AtEach fileNext WithinLimits b ops) :
    Refines f b ops ↔ AtEach fileNext OpExact b ops := by
  induction ops generalizing f b with
  | nil => rfl
  | cons op ops ih =>
    have hstep := step_refines_iff h hlim.1
    constructor
    · rintro ⟨g, hg, hrep, hrest⟩
      exact ⟨hstep.mp ⟨g, hg, hrep⟩, (ih hrep hlim.2).mp hrest⟩
    · rintro ⟨hop, hrest⟩
      obtain ⟨g, hg, hrep⟩ := hstep.mpr hop
      exact ⟨g, hg, hrep, (ih hrep hlim.2).mpr hrest⟩

/-- A stream within the size limit is a file, operation by operation, exactly when every read
of the run is one that `_fread` does not get wrong. -/
theorem emufileMemory_refines_iff {data : List Byte} (hdata : data.length < 2 ^ 31)
    {ops : List EmufileOp} (hlim : AtEach fileNext WithinLimits ⟨data, 0, false⟩ ops) :
    Refines (ofUnderlying data) ⟨data, 0, false⟩ ops ↔
      AtEach fileNext OpExact ⟨data, 0, false⟩ ops :=
  refines_iff_of_represents (ofUnderlying_represents _ hdata) hlim

theorem emufileMemory_refines_sample :
    Refines (ofUnderlying [1, 2, 3]) ⟨[1, 2, 3], 0, false⟩
      [.fread 2, .fseek 1 .fromEnd, .fwrite [9, 9], .fseek (-4) .cur, .fread 9] ↔
    AtEach fileNext OpExact ⟨[1, 2, 3], 0, false⟩
      [.fread 2, .fseek 1 .fromEnd, .fwrite [9, 9], .fseek (-4) .cur, .fread 9] :=
  emufileMemory_refines_iff (by decide) (by
    simp [AtEach, WithinLimits, fileNext, fileStep, seekTarget, ByteFile.read, ByteFile.readData,
      ByteFile.seek, ByteFile.write])

/-- Behind the end of a file of one byte a read hands out two zeros and reports no failure. -/
theorem emufileMemory_reads_behind_end :
    AtEach fileNext WithinLimits ⟨[0x41], 0, false⟩ [.fseek 4 .set, .fseek 2 .set, .fread 2] ∧
      ¬ Refines (ofUnderlying [0x41]) ⟨[0x41], 0, false⟩
        [.fseek 4 .set, .fseek 2 .set, .fread 2] := by
  constructor
  · simp [AtEach, WithinLimits, seekTarget]
  · rintro ⟨g₁, h₁, -, g₂, h₂, -, g₃, h₃, -⟩
    obtain rfl := (Prod.mk.inj (Option.some.inj h₁)).2
    obtain rfl := (Prod.mk.inj (Option.some.inj h₂)).2
    have hread : ((((ofUnderlying [0x41]).fseek 4 .set).fseek 2 .set).step (.fread 2)).map
        Prod.fst = some (.read [] []) := congrArg (Option.map Prod.fst) h₃
    exact absurd hread (by decide)

end Desmume.SaveState
