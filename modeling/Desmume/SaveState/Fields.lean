import Desmume.SaveState.SformatRoundTrip

/-! Savestates that are written field by field: `OSWRITE` and `OSREAD`, and the chunk header that
is filled in behind its data. -/

namespace Desmume.SaveState
open Library

/-- The bytes of an integer variable. -/
def encode (n : ℕ) (x : BitVec (8 * n)) : List Byte := leBytes n x.toNat

def decode (n : ℕ) (bs : List Byte) : BitVec (8 * n) := BitVec.ofNat (8 * n) (ofLeBytes bs)

@[simp] theorem length_encode (n : ℕ) (x : BitVec (8 * n)) : (encode n x).length = n :=
  length_leBytes ..

@[simp] theorem decode_encode (n : ℕ) (x : BitVec (8 * n)) : decode n (encode n x) = x := by
  have hlt : x.toNat < 256 ^ n := by
    have hx := x.isLt
    rwa [Nat.pow_mul] at hx
  rw [decode, encode, ofLeBytes_leBytes_of_lt hlt, BitVec.ofNat_toNat, BitVec.setWidth_eq]

namespace EmufileMemory

/-- A sequence of `OSWRITE`s. -/
def writeFields (os : EmufileMemory) (fields : List (List Byte)) : Option EmufileMemory :=
  fields.foldlM fwrite os

/-- `OSREAD`: a short read leaves the rest of the variable. -/
def readField (is : EmufileMemory) (old : List Byte) : Option (List Byte × EmufileMemory) :=
  (is.fread old.length).map fun r => (r.1 ++ old.drop r.1.length, r.2)

/-- A sequence of `OSREAD`s, over the fields as they are before. -/
def readFields (is : EmufileMemory) :
    List (List Byte) → Option (List (List Byte) × EmufileMemory)
  | [] => some ([], is)
  | old :: olds => do
    let (field, is) ← is.readField old
    (is.readFields olds).map fun r => (field :: r.1, r.2)

end EmufileMemory

section Each

variable {ι : Type} {α : ι → Type}

/-- A loop that saves a variable at each index. -/
def saveEach (save : ∀ i, α i → EmufileMemory → Option EmufileMemory) (x : ∀ i, α i)
    (indices : List ι) (os : EmufileMemory) : Option EmufileMemory :=
  indices.foldlM (fun os i => save i (x i) os) os

/-- A loop that loads a variable at each index. -/
def loadEach [DecidableEq ι] (load : ∀ i, α i → EmufileMemory → Option (α i × EmufileMemory)) :
    List ι → (∀ i, α i) → EmufileMemory → Option ((∀ i, α i) × EmufileMemory)
  | [], x, is => some (x, is)
  | i :: indices, x, is => do
    let (y, is) ← load i (x i) is
    loadEach load indices (Function.update x i y) is

end Each

/-- A variable that is saved as a sequence of fields, the same ones in every state; loading
replaces them in the variable as it is. -/
structure FieldCodec (α : Type) where
  fields : α → List (List Byte)
  setFields : α → List (List Byte) → α
  lengths : ∀ x y, (fields x).map List.length = (fields y).map List.length

namespace FieldCodec

variable {α : Type} (c : FieldCodec α)

def save (x : α) (os : EmufileMemory) : Option EmufileMemory := os.writeFields (c.fields x)

def load (x : α) (is : EmufileMemory) : Option (α × EmufileMemory) :=
  (is.readFields (c.fields x)).map fun r => (c.setFields x r.1, r.2)

end FieldCodec

/-- `savestate_WriteChunk` over a function; no result when its assertion fails. -/
def savestateWriteProc (os : EmufileMemory) (type : BitVec 32)
    (saveproc : EmufileMemory → Option EmufileMemory) : Option EmufileMemory := do
  let pos1 : BitVec 32 := .ofInt 32 os.ftell
  let os ← os.write32le type
  let os := os.fseek 4 .cur
  let os ← saveproc os
  let pos2 : BitVec 32 := .ofInt 32 os.ftell
  if pos2 = -1 then none
  else
    let size := pos2 - pos1 - 8
    let os := os.fseek (pos1 + 4).toInt .set
    let os ← os.write32le size
    return os.fseek pos2.toInt .set

/-! Writing. -/

variable {f : EmufileMemory} {b : ByteFile Byte}

theorem writeFields_append (os : EmufileMemory) (as bs : List (List Byte)) :
    os.writeFields (as ++ bs) = (os.writeFields as).bind fun os => os.writeFields bs :=
  List.foldlM_append ..

theorem writeFields_cons (os : EmufileMemory) (bs : List Byte) (fields : List (List Byte)) :
    os.writeFields (bs :: fields) = (os.fwrite bs).bind fun os => os.writeFields fields :=
  List.foldlM_cons ..

theorem writeFields_singleton (os : EmufileMemory) (bs : List Byte) :
    os.writeFields [bs] = os.fwrite bs := by
  rw [writeFields_cons]
  exact Option.bind_fun_some _

theorem writeFields_represents (h : Represents f b) (fields : List (List Byte))
    (hlim : b.pos + fields.flatten.length < 2 ^ 31) :
    ∃ g, f.writeFields fields = some g ∧ Represents g (b.writeAll fields) := by
  induction fields generalizing f b with
  | nil => exact ⟨f, rfl, h⟩
  | cons bs fields ih =>
    rw [List.flatten_cons, List.length_append] at hlim
    obtain ⟨f₁, h₁, r₁⟩ := fwrite_represents h bs (by omega)
    obtain ⟨g, hg, hrep⟩ := ih r₁ (by simp only [ByteFile.write]; omega)
    refine ⟨g, ?_, hrep⟩
    rw [EmufileMemory.writeFields, List.foldlM_cons, h₁]
    exact hg

theorem toInt_ofNat {n : ℕ} (h : n < 2 ^ 31) : (BitVec.ofNat 32 n).toInt = n := by
  have hnat : (BitVec.ofNat 32 n).toNat = n := by
    rw [BitVec.toNat_ofNat, Nat.mod_eq_of_lt (by omega)]
  rw [BitVec.toInt_eq_toNat_of_lt (by omega), hnat]

theorem ofNat_chunk_sub (p l : ℕ) :
    BitVec.ofNat 32 (p + 8 + l) - BitVec.ofNat 32 p - 8 = BitVec.ofNat 32 l := by
  rw [BitVec.ofNat_add, BitVec.ofNat_add]
  bv_omega

/-- The chunk is in the stream as if its size had been known before. -/
theorem savestateWriteProc_represents (h : Represents f b) (type : BitVec 32)
    {saveproc : EmufileMemory → Option EmufileMemory} {field : List Byte}
    {fields : List (List Byte)} (hproc : ∀ os, saveproc os = os.writeFields (field :: fields))
    (hlim : b.pos + (8 + (field :: fields).flatten.length) < 2 ^ 31) :
    ∃ g, savestateWriteProc f type saveproc = some g ∧
      Represents g (b.write (leBytes 4 type.toNat ++
        (leBytes 4 (field :: fields).flatten.length ++ (field :: fields).flatten))) := by
  generalize hbody : (field :: fields).flatten = body at hlim ⊢
  -- the type, a gap for the size, and the data
  obtain ⟨f₁, h₁, r₁⟩ := fwrite_represents h (leBytes 4 type.toNat) (by rw [length_leBytes]; omega)
  have hgap : seekTarget (b.write (leBytes 4 type.toNat)) 4 .cur = (b.pos + 8 : ℕ) := by
    simp only [seekTarget, ByteFile.write, length_leBytes]
    omega
  have r₂ := fseek_represents r₁ 4 .cur (by rw [hgap]; omega) (by rw [hgap]; omega)
  rw [hgap, Int.toNat_natCast] at r₂
  obtain ⟨f₃, h₃, r₃⟩ := writeFields_represents r₂ (field :: fields)
    (by rw [hbody]; simp only [ByteFile.seek]; omega)
  rw [ByteFile.writeAll_cons, ← List.flatten_cons, hbody] at r₃
  have hend : f₃.ftell = (b.pos + 8 + body.length : ℕ) := r₃.pos_eq
  have hstart : f.ftell = (b.pos : ℕ) := h.pos_eq
  -- back to the gap
  have r₄ := fseek_represents r₃ (b.pos + 4 : ℕ) .set (Int.natCast_nonneg _)
    (by simp only [seekTarget]; omega)
  simp only [seekTarget, Int.toNat_natCast] at r₄
  obtain ⟨f₅, h₅, r₅⟩ := fwrite_represents r₄ (leBytes 4 body.length)
    (by simp only [ByteFile.seek, length_leBytes]; omega)
  have r₆ := fseek_represents r₅ (b.pos + 8 + body.length : ℕ) .set (Int.natCast_nonneg _)
    (by simp only [seekTarget]; omega)
  simp only [seekTarget, Int.toNat_natCast] at r₆
  refine ⟨f₅.fseek (b.pos + 8 + body.length : ℕ) .set, ?_, ?_⟩
  · have hpos1 : BitVec.ofInt 32 f.ftell = BitVec.ofNat 32 b.pos := by rw [hstart, BitVec.ofInt_natCast]
    have hpos2 : BitVec.ofInt 32 f₃.ftell = BitVec.ofNat 32 (b.pos + 8 + body.length) := by
      rw [hend, BitVec.ofInt_natCast]
    have hback : (BitVec.ofNat 32 b.pos + 4).toInt = (b.pos + 4 : ℕ) := by
      rw [show BitVec.ofNat 32 b.pos + 4 = BitVec.ofNat 32 (b.pos + 4) from (BitVec.ofNat_add ..).symm,
        toInt_ofNat (by omega)]
    have hne : ¬ BitVec.ofNat 32 (b.pos + 8 + body.length) = -1 := fun hminus => by
      have hint := congrArg BitVec.toInt hminus
      rw [toInt_ofNat (by omega)] at hint
      exact absurd hint (by have : (-1 : BitVec 32).toInt = -1 := rfl; omega)
    have hsize : (BitVec.ofNat 32 body.length).toNat = body.length := by
      rw [BitVec.toNat_ofNat, Nat.mod_eq_of_lt (by omega)]
    simp only [savestateWriteProc, hpos1, EmufileMemory.write32le, h₁, Option.bind_eq_bind,
      Option.bind_some, hproc, h₃, hpos2, if_neg hne, ofNat_chunk_sub, hback, hsize, h₅,
      toInt_ofNat (show b.pos + 8 + body.length < 2 ^ 31 by omega)]
    rfl
  · have hfill := b.write_gap (leBytes 4 type.toNat) (leBytes 4 body.length) body
    simp only [length_leBytes] at hfill
    rw [← hfill]
    exact r₆

/-! Reading. -/

/-- From a stream that holds `bs` the action `read` gets `a` and ends behind `bs`. -/
def Reads {α : Type} (read : EmufileMemory → Option (α × EmufileMemory)) (bs : List Byte) (a : α) :
    Prop :=
  ∀ f b, Represents f b → b.fail = false → b.Holds bs → b.data.length ≠ 0 →
    b.pos + bs.length ≤ b.data.length →
      ∃ g, read f = some (a, g) ∧ Represents g (b.seek (b.pos + bs.length))

section Reads

variable {α β : Type}

theorem Reads.pure (a : α) : Reads (fun is => some (a, is)) [] a :=
  fun f _ h _ _ _ _ => ⟨f, rfl, h⟩

theorem Reads.bind {read : EmufileMemory → Option (α × EmufileMemory)}
    {k : α → EmufileMemory → Option (β × EmufileMemory)} {bs cs : List Byte} {a : α} {c : β}
    (hread : Reads read bs a) (hnext : Reads (k a) cs c) :
    Reads (fun is => (read is).bind fun r => k r.1 r.2) (bs ++ cs) c := by
  intro f b h hfail hold hne hin
  rw [List.length_append] at hin
  obtain ⟨f₁, h₁, r₁⟩ := hread f b h hfail hold.left hne (by omega)
  obtain ⟨g, hg, hrep⟩ := hnext f₁ _ r₁ hfail hold.right hne (by simp only [ByteFile.seek]; omega)
  refine ⟨g, ?_, ?_⟩
  · simp only [h₁, Option.bind_some, hg]
  · rw [List.length_append, ← Nat.add_assoc]
    exact hrep

theorem Reads.map {read : EmufileMemory → Option (α × EmufileMemory)} {bs : List Byte} {a : α}
    (hread : Reads read bs a) (k : α → β) :
    Reads (fun is => (read is).map fun r => (k r.1, r.2)) bs (k a) := by
  intro f b h hfail hold hne hin
  obtain ⟨g, hg, hrep⟩ := hread f b h hfail hold hne hin
  refine ⟨g, ?_, hrep⟩
  simp only [hg, Option.map_some]

theorem reads_field {old bs : List Byte} (h : old.length = bs.length) :
    Reads (fun is => is.readField old) bs bs := by
  intro f b hf _ hold hne hin
  obtain ⟨g, hg, hrep⟩ := fread_holds hf hold hne hin
  refine ⟨g, ?_, hrep⟩
  simp only [EmufileMemory.readField, h, hg, Option.map_some]
  rw [← h, List.drop_length, List.append_nil]

theorem reads_fields {olds fields : List (List Byte)}
    (h : olds.map List.length = fields.map List.length) :
    Reads (fun is => is.readFields olds) fields.flatten fields := by
  induction olds generalizing fields with
  | nil =>
    obtain rfl := List.map_eq_nil_iff.mp h.symm
    exact .pure []
  | cons old olds ih =>
    cases fields with
    | nil => cases h
    | cons field fields =>
      obtain ⟨hfirst, hrest⟩ := List.cons.inj h
      exact (reads_field hfirst).bind
        (k := fun field is => (is.readFields olds).map fun r => (field :: r.1, r.2))
        ((ih hrest).map (field :: ·))

theorem reads_read32le (x : BitVec 32) :
    Reads EmufileMemory.read32le (leBytes 4 x.toNat) (some x) := by
  intro f b h _ hold hne hin
  obtain ⟨g, hg, hrep⟩ := fread_holds h hold hne hin
  rw [length_leBytes] at hg
  have hvalue : BitVec.ofNat 32 (ofLeBytes (leBytes 4 x.toNat)) = x := by
    rw [ofLeBytes_leBytes_of_lt x.isLt, BitVec.ofNat_toNat, BitVec.setWidth_eq]
  refine ⟨g, ?_, hrep⟩
  rw [EmufileMemory.read32le, hg, Option.map_some, length_leBytes, if_neg (by decide), hvalue]

theorem reads_stateChunk (mem mem' : Memory) {table : List SFormat} {fuel : ℕ}
    (hfuel : table.length < fuel) :
    Reads (fun is => (readStateChunk fuel is mem' table (chunkBytes mem table).length).map fun r =>
        ((r.1, r.2.mem), r.2.is))
      (chunkBytes mem table) (true, restore mem (rows table) mem') := by
  intro f b h hfail hold _ _
  obtain ⟨r, hr, hrep, hmem⟩ := readStateChunk_restores h hfail hold mem' hfuel
  refine ⟨r.is, ?_, hrep⟩
  simp only [hr, Option.map_some, hmem]

theorem reads_each {ι : Type} [DecidableEq ι] {α : ι → Type}
    {load : ∀ i, α i → EmufileMemory → Option (α i × EmufileMemory)} {indices : List ι}
    (hnodup : indices.Nodup) {old new : ∀ i, α i} {bytes : ι → List Byte}
    (hload : ∀ i ∈ indices, Reads (load i (old i)) (bytes i) (new i)) :
    Reads (loadEach load indices old) (indices.flatMap bytes)
      (fun i => if i ∈ indices then new i else old i) := by
  induction indices generalizing old with
  | nil =>
    simp only [List.not_mem_nil, if_false]
    exact .pure old
  | cons i indices ih =>
    obtain ⟨hi, hrest⟩ := List.nodup_cons.mp hnodup
    have hnext : ∀ j ∈ indices,
        Reads (load j (Function.update old i (new i) j)) (bytes j) (new j) := fun j hj => by
      have hne : j ≠ i := by
        rintro rfl
        exact hi hj
      rw [Function.update_of_ne hne]
      exact hload j (List.mem_cons_of_mem i hj)
    have hboth := (hload i List.mem_cons_self).bind
      (k := fun y is => loadEach load indices (Function.update old i y) is) (ih hrest hnext)
    have hfinal : (fun j => if j ∈ indices then new j else Function.update old i (new i) j) =
        fun j => if j ∈ i :: indices then new j else old j := by
      funext j
      by_cases hj : j = i
      · subst hj
        rw [if_neg hi, if_pos List.mem_cons_self, Function.update_self]
      · rw [Function.update_of_ne hj]
        simp only [List.mem_cons, hj, false_or]
    rw [hfinal] at hboth
    exact hboth

end Reads

namespace FieldCodec

theorem reads_load {α : Type} (c : FieldCodec α) (old new : α) :
    Reads (c.load old) (c.fields new).flatten (c.setFields old (c.fields new)) :=
  (reads_fields (c.lengths old new)).map (c.setFields old)

variable {ι : Type} {α : ι → Type} (c : ∀ i, FieldCodec (α i))

/-- A loop writes the fields of its variables one after the other. -/
theorem saveEach_eq_writeFields (x : ∀ i, α i) (indices : List ι) (os : EmufileMemory) :
    saveEach (fun i => (c i).save) x indices os =
      os.writeFields (indices.flatMap fun i => (c i).fields (x i)) := by
  induction indices generalizing os with
  | nil => rfl
  | cons i indices ih =>
    rw [List.flatMap_cons, writeFields_append, saveEach, List.foldlM_cons]
    exact congrArg (Option.bind _) (funext ih)

theorem reads_loadEach [DecidableEq ι] {indices : List ι} (hnodup : indices.Nodup)
    (old new : ∀ i, α i) :
    Reads (loadEach (fun i => (c i).load) indices old)
      (indices.flatMap fun i => (c i).fields (new i)).flatten
      (fun i => if i ∈ indices then (c i).setFields (old i) ((c i).fields (new i)) else old i) := by
  have hbytes : (indices.flatMap fun i => (c i).fields (new i)).flatten =
      indices.flatMap fun i => ((c i).fields (new i)).flatten := by
    rw [List.flatMap_def, List.flatten_flatten, List.map_map, List.flatMap_def]
    rfl
  rw [hbytes]
  exact reads_each hnodup fun i _ => (c i).reads_load (old i) (new i)

end FieldCodec

end Desmume.SaveState
