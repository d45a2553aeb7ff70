import Desmume.SaveState.Fields

/-! Savestates as files of chunks: the header, `writechunks` and the loop of `ReadStateChunks`. -/

namespace Desmume.SaveState
open Library

variable {σ : Type}

/-- A chunk: how `writechunks` writes it, header included, and the case of `ReadStateChunks` that
reads it from behind the header, given its declared size. -/
structure Chunk (σ : Type) where
  type : BitVec 32
  save : σ → EmufileMemory → Option EmufileMemory
  load : ℤ → σ → EmufileMemory → Option ((Bool × σ) × EmufileMemory)

/-- `writechunks`, with the mark behind the last chunk. -/
def writechunks (chunks : List (Chunk σ)) (s : σ) (os : EmufileMemory) : Option EmufileMemory := do
  let os ← chunks.foldlM (fun os c => c.save s os) os
  os.write32le 0xFFFFFFFF

/-- The `switch` of `ReadStateChunks`. -/
def loadCase (chunks : List (Chunk σ)) (t : BitVec 32) (size : ℤ) (s : σ) (is : EmufileMemory) :
    Option ((Bool × σ) × EmufileMemory) :=
  if t = 101 then some ((true, s), is)
  else
    match chunks.find? fun c => c.type = t with
    | some c => c.load size s is
    | none => some ((false, s), is)

/-- The loop of `ReadStateChunks`, for at most `fuel` rounds. -/
def readStateChunksLoop (chunks : List (Chunk σ)) :
    ℕ → σ → EmufileMemory → Option ((Bool × σ) × EmufileMemory)
  | 0, _, _ => none
  | fuel + 1, s, is => do
    let (t?, is) ← is.read32le
    match t? with
    | none => return ((false, s), is)
    | some t =>
      if t = 0xFFFFFFFF then return ((true, s), is)
      else
        let (size?, is) ← is.read32le
        match size? with
        | none => return ((false, s), is)
        | some size =>
          let (r, is) ← loadCase chunks t size.toInt s is
          if r.1 then readStateChunksLoop chunks fuel r.2 is else return (r, is)

/-- `ReadStateChunks`; its loop never counts the total size down. -/
def readStateChunks (chunks : List (Chunk σ)) (fuel : ℕ) (totalsize : ℤ) (s : σ)
    (is : EmufileMemory) : Option ((Bool × σ) × EmufileMemory) :=
  if 0 < totalsize then readStateChunksLoop chunks fuel s is else some ((true, s), is)

/-- `magic`, with its two zeros. -/
def magic : List Byte :=
  ['D', 'e', 'S', 'm', 'u', 'M', 'E', ' ', 'S', 'S', 't', 'a', 't', 'e'].map
    (fun c => BitVec.ofNat 8 c.toNat) ++ [0, 0]

def savestateVersion : BitVec 32 := 12

/-- `savestate_save`; the version of the program goes into the header too. -/
def savestateSave (chunks : List (Chunk σ)) (desmumeVersion : BitVec 32) (s : σ)
    (outstream : EmufileMemory) : Option EmufileMemory := do
  let os ← writechunks chunks s (outstream.fseek 32 .set)
  let len : BitVec 32 := .ofInt 32 os.ftell
  let os ← (os.fseek 0 .set).fwrite magic
  let os ← os.write32le savestateVersion
  let os ← os.write32le desmumeVersion
  let os ← os.write32le len
  os.write32le 0xFFFFFFFF

/-- `savestate_load`: the buffer is as long as the file was with its header, but holds only what is
behind it. `reset` stands for `NDS_Reset` and `regenerate` for `loadstate`. -/
def savestateLoad (chunks : List (Chunk σ)) (fuel : ℕ) (reset regenerate : σ → σ) (s : σ)
    (is : EmufileMemory) : Option (Bool × σ) := do
  let (header, is) ← is.fread 16
  if is.failbit ∨ header ≠ magic then return (false, s)
  let (ssversion?, is) ← is.read32le
  let some ssversion := ssversion? | return (false, s)
  let (desmumeVersion?, is) ← is.read32le
  let some _ := desmumeVersion? | return (false, s)
  let (len?, is) ← is.read32le
  let some len := len? | return (false, s)
  let (comprlen?, is) ← is.read32le
  let some _ := comprlen? | return (false, s)
  if ssversion ≠ savestateVersion then return (false, s)
  let (data, _) ← is.fread (len - 32).toNat
  let buf := data ++ List.replicate (len.toNat - data.length) 0
  let (r, _) ← readStateChunks chunks fuel len.toInt (reset s) (.ofUnderlying buf)
  if r.1 then return (true, regenerate r.2) else return (false, r.2)

/-- What a chunk of the state `s` looks like behind its header, and the state that reading it makes
of another one. -/
structure Chunk.Saves (c : Chunk σ) (s : σ) (bytes : List Byte) (onto : σ → σ) : Prop where
  size : bytes.length < 2 ^ 31
  save : ∀ f b, Represents f b → b.pos + (8 + bytes.length) < 2 ^ 31 →
    ∃ g, c.save s f = some g ∧
      Represents g (b.write (leBytes 4 c.type.toNat ++ (leBytes 4 bytes.length ++ bytes)))
  load : ∀ t, Reads (c.load bytes.length t) bytes (true, onto t)

/-- A chunk with its contents and its effect. -/
structure SavedChunk (σ : Type) where
  chunk : Chunk σ
  bytes : List Byte
  onto : σ → σ

namespace SavedChunk

/-- A chunk in the file. -/
def fileBytes (c : SavedChunk σ) : List Byte :=
  leBytes 4 c.chunk.type.toNat ++ (leBytes 4 c.bytes.length ++ c.bytes)

theorem length_fileBytes (c : SavedChunk σ) : c.fileBytes.length = 8 + c.bytes.length := by
  rw [fileBytes, List.length_append, List.length_append, length_leBytes, length_leBytes]
  omega

end SavedChunk

/-- The file behind its header. -/
def fileBytes (saved : List (SavedChunk σ)) : List Byte :=
  (saved.map SavedChunk.fileBytes).flatten ++ leBytes 4 (0xFFFFFFFF : BitVec 32).toNat

/-- The chunks applied to a state one after the other. -/
def ontoAll (saved : List (SavedChunk σ)) (t : σ) : σ := saved.foldl (fun t c => c.onto t) t

variable {s : σ} {saved : List (SavedChunk σ)} {f : EmufileMemory} {b : ByteFile Byte}

theorem fileBytes_cons (c : SavedChunk σ) (saved : List (SavedChunk σ)) :
    fileBytes (c :: saved) = c.fileBytes ++ fileBytes saved := by
  rw [fileBytes, List.map_cons, List.flatten_cons, List.append_assoc, fileBytes]

theorem length_fileBytes (saved : List (SavedChunk σ)) :
    (fileBytes saved).length = (saved.map fun c => 8 + c.bytes.length).sum + 4 := by
  induction saved with
  | nil => exact length_leBytes ..
  | cons c saved ih =>
    rw [fileBytes_cons, List.length_append, c.length_fileBytes, ih, List.map_cons, List.sum_cons,
      Nat.add_assoc (8 + c.bytes.length)]

theorem length_le_fileBytes {c : SavedChunk σ} (hc : c ∈ saved) :
    c.bytes.length ≤ (fileBytes saved).length := by
  induction saved with
  | nil => cases hc
  | cons c' saved ih =>
    rw [fileBytes_cons, List.length_append, c'.length_fileBytes]
    rcases List.mem_cons.mp hc with rfl | hc
    · omega
    · have := ih hc
      omega

/-! The writer. -/

theorem writechunks_represents (hsaves : ∀ c ∈ saved, c.chunk.Saves s c.bytes c.onto)
    (h : Represents f b) (hlim : b.pos + (fileBytes saved).length < 2 ^ 31) :
    ∃ g, writechunks (saved.map SavedChunk.chunk) s f = some g ∧
      Represents g (b.write (fileBytes saved)) := by
  induction saved generalizing f b with
  | nil => exact fwrite_represents h _ hlim
  | cons c saved ih =>
    rw [fileBytes_cons, List.length_append, c.length_fileBytes] at hlim
    obtain ⟨f₁, h₁, r₁⟩ := (hsaves c List.mem_cons_self).save f b h (by omega)
    obtain ⟨g, hg, hrep⟩ := ih (fun c' hc => hsaves c' (List.mem_cons_of_mem _ hc)) r₁ (by
      have hlen := c.length_fileBytes
      rw [SavedChunk.fileBytes] at hlen
      simp only [ByteFile.write, hlen]
      omega)
    refine ⟨g, ?_, ?_⟩
    · rw [writechunks, List.map_cons, List.foldlM_cons]
      simp only [h₁, Option.bind_eq_bind, Option.bind_some]
      exact hg
    · rw [ByteFile.write_write] at hrep
      rw [fileBytes_cons]
      exact hrep

/-! The reader. -/

theorem loadCase_mem {chunks : List (Chunk σ)} (hnodup : (chunks.map Chunk.type).Nodup)
    {c : Chunk σ} (hc : c ∈ chunks) (h101 : c.type ≠ 101) (size : ℤ) (s : σ) (is : EmufileMemory) :
    loadCase chunks c.type size s is = c.load size s is := by
  have hfind : chunks.find? (fun c' => c'.type = c.type) = some c := by
    induction chunks with
    | nil => cases hc
    | cons c' chunks ih =>
      rw [List.map_cons, List.nodup_cons] at hnodup
      rcases List.mem_cons.mp hc with rfl | hc
      · exact List.find?_cons_of_pos (decide_eq_true rfl)
      · have hne : c'.type ≠ c.type := fun h => hnodup.1 (h ▸ List.mem_map_of_mem hc)
        rw [List.find?_cons_of_neg (by simpa using hne)]
        exact ih hnodup.2 hc
  rw [loadCase, if_neg h101, hfind]

/-- What the loop does behind the type of a chunk. -/
def readTyped (chunks : List (Chunk σ)) (fuel : ℕ) (s : σ) (t? : Option (BitVec 32))
    (is : EmufileMemory) : Option ((Bool × σ) × EmufileMemory) :=
  match t? with
  | none => some ((false, s), is)
  | some t =>
    if t = 0xFFFFFFFF then some ((true, s), is)
    else is.read32le.bind fun r => match r.1 with
      | none => some ((false, s), r.2)
      | some size => (loadCase chunks t size.toInt s r.2).bind fun r =>
        if r.1.1 then readStateChunksLoop chunks fuel r.1.2 r.2 else some (r.1, r.2)

theorem readStateChunksLoop_succ (chunks : List (Chunk σ)) (fuel : ℕ) (s : σ) :
    readStateChunksLoop chunks (fuel + 1) s =
      fun is => is.read32le.bind fun r => readTyped chunks fuel s r.1 r.2 := by
  funext is
  rw [readStateChunksLoop]
  refine congrArg (Option.bind is.read32le) (funext fun r => ?_)
  rcases r with ⟨_ | t, is⟩
  · rfl
  · simp only [readTyped]
    split_ifs
    · rfl
    · rfl

theorem reads_readStateChunksLoop {chunks : List (Chunk σ)}
    (hnodup : (chunks.map Chunk.type).Nodup) (hsub : ∀ c ∈ saved, c.chunk ∈ chunks)
    (hsaves : ∀ c ∈ saved, c.chunk.Saves s c.bytes c.onto)
    (htype : ∀ c ∈ saved, c.chunk.type ≠ 101 ∧ c.chunk.type ≠ 0xFFFFFFFF) (t : σ) {fuel : ℕ}
    (hfuel : saved.length < fuel) :
    Reads (readStateChunksLoop chunks fuel t) (fileBytes saved) (true, ontoAll saved t) := by
  induction saved generalizing t fuel with
  | nil =>
    obtain ⟨n, rfl⟩ : ∃ n, fuel = n + 1 := ⟨fuel - 1, by omega⟩
    rw [readStateChunksLoop_succ]
    have hend : Reads (readTyped chunks n t (some 0xFFFFFFFF)) [] (true, t) := Reads.pure (true, t)
    have hall := (reads_read32le 0xFFFFFFFF).bind (k := readTyped chunks n t) hend
    rw [List.append_nil] at hall
    exact hall
  | cons c saved ih =>
    obtain ⟨n, rfl⟩ : ∃ n, fuel = n + 1 := ⟨fuel - 1, by omega⟩
    have hc := hsaves c List.mem_cons_self
    obtain ⟨h101, hmark⟩ := htype c List.mem_cons_self
    have hrest := ih (fun c' hc' => hsub c' (List.mem_cons_of_mem _ hc'))
      (fun c' hc' => hsaves c' (List.mem_cons_of_mem _ hc'))
      (fun c' hc' => htype c' (List.mem_cons_of_mem _ hc')) (c.onto t)
      (show saved.length < n by rw [List.length_cons] at hfuel; omega)
    have hbody := (hc.load t).bind (k := fun r is => if r.1 then
      readStateChunksLoop chunks n r.2 is else some (r, is)) hrest
    have hsize : (BitVec.ofNat 32 c.bytes.length).toNat = c.bytes.length := by
      have := hc.size
      rw [BitVec.toNat_ofNat, Nat.mod_eq_of_lt (by omega)]
    have hcase : Reads (fun is => (loadCase chunks c.chunk.type
        (BitVec.ofNat 32 c.bytes.length).toInt t is).bind fun r =>
          if r.1.1 then readStateChunksLoop chunks n r.1.2 r.2 else some (r.1, r.2))
        (c.bytes ++ fileBytes saved) (true, ontoAll saved (c.onto t)) := by
      simp only [loadCase_mem hnodup (hsub c List.mem_cons_self) h101, toInt_ofNat hc.size]
      exact hbody
    have hheader := (reads_read32le (BitVec.ofNat 32 c.bytes.length)).bind
      (k := fun size? is => match size? with
        | none => some ((false, t), is)
        | some size => (loadCase chunks c.chunk.type size.toInt t is).bind fun r =>
          if r.1.1 then readStateChunksLoop chunks n r.1.2 r.2 else some (r.1, r.2)) hcase
    rw [hsize] at hheader
    have htyped : Reads (readTyped chunks n t (some c.chunk.type))
        (leBytes 4 c.bytes.length ++ (c.bytes ++ fileBytes saved))
        (true, ontoAll saved (c.onto t)) := by
      have heq : readTyped chunks n t (some c.chunk.type) = fun is => is.read32le.bind fun r =>
          match r.1 with
          | none => some ((false, t), r.2)
          | some size => (loadCase chunks c.chunk.type size.toInt t r.2).bind fun r =>
            if r.1.1 then readStateChunksLoop chunks n r.1.2 r.2 else some (r.1, r.2) := by
        funext is
        exact if_neg hmark
      rw [heq]
      exact hheader
    have hall := (reads_read32le c.chunk.type).bind (k := readTyped chunks n t) htyped
    rw [readStateChunksLoop_succ, fileBytes_cons, SavedChunk.fileBytes, List.append_assoc,
      List.append_assoc]
    exact hall

/-! The header. -/

def headerBytes (desmumeVersion len : BitVec 32) : List Byte :=
  magic ++ (leBytes 4 savestateVersion.toNat ++ (leBytes 4 desmumeVersion.toNat ++
    (leBytes 4 len.toNat ++ leBytes 4 (0xFFFFFFFF : BitVec 32).toNat)))

theorem length_headerBytes (desmumeVersion len : BitVec 32) :
    (headerBytes desmumeVersion len).length = 32 := by
  simp only [headerBytes, List.length_append, length_leBytes]
  rfl

/-- The length that goes into the header. -/
def fileLength (saved : List (SavedChunk σ)) : BitVec 32 := .ofNat 32 (32 + (fileBytes saved).length)

theorem savestateSave_represents (hsaves : ∀ c ∈ saved, c.chunk.Saves s c.bytes c.onto)
    (h : Represents f b) (hlim : 32 + (fileBytes saved).length < 2 ^ 31)
    (desmumeVersion : BitVec 32) :
    ∃ g b', savestateSave (saved.map SavedChunk.chunk) desmumeVersion s f = some g ∧
      Represents g b' ∧ b'.fail = b.fail ∧
      (b'.seek 0).Holds (headerBytes desmumeVersion (fileLength saved) ++ fileBytes saved) := by
  have hskip : Represents (f.fseek 32 .set) (b.seek 32) :=
    fseek_represents h 32 .set (show (0 : ℤ) ≤ 32 by decide) (show (32 : ℤ) < 2 ^ 31 by decide)
  obtain ⟨f₁, h₁, r₁⟩ := writechunks_represents hsaves hskip hlim
  have hpos : f₁.ftell = (32 + (fileBytes saved).length : ℕ) := r₁.pos_eq
  have hlen : BitVec.ofInt 32 f₁.ftell = fileLength saved := by
    rw [hpos, BitVec.ofInt_natCast, fileLength]
  have r₂ : Represents (f₁.fseek 0 .set) (((b.seek 32).write (fileBytes saved)).seek 0) :=
    fseek_represents r₁ 0 .set (show (0 : ℤ) ≤ 0 by decide) (show (0 : ℤ) < 2 ^ 31 by decide)
  have hmagic : magic.length = 16 := rfl
  obtain ⟨f₃, h₃, r₃⟩ := fwrite_represents r₂ magic (show 0 + 16 < 2 ^ 31 by decide)
  obtain ⟨f₄, h₄, r₄⟩ := fwrite_represents r₃ (leBytes 4 savestateVersion.toNat)
    (show 0 + 16 + 4 < 2 ^ 31 by decide)
  obtain ⟨f₅, h₅, r₅⟩ := fwrite_represents r₄ (leBytes 4 desmumeVersion.toNat)
    (show 0 + 16 + 4 + 4 < 2 ^ 31 by decide)
  obtain ⟨f₆, h₆, r₆⟩ := fwrite_represents r₅ (leBytes 4 (fileLength saved).toNat)
    (show 0 + 16 + 4 + 4 + 4 < 2 ^ 31 by decide)
  obtain ⟨f₇, h₇, r₇⟩ := fwrite_represents r₆ (leBytes 4 (0xFFFFFFFF : BitVec 32).toNat)
    (show 0 + 16 + 4 + 4 + 4 + 4 < 2 ^ 31 by decide)
  simp only [ByteFile.write_write, List.append_assoc] at r₇
  refine ⟨f₇, _, ?_, r₇, rfl, ?_⟩
  · simp only [savestateSave, h₁, Option.bind_eq_bind, Option.bind_some, h₃,
      EmufileMemory.write32le, h₄, h₅, hlen, h₆, h₇]
  · have hdata := splice_before b.data 0 (headerBytes desmumeVersion (fileLength saved))
      (fileBytes saved)
    rw [length_headerBytes] at hdata
    exact ⟨_, (congrArg (List.drop 0) hdata).trans (drop_splice b.data 0 _)⟩

/-- A load of what a save wrote applies the chunks to the reset state. -/
theorem savestateLoad_savestateSave (hnodup : (saved.map fun c => c.chunk.type).Nodup)
    (hsaves : ∀ c ∈ saved, c.chunk.Saves s c.bytes c.onto)
    (htype : ∀ c ∈ saved, c.chunk.type ≠ 101 ∧ c.chunk.type ≠ 0xFFFFFFFF)
    (h : Represents f b) (hfail : b.fail = false)
    (hlim : 32 + (fileBytes saved).length < 2 ^ 31) (desmumeVersion : BitVec 32)
    (reset regenerate : σ → σ) (t : σ) {fuel : ℕ} (hfuel : saved.length < fuel) :
    ∃ os, savestateSave (saved.map SavedChunk.chunk) desmumeVersion s f = some os ∧
      savestateLoad (saved.map SavedChunk.chunk) fuel reset regenerate t (os.fseek 0 .set) =
        some (true, regenerate (ontoAll saved (reset t))) := by
  obtain ⟨os, b', hsave, hos, hfail', hold⟩ :=
    savestateSave_represents hsaves h hlim desmumeVersion
  refine ⟨os, hsave, ?_⟩
  have hstart : Represents (os.fseek 0 .set) (b'.seek 0) :=
    fseek_represents hos 0 .set (show (0 : ℤ) ≤ 0 by decide) (show (0 : ℤ) < 2 ^ 31 by decide)
  have hin : 0 + (headerBytes desmumeVersion (fileLength saved) ++ fileBytes saved).length ≤
      b'.data.length := by
    refine hold.pos_le (List.ne_nil_of_length_pos ?_)
    rw [List.length_append, length_headerBytes]
    omega
  rw [List.length_append, length_headerBytes] at hin
  have hne : b'.data.length ≠ 0 := by omega
  have hok : b'.fail = false := hfail'.trans hfail
  simp only [headerBytes, List.append_assoc] at hold
  have hmagic : magic.length = 16 := rfl
  obtain ⟨f₁, h₁, r₁⟩ := fread_holds hstart hold.left hne (show 0 + 16 ≤ b'.data.length by omega)
  obtain ⟨f₂, h₂, r₂⟩ := reads_read32le savestateVersion f₁ _ r₁ hok hold.right.left hne
    (show 0 + 16 + 4 ≤ b'.data.length by omega)
  obtain ⟨f₃, h₃, r₃⟩ := reads_read32le desmumeVersion f₂ _ r₂ hok hold.right.right.left hne
    (show 0 + 16 + 4 + 4 ≤ b'.data.length by omega)
  obtain ⟨f₄, h₄, r₄⟩ := reads_read32le (fileLength saved) f₃ _ r₃ hok hold.right.right.right.left
    hne (show 0 + 16 + 4 + 4 + 4 ≤ b'.data.length by omega)
  obtain ⟨f₅, h₅, r₅⟩ := reads_read32le 0xFFFFFFFF f₄ _ r₄ hok hold.right.right.right.right.left
    hne (show 0 + 16 + 4 + 4 + 4 + 4 ≤ b'.data.length by omega)
  obtain ⟨f₆, h₆, -⟩ := fread_holds r₅ hold.right.right.right.right.right hne
    (show 0 + 16 + 4 + 4 + 4 + 4 + (fileBytes saved).length ≤ b'.data.length by omega)
  have hlen : (fileLength saved).toNat = 32 + (fileBytes saved).length := by
    rw [fileLength, BitVec.toNat_ofNat, Nat.mod_eq_of_lt (by omega)]
  have hdata : (fileLength saved - 32).toNat = (fileBytes saved).length := by
    rw [BitVec.toNat_sub_of_le (BitVec.le_def.mpr (by rw [hlen]; exact Nat.le_add_right ..)), hlen]
    exact Nat.add_sub_cancel_left ..
  have hlenInt : 0 < (fileLength saved).toInt := by
    rw [fileLength, toInt_ofNat hlim]
    omega
  -- the buffer: the file behind its header and as many zeros as the header has bytes
  generalize hbuf : fileBytes saved ++
    List.replicate ((fileLength saved).toNat - (fileBytes saved).length) (0 : Byte) = buf
  have hbufLen : buf.length = 32 + (fileBytes saved).length := by
    rw [← hbuf, List.length_append, List.length_replicate, hlen]
    omega
  have hread : Reads (readStateChunksLoop (saved.map SavedChunk.chunk) fuel (reset t))
      (fileBytes saved) (true, ontoAll saved (reset t)) :=
    reads_readStateChunksLoop (by rwa [List.map_map]) (fun c hc => List.mem_map_of_mem hc) hsaves
      htype (reset t) hfuel
  obtain ⟨g, hg, -⟩ := hread (.ofUnderlying buf) ⟨buf, 0, false⟩
    (ofUnderlying_represents buf (by omega)) rfl ⟨_, hbuf.symm⟩ (show buf.length ≠ 0 by omega)
    (show 0 + (fileBytes saved).length ≤ buf.length by omega)
  rw [hmagic] at h₁
  have hfailbit : f₁.failbit = false := r₁.failbit_eq.trans hok
  simp only [savestateLoad, h₁, hfailbit, h₂, h₃, h₄, h₅, hdata, h₆, hbuf, readStateChunks,
    if_pos hlenInt, hg, Option.bind_eq_bind, Option.bind_some, Option.pure_def, ne_eq,
    not_true_eq_false, Bool.false_eq_true, or_self, if_false, if_true]

end Desmume.SaveState
