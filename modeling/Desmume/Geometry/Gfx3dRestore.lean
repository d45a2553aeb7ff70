import Desmume.Geometry.Gfx3dSave

/-! What a load of a saved geometry engine restores. -/

namespace Desmume.Geometry
open Library SaveState SaveState.EmufileMemory

/-! The codecs. -/

theorem vertCodec_setFields (old new : Vert) :
    vertCodec.setFields old (vertCodec.fields new) = new := by
  have hvec : ∀ {α : Type} (v : Fin 3 → α), ![v 0, v 1, v 2] = v := fun v => by
    funext i
    match i with
    | 0 | 1 | 2 => rfl
  simp only [vertCodec, decode_encode, hvec]

/-- The format of a polygon is neither saved nor loaded. -/
theorem polyCodec_setFields (old new : Poly) :
    polyCodec.setFields old (polyCodec.fields new) = { new with vtxFormat := old.vtxFormat } := by
  have hvec : ∀ v : Fin 4 → BitVec 16, ![v 0, v 1, v 2, v 3] = v := fun v => by
    funext i
    match i with
    | 0 | 1 | 2 | 3 => rfl
  simp only [polyCodec, decode_encode, hvec]

theorem stackCodec_setFields {k : Fin 4} (old new : MatrixStack k) :
    (stackCodec k).setFields old ((stackCodec k).fields new) =
      ⟨new.position, fun a => if a < mtxStackSize k * 16 then new.matrix a else old.matrix a⟩ := by
  simp only [stackCodec, decode_encode, MatrixStack.mk.injEq, true_and]
  funext a
  rw [List.getElem?_map]
  split_ifs with h
  · rw [List.getElem?_range h]
    simp only [Option.map_some, decode_encode, Option.getD_some]
  · rw [List.getElem?_eq_none (by rw [List.length_range]; omega)]
    rfl

namespace RecordList

variable {α : Type} {cap : ℕ} (c : FieldCodec α)

def fields (l : RecordList α cap) : List (List Byte) :=
  encode 4 (BitVec.ofNat 32 l.count) :: (List.range l.count).flatMap fun i => c.fields (l.list i)

/-- A list over the one it is loaded into. -/
def onto (new old : RecordList α cap) : RecordList α cap where
  list i := if i ∈ List.range new.count then c.setFields (old.list i) (c.fields (new.list i))
    else old.list i
  count := new.count
  count_le := new.count_le

theorem save_eq_writeFields (l : RecordList α cap) (os : EmufileMemory) :
    l.save c os = os.writeFields (l.fields c) := by
  have happ := writeFields_append os [encode 4 (BitVec.ofNat 32 l.count)]
    ((List.range l.count).flatMap fun i => c.fields (l.list i))
  rw [fields, ← List.singleton_append, happ, save]
  exact congrArg (Option.bind _) (funext fun os =>
    FieldCodec.saveEach_eq_writeFields (fun _ => c) l.list (List.range l.count) os)

theorem reads_loadEntries (new old : RecordList α cap) :
    Reads (old.loadEntries c new.count)
      ((List.range new.count).flatMap fun i => c.fields (new.list i)).flatten
      (new.onto c old) := by
  have hlist := (FieldCodec.reads_loadEach (fun _ => c)
    (List.nodup_range : (List.range new.count).Nodup) old.list new.list).map
    fun list => (⟨list, new.count, new.count_le⟩ : RecordList α cap)
  have hload : old.loadEntries c new.count = fun is =>
      (loadEach (fun _ => c.load) (List.range new.count) old.list is).map fun r =>
        (⟨r.1, new.count, new.count_le⟩, r.2) := by
    funext is
    rw [loadEntries, dif_pos new.count_le]
  rw [hload]
  exact hlist

theorem reads_load (hcap : cap < 2 ^ 31) (new old : RecordList α cap) :
    Reads (old.load c) (new.fields c).flatten (new.onto c old) := by
  have hcount := new.count_le
  have hvalue : (decode 4 (encode 4 (BitVec.ofNat 32 new.count))).toNat = new.count := by
    rw [decode_encode, BitVec.toNat_ofNat, Nat.mod_eq_of_lt (by omega)]
  have hentries : Reads (old.loadEntries c (decode 4 (encode 4 (BitVec.ofNat 32 new.count))).toNat)
      ((List.range new.count).flatMap fun i => c.fields (new.list i)).flatten (new.onto c old) := by
    rw [hvalue]
    exact reads_loadEntries c new old
  rw [fields, List.flatten_cons]
  refine Reads.bind (k := fun field is => old.loadEntries c (decode 4 field).toNat is)
    (reads_field ?_) hentries
  rw [length_encode, length_encode]

theorem length_fields {n : ℕ} (hlen : ∀ x, (c.fields x).flatten.length = n)
    (l : RecordList α cap) : (l.fields c).flatten.length = 4 + l.count * n := by
  have hentries (indices : List ℕ) :
      (indices.flatMap fun i => c.fields (l.list i)).flatten.length = indices.length * n := by
    induction indices with
    | nil => rw [List.flatMap_nil, List.flatten_nil, List.length_nil, List.length_nil, Nat.zero_mul]
    | cons i indices ih =>
      rw [List.flatMap_cons, List.flatten_append, List.length_append, hlen, ih, List.length_cons,
        Nat.succ_mul, Nat.add_comm]
  rw [fields, List.flatten_cons, List.length_append, length_encode, hentries, List.length_range]

end RecordList

namespace Gfx3d

variable (s t : Gfx3d)

def gxfFields : List (List Byte) := [encode 4 2, encode 4 s.shiftCommand, encode 4 s.paramCounter]

def partFields : List (List Byte) :=
  s.vertlist.fields vertCodec ++ (s.polylist.fields polyCodec ++
    (([0, 1, 2, 3] : List (Fin 4)).flatMap (fun k => (stackCodec k).fields (s.mtxStack k)) ++
      (s.gxfFields ++ s.cacheFields)))

theorem gfx3dSavestate_eq_writeFields (os : EmufileMemory) :
    s.gfx3dSavestate os = os.writeFields (encode 4 4 :: s.partFields) := by
  have hgxf (os : EmufileMemory) : s.gxfSavestate os = os.writeFields s.gxfFields := by
    simp only [gxfFields, writeFields_cons _ _ (_ :: _), writeFields_singleton]
    rfl
  have hstack := FieldCodec.saveEach_eq_writeFields stackCodec s.mtxStack [0, 1, 2, 3]
  rw [partFields, writeFields_cons]
  simp only [gfx3dSavestate, RecordList.save_eq_writeFields, hstack, hgxf, writeFields_append]
  rfl

/-- The lists of `s` over those of `t`, and so on. -/
def ontoLists : Gfx3d :=
  t.setLists (s.vertlist.onto vertCodec t.vertlist) (s.polylist.onto polyCodec t.polylist)

def ontoStacks : Gfx3d :=
  { t with
    mtxStack := fun k =>
      (stackCodec k).setFields (t.mtxStack k) ((stackCodec k).fields (s.mtxStack k)) }

def ontoHardware : Gfx3d := t.setHardware (some s.shiftCommand) (some s.paramCounter)

def ontoCaches : Gfx3d :=
  { t with
    cacheLightDirection := s.cacheLightDirection
    cacheHalfVector := s.cacheHalfVector }

/-- The engine `t` after it was loaded from the parts of `s`. -/
def loaded : Gfx3d :=
  s.ontoCaches (s.ontoHardware (s.ontoStacks (s.ontoLists { t with listTwiddle := 0 }))).wipeLists

theorem reads_loadLists : Reads t.loadLists
    ((s.vertlist.fields vertCodec).flatten ++ (s.polylist.fields polyCodec).flatten)
    (s.ontoLists t) := by
  have hvert := RecordList.reads_load vertCodec (by decide) s.vertlist t.vertlist
  have hpoly := (RecordList.reads_load polyCodec (by decide) s.polylist t.polylist).map
    (t.setLists (s.vertlist.onto vertCodec t.vertlist))
  exact hvert.bind (k := fun vertlist is => (t.polylist.load polyCodec is).map fun r =>
    (t.setLists vertlist r.1, r.2)) hpoly

theorem reads_loadStacks : Reads t.loadStacks
    (([0, 1, 2, 3] : List (Fin 4)).flatMap fun k => (stackCodec k).fields (s.mtxStack k)).flatten
    (s.ontoStacks t) := by
  have hall : ∀ k : Fin 4, k ∈ [(0 : Fin 4), 1, 2, 3] := by decide
  have hstacks := (FieldCodec.reads_loadEach stackCodec (by decide : [(0 : Fin 4), 1, 2, 3].Nodup)
    t.mtxStack s.mtxStack).map fun mtxStack => { t with mtxStack }
  simp only [hall, if_true] at hstacks
  exact hstacks

theorem gxfLoadstate_eq : t.gxfLoadstate = fun is => is.read32le.bind fun r =>
    r.1.elim (some (t, r.2)) fun version => t.gxfLoadVersion version r.2 := by
  funext is
  refine congrArg is.read32le.bind (funext fun r => ?_)
  obtain ⟨_ | version, is⟩ := r <;> rfl

theorem reads_gxfLoadstate :
    Reads t.gxfLoadstate s.gxfFields.flatten (s.ontoHardware t) := by
  have hparam := (reads_read32le s.paramCounter).map (t.setHardware (some s.shiftCommand))
  have hregs := (reads_read32le s.shiftCommand).bind
    (k := fun shiftCommand? is => is.read32le.map fun r => (t.setHardware shiftCommand? r.1, r.2))
    hparam
  have hversion : t.gxfLoadVersion 2 = fun is => is.read32le.bind fun r =>
      r.2.read32le.map fun r' => (t.setHardware r.1 r'.1, r'.2) := by
    funext is
    rw [gxfLoadVersion, if_neg (by decide), if_neg (by decide), if_pos rfl]
    rfl
  rw [← hversion] at hregs
  unfold gxfFields
  rw [List.flatten_cons, List.flatten_cons, List.flatten_cons, List.flatten_nil, List.append_nil]
  rw [gxfLoadstate_eq]
  exact (reads_read32le 2).bind (k := fun version? is =>
    version?.elim (some (t, is)) fun version => t.gxfLoadVersion version is) hregs

theorem reads_loadCaches :
    Reads t.loadCaches s.cacheFields.flatten (s.ontoCaches t) := by
  have hlen (x y : Fin 64 → Byte) : (List.ofFn x).length = (List.ofFn y).length := by
    rw [List.length_ofFn, List.length_ofFn]
  have hhalf := (reads_field (hlen t.cacheHalfVector s.cacheHalfVector)).map
    (t.setCaches (List.ofFn s.cacheLightDirection))
  have hcaches := (reads_field (hlen t.cacheLightDirection s.cacheLightDirection)).bind
    (k := fun direction is => (is.readField (List.ofFn t.cacheHalfVector)).map fun r =>
      (t.setCaches direction r.1, r.2)) hhalf
  have hofFn (x : Fin 64 → Byte) : (fun i : Fin 64 => (List.ofFn x).getD i 0) = x := by
    funext i
    rw [List.getD_eq_getElem?_getD, List.getElem?_ofFn, dif_pos i.isLt]
    rfl
  simp only [setCaches, hofFn] at hcaches
  unfold cacheFields
  rw [List.flatten_cons, List.flatten_cons, List.flatten_nil, List.append_nil]
  exact hcaches

theorem gfx3dLoadstate_eq (size : ℤ) : t.gfx3dLoadstate size = fun is => is.read32le.bind fun r =>
    r.1.elim (some ((false, t), r.2)) fun version =>
      (({ t with listTwiddle := 0 } : Gfx3d).loadParts
        (if size = 8 then 0 else version.toInt) r.2).map fun r => ((true, r.1), r.2) := by
  funext is
  refine congrArg is.read32le.bind (funext fun r => ?_)
  obtain ⟨_ | version, is⟩ := r <;> rfl

theorem reads_gfx3dLoadstate {size : ℤ} (hsize : size ≠ 8) :
    Reads (t.gfx3dLoadstate size) (encode 4 4 :: s.partFields).flatten (true, s.loaded t) := by
  have hcaches := reads_loadCaches s
    (s.ontoHardware (s.ontoStacks (s.ontoLists { t with listTwiddle := 0 }))).wipeLists
  have hgxf := (reads_gxfLoadstate s (s.ontoStacks (s.ontoLists { t with listTwiddle := 0 }))).bind
    (k := fun t is => t.wipeLists.loadCaches is) hcaches
  have hstacks := (reads_loadStacks s (s.ontoLists { t with listTwiddle := 0 })).bind
    (k := fun t is => (t.gxfLoadstate is).bind fun r => r.1.wipeLists.loadCaches r.2) hgxf
  have hlists := (reads_loadLists s { t with listTwiddle := 0 }).bind
    (k := fun t is => (t.loadStacks is).bind fun r => (r.1.gxfLoadstate r.2).bind fun r =>
      r.1.wipeLists.loadCaches r.2) hstacks
  have hparts : ({ t with listTwiddle := 0 } : Gfx3d).loadParts 4 = fun is =>
      (({ t with listTwiddle := 0 } : Gfx3d).loadLists is).bind fun r =>
        (r.1.loadStacks r.2).bind fun r => (r.1.gxfLoadstate r.2).bind fun r =>
          r.1.wipeLists.loadCaches r.2 := rfl
  rw [← hparts] at hlists
  have hversion : (if size = 8 then 0 else (4 : BitVec 32).toInt) = 4 := by
    rw [if_neg hsize]
    rfl
  have hload := hlists.map (fun t => (true, t))
  rw [← hversion] at hload
  have hall := (reads_read32le 4).bind (k := fun version? is =>
    version?.elim (some ((false, t), is)) fun version =>
      (({ t with listTwiddle := 0 } : Gfx3d).loadParts
        (if size = 8 then 0 else version.toInt) is).map fun r => ((true, r.1), r.2)) hload
  unfold partFields
  simp only [List.flatten_cons, List.flatten_append]
  rw [← List.append_assoc (RecordList.fields _ _).flatten, gfx3dLoadstate_eq]
  exact hall

variable (l : Gfx3dLayout) {fuel : ℕ}

theorem readGfx3dChunk_eq (fuel : ℕ) : t.readGfx3dChunk l fuel = fun is => is.read32le.bind fun r =>
    r.1.elim (some ((false, t), r.2)) fun type => r.2.read32le.bind fun r =>
      r.1.elim (some ((false, t), r.2)) fun size => t.loadChunk l fuel type size.toInt r.2 := by
  funext is
  refine congrArg is.read32le.bind (funext fun r => ?_)
  obtain ⟨_ | type, is⟩ := r
  · rfl
  · refine congrArg is.read32le.bind (funext fun r => ?_)
    obtain ⟨_ | size, is⟩ := r <;> rfl

theorem reads_gfx3dChunk (fuel : ℕ) (type : BitVec 32) {bs : List Byte} {r : Bool × Gfx3d}
    (hlen : bs.length < 2 ^ 31) (h : Reads (t.loadChunk l fuel type bs.length) bs r) :
    Reads (t.readGfx3dChunk l fuel) (leBytes 4 type.toNat ++ (leBytes 4 bs.length ++ bs)) r := by
  have hsize : (BitVec.ofNat 32 bs.length).toNat = bs.length := by
    rw [BitVec.toNat_ofNat, Nat.mod_eq_of_lt (by omega)]
  rw [← toInt_ofNat hlen] at h
  have hbody := (reads_read32le (BitVec.ofNat 32 bs.length)).bind
    (k := fun size? is =>
      size?.elim (some ((false, t), is)) fun size => t.loadChunk l fuel type size.toInt is) h
  rw [hsize] at hbody
  rw [readGfx3dChunk_eq]
  exact (reads_read32le type).bind
    (k := fun type? is =>
      type?.elim (some ((false, t), is)) fun type => is.read32le.bind fun r =>
        r.1.elim (some ((false, t), r.2)) fun size => t.loadChunk l fuel type size.toInt r.2) hbody

/-- The memory of `t` with the variables of the table from `s`. -/
def ontoTable : Gfx3d := { t with mem := restore s.mem (rows (sfGfx3d l)) t.mem }

theorem reads_loadTable (hfuel : gfx3dRows.length < fuel) :
    Reads (t.loadTable l fuel (chunkBytes s.mem (sfGfx3d l)).length)
      (chunkBytes s.mem (sfGfx3d l)) (true, s.ontoTable t l) := by
  have hlen : (sfGfx3d l).length < fuel := by
    rwa [sfGfx3d, List.length_map]
  have htable := (reads_stateChunk s.mem t.mem hlen).map fun r => (r.1, { t with mem := r.2 })
  have hload : t.loadTable l fuel (chunkBytes s.mem (sfGfx3d l)).length = fun is =>
      ((readStateChunk fuel is t.mem (sfGfx3d l) (chunkBytes s.mem (sfGfx3d l)).length).map fun r =>
        ((r.1, r.2.mem), r.2.is)).map fun r => ((r.1.1, { t with mem := r.1.2 }), r.2) := by
    funext is
    rw [loadTable, Option.map_map]
    rfl
  rw [hload]
  exact htable

theorem isSome_iff (row : Gfx3dRow) :
    decide ((row.toSFormat l).v ≠ 0) = row.var.isSome := by
  cases hvar : row.var with
  | none => simp [Gfx3dRow.toSFormat, hvar]
  | some v => simp [Gfx3dRow.toSFormat, hvar, l.addr_ne v]

/-- The rows in front of the one whose pointer is null. -/
theorem rows_sfGfx3d : rows (sfGfx3d l) =
    (gfx3dRows.takeWhile fun row => row.var.isSome).map (Gfx3dRow.toSFormat l) := by
  rw [rows, sfGfx3d, List.takeWhile_map]
  exact congrArg (List.map _) (congrArg (List.takeWhile · _) (funext (isSome_iff l)))

theorem length_chunkBytes_sfGfx3d : (chunkBytes s.mem (sfGfx3d l)).length ≤ 2 ^ 20 := by
  rw [chunkBytes, List.length_flatten, rows_sfGfx3d, List.map_map, List.map_map]
  have hlen : List.length ∘ entryBytes s.mem ∘ Gfx3dRow.toSFormat l =
      fun row => 12 + row.size.toNat * row.count.toNat := by
    funext row
    exact length_entryBytes s.mem (row.toSFormat l)
  rw [Function.comp_assoc, hlen]
  decide +kernel

theorem length_partFields :
    8 ≤ s.partFields.flatten.length ∧ s.partFields.flatten.length ≤ 2 ^ 22 := by
  have hvert := RecordList.length_fields vertCodec (n := 39) (fun vert => by
    simp only [vertCodec, List.length_flatten, List.map_cons, List.map_nil, length_encode]
    rfl) s.vertlist
  have hpoly := RecordList.length_fields polyCodec (n := 36) (fun poly => by
    simp only [polyCodec, List.length_flatten, List.map_cons, List.map_nil, length_encode]
    rfl) s.polylist
  have hstack (k : Fin 4) : ((stackCodec k).fields (s.mtxStack k)).flatten.length =
      4 + mtxStackSize k * 16 * 4 := by
    simp only [stackCodec, List.length_flatten, List.map_cons, List.map_map, List.sum_cons,
      length_encode, Function.comp_def, List.map_const', List.length_range, List.sum_replicate_nat]
  have hvertCount := s.vertlist.count_le
  have hpolyCount := s.polylist.count_le
  simp only [partFields, gxfFields, cacheFields, List.flatten_append, List.length_append, hvert,
    hpoly, List.flatMap_cons, List.flatMap_nil, hstack, List.flatten_cons, List.flatten_nil,
    length_encode, List.length_ofFn, List.length_nil]
  have hone : mtxStackSize 0 = 1 ∧ mtxStackSize 3 = 1 := ⟨rfl, rfl⟩
  have hdeep : mtxStackSize 1 = 31 ∧ mtxStackSize 2 = 31 := ⟨rfl, rfl⟩
  simp only [vertlistSize, polylistSize] at hvertCount hpolyCount
  rw [hone.1, hone.2, hdeep.1, hdeep.2]
  generalize s.vertlist.count = m at *
  omega

/-- The chunks of the table and of `gfx3d_savestate`. -/
def chunks : List Byte :=
  (leBytes 4 (90 : BitVec 32).toNat ++ (leBytes 4 (chunkBytes s.mem (sfGfx3d l)).length ++
    chunkBytes s.mem (sfGfx3d l))) ++
  (leBytes 4 (91 : BitVec 32).toNat ++ (leBytes 4 (encode 4 4 :: s.partFields).flatten.length ++
    (encode 4 4 :: s.partFields).flatten))

theorem length_version_partFields :
    (encode 4 4 :: s.partFields).flatten.length = 4 + s.partFields.flatten.length := by
  rw [List.flatten_cons, List.length_append, length_encode]

theorem gfx3dSave_represents {f : EmufileMemory} {b : ByteFile Byte} (h : Represents f b)
    (hlim : b.pos + 2 ^ 23 < 2 ^ 31) :
    ∃ g, s.gfx3dSave l f = some g ∧ Represents g (b.write (s.chunks l)) := by
  have htable := s.length_chunkBytes_sfGfx3d l
  have hparts := s.length_partFields
  have hbody := s.length_version_partFields
  have hfits : b.pos + (8 + (chunkBytes s.mem (sfGfx3d l)).length) < 2 ^ 31 := by omega
  obtain ⟨f₁, h₁, r₁⟩ := savestateWriteChunk_represents h hfits 90
  obtain ⟨f₂, h₂, r₂⟩ := savestateWriteProc_represents r₁ 91 s.gfx3dSavestate_eq_writeFields
    (by simp only [ByteFile.write, List.length_append, length_leBytes]; omega)
  refine ⟨f₂, ?_, ?_⟩
  · rw [gfx3dSave, h₁]
    exact h₂
  · rw [ByteFile.write_write] at r₂
    exact r₂

theorem reads_gfx3dLoad (hfuel : gfx3dRows.length < fuel) :
    Reads (t.gfx3dLoad l fuel) (s.chunks l) (true, s.loaded (s.ontoTable t l)) := by
  have htable := s.length_chunkBytes_sfGfx3d l
  have hparts := s.length_partFields
  have hbody := s.length_version_partFields
  have hfirst := t.reads_gfx3dChunk l fuel 90 (by omega) (s.reads_loadTable t l hfuel)
  have hsecond := (s.ontoTable t l).reads_gfx3dChunk l fuel 91 (by omega)
    (s.reads_gfx3dLoadstate (s.ontoTable t l) (by omega))
  exact hfirst.bind (k := fun r is => if r.1 then r.2.readGfx3dChunk l fuel is else some (r, is))
    hsecond

/-- Loading what was saved, into any state of the engine. -/
theorem gfx3dLoad_gfx3dSave {f : EmufileMemory} {b : ByteFile Byte} (h : Represents f b)
    (hfail : b.fail = false) (hlim : b.pos + 2 ^ 23 < 2 ^ 31) (hfuel : gfx3dRows.length < fuel) :
    ∃ os is, s.gfx3dSave l f = some os ∧ t.gfx3dLoad l fuel (os.fseek f.ftell .set) =
      some ((true, s.loaded (s.ontoTable t l)), is) := by
  obtain ⟨os, hsave, hos⟩ := s.gfx3dSave_represents l h hlim
  have hpos : f.ftell = (b.pos : ℤ) := h.pos_eq
  have hstart := fseek_represents hos f.ftell .set (by simp only [seekTarget]; omega)
    (by simp only [seekTarget]; omega)
  simp only [seekTarget, hpos, Int.toNat_natCast] at hstart
  have hlen := b.length_write_data (s.chunks l)
  have hne : 0 < (s.chunks l).length := by
    rw [chunks, List.length_append, List.length_append, length_leBytes]
    omega
  obtain ⟨is, hload, -⟩ := s.reads_gfx3dLoad t l hfuel _ _ hstart hfail (b.write_holds _)
    (by simp only [ByteFile.seek]; omega) (by simp only [ByteFile.seek]; omega)
  rw [← hpos] at hload
  exact ⟨os, is, hsave, hload⟩

end Gfx3d

end Desmume.Geometry
