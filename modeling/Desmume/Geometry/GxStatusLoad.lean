import Desmume.Geometry.Gfx3dRoundTrip
import Desmume.Geometry.GxStatus
import Desmume.SaveState.ChunkFile

/-! The status flags of the geometry FIFO across a savestate: the chunk that computes them is read
before the one that restores the queue. -/

namespace Desmume.Geometry
open Library SaveState SaveState.EmufileMemory

/-- A part of the devices other than the geometry engine, with the bytes it is saved as, the
procedure that loads it and what this makes of another state. -/
structure DevicePart (ρ : Type) where
  bytes : ρ → List Byte
  load : ρ → EmufileMemory → Option ((Bool × ρ) × EmufileMemory)
  onto : ρ → ρ → ρ
  reads : ∀ s t, Reads (load t) (bytes s) (true, onto s t)

/-- A part that has a chunk of its own; its procedure is told the size of the chunk. -/
structure DeviceChunk (ρ : Type) where
  bytes : ρ → List Byte
  load : ℤ → ρ → EmufileMemory → Option ((Bool × ρ) × EmufileMemory)
  onto : ρ → ρ → ρ
  reads : ∀ s t, Reads (load (bytes s).length t) (bytes s) (true, onto s t)

/-- The chunks of `writechunks` that hold none of the variables of the geometry FIFO. -/
inductive DeviceChunkKind where
  | sfArm9 | sfArm7 | cp15 | sfMem | sfNds | nds | sfMmu | gpu | spu | mic | sfMovie | sfWifi
  | sfRtc | sfNdsInfo | slot1 | slot2 | reserve160 | reserve170 | reserve180

/-- The other devices: their chunks, and their parts of the chunk of `mmu_savestate`. -/
structure Devices (ρ : Type) where
  chunk : DeviceChunkKind → DeviceChunk ρ
  loadOldBackup : BitVec 32 → ρ → EmufileMemory → Option ((Bool × ρ) × EmufileMemory)
  backupDevice : DevicePart ρ
  dmaTiming : DevicePart ρ
  sqrtDiv : DevicePart ρ
  maskIf : ρ → ρ
  recoverDisp3dcnt : ρ → ρ
  dsiTsc : DevicePart ρ
  recoverWramcnt : ρ → ρ
  firmware : DevicePart ρ

/-- The emulator. -/
structure Emulator (ρ : Type) where
  gxstat : Gxstat
  gfx3d : Gfx3d
  rest : ρ

/-- `gxFIFO.size`. -/
def Gfx3d.gxFifoSize (s : Gfx3d) (l : Gfx3dLayout) : BitVec 32 :=
  decode 4 (load s.mem (l.addr .gxFifoSize) 4)

namespace Gxstat

/-- The bytes of `TGXSTAT::savestate` behind the version; the flags of the FIFO are not among
them. -/
def codec : FieldCodec Gxstat where
  fields g := [encode 1 (BitVec.setWidth 8 (.ofBool g.tb)), encode 1 (BitVec.setWidth 8 (.ofBool g.tr)),
    encode 1 (BitVec.setWidth 8 (.ofBool g.se)), encode 1 (g.gxfifoIrq.setWidth 8),
    encode 1 (BitVec.setWidth 8 (.ofBool g.sb))]
  setFields
    | g, [tb, tr, se, gxfifoIrq, sb] =>
      { g with
        tb := decode 1 tb ≠ 0, tr := decode 1 tr ≠ 0, se := decode 1 se ≠ 0
        gxfifoIrq := BitVec.setWidth 2 (decode 1 gxfifoIrq), sb := decode 1 sb ≠ 0 }
    | g, _ => g
  lengths g g' := by simp only [List.map_cons, List.map_nil, length_encode]

/-- `TGXSTAT::loadstate`; the version 0 has no `sb`. -/
def loadstate (g : Gxstat) (f : EmufileMemory) : Option ((Bool × Gxstat) × EmufileMemory) := do
  let (version?, f) ← f.read32le
  match version? with
  | none => return ((false, g), f)
  | some version =>
    if 1 < version.toNat then return ((false, g), f)
    else if 1 ≤ version.toNat then (codec.load g f).map fun r => ((true, r.1), r.2)
    else
      (f.readFields ((codec.fields g).take 4)).map fun r =>
        ((true, codec.setFields g (r.1 ++ [encode 1 (BitVec.setWidth 8 (.ofBool g.sb))])), r.2)

/-- The flags that `mmu_loadstate` computes. -/
def setFifoFlags (g : Gxstat) (size : BitVec 32) : Gxstat :=
  { g with fifoLow := size.toNat ≤ 127, fifoEmpty := size = 0 }

end Gxstat

namespace Emulator

variable {ρ : Type} (d : Devices ρ) (l : Gfx3dLayout) (s t : Emulator ρ)

/-- `mmu_loadstate` behind `version 4`. -/
def mmuLoadRest (version : BitVec 32) (ok : Bool) (is : EmufileMemory) :
    Option ((Bool × Emulator ρ) × EmufileMemory) := do
  let (r, is) ← d.sqrtDiv.load s.rest is
  let ok := ok && r.1
  let s := { s with
    gxstat := s.gxstat.setFifoFlags (s.gfx3d.gxFifoSize l), rest := d.maskIf r.2 }
  let s := if version.toNat < 5 then { s with rest := d.recoverDisp3dcnt s.rest } else s
  if version.toNat < 6 then return ((ok, s), is)
  else
    let (r, is) ← d.dsiTsc.load s.rest is
    let rest := if version.toNat < 7 then d.recoverWramcnt r.2 else r.2
    if version.toNat < 8 then return ((ok, { s with rest }), is)
    else
      let (r, is) ← d.firmware.load rest is
      return ((ok, { s with rest := r.2 }), is)

/-- `mmu_loadstate` behind the version. -/
def mmuLoadVersion (version : BitVec 32) (is : EmufileMemory) :
    Option ((Bool × Emulator ρ) × EmufileMemory) := do
  let (r, is) ← d.backupDevice.load s.rest is
  if version.toNat < 3 then return ((r.1, { s with rest := r.2 }), is)
  else
    let (g, is) ← s.gxstat.loadstate is
    let (r', is) ← d.dmaTiming.load r.2 is
    let ok := r.1 && g.1 && r'.1
    let s := { s with gxstat := g.2, rest := r'.2 }
    if version.toNat < 4 then return ((ok, s), is)
    else s.mmuLoadRest d l version ok is

/-- `mmu_loadstate`. -/
def mmuLoadstate (is : EmufileMemory) : Option ((Bool × Emulator ρ) × EmufileMemory) := do
  let (version?, is) ← is.read32le
  match version? with
  | none => return ((false, s), is)
  | some version =>
    if version.toNat < 2 then
      (d.loadOldBackup version s.rest is).map fun r => ((r.1.1, { s with rest := r.1.2 }), r.2)
    else s.mmuLoadVersion d l version is

/-- What `mmu_savestate` writes: the version and then the parts. -/
def mmuFields : List (List Byte) :=
  [encode 4 8, d.backupDevice.bytes s.rest, encode 4 1] ++ Gxstat.codec.fields s.gxstat ++
    [d.dmaTiming.bytes s.rest, d.sqrtDiv.bytes s.rest, d.dsiTsc.bytes s.rest,
      d.firmware.bytes s.rest]

def deviceChunk (kind : DeviceChunkKind) (type : BitVec 32) : Chunk (Emulator ρ) where
  type := type
  save s os :=
    let bytes := (d.chunk kind).bytes s.rest
    os.fwrite (leBytes 4 type.toNat ++ (leBytes 4 bytes.length ++ bytes))
  load size s is := ((d.chunk kind).load size s.rest is).map fun r =>
    ((r.1.1, { s with rest := r.1.2 }), r.2)

def mmuChunk : Chunk (Emulator ρ) where
  type := 61
  save s os := savestateWriteProc os 61 fun os => os.writeFields (s.mmuFields d)
  load _ s is := s.mmuLoadstate d l is

/-- The chunk of `SF_GFX3D`, read in at most `fuel` rounds. -/
def sfGfx3dChunk (fuel : ℕ) : Chunk (Emulator ρ) where
  type := 90
  save s os := (savestateWriteChunk s.gfx3d.mem os 90 (some (sfGfx3d l))).bind Prod.snd
  load size s is := (s.gfx3d.loadTable l fuel size is).map fun r =>
    ((r.1.1, { s with gfx3d := r.1.2 }), r.2)

def gfx3dChunk : Chunk (Emulator ρ) where
  type := 91
  save s os := savestateWriteProc os 91 s.gfx3d.gfx3dSavestate
  load size s is := (s.gfx3d.gfx3dLoadstate size is).map fun r =>
    ((r.1.1, { s with gfx3d := r.1.2 }), r.2)

/-- The chunks in the order of `writechunks`. -/
def chunks (fuel : ℕ) : List (Chunk (Emulator ρ)) :=
  [deviceChunk d .sfArm9 1, deviceChunk d .sfArm7 2, deviceChunk d .cp15 3,
    deviceChunk d .sfMem 4, deviceChunk d .sfNds 5, deviceChunk d .nds 51,
    deviceChunk d .sfMmu 60, mmuChunk d l, deviceChunk d .gpu 7, deviceChunk d .spu 8,
    deviceChunk d .mic 81, sfGfx3dChunk l fuel, gfx3dChunk, deviceChunk d .sfMovie 100,
    deviceChunk d .sfWifi 110, deviceChunk d .sfRtc 120, deviceChunk d .sfNdsInfo 130,
    deviceChunk d .slot1 140, deviceChunk d .slot2 150, deviceChunk d .reserve160 160,
    deviceChunk d .reserve170 170, deviceChunk d .reserve180 180]

/-- `GFX_FIFOclear` on the variables of the table. -/
def clearFifo (l : Gfx3dLayout) (g : Gfx3d) : Gfx3d :=
  { g with
    mem := [Gfx3dVar.gxFifoHead, .gxFifoTail, .gxFifoSize, .gxFifoMatrixStackOpSize].foldl
      (fun mem v => store mem (l.addr v) (List.replicate 4 0)) g.mem }

/-- `NDS_Reset`: `MMU_Reset` constructs the status anew, and `gfx3d_reset`, which comes last,
clears the FIFO; what is reset besides is up to the devices. -/
def ndsReset (resetGfx3d : Gfx3d → Gfx3d) (resetDevices : ρ → ρ) : Emulator ρ :=
  ⟨.init, clearFifo l (resetGfx3d s.gfx3d), resetDevices s.rest⟩

/-- `loadstate`: the registers of the devices are written again. -/
def regenerate (regenerateDevices : ρ → ρ) : Emulator ρ :=
  { s with rest := regenerateDevices s.rest }

/-! What a load restores. -/

/-- The chunk of the memory management unit, from `s` onto `t`. -/
def ontoMmu : Emulator ρ :=
  { t with
    gxstat := (Gxstat.codec.setFields t.gxstat (Gxstat.codec.fields s.gxstat)).setFifoFlags
      (t.gfx3d.gxFifoSize l)
    rest := d.firmware.onto s.rest (d.dsiTsc.onto s.rest (d.maskIf (d.sqrtDiv.onto s.rest
      (d.dmaTiming.onto s.rest (d.backupDevice.onto s.rest t.rest))))) }

theorem reads_gxstatLoadstate (g g' : Gxstat) :
    Reads g'.loadstate (encode 4 1 :: Gxstat.codec.fields g).flatten
      (true, Gxstat.codec.setFields g' (Gxstat.codec.fields g)) := by
  have hfields := (Gxstat.codec.reads_load g' g).map fun g => (true, g)
  exact (reads_read32le 1).bind (k := fun version? f => match version? with
    | none => some ((false, g'), f)
    | some version =>
      if 1 < version.toNat then some ((false, g'), f)
      else if 1 ≤ version.toNat then (Gxstat.codec.load g' f).map fun r => ((true, r.1), r.2)
      else (f.readFields ((Gxstat.codec.fields g').take 4)).map fun r =>
        ((true, Gxstat.codec.setFields g'
          (r.1 ++ [encode 1 (BitVec.setWidth 8 (.ofBool g'.sb))])), r.2)) hfields

/-- The state that `mmu_loadstate` has computed before the last two parts. -/
def withFlags : Emulator ρ :=
  { t with
    gxstat := t.gxstat.setFifoFlags (t.gfx3d.gxFifoSize l)
    rest := d.maskIf (d.sqrtDiv.onto s.rest t.rest) }

theorem reads_mmuLoadRest :
    Reads (t.mmuLoadRest d l 8 true)
      (d.sqrtDiv.bytes s.rest ++ (d.dsiTsc.bytes s.rest ++ (d.firmware.bytes s.rest ++ [])))
      (true, { s.withFlags d l t with
        rest := d.firmware.onto s.rest (d.dsiTsc.onto s.rest (s.withFlags d l t).rest) }) := by
  have hfirmware := (d.firmware.reads s.rest
      (d.dsiTsc.onto s.rest (s.withFlags d l t).rest)).bind
    (k := fun (r : Bool × ρ) is => some ((true, { s.withFlags d l t with rest := r.2 }), is)) (.pure _)
  have htsc := (d.dsiTsc.reads s.rest (s.withFlags d l t).rest).bind
    (k := fun (r : Bool × ρ) is => (d.firmware.load r.2 is).bind fun r =>
      some ((true, { s.withFlags d l t with rest := r.1.2 }), r.2)) hfirmware
  have hsqrt := (d.sqrtDiv.reads s.rest t.rest).bind
    (k := fun (r : Bool × ρ) is => (d.dsiTsc.load (d.maskIf r.2) is).bind fun r' =>
      (d.firmware.load r'.1.2 r'.2).bind fun r'' =>
        some ((true && r.1, (⟨t.gxstat.setFifoFlags (t.gfx3d.gxFifoSize l), t.gfx3d, r''.1.2⟩ :
          Emulator ρ)), r''.2)) htsc
  exact hsqrt

theorem reads_mmuLoadVersion :
    Reads (t.mmuLoadVersion d l 8)
      (d.backupDevice.bytes s.rest ++ ((encode 4 1 :: Gxstat.codec.fields s.gxstat).flatten ++
        (d.dmaTiming.bytes s.rest ++ (d.sqrtDiv.bytes s.rest ++ (d.dsiTsc.bytes s.rest ++
          (d.firmware.bytes s.rest ++ []))))))
      (true, s.ontoMmu d l t) := by
  let t' : Emulator ρ := { t with
    gxstat := Gxstat.codec.setFields t.gxstat (Gxstat.codec.fields s.gxstat)
    rest := d.dmaTiming.onto s.rest (d.backupDevice.onto s.rest t.rest) }
  have hrest := reads_mmuLoadRest d l s t'
  have hdma := (d.dmaTiming.reads s.rest (d.backupDevice.onto s.rest t.rest)).bind
    (k := fun (r : Bool × ρ) is => ({ t with
      gxstat := Gxstat.codec.setFields t.gxstat (Gxstat.codec.fields s.gxstat)
      rest := r.2 } : Emulator ρ).mmuLoadRest d l 8 (true && true && r.1) is) hrest
  have hgxstat := (reads_gxstatLoadstate s.gxstat t.gxstat).bind
    (k := fun (g : Bool × Gxstat) is => (d.dmaTiming.load (d.backupDevice.onto s.rest t.rest) is).bind fun r =>
      ({ t with gxstat := g.2, rest := r.1.2 } : Emulator ρ).mmuLoadRest d l 8
        (true && g.1 && r.1.1) r.2) hdma
  have hbackup := (d.backupDevice.reads s.rest t.rest).bind
    (k := fun (r : Bool × ρ) is => (t.gxstat.loadstate is).bind fun g => (d.dmaTiming.load r.2 g.2).bind fun r' =>
      ({ t with gxstat := g.1.2, rest := r'.1.2 } : Emulator ρ).mmuLoadRest d l 8
        (r.1 && g.1.1 && r'.1.1) r'.2) hgxstat
  exact hbackup

theorem reads_mmuLoadstate :
    Reads (t.mmuLoadstate d l) (s.mmuFields d).flatten (true, s.ontoMmu d l t) := by
  have hall := (reads_read32le 8).bind (k := fun version? is => match version? with
    | none => some ((false, t), is)
    | some version =>
      if version.toNat < 2 then
        (d.loadOldBackup version t.rest is).map fun r => ((r.1.1, { t with rest := r.1.2 }), r.2)
      else t.mmuLoadVersion d l version is) (reads_mmuLoadVersion d l s t)
  have hbytes : (s.mmuFields d).flatten = leBytes 4 (8 : BitVec 32).toNat ++
      (d.backupDevice.bytes s.rest ++ ((encode 4 1 :: Gxstat.codec.fields s.gxstat).flatten ++
        (d.dmaTiming.bytes s.rest ++ (d.sqrtDiv.bytes s.rest ++ (d.dsiTsc.bytes s.rest ++
          (d.firmware.bytes s.rest ++ [])))))) := by
    simp only [mmuFields, List.flatten_cons, List.flatten_append, List.append_assoc,
      List.flatten_nil, List.cons_append, List.nil_append]
    rfl
  rw [hbytes]
  exact hall

/-! The file. -/

def savedDevice (kind : DeviceChunkKind) (type : BitVec 32) : SavedChunk (Emulator ρ) where
  chunk := deviceChunk d kind type
  bytes := (d.chunk kind).bytes s.rest
  onto t := { t with rest := (d.chunk kind).onto s.rest t.rest }

def savedMmu : SavedChunk (Emulator ρ) where
  chunk := mmuChunk d l
  bytes := (s.mmuFields d).flatten
  onto := s.ontoMmu d l

def savedSfGfx3d (fuel : ℕ) : SavedChunk (Emulator ρ) where
  chunk := sfGfx3dChunk l fuel
  bytes := chunkBytes s.gfx3d.mem (sfGfx3d l)
  onto t := { t with gfx3d := s.gfx3d.ontoTable t.gfx3d l }

def savedGfx3d : SavedChunk (Emulator ρ) where
  chunk := gfx3dChunk
  bytes := (encode 4 4 :: s.gfx3d.partFields).flatten
  onto t := { t with gfx3d := s.gfx3d.loaded t.gfx3d }

def savedChunks (fuel : ℕ) : List (SavedChunk (Emulator ρ)) :=
  [s.savedDevice d .sfArm9 1, s.savedDevice d .sfArm7 2, s.savedDevice d .cp15 3,
    s.savedDevice d .sfMem 4, s.savedDevice d .sfNds 5, s.savedDevice d .nds 51,
    s.savedDevice d .sfMmu 60, s.savedMmu d l, s.savedDevice d .gpu 7, s.savedDevice d .spu 8,
    s.savedDevice d .mic 81, s.savedSfGfx3d l fuel, s.savedGfx3d, s.savedDevice d .sfMovie 100,
    s.savedDevice d .sfWifi 110, s.savedDevice d .sfRtc 120, s.savedDevice d .sfNdsInfo 130,
    s.savedDevice d .slot1 140, s.savedDevice d .slot2 150, s.savedDevice d .reserve160 160,
    s.savedDevice d .reserve170 170, s.savedDevice d .reserve180 180]

theorem savedDevice_saves (kind : DeviceChunkKind) (type : BitVec 32)
    (hsize : (s.savedDevice d kind type).bytes.length < 2 ^ 31) :
    (s.savedDevice d kind type).chunk.Saves s (s.savedDevice d kind type).bytes
      (s.savedDevice d kind type).onto where
  size := hsize
  save f b h hlim := by
    refine fwrite_represents h _ ?_
    rw [List.length_append, List.length_append, length_leBytes, length_leBytes, ← Nat.add_assoc 4]
    exact hlim
  load t := ((d.chunk kind).reads s.rest t.rest).map
    fun r => (r.1, (⟨t.gxstat, t.gfx3d, r.2⟩ : Emulator ρ))

theorem savedMmu_saves (hsize : (s.savedMmu d l).bytes.length < 2 ^ 31) :
    (s.savedMmu d l).chunk.Saves s (s.savedMmu d l).bytes (s.savedMmu d l).onto where
  size := hsize
  save _ _ h hlim := savestateWriteProc_represents h 61 (fun _ => rfl) hlim
  load := reads_mmuLoadstate d l s

theorem savedSfGfx3d_saves {fuel : ℕ} (hfuel : gfx3dRows.length < fuel) :
    (s.savedSfGfx3d l fuel).chunk.Saves s (s.savedSfGfx3d l fuel).bytes
      (s.savedSfGfx3d l fuel).onto where
  size := lt_of_le_of_lt (s.gfx3d.length_chunkBytes_sfGfx3d l) (by decide)
  save f b h hlim := by
    obtain ⟨g, hg, hrep⟩ := savestateWriteChunk_represents h hlim 90
    refine ⟨g, ?_, hrep⟩
    exact (congrArg (Option.bind · Prod.snd) hg).trans rfl
  load t := (s.gfx3d.reads_loadTable t.gfx3d l hfuel).map
    fun r => (r.1, (⟨t.gxstat, r.2, t.rest⟩ : Emulator ρ))

theorem savedGfx3d_saves :
    (s.savedGfx3d).chunk.Saves s s.savedGfx3d.bytes s.savedGfx3d.onto := by
  have hparts := s.gfx3d.length_partFields
  have hlen := s.gfx3d.length_version_partFields
  refine ⟨?_, fun f b h hlim => ?_, fun t => ?_⟩
  · exact lt_of_eq_of_lt hlen (by omega)
  · exact savestateWriteProc_represents h 91 s.gfx3d.gfx3dSavestate_eq_writeFields hlim
  · have hsize : ((encode 4 4 :: s.gfx3d.partFields).flatten.length : ℤ) ≠ 8 := by omega
    exact (s.gfx3d.reads_gfx3dLoadstate t.gfx3d hsize).map
      fun r => (r.1, (⟨t.gxstat, r.2, t.rest⟩ : Emulator ρ))

theorem savedChunks_saves {fuel : ℕ} (hfuel : gfx3dRows.length < fuel)
    (hlim : 32 + (fileBytes (s.savedChunks d l fuel)).length < 2 ^ 31) :
    ∀ c ∈ s.savedChunks d l fuel, c.chunk.Saves s c.bytes c.onto := by
  intro c hc
  have hsize : c.bytes.length < 2 ^ 31 := by
    have := length_le_fileBytes hc
    omega
  simp only [savedChunks, List.mem_cons, List.not_mem_nil, or_false] at hc
  rcases hc with rfl | rfl | rfl | rfl | rfl | rfl | rfl | rfl | rfl | rfl | rfl | rfl | rfl | rfl |
    rfl | rfl | rfl | rfl | rfl | rfl | rfl | rfl
  case inr.inr.inr.inr.inr.inr.inr.inl => exact savedMmu_saves d l s hsize
  case inr.inr.inr.inr.inr.inr.inr.inr.inr.inr.inr.inl => exact savedSfGfx3d_saves l s hfuel
  case inr.inr.inr.inr.inr.inr.inr.inr.inr.inr.inr.inr.inl => exact savedGfx3d_saves s
  all_goals exact savedDevice_saves d s _ _ hsize

/-! The queue and the flags after a load. -/

/-- The flags are those of the queue. -/
def FlagsAgree : Prop :=
  (t.gxstat.fifoEmpty = true ↔ t.gfx3d.gxFifoSize l = 0) ∧
    (t.gxstat.fifoLow = true ↔ (t.gfx3d.gxFifoSize l).toNat ≤ 127)

theorem gxFifoSize_clearFifo (g : Gfx3d) : (clearFifo l g).gxFifoSize l = 0 := by
  have hsize := l.disjoint .gxFifoSize .gxFifoMatrixStackOpSize (by decide)
  have hbytes : Gfx3dVar.bytes .gxFifoSize = 4 ∧ Gfx3dVar.bytes .gxFifoMatrixStackOpSize = 4 :=
    ⟨rfl, rfl⟩
  rw [hbytes.1, hbytes.2] at hsize
  have hzero : load (clearFifo l g).mem (l.addr .gxFifoSize) 4 =
      load (fun _ => 0) (l.addr .gxFifoSize) 4 := by
    refine load_congr fun a ha hlt => ?_
    simp only [clearFifo, List.foldl_cons, List.foldl_nil, store_replicate_apply]
    rw [if_neg (by omega), if_pos ⟨ha, hlt⟩]
  have hload : load (fun _ => (0 : Byte)) (l.addr .gxFifoSize) 4 = encode 4 0 := rfl
  rw [Gfx3d.gxFifoSize, hzero, hload, decode_encode]

theorem exists_gxFifoSize_row :
    ∃ sf ∈ rows (sfGfx3d l), sf.v = l.addr .gxFifoSize ∧ sf.byteCount = 4 := by
  rw [Gfx3d.rows_sfGfx3d]
  have hrow : ∃ row ∈ gfx3dRows.takeWhile fun row => row.var.isSome,
      row.var = some .gxFifoSize ∧ row.size.toNat * row.count.toNat = 4 := by decide +kernel
  obtain ⟨row, hrow, hvar, hbytes⟩ := hrow
  refine ⟨row.toSFormat l, List.mem_map_of_mem hrow, ?_, hbytes⟩
  rw [Gfx3dRow.toSFormat, hvar]
  rfl

theorem gxFifoSize_loaded (g g' : Gfx3d) :
    (g.loaded (g.ontoTable g' l)).gxFifoSize l = g.gxFifoSize l := by
  obtain ⟨sf, hsf, hv, hbytes⟩ := exists_gxFifoSize_row l
  refine congrArg (decode 4) (load_congr fun a ha hlt => ?_)
  have hcovers : sf.Covers a := by
    rw [SFormat.Covers, hv, hbytes]
    exact ⟨ha, hlt⟩
  exact (restore_apply g.mem (rows (sfGfx3d l)) g'.mem a).trans (if_pos ⟨sf, hsf, hcovers⟩)

/-- The flags are computed from the queue before the load, which the reset has emptied. -/
theorem gxstat_ontoAll (fuel : ℕ) :
    (ontoAll (s.savedChunks d l fuel) t).gxstat =
      (Gxstat.codec.setFields t.gxstat (Gxstat.codec.fields s.gxstat)).setFifoFlags
        (t.gfx3d.gxFifoSize l) := rfl

theorem gfx3d_ontoAll (fuel : ℕ) :
    (ontoAll (s.savedChunks d l fuel) t).gfx3d = s.gfx3d.loaded (s.gfx3d.ontoTable t.gfx3d l) := rfl

/-- The types of the chunks. -/
def chunkTypes : List (BitVec 32) :=
  [1, 2, 3, 4, 5, 51, 60, 61, 7, 8, 81, 90, 91, 100, 110, 120, 130, 140, 150, 160, 170, 180]

theorem length_savedChunks (fuel : ℕ) : (s.savedChunks d l fuel).length = 22 := rfl

theorem type_savedChunks (fuel : ℕ) :
    (s.savedChunks d l fuel).map (fun c => c.chunk.type) = chunkTypes := rfl

section Load

variable {f : EmufileMemory} {b : ByteFile Byte} {fuel : ℕ} (resetGfx3d : Gfx3d → Gfx3d)
  (resetDevices regenerateDevices : ρ → ρ) (desmumeVersion : BitVec 32)

/-- A load restores the queue and sets both flags. -/
theorem savestateLoad_flags (h : Represents f b) (hfail : b.fail = false)
    (hfuel : gfx3dRows.length < fuel)
    (hlim : 32 + (fileBytes (s.savedChunks d l fuel)).length < 2 ^ 31) :
    ∃ os t', savestateSave (chunks d l fuel) desmumeVersion s f = some os ∧
      savestateLoad (chunks d l fuel) 23 (ndsReset l · resetGfx3d resetDevices)
        (regenerate · regenerateDevices) t (os.fseek 0 .set) = some (true, t') ∧
      t'.gfx3d.gxFifoSize l = s.gfx3d.gxFifoSize l ∧ t'.gxstat.fifoEmpty = true ∧
      t'.gxstat.fifoLow = true := by
  have hnodup : ((s.savedChunks d l fuel).map fun c => c.chunk.type).Nodup := by
    rw [type_savedChunks]
    decide
  have htype : ∀ c ∈ s.savedChunks d l fuel, c.chunk.type ≠ 101 ∧ c.chunk.type ≠ 0xFFFFFFFF := by
    have htypes : ∀ x ∈ chunkTypes, x ≠ 101 ∧ x ≠ 0xFFFFFFFF := by simp [chunkTypes]
    intro c hc
    refine htypes _ ?_
    rw [← type_savedChunks d l s fuel]
    exact List.mem_map_of_mem hc
  have hrounds : (s.savedChunks d l fuel).length < 23 := by
    rw [length_savedChunks]
    decide
  obtain ⟨os, hsave, hload⟩ := savestateLoad_savestateSave hnodup
    (savedChunks_saves d l s hfuel hlim) htype h hfail hlim desmumeVersion
    (ndsReset l · resetGfx3d resetDevices) (regenerate · regenerateDevices) t hrounds
  generalize ht : t.ndsReset l resetGfx3d resetDevices = t₀ at hload
  have hreset : t₀.gfx3d.gxFifoSize l = 0 := by
    rw [← ht]
    exact gxFifoSize_clearFifo l (resetGfx3d t.gfx3d)
  refine ⟨os, _, hsave, hload, ?_, ?_, ?_⟩
  · rw [regenerate, gfx3d_ontoAll]
    exact gxFifoSize_loaded l s.gfx3d t₀.gfx3d
  · rw [regenerate, gxstat_ontoAll, hreset]
    rfl
  · rw [regenerate, gxstat_ontoAll, hreset]
    rfl

/-- After a load the flags are those of the restored queue exactly if it is empty. -/
theorem savestate_flagsAgree_iff (h : Represents f b) (hfail : b.fail = false)
    (hfuel : gfx3dRows.length < fuel)
    (hlim : 32 + (fileBytes (s.savedChunks d l fuel)).length < 2 ^ 31) :
    ∃ os t', savestateSave (chunks d l fuel) desmumeVersion s f = some os ∧
      savestateLoad (chunks d l fuel) 23 (ndsReset l · resetGfx3d resetDevices)
        (regenerate · regenerateDevices) t (os.fseek 0 .set) = some (true, t') ∧
      t'.gfx3d.gxFifoSize l = s.gfx3d.gxFifoSize l ∧
      (FlagsAgree l t' ↔ s.gfx3d.gxFifoSize l = 0) := by
  obtain ⟨os, t', hsave, hload, hsize, hempty, hlow⟩ := savestateLoad_flags d l s t resetGfx3d
    resetDevices regenerateDevices desmumeVersion h hfail hfuel hlim
  refine ⟨os, t', hsave, hload, hsize, ?_⟩
  rw [FlagsAgree, hsize, hempty, hlow, eq_self_iff_true, true_iff, true_iff]
  constructor
  · exact And.left
  · intro hzero
    rw [hzero]
    exact ⟨rfl, by decide⟩

end Load

end Emulator

section Sample
open Emulator

/-- Devices that save nothing. -/
def noDevices : Devices Unit :=
  let part : DevicePart Unit :=
    ⟨fun _ => [], fun _ is => some ((true, ()), is), fun _ _ => (), fun _ _ => .pure _⟩
  { chunk := fun _ =>
      ⟨fun _ => [], fun _ _ is => some ((true, ()), is), fun _ _ => (), fun _ _ => .pure _⟩
    loadOldBackup := fun _ _ is => some ((true, ()), is)
    backupDevice := part, dmaTiming := part, sqrtDiv := part, dsiTsc := part, firmware := part
    maskIf := id, recoverDisp3dcnt := id, recoverWramcnt := id }

/-- An emulator with `n` commands in the FIFO. -/
def sampleEmulator (n : Byte) : Emulator Unit where
  gxstat := .init
  gfx3d := { Gfx3d.sampleEngine 0 with
    mem := Function.update (fun _ => 0) (Gfx3d.spreadLayout.addr .gxFifoSize) n }
  rest := ()

theorem savedChunks_fit (l : Gfx3dLayout) (s : Emulator Unit) (fuel : ℕ) :
    32 + (fileBytes (s.savedChunks noDevices l fuel)).length < 2 ^ 31 := by
  have htable := s.gfx3d.length_chunkBytes_sfGfx3d l
  have hparts := s.gfx3d.length_partFields
  have hbody := s.gfx3d.length_version_partFields
  have hmmu : (s.mmuFields noDevices).flatten.length = 13 := by
    simp only [mmuFields, Gxstat.codec, List.flatten_append, List.flatten_cons, List.flatten_nil,
      List.length_append, List.length_nil, length_encode, noDevices]
  have hnone (kind : DeviceChunkKind) (r : Unit) : ((noDevices.chunk kind).bytes r).length = 0 := rfl
  rw [length_fileBytes]
  simp only [savedChunks, List.map_cons, List.map_nil, List.sum_cons, List.sum_nil, savedDevice,
    savedMmu, savedSfGfx3d, savedGfx3d, hmmu, hbody, hnone]
  omega

theorem gxFifoSize_update (l : Gfx3dLayout) (g : Gfx3d) (n : Byte) :
    Gfx3d.gxFifoSize { g with mem := Function.update (fun _ => 0) (l.addr .gxFifoSize) n } l =
      n.setWidth 32 := by
  have hload (v : ℕ) : load (Function.update (fun _ => (0 : Byte)) v n) v 4 = [n, 0, 0, 0] := by
    simp [load, List.range', Nat.add_assoc]
  have hvalue : ofLeBytes [n, 0, 0, 0] = n.toNat := by
    simp [ofLeBytes]
  rw [Gfx3d.gxFifoSize, hload, decode, hvalue]
  exact BitVec.ofNat_toNat ..

theorem gxFifoSize_sampleEmulator (n : Byte) :
    (sampleEmulator n).gfx3d.gxFifoSize Gfx3d.spreadLayout = n.setWidth 32 :=
  gxFifoSize_update Gfx3d.spreadLayout (Gfx3d.sampleEngine 0) n

/-- An empty FIFO. -/
theorem emptyFifo_flagsAgree : ∃ os t',
    savestateSave (chunks noDevices Gfx3d.spreadLayout 82) 0 (sampleEmulator 0)
      (.ofUnderlying []) = some os ∧
    savestateLoad (chunks noDevices Gfx3d.spreadLayout 82) 23 (ndsReset Gfx3d.spreadLayout · id id)
      (regenerate · id) (sampleEmulator 1) (os.fseek 0 .set) = some (true, t') ∧
    FlagsAgree Gfx3d.spreadLayout t' := by
  obtain ⟨os, t', hsave, hload, -, hiff⟩ := savestate_flagsAgree_iff noDevices Gfx3d.spreadLayout
    (sampleEmulator 0) (sampleEmulator 1) id id id 0 (ofUnderlying_represents [] (by decide)) rfl
    (show gfx3dRows.length < 82 by decide) (savedChunks_fit Gfx3d.spreadLayout (sampleEmulator 0) 82)
  exact ⟨os, t', hsave, hload, hiff.mpr (gxFifoSize_sampleEmulator 0)⟩

/-- With a command in the saved FIFO both flags are set and `fifo_empty` is wrong. -/
theorem fullFifo_flagsDisagree : ∃ os t',
    savestateSave (chunks noDevices Gfx3d.spreadLayout 82) 0 (sampleEmulator 1)
      (.ofUnderlying []) = some os ∧
    savestateLoad (chunks noDevices Gfx3d.spreadLayout 82) 23 (ndsReset Gfx3d.spreadLayout · id id)
      (regenerate · id) (sampleEmulator 0) (os.fseek 0 .set) = some (true, t') ∧
    ¬ FlagsAgree Gfx3d.spreadLayout t' := by
  obtain ⟨os, t', hsave, hload, hsize, hempty, -⟩ := savestateLoad_flags noDevices
    Gfx3d.spreadLayout (sampleEmulator 1) (sampleEmulator 0) id id id 0
    (ofUnderlying_represents [] (by decide)) rfl (show gfx3dRows.length < 82 by decide)
    (savedChunks_fit Gfx3d.spreadLayout (sampleEmulator 1) 82)
  refine ⟨os, t', hsave, hload, fun hagree => ?_⟩
  have hzero := hagree.1.mp hempty
  rw [hsize, gxFifoSize_sampleEmulator] at hzero
  revert hzero
  decide

end Sample

end Desmume.Geometry
