import Desmume.Card.FsNitro
import Desmume.Library.BitFields
import Mathlib.Data.List.Nodup

/-! The names that the loop over the file structure gives to files, against the directory tree that
the image holds. -/

namespace Desmume.Card
open Function Library

/-! ### Directory trees -/

/-- The entries of a sub-table, with the entries of the directories among them. -/
inductive NitroEntries
  | nil
  | file (name : List (BitVec 8)) (rest : NitroEntries)
  | dir (id : ℕ) (name : List (BitVec 8)) (sub rest : NitroEntries)

structure NitroFile where
  id : ℕ
  name : List (BitVec 8)
  parent : ℕ
  path : List (List (BitVec 8))
  deriving DecidableEq

namespace NitroEntries

/-- The files as a walk through the tree meets them, by the entries of directory `d` from the `j`-th
file on. -/
def files (firstID : ℕ → ℕ) (d : ℕ) (path : List (List (BitVec 8))) (j : ℕ) :
    NitroEntries → List NitroFile
  | nil => []
  | file name rest => ⟨firstID d + j, name, d, path⟩ :: files firstID d path (j + 1) rest
  | dir id name sub rest =>
    files firstID id (path ++ [name]) 0 sub ++ files firstID d path j rest

def dirs : NitroEntries → List ℕ
  | nil => []
  | file _ rest => dirs rest
  | dir id _ sub rest => id :: (dirs sub ++ dirs rest)

end NitroEntries

/-- The id of a directory. -/
def dirID (d : ℕ) : BitVec 16 := BitVec.ofNat 16 (0xF000 + d)

structure NameOk (name : List (BitVec 8)) : Prop where
  pos : 0 < name.length
  lt : name.length < 0x80
  nonzero : ∀ c ∈ name, c ≠ 0#8

def RomImage.Bytes (rom : RomImage) (a : ℕ) (bs : List (BitVec 8)) : Prop :=
  a + bs.length ≤ rom.size.toNat ∧ load rom.byte a bs.length = bs

section Trees

variable (rom : RomImage)

def RomImage.numDirs : ℕ := (fntNitro rom 0).parentID.toNat

def RomImage.firstID (d : ℕ) : ℕ := (fntNitro rom d).firstID.toNat

/-- Where the sub-table of a directory is. -/
def RomImage.subTable (d : ℕ) : ℕ :=
  rom.header.fNameTblOff.toNat + (fntNitro rom d).offset.toNat

/-- The image has the entries of directory `d` from `a` on. -/
def Encodes (d a : ℕ) : NitroEntries → Prop
  | .nil => rom.Bytes a [0#8]
  | .file name rest =>
    NameOk name ∧ rom.Bytes a (BitVec.ofNat 8 name.length :: name) ∧
      Encodes d (a + 1 + name.length) rest
  | .dir id name sub rest =>
    NameOk name ∧
      rom.Bytes a (BitVec.ofNat 8 (0x80 + name.length) :: name ++ leBytes 2 (0xF000 + id)) ∧
      id < rom.numDirs ∧ (fntNitro rom id).parentID = dirID d ∧
      Encodes id (rom.subTable id) sub ∧ Encodes d (a + 1 + name.length + 2) rest

/-- The files of a tree in the order of the walk. -/
def treeFiles (root : NitroEntries) : List NitroFile := root.files rom.firstID 0 [] 0

/-- An overlay table has whole entries, for files that the tree does not have. -/
def OverlaysApart (root : NitroEntries) (off size : BitVec 32) : Prop :=
  size.toNat % 32 = 0 ∧ ∀ i < size.toNat / 32,
    (readWord 4 rom.byte (off.toNat + 32 * i + 24)).toNat < rom.header.numFiles ∧
      ∀ f ∈ treeFiles rom root,
        f.id ≠ (readWord 4 rom.byte (off.toNat + 32 * i + 24)).toNat

/-- The image holds a file system with this tree. -/
structure HoldsTree (root : NitroEntries) : Prop where
  inside : rom.HeaderInside
  namesOff : 0x8000 ≤ rom.header.fNameTblOff
  fatOff : 0x8000 ≤ rom.header.fatOff
  someFiles : 0 < rom.header.numFiles
  fewFiles : rom.header.numFiles ≤ 0xF000
  someDirs : 0 < rom.numDirs
  fewDirs : rom.numDirs ≤ 0x1000
  mainTable : rom.header.fNameTblOff.toNat + 8 * rom.numDirs ≤ rom.size.toNat
  entries : Encodes rom 0 (rom.subTable 0) root
  dirIDs : (0 :: root.dirs).Nodup
  names : ((treeFiles rom root).map fun f => (f.name, f.parent)).Nodup
  overlays9 : OverlaysApart rom root rom.header.arm9OverlayOff rom.header.arm9OverlaySize
  overlays7 : OverlaysApart rom root rom.header.arm7OverlayOff rom.header.arm7OverlaySize

end Trees

/-- The file has its name, its parent and its path. -/
structure FsNitro.Named (fs : FsNitro) (f : NitroFile) : Prop where
  inRange : f.id < fs.numFiles
  filename : (fs.fat f.id).filename = f.name
  parent : (fs.fat f.id).parentID = dirID f.parent
  path : ∀ addRoot, ∃ rounds,
    getFullPathByFileID fs (BitVec.ofNat 16 f.id) addRoot rounds =
      some (rootFolder addRoot ['d', 'a', 't', 'a'] ++ f.path.flatMap (· ++ delimiter) ++ f.name)

def NamesLaw (rom : RomImage) (root : NitroEntries) : Prop :=
  ∃ fs, Constructs rom fs ∧ ∀ f ∈ treeFiles rom root, fs.Named f

/-- In the order of the walk the ids go up by one, from the first one of the root to the last of the
file table. -/
def Consecutive (rom : RomImage) (root : NitroEntries) : Prop :=
  treeFiles rom root ≠ [] ∧
    (treeFiles rom root).map NitroFile.id =
      List.range' (rom.firstID 0) (rom.header.numFiles - rom.firstID 0)

instance (rom : RomImage) (root : NitroEntries) : Decidable (Consecutive rom root) :=
  inferInstanceAs (Decidable (_ ∧ _))

/-! ### The walk as a list of visits -/

inductive NitroVisit
  | file (name : List (BitVec 8)) (parent : ℕ)
  | dir (id : ℕ) (name : List (BitVec 8)) (back : ℕ)

/-- What the loop changes as it goes, but for the cursor. -/
structure NitroTables where
  fileCount : BitVec 16
  fat : ℕ → FatNitro
  fnt : ℕ → FntNitro
  store : ℕ → Option ℕ

def NitroTables.walk (t : NitroTables) (sub : Option ℕ) (fntID : BitVec 16) : NitroWalk :=
  ⟨sub, fntID, t.fileCount, t.fat, t.fnt, t.store⟩

def NitroTables.visit (t : NitroTables) : NitroVisit → NitroTables
  | .file name parent =>
    let id := t.fileCount.toNat
    { t with fileCount := t.fileCount + 1
             fat := update t.fat id { t.fat id with filename := name, parentID := dirID parent } }
  | .dir id name back =>
    { t with store := update t.store id (some back)
             fnt := update t.fnt id { t.fnt id with filename := name } }

/-- A visit as the loop makes it: it ends at the last file, and fails behind it. -/
def tryVisit (numFiles : ℕ) (t : NitroTables) :
    NitroVisit → Except (Option NitroTables) NitroTables
  | .file name parent =>
    let t' := t.visit (.file name parent)
    if t.fileCount.toNat < numFiles then
      if t'.fileCount.toNat ≥ numFiles then .error (some t') else .ok t'
    else .error none
  | .dir id name back => .ok (t.visit (.dir id name back))

/-- The visits to the entries of directory `d` from `a` on. -/
def NitroEntries.visits (subTable : ℕ → ℕ) (d a : ℕ) : NitroEntries → List NitroVisit
  | nil => []
  | file name rest => .file name d :: visits subTable d (a + 1 + name.length) rest
  | dir id name sub rest =>
    .dir id name (a + 1 + name.length + 2) ::
      (visits subTable id (subTable id) sub ++ visits subTable d (a + 1 + name.length + 2) rest)

/-! ### Rounds of the loop -/

section Rounds

variable {rom : RomImage} {t : NitroTables} {a : ℕ} {fntID : BitVec 16} {name : List (BitVec 8)}

theorem dirID_toNat {d : ℕ} (h : d < 0x1000) : (dirID d).toNat = 0xF000 + d := by
  rw [dirID, BitVec.toNat_ofNat, Nat.mod_eq_of_lt (by omega)]

theorem dirIndex_dirID {d : ℕ} (h : d < 0x1000) : dirIndex (dirID d) = d := by
  rw [dirIndex, toNat_and_mask (n := 12) _ rfl, dirID_toNat h]
  omega

theorem bytes_append {as bs : List (BitVec 8)} (h : rom.Bytes a (as ++ bs)) :
    rom.Bytes a as ∧ rom.Bytes (a + as.length) bs := by
  obtain ⟨hin, hload⟩ := h
  obtain ⟨has, hbs⟩ := load_append_iff.mp hload
  rw [List.length_append] at hin
  exact ⟨⟨by omega, has⟩, ⟨by omega, hbs⟩⟩

theorem bytes_cons {b : BitVec 8} {bs : List (BitVec 8)} (h : rom.Bytes a (b :: bs)) :
    rom.Bytes a [b] ∧ rom.Bytes (a + 1) bs :=
  bytes_append (show rom.Bytes a ([b] ++ bs) from h)

theorem read_byte {b : BitVec 8} (h : rom.Bytes a [b]) : rom.read 1 a = some b := by
  have hin : a + 1 ≤ rom.size.toNat := h.1
  have hload : load rom.byte a 1 = [b] := h.2
  rw [RomImage.read, if_pos hin, readWord, hload]
  exact congrArg some ((BitVec.ofNat_toNat 8 b).trans (BitVec.setWidth_eq b))

theorem read_id {id : ℕ} (hid : id < 0x1000) (h : rom.Bytes a (leBytes 2 (0xF000 + id))) :
    rom.read 2 a = some (dirID id) := by
  obtain ⟨hin, hload⟩ := h
  rw [length_leBytes] at hin hload
  rw [RomImage.read, if_pos hin, readWord, hload, ofLeBytes_leBytes_of_lt (by omega)]
  rfl

theorem string_name (hname : NameOk name) (h : rom.Bytes a name) :
    rom.string a name.length = some name := by
  rw [RomImage.string, if_pos h.1, h.2, List.takeWhile_eq_self_iff.mpr]
  exact fun c hc => decide_eq_true (hname.nonzero c hc)

theorem walkStep_end {numDirs d : ℕ} (h : rom.Bytes a [0#8]) (hd : d < 0x1000) (hdirs : d < numDirs) :
    walkStep rom numDirs (t.walk (some a) (dirID d)) =
      some (.inl (t.walk (t.store d) (t.fnt d).parentID)) := by
  have hindex := dirIndex_dirID hd
  simp only [walkStep, NitroTables.walk, Option.bind_eq_bind, Option.bind_some, read_byte h]
  change (if dirIndex (dirID d) < numDirs then _ else none) = _
  rw [hindex, if_pos hdirs]

theorem getFNTType_file {n : ℕ} (h0 : 0 < n) (h : n < 0x80) :
    getFNTType (BitVec.ofNat 8 n) = .fileEntry ∧ (BitVec.ofNat 8 n &&& 0x7F).toNat = n := by
  have hall : ∀ n < 0x80, 0 < n → getFNTType (BitVec.ofNat 8 n) = .fileEntry ∧
    (BitVec.ofNat 8 n &&& 0x7F).toNat = n := by decide
  exact hall n h h0

theorem getFNTType_dir {n : ℕ} (h0 : 0 < n) (h : n < 0x80) :
    getFNTType (BitVec.ofNat 8 (0x80 + n)) = .subdirEntry ∧
      (BitVec.ofNat 8 (0x80 + n) &&& 0x7F).toNat = n := by
  have hall : ∀ n < 0x80, 0 < n → getFNTType (BitVec.ofNat 8 (0x80 + n)) = .subdirEntry ∧
    (BitVec.ofNat 8 (0x80 + n) &&& 0x7F).toNat = n := by decide
  exact hall n h h0

/-- A round at the entry of a file, by the visit. -/
theorem walkStep_file {d : ℕ} (hname : NameOk name)
    (h : rom.Bytes a (BitVec.ofNat 8 name.length :: name)) (numDirs : ℕ) :
    walkStep rom numDirs (t.walk (some a) (dirID d)) =
      match tryVisit rom.header.numFiles t (.file name d) with
      | .ok t' => some (.inl (t'.walk (some (a + 1 + name.length)) (dirID d)))
      | .error (some t') => some (.inr (t'.walk (some (a + 1 + name.length)) (dirID d)))
      | .error none => none := by
  obtain ⟨hbyte, hbytes⟩ := bytes_cons h
  obtain ⟨htype, hlen⟩ := getFNTType_file hname.pos hname.lt
  simp only [walkStep, NitroTables.walk, Option.bind_eq_bind, Option.bind_some, read_byte hbyte, htype,
    hlen, string_name hname hbytes]
  by_cases hin : t.fileCount.toNat < rom.header.numFiles
  · by_cases hlast : (t.fileCount + 1).toNat ≥ rom.header.numFiles
    · have hvisit : tryVisit rom.header.numFiles t (.file name d) =
          .error (some (t.visit (.file name d))) := (if_pos hin).trans (if_pos hlast)
      rw [hvisit, if_pos hin, if_pos hlast]
      rfl
    · have hvisit : tryVisit rom.header.numFiles t (.file name d) =
          .ok (t.visit (.file name d)) := (if_pos hin).trans (if_neg hlast)
      rw [hvisit, if_pos hin, if_neg hlast]
      rfl
  · have hvisit : tryVisit rom.header.numFiles t (.file name d) = .error none := if_neg hin
    rw [hvisit, if_neg hin]

theorem walkStep_dir {numDirs d id : ℕ} (hname : NameOk name) (hid : id < 0x1000)
    (hdirs : id < numDirs)
    (h : rom.Bytes a (BitVec.ofNat 8 (0x80 + name.length) :: name ++ leBytes 2 (0xF000 + id)))
    (hoffset : (t.fnt id).offset = (fntNitro rom id).offset) :
    walkStep rom numDirs (t.walk (some a) (dirID d)) =
      some (.inl ((t.visit (.dir id name (a + 1 + name.length + 2))).walk (some (rom.subTable id))
        (dirID id))) := by
  obtain ⟨hentry, hword⟩ := bytes_append h
  obtain ⟨hbyte, hbytes⟩ := bytes_cons hentry
  obtain ⟨htype, hlen⟩ := getFNTType_dir hname.pos hname.lt
  have hword' : rom.Bytes (a + 1 + name.length) (leBytes 2 (0xF000 + id)) := by
    rwa [List.length_cons, Nat.add_comm name.length 1, ← Nat.add_assoc] at hword
  simp only [walkStep, NitroTables.walk, Option.bind_eq_bind, Option.bind_some, read_byte hbyte, htype,
    hlen, string_name hname hbytes, read_id hid hword', dirIndex_dirID hid, if_pos hdirs, hoffset,
    NitroTables.visit, RomImage.subTable]

end Rounds

/-! ### The loop makes the visits -/

section Visits

variable {rom : RomImage}

/-- The main table as the loop keeps it: only names change. -/
structure MainTable (rom : RomImage) (fnt : ℕ → FntNitro) : Prop where
  offset : ∀ d, (fnt d).offset = (fntNitro rom d).offset
  parent : ∀ d ≠ 0, (fnt d).parentID = (fntNitro rom d).parentID
  root : (fnt 0).parentID = dirID 0

theorem mainTable_visit {t : NitroTables} (h : MainTable rom t.fnt) (v : NitroVisit) :
    MainTable rom (t.visit v).fnt := by
  cases v with
  | file name parent => exact h
  | dir id name back =>
    have hsame (d : ℕ) : ((t.visit (.dir id name back)).fnt d).offset = (t.fnt d).offset ∧
        ((t.visit (.dir id name back)).fnt d).parentID = (t.fnt d).parentID := by
      by_cases hd : d = id
      · subst hd
        simp only [NitroTables.visit, update_self, and_self]
      · simp only [NitroTables.visit, update_of_ne hd, and_self]
    exact ⟨fun d => (hsame d).1.trans (h.offset d),
      fun d hd => (hsame d).2.trans (h.parent d hd), (hsame 0).2.trans h.root⟩

theorem tryVisit_ok {numFiles : ℕ} {t t' : NitroTables} {v : NitroVisit}
    (h : tryVisit numFiles t v = .ok t') : t' = t.visit v := by
  cases v with
  | file name parent =>
    simp only [tryVisit] at h
    split_ifs at h with hin hlast
    exact (Except.ok.inj h).symm
  | dir id name back => exact (Except.ok.inj h).symm

theorem foldlM_tryVisit_ok {numFiles : ℕ} {t t' : NitroTables} {vs : List NitroVisit}
    (h : vs.foldlM (tryVisit numFiles) t = .ok t') : t' = vs.foldl NitroTables.visit t := by
  induction vs generalizing t with
  | nil => exact (Except.ok.inj h).symm
  | cons v vs ih =>
    rw [List.foldlM_cons] at h
    cases hv : tryVisit numFiles t v with
    | error e =>
      rw [hv] at h
      exact absurd h nofun
    | ok t₁ =>
      rw [hv] at h
      rw [List.foldl_cons, ← tryVisit_ok hv]
      exact ih h

theorem mainTable_foldl {t : NitroTables} (h : MainTable rom t.fnt) (vs : List NitroVisit) :
    MainTable rom (vs.foldl NitroTables.visit t).fnt :=
  List.foldlRecOn (motive := fun t : NitroTables => MainTable rom t.fnt) vs _ h
    fun _ ht v _ => mainTable_visit ht v

def NitroVisit.dirID? : NitroVisit → Option ℕ
  | .file _ _ => none
  | .dir id _ _ => some id

theorem dirs_visits (subTable : ℕ → ℕ) (d a : ℕ) (es : NitroEntries) :
    (es.visits subTable d a).filterMap NitroVisit.dirID? = es.dirs := by
  induction es generalizing d a with
  | nil => rfl
  | file name rest ih => exact ih ..
  | dir id name sub rest ihsub ihrest =>
    rw [NitroEntries.visits, NitroEntries.dirs, List.filterMap_cons, List.filterMap_append, ihsub, ihrest]
    rfl

/-- What the visits leave as it was: the places of directories that are not among them. -/
theorem visits_apart {vs : List NitroVisit} {id : ℕ} (h : id ∉ vs.filterMap NitroVisit.dirID?)
    (t : NitroTables) :
    (vs.foldl NitroTables.visit t).store id = t.store id ∧
      (vs.foldl NitroTables.visit t).fnt id = t.fnt id := by
  induction vs generalizing t with
  | nil => exact ⟨rfl, rfl⟩
  | cons v vs ih =>
    cases v with
    | file name parent => exact ih h _
    | dir id' name back =>
      rw [List.filterMap_cons, NitroVisit.dirID?, List.mem_cons, not_or] at h
      obtain ⟨hstore, hfnt⟩ := ih h.2 (t.visit (.dir id' name back))
      simp only [NitroTables.visit, update_of_ne h.1] at hstore hfnt
      exact ⟨hstore, hfnt⟩

/-- The walk through the entries of a directory, up to the end of the sub-table if the visits go on
so far. -/
def WalkLaw (rom : RomImage) (d : ℕ) (t : NitroTables) (a : ℕ) :
    Except (Option NitroTables) NitroTables → Prop
  | .ok t' => ∃ e, rom.Bytes e [0#8] ∧ ∀ w,
    Returns (walkStep rom rom.numDirs) (t.walk (some a) (dirID d)) w ↔
      Returns (walkStep rom rom.numDirs) (t'.walk (some e) (dirID d)) w
  | .error (some t') => ∃ sub fntID,
    Returns (walkStep rom rom.numDirs) (t.walk (some a) (dirID d)) (t'.walk sub fntID)
  | .error none => ∀ w, ¬ Returns (walkStep rom rom.numDirs) (t.walk (some a) (dirID d)) w

theorem walkLaw_of_iff {d a a' : ℕ} {t t' : NitroTables} {r : Except (Option NitroTables) NitroTables}
    (h : ∀ w, Returns (walkStep rom rom.numDirs) (t.walk (some a) (dirID d)) w ↔
      Returns (walkStep rom rom.numDirs) (t'.walk (some a') (dirID d)) w)
    (hr : WalkLaw rom d t' a' r) : WalkLaw rom d t a r := by
  cases r with
  | ok t₁ =>
    obtain ⟨e, hend, he⟩ := hr
    exact ⟨e, hend, fun w => (h w).trans (he w)⟩
  | error e =>
    cases e with
    | none => exact fun w hw => hr w ((h w).mp hw)
    | some t₁ =>
      obtain ⟨sub, fntID, hend⟩ := hr
      exact ⟨sub, fntID, (h _).mpr hend⟩

theorem walk_visits (hfew : rom.numDirs ≤ 0x1000) {es : NitroEntries} {d a : ℕ}
    (hes : Encodes rom d a es) (hdirs : es.dirs.Nodup) (hzero : 0 ∉ es.dirs)
    (hd : d < rom.numDirs) {t : NitroTables} (ht : MainTable rom t.fnt) :
    WalkLaw rom d t a ((es.visits rom.subTable d a).foldlM (tryVisit rom.header.numFiles) t) := by
  induction es generalizing d a t with
  | nil => exact ⟨a, hes, fun w => Iff.rfl⟩
  | file name rest ih =>
    obtain ⟨hname, hbytes, hrest⟩ := hes
    have hstep := walkStep_file (t := t) (d := d) hname hbytes rom.numDirs
    rw [NitroEntries.visits, List.foldlM_cons]
    cases hv : tryVisit rom.header.numFiles t (.file name d) with
    | error e =>
      rw [hv] at hstep
      cases e with
      | none => exact fun w => not_returns hstep
      | some t' => exact ⟨_, _, (returns_stop hstep).mpr rfl⟩
    | ok t' =>
      rw [hv] at hstep
      have ht' : MainTable rom t'.fnt := tryVisit_ok hv ▸ mainTable_visit ht _
      exact walkLaw_of_iff (fun w => returns_next hstep) (ih hrest hdirs hzero hd ht')
  | dir id name sub rest ihsub ihrest =>
    obtain ⟨hname, hbytes, hid, hparent, hsub, hrest⟩ := hes
    rw [NitroEntries.dirs] at hdirs hzero
    obtain ⟨hnew, hdirs⟩ := List.nodup_cons.mp hdirs
    obtain ⟨hsubDirs, hrestDirs, -⟩ := List.nodup_append.mp hdirs
    rw [List.mem_cons, List.mem_append, not_or, not_or] at hzero
    obtain ⟨hid0, hsub0, hrest0⟩ := hzero
    have hstep := walkStep_dir (d := d) hname (by omega) hid hbytes (ht.offset id)
    rw [NitroEntries.visits, List.foldlM_cons]
    obtain ⟨t₁, ht₁⟩ : ∃ t₁, t₁ = t.visit (.dir id name (a + 1 + name.length + 2)) := ⟨_, rfl⟩
    have hmain₁ : MainTable rom t₁.fnt := ht₁ ▸ mainTable_visit ht _
    have hwalk := ihsub hsub hsubDirs hsub0 hid hmain₁
    change WalkLaw rom d t a (List.foldlM (tryVisit rom.header.numFiles) _ _)
    rw [List.foldlM_append, ← ht₁]
    rw [← ht₁] at hstep
    cases hfold : (sub.visits rom.subTable id (rom.subTable id)).foldlM
        (tryVisit rom.header.numFiles) t₁ with
    | error e =>
      rw [hfold] at hwalk
      cases e with
      | none => exact fun w hw => hwalk w ((returns_next hstep).mp hw)
      | some t' =>
        obtain ⟨sub', fntID, hend⟩ := hwalk
        exact ⟨sub', fntID, (returns_next hstep).mpr hend⟩
    | ok t₂ =>
      rw [hfold] at hwalk
      obtain ⟨e, hend, he⟩ := hwalk
      have ht₂ := foldlM_tryVisit_ok hfold
      have hmain₂ : MainTable rom t₂.fnt := ht₂ ▸ mainTable_foldl hmain₁ _
      -- the directory has its own place in the table of positions, where the walk goes on
      have hback : t₂.store id = some (a + 1 + name.length + 2) := by
        have hother : id ∉ (sub.visits rom.subTable id (rom.subTable id)).filterMap
            NitroVisit.dirID? := by
          rw [dirs_visits]
          exact fun h => hnew (List.mem_append_left _ h)
        have hapart := visits_apart hother t₁
        rw [ht₂, hapart.1, ht₁]
        exact update_self ..
      have hup : (t₂.fnt id).parentID = dirID d := (hmain₂.parent id (Ne.symm hid0)).trans hparent
      have hstep₂ := walkStep_end (t := t₂) hend (by omega) hid
      rw [hback, hup] at hstep₂
      have hgo := ihrest hrest hrestDirs hrest0 hd hmain₂
      exact walkLaw_of_iff
        (fun w => (returns_next hstep).trans ((he w).trans (returns_next hstep₂))) hgo

end Visits

/-! ### What the visits leave -/

section Names

variable {t : NitroTables} {vs : List NitroVisit} {numFiles : ℕ}

def NitroVisit.file? : NitroVisit → Option (List (BitVec 8) × ℕ)
  | .file name parent => some (name, parent)
  | .dir _ _ _ => none

/-- The files among the visits. -/
def filesOf (vs : List NitroVisit) : List (List (BitVec 8) × ℕ) := vs.filterMap NitroVisit.file?

@[simp] theorem filesOf_file (name : List (BitVec 8)) (parent : ℕ) (vs : List NitroVisit) :
    filesOf (.file name parent :: vs) = (name, parent) :: filesOf vs := rfl

@[simp] theorem filesOf_dir (id : ℕ) (name : List (BitVec 8)) (back : ℕ) (vs : List NitroVisit) :
    filesOf (.dir id name back :: vs) = filesOf vs := rfl

@[simp] theorem filesOf_append (us vs : List NitroVisit) :
    filesOf (us ++ vs) = filesOf us ++ filesOf vs := List.filterMap_append ..

theorem filesOf_visits (subTable firstID : ℕ → ℕ) (d a : ℕ) (path : List (List (BitVec 8))) (j : ℕ)
    (es : NitroEntries) : filesOf (es.visits subTable d a) =
      (es.files firstID d path j).map fun f => (f.name, f.parent) := by
  induction es generalizing d a path j with
  | nil => rfl
  | file name rest ih =>
    rw [NitroEntries.visits, NitroEntries.files, filesOf_file, List.map_cons, ← ih]
  | dir id name sub rest ihsub ihrest =>
    rw [NitroEntries.visits, NitroEntries.files, filesOf_dir, filesOf_append, List.map_append, ← ihsub,
      ← ihrest]

theorem visit_file_count {name : List (BitVec 8)} {parent : ℕ} (h : t.fileCount.toNat < 0xFFFF) :
    (t.visit (.file name parent)).fileCount.toNat = t.fileCount.toNat + 1 := by
  rw [NitroTables.visit, BitVec.toNat_add]
  exact Nat.mod_eq_of_lt (Nat.succ_lt_succ h)

/-- Without files, or with too few of them, all visits are made. -/
theorem foldlM_tryVisit_all (hfew : numFiles ≤ 0xF000)
    (h : filesOf vs = [] ∨ t.fileCount.toNat + (filesOf vs).length < numFiles) :
    vs.foldlM (tryVisit numFiles) t = .ok (vs.foldl NitroTables.visit t) := by
  induction vs generalizing t with
  | nil => rfl
  | cons v vs ih =>
    rw [List.foldlM_cons, List.foldl_cons]
    cases v with
    | file name parent =>
      rw [filesOf_file, List.length_cons] at h
      have hlt := h.resolve_left (List.cons_ne_nil _ _)
      have hcount : (t.visit (.file name parent)).fileCount.toNat = t.fileCount.toNat + 1 :=
        visit_file_count (by omega)
      have hvisit : tryVisit numFiles t (.file name parent) = .ok (t.visit (.file name parent)) :=
        (if_pos (by omega)).trans (if_neg (by omega))
      rw [hvisit]
      exact ih (.inr (by omega))
    | dir id name back => exact ih h

/-- The loop ends at the last file of the file table. -/
theorem foldlM_tryVisit_last (hfew : numFiles ≤ 0xF000) (hlt : t.fileCount.toNat < numFiles)
    (h : numFiles ≤ t.fileCount.toNat + (filesOf vs).length) :
    ∃ us ws, vs = us ++ ws ∧ t.fileCount.toNat + (filesOf us).length = numFiles ∧
      vs.foldlM (tryVisit numFiles) t = .error (some (us.foldl NitroTables.visit t)) := by
  induction vs generalizing t with
  | nil => exact absurd h (Nat.not_le.mpr hlt)
  | cons v vs ih =>
    cases v with
    | file name parent =>
      rw [filesOf_file, List.length_cons] at h
      have hcount : (t.visit (.file name parent)).fileCount.toNat = t.fileCount.toNat + 1 :=
        visit_file_count (by omega)
      by_cases hlast : t.fileCount.toNat + 1 = numFiles
      · have hvisit : tryVisit numFiles t (.file name parent) =
            .error (some (t.visit (.file name parent))) :=
          (if_pos hlt).trans (if_pos (by omega))
        refine ⟨[.file name parent], vs, rfl, hlast, ?_⟩
        rw [List.foldlM_cons, hvisit]
        rfl
      · have hvisit : tryVisit numFiles t (.file name parent) = .ok (t.visit (.file name parent)) :=
          (if_pos hlt).trans (if_neg (by omega))
        obtain ⟨us, ws, rfl, hus, hfold⟩ := ih (t := t.visit (.file name parent)) (by omega) (by omega)
        refine ⟨.file name parent :: us, ws, rfl, ?_, ?_⟩
        · rw [filesOf_file, List.length_cons]
          omega
        · rw [List.foldlM_cons, hvisit]
          exact hfold
    | dir id name back =>
      obtain ⟨us, ws, rfl, hus, hfold⟩ := ih (t := t.visit (.dir id name back)) hlt h
      exact ⟨.dir id name back :: us, ws, rfl, hus, hfold⟩

theorem foldlM_tryVisit_stuck (hge : numFiles ≤ t.fileCount.toNat) (h : filesOf vs ≠ []) :
    vs.foldlM (tryVisit numFiles) t = .error none := by
  induction vs generalizing t with
  | nil => exact absurd rfl h
  | cons v vs ih =>
    rw [List.foldlM_cons]
    cases v with
    | file name parent =>
      have hvisit : tryVisit numFiles t (.file name parent) = .error none :=
        if_neg (Nat.not_lt.mpr hge)
      rw [hvisit]
      rfl
    | dir id name back => exact ih (t := t.visit (.dir id name back)) hge h

theorem fat_apart {i : ℕ} (hcount : t.fileCount.toNat + (filesOf vs).length ≤ 0xFFFF)
    (hi : i < t.fileCount.toNat ∨ t.fileCount.toNat + (filesOf vs).length ≤ i) :
    (vs.foldl NitroTables.visit t).fat i = t.fat i := by
  induction vs generalizing t with
  | nil => rfl
  | cons v vs ih =>
    rw [List.foldl_cons]
    cases v with
    | file name parent =>
      rw [filesOf_file, List.length_cons] at hcount hi
      have hnext : (t.visit (.file name parent)).fileCount.toNat = t.fileCount.toNat + 1 :=
        visit_file_count (by omega)
      rw [ih (by omega) (by omega)]
      exact update_of_ne (by omega) ..
    | dir id name back => exact ih (t := t.visit (.dir id name back)) hcount hi

/-- The `j`-th file of the visits is entered `j` entries behind the first one. -/
theorem fat_foldl {j : ℕ} {name : List (BitVec 8)} {parent : ℕ}
    (hcount : t.fileCount.toNat + (filesOf vs).length ≤ 0xFFFF)
    (hj : (filesOf vs)[j]? = some (name, parent)) :
    (vs.foldl NitroTables.visit t).fat (t.fileCount.toNat + j) =
      { t.fat (t.fileCount.toNat + j) with filename := name, parentID := dirID parent } := by
  induction vs generalizing t j with
  | nil => exact absurd hj nofun
  | cons v vs ih =>
    rw [List.foldl_cons]
    cases v with
    | file name' parent' =>
      rw [filesOf_file, List.length_cons] at hcount
      rw [filesOf_file] at hj
      have hnext : (t.visit (.file name' parent')).fileCount.toNat = t.fileCount.toNat + 1 :=
        visit_file_count (by omega)
      cases j with
      | zero =>
        obtain ⟨rfl, rfl⟩ := Prod.mk.inj (Option.some.inj hj)
        rw [fat_apart (by omega) (.inl (by omega))]
        exact update_self ..
      | succ j =>
        have hgo := ih (t := t.visit (.file name' parent')) (by omega) hj
        have hkept : (t.visit (.file name' parent')).fat (t.fileCount.toNat + (j + 1)) =
            t.fat (t.fileCount.toNat + (j + 1)) := update_of_ne (by omega) ..
        rw [hnext, Nat.add_assoc, Nat.add_comm 1 j, hkept] at hgo
        exact hgo
    | dir id name' back => exact ih (t := t.visit (.dir id name' back)) hcount hj

/-- A directory that is visited has its name. -/
theorem name_foldl {id : ℕ} {name : List (BitVec 8)} {back : ℕ}
    (hdirs : (vs.filterMap NitroVisit.dirID?).Nodup) (h : NitroVisit.dir id name back ∈ vs) :
    ((vs.foldl NitroTables.visit t).fnt id).filename = name := by
  induction vs generalizing t with
  | nil => exact absurd h List.not_mem_nil
  | cons v vs ih =>
    rw [List.foldl_cons]
    rcases List.mem_cons.mp h with rfl | h
    · rw [List.filterMap_cons, NitroVisit.dirID?] at hdirs
      rw [(visits_apart (List.nodup_cons.mp hdirs).1 _).2]
      simp only [NitroTables.visit, update_self]
    · refine ih ?_ h
      cases v with
      | file name' parent => exact hdirs
      | dir id' name' back' => exact (List.nodup_cons.mp hdirs).2

end Names

/-! ### The start of the walk -/

section Start

variable {rom : RomImage} {root : NitroEntries}

theorem foldlM_markOverlay {ovrs : List (BitVec 32 × BitVec 32)} (fat : ℕ → FatNitro)
    (h : ∀ ovr ∈ ovrs, ovr.2.toNat < rom.header.numFiles) :
    ∃ fat', ovrs.foldlM (markOverlay rom) fat = some fat' ∧
      ∀ i, (fat' i).parentID = (fat i).parentID ∧
        ((∀ ovr ∈ ovrs, i ≠ ovr.2.toNat) → fat' i = fat i) := by
  induction ovrs generalizing fat with
  | nil => exact ⟨fat, rfl, fun i => ⟨rfl, fun _ => rfl⟩⟩
  | cons ovr ovrs ih =>
    obtain ⟨hin, hrest⟩ := List.forall_mem_cons.mp h
    obtain ⟨fat₁, hfat₁⟩ : ∃ fat₁, markOverlay rom fat ovr = some fat₁ := ⟨_, if_pos hin⟩
    have hsome := hfat₁
    rw [markOverlay, if_pos hin] at hsome
    obtain rfl := Option.some.inj hsome
    obtain ⟨fat', hfat', hkeep⟩ := ih _ hrest
    refine ⟨fat', ?_, fun i => ?_⟩
    · rw [List.foldlM_cons, hfat₁]
      exact hfat'
    · obtain ⟨hparent, hsame⟩ := hkeep i
      constructor
      · rw [hparent]
        by_cases hi : i = ovr.2.toNat
        · rw [hi, update_self]
        · rw [update_of_ne hi]
      · intro hapart
        obtain ⟨hi, hapart⟩ := List.forall_mem_cons.mp hapart
        rw [hsame hapart, update_of_ne hi]

theorem exists_overlays {off size : BitVec 32} (hin : off.toNat + size.toNat ≤ rom.size.toNat)
    (h : OverlaysApart rom root off size) :
    ∃ ovrs, overlays rom off size = some ovrs ∧
      ∀ ovr ∈ ovrs, ovr.2.toNat < rom.header.numFiles ∧ ∀ f ∈ treeFiles rom root, f.id ≠ ovr.2.toNat := by
  obtain ⟨hwhole, hids⟩ := h
  rw [overlays]
  by_cases hnone : size.toNat / 32 = 0
  · exact ⟨[], if_pos hnone, fun ovr hovr => absurd hovr List.not_mem_nil⟩
  · refine ⟨_, (if_neg hnone).trans (if_pos ⟨hin, by omega⟩), fun ovr hovr => ?_⟩
    obtain ⟨i, hi, rfl⟩ := List.mem_map.mp hovr
    exact hids i (List.mem_range.mp hi)

theorem mainTable_start (rom : RomImage) : MainTable rom (update (fntNitro rom) 0
    { fntNitro rom 0 with filename := delimiter, parentID := 0xF000 }) := by
  refine ⟨fun d => ?_, fun d hd => ?_, ?_⟩
  · by_cases hd : d = 0
    · rw [hd, update_self]
    · rw [update_of_ne hd]
  · rw [update_of_ne hd]
  · rw [update_self]
    rfl

/-- The state of the loop before its first round. -/
structure StartLaw (rom : RomImage) (root : NitroEntries) (t : NitroTables) : Prop where
  fileCount : t.fileCount.toNat = rom.firstID 0
  parent : ∀ i, (t.fat i).parentID = 0
  named : ∀ f ∈ treeFiles rom root, (t.fat f.id).isOverlay = false
  main : MainTable rom t.fnt
  store : t.store 0 = none

theorem exists_startWalk (h : HoldsTree rom root) :
    ∃ t, startWalk rom rom.numDirs = some (t.walk (some (rom.subTable 0)) (dirID 0)) ∧
      StartLaw rom root t := by
  obtain ⟨ovr9, hovr9, hids9⟩ := exists_overlays h.inside.overlays9 h.overlays9
  obtain ⟨ovr7, hovr7, hids7⟩ := exists_overlays h.inside.overlays7 h.overlays7
  obtain ⟨fat₁, hfat₁, hkeep₁⟩ := foldlM_markOverlay (fatNitro rom) fun o ho => (hids9 o ho).1
  obtain ⟨fat₂, hfat₂, hkeep₂⟩ := foldlM_markOverlay fat₁ fun o ho => (hids7 o ho).1
  have hfiles := h.inside.files
  have hrecords : ¬ rom.size.toNat < rom.header.fatOff.toNat + 8 * rom.header.numFiles := by
    rw [NitroHeader.numFiles]
    omega
  have hmain : ¬ rom.size.toNat < rom.header.fNameTblOff.toNat + 8 * rom.numDirs :=
    Nat.not_lt.mpr h.mainTable
  refine ⟨⟨(fntNitro rom 0).firstID, fat₂, update (fntNitro rom) 0 { fntNitro rom 0 with
    filename := delimiter, parentID := 0xF000 }, fun _ => none⟩, ?_, ?_⟩
  · simp only [startWalk, if_neg hrecords, if_neg hmain, hovr9, hovr7, hfat₁, hfat₂,
      Option.bind_eq_bind, Option.bind_some]
    rfl
  · refine ⟨rfl, fun i => ?_, fun f hf => ?_, mainTable_start rom, rfl⟩
    · exact (hkeep₂ i).1.trans (hkeep₁ i).1
    · have hsame₂ := (hkeep₂ f.id).2 fun o ho => (hids7 o ho).2 f hf
      have hsame₁ := (hkeep₁ f.id).2 fun o ho => (hids9 o ho).2 f hf
      change (fat₂ f.id).isOverlay = false
      rw [hsame₂, hsame₁]
      rfl

/-- The constructor loads the tables, and ends as the loop does. -/
theorem constructs_iff (h : HoldsTree rom root) {t : NitroTables}
    (ht : startWalk rom rom.numDirs = some (t.walk (some (rom.subTable 0)) (dirID 0)))
    (fs : FsNitro) : Constructs rom fs ↔
      ∃ w, Returns (walkStep rom rom.numDirs) (t.walk (some (rom.subTable 0)) (dirID 0)) w ∧
        fs = withTables rom rom.numDirs w := by
  have hsize : ¬ rom.size.toNat < 0x60 := Nat.not_lt.mpr h.inside.header
  have hsome := h.someFiles
  have hearly : ¬ (rom.header.fNameTblOff < 0x8000 ∨ rom.header.fatOff < 0x8000 ∨
      rom.header.fatSize = 0) := by
    rintro (hoff | hoff | hzero)
    · exact BitVec.not_le.mpr hoff h.namesOff
    · exact BitVec.not_le.mpr hoff h.fatOff
    · rw [NitroHeader.numFiles, hzero] at hsome
      exact absurd hsome (by decide)
  have hdirs := h.someDirs
  have hread : rom.read 2 (rom.header.fNameTblOff.toNat + 6) = some (fntNitro rom 0).parentID := by
    have hmain := h.mainTable
    exact if_pos (by omega)
  have hnone : ¬ (rom.header.numFiles = 0 ∨ (fntNitro rom 0).parentID = 0) := by
    rintro (hzero | hzero)
    · omega
    · rw [RomImage.numDirs, hzero] at hdirs
      exact absurd hdirs (by decide)
  have hload (rounds : ℕ) : fsNitro rom rounds =
      (runRounds (walkStep rom rom.numDirs) rounds (t.walk (some (rom.subTable 0)) (dirID 0))).map
        (withTables rom rom.numDirs) := by
    simp only [fsNitro, if_neg hsize, if_neg hearly, hread, if_neg hnone, Option.bind_eq_bind,
      Option.bind_some, loadFileTables]
    change (startWalk rom rom.numDirs).bind _ = _
    rw [ht, Option.bind_some, Option.map_eq_bind]
    rfl
  constructor
  · rintro ⟨rounds, hfs⟩
    rw [hload] at hfs
    obtain ⟨w, hw, rfl⟩ := Option.map_eq_some_iff.mp hfs
    exact ⟨w, ⟨rounds, hw⟩, rfl⟩
  · rintro ⟨w, ⟨rounds, hw⟩, rfl⟩
    refine ⟨rounds, ?_⟩
    rw [hload, hw]
    rfl

end Start

/-! ### The end of the walk -/

section Finish

variable {rom : RomImage} {root : NitroEntries}

theorem parent_lt {firstID : ℕ → ℕ} {es : NitroEntries} {d a j : ℕ} {path : List (List (BitVec 8))}
    (hes : Encodes rom d a es) (hd : d < rom.numDirs) :
    ∀ f ∈ es.files firstID d path j, f.parent < rom.numDirs := by
  induction es generalizing d a j path with
  | nil => exact fun f hf => absurd hf List.not_mem_nil
  | file name rest ih =>
    intro f hf
    rcases List.mem_cons.mp hf with rfl | hf
    · exact hd
    · exact ih hes.2.2 hd f hf
  | dir id name sub rest ihsub ihrest =>
    obtain ⟨-, -, hid, -, hsub, hrest⟩ := hes
    intro f hf
    rcases List.mem_append.mp hf with hf | hf
    · exact ihsub hsub hid f hf
    · exact ihrest hrest hd f hf

def treeVisits (rom : RomImage) (root : NitroEntries) : List NitroVisit :=
  root.visits rom.subTable 0 (rom.subTable 0)

theorem filesOf_treeVisits (rom : RomImage) (root : NitroEntries) :
    filesOf (treeVisits rom root) = (treeFiles rom root).map fun f => (f.name, f.parent) :=
  filesOf_visits ..

/-- The root has no directory to go back to, and the walk falls off its end. -/
theorem not_returns_whole (h : HoldsTree rom root) {t : NitroTables} (ht : StartLaw rom root t)
    (hfold : (treeVisits rom root).foldlM (tryVisit rom.header.numFiles) t =
      .ok ((treeVisits rom root).foldl NitroTables.visit t)) (w : NitroWalk) :
    ¬ Returns (walkStep rom rom.numDirs) (t.walk (some (rom.subTable 0)) (dirID 0)) w := by
  obtain ⟨hzero, hdirs⟩ := List.nodup_cons.mp h.dirIDs
  have hwalk := walk_visits h.fewDirs h.entries hdirs hzero h.someDirs ht.main
  change WalkLaw rom 0 t _ ((treeVisits rom root).foldlM _ t) at hwalk
  rw [hfold] at hwalk
  obtain ⟨e, hend, he⟩ := hwalk
  have hstore : ((treeVisits rom root).foldl NitroTables.visit t).store 0 = none := by
    rw [(visits_apart (by rw [treeVisits, dirs_visits]; exact hzero) t).1, ht.store]
  have hstep := walkStep_end (t := (treeVisits rom root).foldl NitroTables.visit t) hend
    (by decide) h.someDirs
  rw [hstore] at hstep
  intro hw
  exact not_returns rfl ((returns_next hstep).mp ((he w).mp hw))

/-- The file table ends before the tree does, or with it. -/
def EndsInTree (rom : RomImage) (root : NitroEntries) : Prop :=
  rom.firstID 0 < rom.header.numFiles ∧
    rom.header.numFiles ≤ rom.firstID 0 + (filesOf (treeVisits rom root)).length

theorem not_returns_of_short (h : HoldsTree rom root) {t : NitroTables} (ht : StartLaw rom root t)
    (hshort : ¬ EndsInTree rom root) (w : NitroWalk) :
    ¬ Returns (walkStep rom rom.numDirs) (t.walk (some (rom.subTable 0)) (dirID 0)) w := by
  have hcount := ht.fileCount
  by_cases hall : filesOf (treeVisits rom root) = [] ∨
      t.fileCount.toNat + (filesOf (treeVisits rom root)).length < rom.header.numFiles
  · exact not_returns_whole h ht (foldlM_tryVisit_all h.fewFiles hall) w
  · obtain ⟨hzero, hdirs⟩ := List.nodup_cons.mp h.dirIDs
    have hwalk := walk_visits h.fewDirs h.entries hdirs hzero h.someDirs ht.main
    change WalkLaw rom 0 t _ ((treeVisits rom root).foldlM _ t) at hwalk
    rw [not_or] at hall
    rw [EndsInTree] at hshort
    rw [foldlM_tryVisit_stuck (by omega) hall.1] at hwalk
    exact hwalk w

theorem exists_returns (h : HoldsTree rom root) {t : NitroTables} (ht : StartLaw rom root t)
    (hends : EndsInTree rom root) : ∃ us ws sub fntID, treeVisits rom root = us ++ ws ∧
      rom.firstID 0 + (filesOf us).length = rom.header.numFiles ∧
      Returns (walkStep rom rom.numDirs) (t.walk (some (rom.subTable 0)) (dirID 0))
        ((us.foldl NitroTables.visit t).walk sub fntID) := by
  obtain ⟨hlt, hmany⟩ := hends
  obtain ⟨hzero, hdirs⟩ := List.nodup_cons.mp h.dirIDs
  have hwalk := walk_visits h.fewDirs h.entries hdirs hzero h.someDirs ht.main
  change WalkLaw rom 0 t _ ((treeVisits rom root).foldlM _ t) at hwalk
  rw [← ht.fileCount] at hlt hmany ⊢
  obtain ⟨us, ws, hsplit, hus, hfold⟩ := foldlM_tryVisit_last h.fewFiles hlt hmany
  rw [hfold] at hwalk
  obtain ⟨sub, fntID, hend⟩ := hwalk
  exact ⟨us, ws, sub, fntID, hsplit, hus, hend⟩

end Finish

/-! ### Paths -/

section Paths

variable {rom : RomImage} (fs : FsNitro)

theorem climb_files {firstID : ℕ → ℕ} {es : NitroEntries} {d a j : ℕ}
    {path : List (List (BitVec 8))} (hes : Encodes rom d a es) (hfew : rom.numDirs ≤ 0x1000)
    (hzero : 0 ∉ es.dirs) (hd : d < rom.numDirs) (hfs : fs.numDirs = rom.numDirs)
    (hmain : MainTable rom fs.fnt)
    (hname : ∀ id name back fname parent, [.dir id name back, .file fname parent].Sublist
      (es.visits rom.subTable d a) → (fs.fnt id).filename = name)
    (hpath : ∀ res, Returns (climbStep fs) (res, d) (path.flatMap (· ++ delimiter) ++ res)) :
    ∀ f ∈ es.files firstID d path j, ∀ res,
      Returns (climbStep fs) (res, f.parent) (f.path.flatMap (· ++ delimiter) ++ res) := by
  induction es generalizing d a j path with
  | nil => exact fun f hf => absurd hf List.not_mem_nil
  | file name rest ih =>
    intro f hf
    rcases List.mem_cons.mp hf with rfl | hf
    · exact hpath
    · exact ih hes.2.2 hzero hd
        (fun id name back fname parent h => hname id name back fname parent (h.cons _)) hpath f hf
  | dir id name sub rest ihsub ihrest =>
    obtain ⟨-, -, hid, hparent, hsub, hrest⟩ := hes
    rw [NitroEntries.dirs, List.mem_cons, List.mem_append, not_or, not_or] at hzero
    obtain ⟨hid0, hsub0, hrest0⟩ := hzero
    rw [NitroEntries.visits] at hname
    intro f hf
    rcases List.mem_append.mp hf with hf | hf
    · have hvisit : ∃ v ∈ sub.visits rom.subTable id (rom.subTable id), v.file? = some (f.name, f.parent) := by
        have hmem : (f.name, f.parent) ∈ filesOf (sub.visits rom.subTable id (rom.subTable id)) := by
          rw [filesOf_visits rom.subTable firstID id _ (path ++ [name]) 0]
          exact List.mem_map.mpr ⟨f, hf, rfl⟩
        exact List.mem_filterMap.mp hmem
      obtain ⟨v, hv, hfile⟩ := hvisit
      cases v with
      | dir id' name' back' => exact absurd hfile nofun
      | file fname parent =>
        have hnamed := hname id name _ fname parent
          (((List.singleton_sublist.mpr hv).trans (List.sublist_append_left ..)).cons_cons _)
        refine ihsub hsub hsub0 hid (fun id' name' back' fname' parent' h =>
          hname id' name' back' fname' parent' ((h.trans (List.sublist_append_left ..)).cons _))
          (fun res => ?_) f hf
        have hup : climbStep fs (res, id) = _ := climbStep_up res (Ne.symm hid0) (by omega)
        rw [hnamed, FsNitro.above, hmain.parent id (Ne.symm hid0), hparent,
          dirIndex_dirID (by omega)] at hup
        rw [returns_next hup, List.flatMap_append, List.flatMap_singleton]
        simpa only [List.append_assoc] using hpath (name ++ delimiter ++ res)
    · exact ihrest hrest hrest0 hd (fun id' name' back' fname' parent' h =>
        hname id' name' back' fname' parent' ((h.trans (List.sublist_append_right ..)).cons _))
        hpath f hf

end Paths

/-! ### The names -/

section Law

variable {rom : RomImage} {root : NitroEntries}

/-- An entry of the file table with a parent is that of a visited file. -/
theorem exists_visited {t : NitroTables} {us : List NitroVisit} (ht : StartLaw rom root t)
    (hcount : rom.firstID 0 + (filesOf us).length ≤ 0xFFFF) {i d : ℕ} (hd : d < 0x1000)
    (hparent : ((us.foldl NitroTables.visit t).fat i).parentID = dirID d) :
    ∃ k name parent, i = rom.firstID 0 + k ∧ (filesOf us)[k]? = some (name, parent) := by
  rw [← ht.fileCount] at hcount ⊢
  by_cases hin : t.fileCount.toNat ≤ i ∧ i < t.fileCount.toNat + (filesOf us).length
  · have hk : i - t.fileCount.toNat < (filesOf us).length := by omega
    exact ⟨i - t.fileCount.toNat, _, _, by omega, List.getElem?_eq_getElem hk⟩
  · rw [fat_apart hcount (by omega), ht.parent] at hparent
    have hzero := congrArg BitVec.toNat hparent
    rw [dirID_toNat hd] at hzero
    change 0 = 0xF000 + d at hzero
    omega

theorem consecutive_of_names (h : HoldsTree rom root) (hlaw : NamesLaw rom root) :
    Consecutive rom root := by
  obtain ⟨fs, hfs, hnamed⟩ := hlaw
  obtain ⟨t, hstart, ht⟩ := exists_startWalk h
  obtain ⟨w, hw, rfl⟩ := (constructs_iff h hstart fs).mp hfs
  have hends : EndsInTree rom root := not_not.mp fun hshort => not_returns_of_short h ht hshort w hw
  obtain ⟨us, ws, sub, fntID, hsplit, hus, hend⟩ := exists_returns h ht hends
  obtain rfl := hw.unique hend
  have hlt := hends.1
  have hfew := h.fewFiles
  have hdirs := h.fewDirs
  have hlen : (treeFiles rom root).length = (filesOf us).length + (filesOf ws).length := by
    rw [← List.length_append, ← filesOf_append, ← hsplit, filesOf_treeVisits, List.length_map]
  have hcount : rom.firstID 0 + (filesOf us).length ≤ 0xFFFF := by omega
  -- a file is found where the walk has put it
  have hids (k : ℕ) (hk : k < (treeFiles rom root).length) :
      (treeFiles rom root)[k].id = rom.firstID 0 + k ∧ k < (filesOf us).length := by
    have hmem : (treeFiles rom root)[k] ∈ treeFiles rom root := List.getElem_mem hk
    have hf := hnamed _ hmem
    have hparent : (treeFiles rom root)[k].parent < rom.numDirs :=
      parent_lt h.entries h.someDirs _ hmem
    obtain ⟨i, name, parent, hid, hi⟩ := exists_visited ht hcount (by omega) hf.parent
    have hentry := fat_foldl (t := t) (by rw [ht.fileCount]; exact hcount) hi
    rw [ht.fileCount, ← hid] at hentry
    have hname : name = (treeFiles rom root)[k].name := by
      rw [← hf.filename]
      exact (congrArg FatNitro.filename hentry).symm
    have hi' : i < (filesOf us).length := (List.getElem?_eq_some_iff.mp hi).1
    have hall : (filesOf us ++ filesOf ws)[i]? = some (name, parent) := by
      rwa [List.getElem?_append_left hi']
    rw [← filesOf_append, ← hsplit, filesOf_treeVisits] at hall
    obtain ⟨hi₂, hget⟩ := List.getElem?_eq_some_iff.mp hall
    rw [List.getElem_map] at hget
    obtain ⟨hname₂, hparent₂⟩ := Prod.mk.inj hget
    rw [List.length_map] at hi₂
    have hdir : parent = (treeFiles rom root)[k].parent := by
      have hbits : dirID parent = dirID (treeFiles rom root)[k].parent := by
        rw [← hf.parent]
        exact (congrArg FatNitro.parentID hentry).symm
      have hlt₂ : parent < rom.numDirs :=
        hparent₂ ▸ parent_lt h.entries h.someDirs _ (List.getElem_mem hi₂)
      rw [← dirIndex_dirID (show parent < 0x1000 by omega), hbits, dirIndex_dirID (by omega)]
    have hik : i = k := by
      refine (List.getElem?_inj (by rwa [List.length_map]) h.names).mp ?_
      rw [List.getElem?_map, List.getElem?_map, List.getElem?_eq_getElem hi₂,
        List.getElem?_eq_getElem hk, Option.map_some, Option.map_some, hname₂, hparent₂, hname, hdir]
    exact ⟨hik ▸ hid, hik ▸ hi'⟩
  have hlast : (treeFiles rom root).length = rom.header.numFiles - rom.firstID 0 := by
    have hlastID := hids ((treeFiles rom root).length - 1) (by omega)
    omega
  refine ⟨List.length_pos_iff.mp (by omega), List.ext_getElem ?_ fun k hk _ => ?_⟩
  · rw [List.length_map, List.length_range', hlast]
  · rw [List.length_map] at hk
    rw [List.getElem_map, List.getElem_range', Nat.one_mul]
    exact (hids k hk).1

/-- The path of a file, from what the tables have for it and for the directories above it. -/
theorem getFullPath_of_returns {fs : FsNitro} {f : NitroFile} (hinited : fs.inited = true)
    (hfew : fs.numFiles ≤ 0xF000) (hin : f.id < fs.numFiles) (hname : (fs.fat f.id).filename = f.name)
    (hoverlay : (fs.fat f.id).isOverlay = false)
    (hpath : Returns (climbStep fs) ([], dirIndex (fs.fat f.id).parentID)
      (f.path.flatMap (· ++ delimiter))) (addRoot : Bool) :
    ∃ rounds, getFullPathByFileID fs (BitVec.ofNat 16 f.id) addRoot rounds =
      some (rootFolder addRoot ['d', 'a', 't', 'a'] ++ f.path.flatMap (· ++ delimiter) ++ f.name) := by
  obtain ⟨rounds, hrounds⟩ := hpath
  have hid : (BitVec.ofNat 16 f.id).toNat = f.id := by
    rw [BitVec.toNat_ofNat, Nat.mod_eq_of_lt (by omega)]
  have hopen : ¬ fs.inited = false := by
    rw [hinited]
    decide
  have hat : fs.fatAt f.id = some (fs.fat f.id) := if_pos hin
  have hplain : ¬ (fs.fat f.id).isOverlay = true := by
    rw [hoverlay]
    decide
  refine ⟨rounds, ?_⟩
  rw [getFullPathByFileID, if_neg hopen, hid, if_neg (Nat.lt_asymm hin), hat, Option.bind_some, filePath,
    if_neg hplain, hrounds, hname]
  rfl

theorem names_of_consecutive (h : HoldsTree rom root) (hseq : Consecutive rom root) :
    NamesLaw rom root := by
  obtain ⟨hsome, hids⟩ := hseq
  obtain ⟨t, hstart, ht⟩ := exists_startWalk h
  have hpos := List.length_pos_iff.mpr hsome
  have hlen := congrArg List.length hids
  rw [List.length_map, List.length_range'] at hlen
  have hfiles := congrArg List.length (filesOf_treeVisits rom root)
  rw [List.length_map] at hfiles
  have hfew := h.fewFiles
  have hdirs := h.fewDirs
  obtain ⟨us, ws, sub, fntID, hsplit, hus, hend⟩ :=
    exists_returns h ht ⟨by omega, by omega⟩
  have hnone : filesOf ws = [] := by
    rw [hsplit, filesOf_append, List.length_append] at hfiles
    exact List.length_eq_zero_iff.mp (by omega)
  have husFiles : filesOf us = (treeFiles rom root).map fun f => (f.name, f.parent) := by
    rw [← filesOf_treeVisits, hsplit, filesOf_append, hnone, List.append_nil]
  have hmain := mainTable_foldl ht.main us
  have hvisited : ((us ++ ws).filterMap NitroVisit.dirID?).Nodup := by
    rw [← hsplit, treeVisits, dirs_visits]
    exact (List.nodup_cons.mp h.dirIDs).2
  rw [List.filterMap_append] at hvisited
  refine ⟨_, (constructs_iff h hstart _).mpr ⟨_, hend, rfl⟩, fun f hf => ?_⟩
  obtain ⟨k, hk, rfl⟩ := List.getElem_of_mem hf
  have hid : (treeFiles rom root)[k].id = rom.firstID 0 + k := by
    have hget := List.getElem_of_eq hids (by rwa [List.length_map])
    rwa [List.getElem_map, List.getElem_range', Nat.one_mul] at hget
  have hat : (filesOf us)[k]? = some ((treeFiles rom root)[k].name, (treeFiles rom root)[k].parent) := by
    rw [husFiles, List.getElem?_map, List.getElem?_eq_getElem hk]
    rfl
  have hentry := fat_foldl (t := t) (by rw [ht.fileCount]; omega) hat
  rw [ht.fileCount, ← hid] at hentry
  have hparentLt := parent_lt h.entries h.someDirs _ hf
  have habove (id : ℕ) (name : List (BitVec 8)) (back : ℕ) (fname : List (BitVec 8)) (parent : ℕ)
      (hsub : [.dir id name back, .file fname parent].Sublist (treeVisits rom root)) :
      ((us.foldl NitroTables.visit t).fnt id).filename = name := by
    -- a directory above a file is visited before the walk ends
    rw [hsplit] at hsub
    obtain ⟨l₁, l₂, hl, hl₁, hl₂⟩ := List.sublist_append_iff.mp hsub
    cases l₁ with
    | nil =>
      obtain rfl := hl
      have hfile : (fname, parent) ∈ filesOf ws := List.mem_filterMap.mpr
        ⟨_, hl₂.subset (List.mem_cons_of_mem _ List.mem_cons_self), rfl⟩
      rw [hnone] at hfile
      exact absurd hfile List.not_mem_nil
    | cons v l₁ =>
      obtain ⟨rfl, -⟩ := List.cons.inj hl
      exact name_foldl (List.nodup_append.mp hvisited).1 (hl₁.subset List.mem_cons_self)
  have hclimb := climb_files
    (withTables rom rom.numDirs ((us.foldl NitroTables.visit t).walk sub fntID)) h.entries h.fewDirs
    (List.nodup_cons.mp h.dirIDs).1 h.someDirs rfl hmain habove (fun res => returns_root res) _ hf []
  rw [List.append_nil] at hclimb
  have hlt : (treeFiles rom root)[k].id < rom.header.numFiles := by omega
  have hname : ((us.foldl NitroTables.visit t).fat (treeFiles rom root)[k].id).filename =
      (treeFiles rom root)[k].name := by rw [hentry]
  have hparent : ((us.foldl NitroTables.visit t).fat (treeFiles rom root)[k].id).parentID =
      dirID (treeFiles rom root)[k].parent := by rw [hentry]
  have hoverlay : ((us.foldl NitroTables.visit t).fat (treeFiles rom root)[k].id).isOverlay = false := by
    rw [hentry]
    exact ht.named _ hf
  refine ⟨hlt, hname, hparent, getFullPath_of_returns rfl hfew hlt hname hoverlay ?_⟩
  change Returns _ ([], dirIndex ((us.foldl NitroTables.visit t).fat _).parentID) _
  rw [hparent, dirIndex_dirID (by omega)]
  exact hclimb

theorem names_iff (rom : RomImage) (root : NitroEntries) (h : HoldsTree rom root) :
    NamesLaw rom root ↔ Consecutive rom root :=
  ⟨consecutive_of_names h, names_of_consecutive h⟩

/-- An image with a file "a" and a directory "d" in the root, and a file "b" in the directory. -/
def twoFiles (entries : List (BitVec 8)) : RomImage where
  size := 0x8030
  byte a := if a < 0x8000
    then (List.lookup a [(0x41, 0x80), (0x44, 0x1A), (0x48, 0x20), (0x49, 0x80), (0x4C, 0x10)]).getD 0
    else List.getD ([0x10, 0, 0, 0, 0, 0, 2, 0, 0x17, 0, 0, 0, 1, 0, 0, 0xF0] ++ entries ++
      [1, 0x62, 0]) (a - 0x8000) 0

theorem nameOk_letter {c : BitVec 8} (hc : c ≠ 0#8) : NameOk [c] :=
  ⟨Nat.one_pos, show 1 < 0x80 by decide, fun _ hmem => List.mem_singleton.mp hmem ▸ hc⟩

/-- The root has the file before the directory. -/
def fileFirst : NitroEntries := .file [0x61] (.dir 1 [0x64] (.file [0x62] .nil) .nil)

theorem holdsTree_fileFirst :
    HoldsTree (twoFiles [1, 0x61, 0x81, 0x64, 1, 0xF0, 0]) fileFirst where
  inside := by constructor <;> decide
  namesOff := by decide
  fatOff := by decide
  someFiles := by decide
  fewFiles := by decide
  someDirs := by decide
  fewDirs := by decide
  mainTable := by decide
  entries := ⟨nameOk_letter (by decide), ⟨by decide, by decide⟩, nameOk_letter (by decide),
    ⟨by decide, by decide⟩, by decide, by decide,
    ⟨nameOk_letter (by decide), ⟨by decide, by decide⟩, ⟨by decide, by decide⟩⟩, ⟨by decide, by decide⟩⟩
  dirIDs := by decide
  names := by decide
  overlays9 := ⟨by decide, fun i hi => absurd hi (Nat.not_lt_zero i)⟩
  overlays7 := ⟨by decide, fun i hi => absurd hi (Nat.not_lt_zero i)⟩

theorem names_fileFirst : NamesLaw (twoFiles [1, 0x61, 0x81, 0x64, 1, 0xF0, 0]) fileFirst :=
  (names_iff _ fileFirst holdsTree_fileFirst).mpr (by decide)

/-- The root has the directory before the file: its file is the one with the first id, but the walk
meets the other one first. -/
def dirFirst : NitroEntries := .dir 1 [0x64] (.file [0x62] .nil) (.file [0x61] .nil)

theorem holdsTree_dirFirst :
    HoldsTree (twoFiles [0x81, 0x64, 1, 0xF0, 1, 0x61, 0]) dirFirst where
  inside := by constructor <;> decide
  namesOff := by decide
  fatOff := by decide
  someFiles := by decide
  fewFiles := by decide
  someDirs := by decide
  fewDirs := by decide
  mainTable := by decide
  entries := ⟨nameOk_letter (by decide), ⟨by decide, by decide⟩, by decide, by decide,
    ⟨nameOk_letter (by decide), ⟨by decide, by decide⟩, ⟨by decide, by decide⟩⟩,
    nameOk_letter (by decide), ⟨by decide, by decide⟩, ⟨by decide, by decide⟩⟩
  dirIDs := by decide
  names := by decide
  overlays9 := ⟨by decide, fun i hi => absurd hi (Nat.not_lt_zero i)⟩
  overlays7 := ⟨by decide, fun i hi => absurd hi (Nat.not_lt_zero i)⟩

theorem dirFirst_misnamed : HoldsTree (twoFiles [0x81, 0x64, 1, 0xF0, 1, 0x61, 0]) dirFirst ∧
    ((fsNitro (twoFiles [0x81, 0x64, 1, 0xF0, 1, 0x61, 0]) 4).bind fun fs =>
      getFileNameByID fs 0) = some [0x62] ∧
    ¬ NamesLaw (twoFiles [0x81, 0x64, 1, 0xF0, 1, 0x61, 0]) dirFirst :=
  ⟨holdsTree_dirFirst, by decide, fun hlaw =>
    absurd (consecutive_of_names holdsTree_dirFirst hlaw) (by decide)⟩

end Law

end Desmume.Card
